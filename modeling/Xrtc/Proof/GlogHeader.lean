import Mathlib.Data.Nat.Digits.Defs
import Xrtc.Go.GlogHeader

/-!
# The header of a log line, written in place
-/

namespace Xrtc.Proof.GlogHeader
open Go.Glog
open Go (Str)
open Lib.Printf (text)

/-! ## Writing over a part of a list -/

section Overlay

variable {α : Type}

def overlay (tmp : List α) (i : Nat) (part : List α) : List α := tmp.take i ++ part ++ tmp.drop (i + part.length)

theorem overlay_nil (tmp : List α) (i : Nat) : overlay tmp i [] = tmp := by simp [overlay]

theorem length_overlay {tmp part : List α} {i : Nat} (fits : i + part.length ≤ tmp.length) :
    (overlay tmp i part).length = tmp.length := by
  simp only [overlay, List.length_append, List.length_take, List.length_drop]
  omega

theorem take_overlay {tmp part : List α} {i : Nat} (fits : i ≤ tmp.length) :
    (overlay tmp i part).take (i + part.length) = tmp.take i ++ part := by
  have front : (tmp.take i ++ part).length = i + part.length := by
    rw [List.length_append, List.length_take, Nat.min_eq_left fits]
  rw [overlay, ← front, List.take_left]

theorem overlay_set {tmp : List α} {i : Nat} (part : List α) (b : α) (fits : i + part.length < tmp.length) :
    overlay (tmp.set (i + part.length) b) i part = overlay tmp i (part ++ [b]) := by
  rw [overlay, overlay, List.take_set, List.set_eq_of_length_le (by rw [List.length_take]; omega),
    List.drop_set, if_neg (Nat.lt_irrefl _), Nat.sub_self, List.drop_eq_getElem_cons fits, List.set_cons_zero]
  simp [Nat.add_assoc]

theorem set_overlay {tmp : List α} {i : Nat} (b : α) (fits : i < tmp.length) : tmp.set i b = overlay tmp i [b] := by
  have whole := overlay_set [] b fits
  rwa [overlay_nil] at whole

end Overlay

/-! ## Numbers -/

def decimal (d : Nat) : Str := if d = 0 then [0x30] else ((Nat.digits 10 d).map digit).reverse

theorem decimal_small {d : Nat} (small : d < 10) : decimal d = [digit d] := by
  rw [decimal]
  split
  · next zero => subst zero; rfl
  · next positive => rw [Nat.digits_of_lt 10 d positive small]; rfl

theorem decimal_step {d : Nat} (large : 10 ≤ d) : decimal d = decimal (d / 10) ++ [digit d] := by
  have positive : 0 < d / 10 := Nat.div_pos large (by decide)
  have last : digit (d % 10) = digit d := by rw [digit, digit, Nat.mod_mod]
  rw [decimal, if_neg (by omega), decimal, if_neg (by omega), Nat.digits_def' (by decide) (by omega), List.map_cons,
    List.reverse_cons, last]

theorem rest_small {n d : Nat} (small : d < 10 ^ (n + 1)) (large : 10 ≤ d) : 0 < n ∧ d / 10 < 10 ^ n := by
  have less : d / 10 < 10 ^ n := Nat.div_lt_of_lt_mul (by rw [← Nat.pow_succ']; exact small)
  refine ⟨Nat.pos_of_ne_zero fun zero => ?_, less⟩
  rw [zero] at small
  exact absurd small (Nat.not_lt.mpr large)

theorem decimal_length {n d : Nat} (positive : 0 < n) (small : d < 10 ^ n) : (decimal d).length ≤ n := by
  induction n generalizing d with
  | zero => cases positive
  | succ n ih =>
      by_cases single : d < 10
      · rw [decimal_small single]
        exact Nat.succ_le_succ (Nat.zero_le _)
      · obtain ⟨more, less⟩ := rest_small small (Nat.not_lt.mp single)
        rw [decimal_step (Nat.not_lt.mp single), List.length_append]
        exact Nat.succ_le_succ (ih more less)

def padded (n : Nat) (pad : UInt8) (d : Nat) : Str := List.replicate (n - (decimal d).length) pad ++ decimal d

theorem padLoop_overlay {tmp : Str} {i j : Nat} (pad : UInt8) (fits : i + j ≤ tmp.length) :
    padLoop i pad j tmp = overlay tmp i (List.replicate j pad) := by
  induction j generalizing tmp with
  | zero => exact (overlay_nil tmp i).symm
  | succ j ih =>
      have inside : i + (List.replicate j pad).length < tmp.length := by rw [List.length_replicate]; omega
      have last := overlay_set _ pad inside
      rw [List.length_replicate] at last
      rw [padLoop, ih (by rw [List.length_set]; omega), last, ← List.replicate_succ']

/-- What `nDigits` writes, digit by digit from the right. -/
def field (pad : UInt8) : (n d : Nat) → Str
  | 0, _ => []
  | n + 1, d => if 0 < d then field pad n (d / 10) ++ [digit d] else List.replicate (n + 1) pad

theorem field_length (pad : UInt8) (n d : Nat) : (field pad n d).length = n := by
  induction n generalizing d with
  | zero => rfl
  | succ n ih =>
      rw [field]
      split
      · rw [List.length_append, ih]; rfl
      · exact List.length_replicate

theorem nDigits_overlay {tmp : Str} {n i : Nat} (d : Nat) (pad : UInt8) (fits : i + n ≤ tmp.length) :
    nDigits tmp n i d pad = overlay tmp i (field pad n d) := by
  rw [nDigits]
  induction n generalizing tmp d with
  | zero => exact (overlay_nil tmp i).symm
  | succ n ih =>
      rw [digitLoop, field]
      by_cases positive : 0 < d
      · have inside : i + (field pad n (d / 10)).length < tmp.length := by rw [field_length]; omega
        have last := overlay_set _ (digit d) inside
        rw [field_length] at last
        rw [if_pos positive, if_pos positive, ← last]
        exact ih (d / 10) (by rw [List.length_set]; omega)
      · rw [if_neg positive, if_neg positive]
        exact padLoop_overlay pad fits

theorem field_padded {pad : UInt8} {n d : Nat} (width : 0 < n) (small : d < 10 ^ n) (visible : 0 < d ∨ pad = 0x30) :
    field pad n d = padded n pad d := by
  induction n generalizing d with
  | zero => cases width
  | succ n ih =>
      rw [field]
      split
      · next positive =>
          by_cases single : d < 10
          · have blank : field pad n (d / 10) = List.replicate n pad := by
              rw [Nat.div_eq_of_lt single]
              cases n <;> rfl
            rw [blank, padded, decimal_small single]
            rfl
          · have large := Nat.not_lt.mp single
            obtain ⟨more, less⟩ := rest_small small large
            rw [ih more less (.inl (Nat.div_pos large (by decide))), padded, padded, decimal_step large,
              List.length_append, List.length_singleton, Nat.add_sub_add_right, List.append_assoc]
      · next zero =>
          have none : d = 0 := by omega
          obtain rfl : pad = 0x30 := visible.resolve_left zero
          subst none
          exact List.replicate_succ'

theorem twoDigits_overlay {tmp : Str} {i d : Nat} (fits : i + 2 ≤ tmp.length) (small : d < 100) :
    twoDigits tmp i d = overlay tmp i (padded 2 0x30 d) := by
  have shown : padded 2 0x30 d = [digit (d / 10), digit d] := by
    by_cases single : d < 10
    · rw [padded, decimal_small single, Nat.div_eq_of_lt single]
      rfl
    · rw [padded, decimal_step (Nat.not_lt.mp single), decimal_small (by omega)]
      rfl
  rw [twoDigits, shown, set_overlay _ (by rw [List.length_set]; omega)]
  exact overlay_set [digit (d / 10)] (digit d) (by rw [List.length_singleton]; omega)

theorem topLoop_overlay {tmp : Str} {j d : Nat} (inside : j ≤ tmp.length) (short : (decimal d).length ≤ j) :
    topLoop j d tmp = (overlay tmp (j - (decimal d).length) (decimal d), j - (decimal d).length) := by
  induction j generalizing d tmp with
  | zero =>
      by_cases single : d < 10
      · rw [decimal_small single] at short
        exact absurd short (Nat.not_succ_le_zero 0)
      · rw [decimal_step (Nat.not_lt.mp single), List.length_append] at short
        exact absurd short (Nat.not_succ_le_zero _)
  | succ j ih =>
      rw [topLoop]
      by_cases single : d < 10
      · simp only [Nat.div_eq_of_lt single, if_true, decimal_small single, List.length_singleton, Nat.add_sub_cancel]
        rw [set_overlay _ inside]
      · have large := Nat.not_lt.mp single
        rw [decimal_step large, List.length_append, List.length_singleton] at short ⊢
        have shorter : (decimal (d / 10)).length ≤ j := Nat.le_of_succ_le_succ short
        have place : j - (decimal (d / 10)).length + (decimal (d / 10)).length = j := Nat.sub_add_cancel shorter
        have before : j - (decimal (d / 10)).length + (decimal (d / 10)).length < tmp.length := place.symm ▸ inside
        have last := overlay_set _ (digit d) before
        rw [place] at last
        simp only [if_neg (Nat.div_pos large (by decide)).ne']
        rw [ih (by rw [List.length_set]; omega) shorter, last, Nat.add_sub_add_right]

theorem someDigits_take (tmp : Str) (i d : Nat) (fits : i + (decimal d).length ≤ tmp.length) :
    ∃ after, someDigits tmp i d = (after, (decimal d).length) ∧ after.length = tmp.length ∧
      after.take (i + (decimal d).length) = tmp.take i ++ decimal d := by
  have short : (decimal d).length ≤ tmp.length := by omega
  let j := tmp.length - (decimal d).length
  have place : j + (decimal d).length = tmp.length := Nat.sub_add_cancel short
  have looped : topLoop tmp.length d tmp = (overlay tmp j (decimal d), j) := topLoop_overlay (Nat.le_refl _) short
  have size : (overlay tmp j (decimal d)).length = tmp.length := length_overlay place.le
  have top : (overlay tmp j (decimal d)).drop j = decimal d := by
    have front : (tmp.take j).length = j := by rw [List.length_take]; omega
    rw [overlay, place, List.drop_length, List.append_nil]
    nth_rewrite 1 [← front]
    exact List.drop_left
  have bottom : (overlay tmp j (decimal d)).take i = tmp.take i := by
    have before : i ≤ (tmp.take j).length := by rw [List.length_take]; omega
    rw [overlay, List.append_assoc, List.take_append_of_le_length before, List.take_take, Nat.min_eq_left (by omega)]
  have count : min (tmp.length - i) (decimal d).length = (decimal d).length := Nat.min_eq_right (by omega)
  refine ⟨overlay (overlay tmp j (decimal d)) i (decimal d), ?_, ?_, ?_⟩
  · rw [someDigits, looped]
    simp only [copyAt, size, top, count, List.take_length]
    rfl
  · rw [length_overlay (by rw [size]; exact fits), size]
  · rw [take_overlay (by rw [size]; omega), bottom]

/-! ## The header -/

structure Lead (tmp : Str) (i : Nat) (front : Str) : Prop where
  size : tmp.length = 64
  front : tmp.take i = front

variable {tmp front : Str} {i : Nat}

theorem Lead.overlay (lead : Lead tmp i front) (part : Str) (fits : i + part.length ≤ 64) :
    Lead (overlay tmp i part) (i + part.length) (front ++ part) := by
  have inside : i + part.length ≤ tmp.length := lead.size ▸ fits
  refine ⟨(length_overlay inside).trans lead.size, ?_⟩
  rw [take_overlay (Nat.le_of_add_right_le inside), lead.front]

theorem Lead.set (lead : Lead tmp i front) (b : UInt8) (fits : i < 64) :
    Lead (tmp.set i b) (i + 1) (front ++ [b]) := by
  rw [set_overlay b (lead.size ▸ fits)]
  exact lead.overlay [b] fits

theorem padded_length {n d : Nat} (pad : UInt8) (width : 0 < n) (small : d < 10 ^ n) :
    (padded n pad d).length = n := by
  have short := decimal_length width small
  rw [padded, List.length_append, List.length_replicate, Nat.sub_add_cancel short]

theorem Lead.two (lead : Lead tmp i front) (d : Nat) (small : d < 100) (fits : i + 2 ≤ 64) :
    Lead (twoDigits tmp i d) (i + 2) (front ++ padded 2 0x30 d) := by
  have width := padded_length 0x30 (n := 2) (by decide) small
  have next := lead.overlay (padded 2 0x30 d) (by rw [width]; exact fits)
  rwa [width, ← twoDigits_overlay (lead.size ▸ fits) small] at next

theorem Lead.number (lead : Lead tmp i front) (n d : Nat) (pad : UInt8) (width : 0 < n) (small : d < 10 ^ n)
    (visible : 0 < d ∨ pad = 0x30) (fits : i + n ≤ 64) :
    Lead (nDigits tmp n i d pad) (i + n) (front ++ padded n pad d) := by
  have size := padded_length pad width small
  have next := lead.overlay (padded n pad d) (by rw [size]; exact fits)
  rwa [size, ← field_padded width small visible, ← nDigits_overlay d pad (lead.size ▸ fits),
    field_padded width small visible] at next

/-- What a clock, a process and a caller can be. -/
structure Ordinary (args : HeaderArgs) : Prop where
  month : args.month ≤ 12
  day : args.day ≤ 31
  hour : args.hour < 24
  minute : args.minute < 60
  second : args.second < 60
  nanosecond : args.nanosecond < 10 ^ 9
  pid : 0 < args.pid ∧ args.pid < 10 ^ 7
  line : args.line < 2 ^ 63

/-- The bytes of `tmp` that go out before the name of the file. -/
def plainFront (args : HeaderArgs) : Str :=
  [args.severity.char] ++ padded 2 0x30 args.month ++ padded 2 0x30 args.day ++ [0x20] ++ padded 2 0x30 args.hour ++
    [0x3a] ++ padded 2 0x30 args.minute ++ [0x3a] ++ padded 2 0x30 args.second ++ [0x2e] ++
    padded 6 0x30 (args.nanosecond / 1000) ++ [0x20] ++ padded 7 0x20 args.pid ++ [0x20]

def plainHeader (args : HeaderArgs) : Str :=
  plainFront args ++ args.file ++ [0x3a] ++ decimal args.line.toNat ++ [0x5d, 0x20]

theorem writeFront_lead (size : tmp.length = 64) {args : HeaderArgs} (ordinary : Ordinary args) :
    Lead (writeFront tmp args) 30 (plainFront args) := by
  obtain ⟨month, day, hour, minute, second, nanosecond, pid, -⟩ := ordinary
  have start : Lead tmp 0 [] := ⟨size, rfl⟩
  have severity := start.set args.severity.char (by decide)
  have date := ((severity.two args.month (by omega) (by decide)).two args.day (by omega) (by decide)).set 0x20 (by decide)
  have hours := (date.two args.hour (by omega) (by decide)).set 0x3a (by decide)
  have minutes := (hours.two args.minute (by omega) (by decide)).set 0x3a (by decide)
  have seconds := (minutes.two args.second (by omega) (by decide)).set 0x2e (by decide)
  have micros := (seconds.number 6 (args.nanosecond / 1000) 0x30 (by decide) (by omega) (.inr rfl) (by decide)).set 0x20
    (by decide)
  exact (micros.number 7 args.pid 0x20 (by decide) pid.2 (.inl pid.1) (by decide)).set 0x20 (by decide)

theorem formatHeader_plain (size : tmp.length = 64) {args : HeaderArgs} (ordinary : Ordinary args) :
    (formatHeader tmp args).1 = plainHeader args ∧ (formatHeader tmp args).2.length = 64 := by
  have bound : args.line.toNat < 10 ^ 20 := by
    have := ordinary.line
    omega
  have digits := decimal_length (by decide) bound
  have line : (if args.line < 0 then 0 else args.line.toNat) = args.line.toNat := by split <;> omega
  have before := writeFront_lead size ordinary
  have again : Lead (writeFront tmp args) 0 [] := ⟨before.size, rfl⟩
  have colon := again.set 0x3a (by decide)
  obtain ⟨after, written, same, numbered⟩ := someDigits_take ((writeFront tmp args).set 0 0x3a) 1 args.line.toNat
    (by rw [colon.size]; omega)
  rw [colon.front, Nat.add_comm] at numbered
  have number : Lead after ((decimal args.line.toNat).length + 1) ([0x3a] ++ decimal args.line.toNat) :=
    ⟨same.trans colon.size, numbered⟩
  have last := (number.set 0x5d (by omega)).set 0x20 (by omega)
  rw [formatHeader]
  simp only [line, written]
  refine ⟨?_, last.size⟩
  rw [before.front]
  refine (congrArg (plainFront args ++ args.file ++ ·) last.front).trans ?_
  simp [plainHeader]

/-- However often a buffer was used before, and whatever is left in its bytes: the headers are those that a plain
formatting of their parts gives. -/
theorem headers_plain (size : tmp.length = 64) (list : List HeaderArgs) (ordinary : ∀ args ∈ list, Ordinary args) :
    headers tmp list = list.map plainHeader := by
  induction list generalizing tmp with
  | nil => rfl
  | cons args rest ih =>
      obtain ⟨first, kept⟩ := formatHeader_plain size (ordinary args (List.mem_cons_self ..))
      rw [headers, first, ih kept fun other member => ordinary other (List.mem_cons_of_mem _ member)]
      rfl

def sampleArgs : HeaderArgs where
  severity := .warningLog
  month := 5
  day := 9
  hour := 13
  minute := 5
  second := 0
  nanosecond := 42999
  pid := 321
  file := text "push.go"
  line := 37

theorem headers_plain_twice :
    headers (List.replicate 64 0xff) [sampleArgs, { sampleArgs with severity := .infoLog, line := -1 }] =
      [text "W0509 13:05:00.000042     321 push.go:37] ", text "I0509 13:05:00.000042     321 push.go:0] "] := by
  have ordinary : ∀ args ∈ [sampleArgs, { sampleArgs with severity := .infoLog, line := -1 }], Ordinary args := by
    intro args member
    obtain rfl | rfl : args = sampleArgs ∨ args = { sampleArgs with severity := .infoLog, line := -1 } := by
      simpa using member
    all_goals exact ⟨by decide, by decide, by decide, by decide, by decide, by decide, by decide, by decide⟩
  exact (headers_plain (by decide) _ ordinary).trans (by decide +kernel)

end Xrtc.Proof.GlogHeader
