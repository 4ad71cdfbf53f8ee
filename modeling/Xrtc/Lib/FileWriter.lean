import Mathlib.Data.List.Basic

/-!
# A buffered writer on a file

The file takes what it is given until it is full; the write that goes beyond it takes what still fits and
fails. A writer that has failed writes no more.
-/

namespace Xrtc.Lib

structure FileWriter (α ε : Type) where
  /-- The length at which the file is full, and the error. -/
  limit : Option (Nat × ε)
  file : List α
  buf : List α
  err : Option ε

namespace FileWriter

variable {α ε : Type}

def bytes (w : FileWriter α ε) : List α := w.file ++ w.buf

/-- How much of `p` the file takes. -/
def room (w : FileWriter α ε) (p : List α) : Nat :=
  match w.limit with
  | none => p.length
  | some (full, _) => min p.length (full - w.file.length)

def put (w : FileWriter α ε) (p : List α) : FileWriter α ε :=
  { w with
    file := w.file ++ p.take (w.room p)
    err := if w.room p < p.length then w.limit.map Prod.snd else w.err }

def flush (w : FileWriter α ε) : FileWriter α ε :=
  if w.err.isSome || w.buf.isEmpty then w else { w.put w.buf with buf := w.buf.drop (w.room w.buf) }

/-- An empty buffer is passed by, a filled one is filled up and flushed. -/
def writeRound (size : Nat) (w : FileWriter α ε) (p : List α) : FileWriter α ε × List α :=
  if w.buf.isEmpty then (w.put p, p.drop (w.room p))
  else (flush { w with buf := w.buf ++ p.take (size - w.buf.length) }, p.drop (size - w.buf.length))

def Waits (size : Nat) (w : FileWriter α ε) (p : List α) : Prop := size - w.buf.length < p.length ∧ w.err.isNone
  deriving Decidable

def writeLoop (size : Nat) : Nat → FileWriter α ε → List α → FileWriter α ε × List α
  | 0, w, p => (w, p)
  | rounds + 1, w, p =>
      if w.Waits size p then
        writeLoop size rounds (w.writeRound size p).1 (w.writeRound size p).2
      else (w, p)

/-- The loop is over after two rounds (`writeLoop_done`). What is left of `p` was not written. -/
def write (size : Nat) (w : FileWriter α ε) (p : List α) : FileWriter α ε × List α :=
  let (w, p) := writeLoop size 2 w p
  if w.err.isSome then (w, p) else ({ w with buf := w.buf ++ p }, [])

variable {size : Nat} {w : FileWriter α ε} {p : List α}

theorem put_err (short : w.room p < p.length) : (w.put p).err.isSome := by
  rw [put]
  simp only [if_pos short]
  rw [room] at short
  split at short
  · exact absurd short (Nat.lt_irrefl _)
  · next limited => rw [limited]; rfl

theorem put_done (w : FileWriter α ε) (p : List α) : (w.put p).err.isSome ∨ p.drop (w.room p) = [] := by
  by_cases short : w.room p < p.length
  · exact .inl (put_err short)
  · exact .inr (List.drop_eq_nil_of_le (Nat.not_lt.mp short))

theorem flush_done (w : FileWriter α ε) : w.flush.err.isSome ∨ w.flush.buf = [] := by
  rw [flush]
  split
  · next stop =>
      rw [Bool.or_eq_true, List.isEmpty_iff] at stop
      exact stop
  · exact put_done w w.buf

theorem not_waits_of_err (failed : w.err.isSome) : ¬ w.Waits size p := by
  rintro ⟨-, none⟩
  cases same : w.err with
  | none => rw [same] at failed; cases failed
  | some err => rw [same] at none; cases none

theorem writeRound_empty (empty : w.buf = []) : ¬ (w.writeRound size p).1.Waits size (w.writeRound size p).2 := by
  rw [writeRound, if_pos (List.isEmpty_iff.mpr empty)]
  obtain failed | done := put_done w p
  · exact not_waits_of_err failed
  · rintro ⟨more, -⟩
    simp only [done, List.length_nil] at more
    exact absurd more (Nat.not_lt_zero _)

theorem writeRound_next (size : Nat) (w : FileWriter α ε) (p : List α) :
    (w.writeRound size p).1.buf = [] ∨ (w.writeRound size p).1.err.isSome := by
  rw [writeRound]
  split
  · next empty => exact .inl (List.isEmpty_iff.mp empty)
  · exact (flush_done _).symm

theorem writeLoop_done (size : Nat) (w : FileWriter α ε) (p : List α) :
    ¬ (writeLoop size 2 w p).1.Waits size (writeLoop size 2 w p).2 := by
  rw [writeLoop]
  split
  · rw [writeLoop]
    split
    · next waits =>
        obtain empty | failed := writeRound_next size w p
        · exact writeRound_empty empty
        · exact absurd waits (not_waits_of_err failed)
    · assumption
  · assumption

/-! ## A file that is never full -/

structure Unlimited (w : FileWriter α ε) : Prop where
  limit : w.limit = none
  err : w.err = none

theorem Unlimited.put (endless : w.Unlimited) (p : List α) : w.put p = { w with file := w.file ++ p } := by
  have room : w.room p = p.length := by rw [FileWriter.room, endless.limit]
  rw [FileWriter.put, room, List.take_length, if_neg (Nat.lt_irrefl _)]

theorem Unlimited.flush (endless : w.Unlimited) : w.flush = { w with file := w.bytes, buf := [] } := by
  obtain ⟨limit, file, buf, err⟩ := w
  have err : err = none := endless.err
  subst err
  rw [FileWriter.flush]
  cases buf with
  | nil => simp [bytes]
  | cons a rest =>
      have room : FileWriter.room ⟨limit, file, a :: rest, none⟩ (a :: rest) = (a :: rest).length := by
        rw [FileWriter.room, endless.limit]
      rw [if_neg (by simp), endless.put, room, List.drop_length]
      rfl

theorem Unlimited.writeRound (endless : w.Unlimited) (size : Nat) (p : List α) :
    (w.writeRound size p).1.Unlimited ∧ (w.writeRound size p).1.bytes ++ (w.writeRound size p).2 = w.bytes ++ p ∧
      (w.writeRound size p).1.buf = [] := by
  rw [FileWriter.writeRound]
  split
  · next empty =>
      have blank := List.isEmpty_iff.mp empty
      have room : w.room p = p.length := by rw [FileWriter.room, endless.limit]
      rw [endless.put, room, List.drop_length]
      refine ⟨⟨endless.limit, endless.err⟩, ?_, blank⟩
      simp [bytes, blank]
  · have filled : Unlimited { w with buf := w.buf ++ p.take (size - w.buf.length) } := ⟨endless.limit, endless.err⟩
    rw [filled.flush]
    refine ⟨⟨endless.limit, endless.err⟩, ?_, rfl⟩
    simp [bytes]

theorem Unlimited.writeLoop (endless : w.Unlimited) (size : Nat) (small : w.buf.length ≤ size) (rounds : Nat)
    (p : List α) :
    (FileWriter.writeLoop size rounds w p).1.Unlimited ∧
      (FileWriter.writeLoop size rounds w p).1.bytes ++ (FileWriter.writeLoop size rounds w p).2 = w.bytes ++ p ∧
      (FileWriter.writeLoop size rounds w p).1.buf.length ≤ size := by
  induction rounds generalizing w p with
  | zero => exact ⟨endless, rfl, small⟩
  | succ rounds ih =>
      rw [FileWriter.writeLoop]
      split
      · obtain ⟨next, moved, empty⟩ := endless.writeRound size p
        obtain ⟨last, all, bound⟩ := ih next (by rw [empty]; exact Nat.zero_le _) (w.writeRound size p).2
        exact ⟨last, all.trans moved, bound⟩
      · exact ⟨endless, rfl, small⟩

/-- Everything is written, and what is not in the file fits into the buffer. -/
theorem Unlimited.write (endless : w.Unlimited) (small : w.buf.length ≤ size) (p : List α) :
    ∃ w', w.write size p = (w', []) ∧ w'.Unlimited ∧ w'.bytes = w.bytes ++ p ∧ w'.buf.length ≤ size := by
  obtain ⟨last, all, bound⟩ := endless.writeLoop size small 2 p
  have done := writeLoop_done size w p
  rw [FileWriter.write]
  generalize FileWriter.writeLoop size 2 w p = result at last all bound done
  have fits : result.2.length ≤ size - result.1.buf.length :=
    Nat.not_lt.mp fun more => done ⟨more, by rw [last.err]; rfl⟩
  refine ⟨{ result.1 with buf := result.1.buf ++ result.2 }, ?_, ⟨last.limit, last.err⟩, ?_, ?_⟩
  · simp [last.err]
  · rw [← all, bytes, bytes, List.append_assoc]
  · simp only [List.length_append]
    omega

end FileWriter

end Xrtc.Lib
