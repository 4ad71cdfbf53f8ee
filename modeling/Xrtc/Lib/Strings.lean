import Mathlib.Data.List.Infix

/-!
# Searching and trimming strings over any alphabet

`index` and `lastIndex` find a word in a string, `strip` removes words of a set from its front. A
letter that occurs in no word but the one made of itself alone is a boundary: no word reaches over it.
-/

namespace Xrtc.Lib.Strings

variable {α : Type} [DecidableEq α]

/-! ## Searching -/

def index (word : List α) : List α → Option Nat
  | [] => if word = [] then some 0 else none
  | a :: rest => if word.isPrefixOf (a :: rest) then some 0 else (index word rest).map (· + 1)

def lastIndex (word : List α) : List α → Option Nat
  | [] => if word = [] then some 0 else none
  | a :: rest =>
      match lastIndex word rest with
      | some i => some (i + 1)
      | none => if word.isPrefixOf (a :: rest) then some 0 else none

theorem index_bound {word s : List α} {i : Nat} (found : index word s = some i) :
    i + word.length ≤ s.length := by
  induction s generalizing i with
  | nil =>
      by_cases empty : word = []
      · rw [index, if_pos empty] at found
        cases found
        simp [empty]
      · rw [index, if_neg empty] at found
        cases found
  | cons a rest ih =>
      rw [index] at found
      split at found
      · next begins =>
          cases found
          have shorter := (List.isPrefixOf_iff_prefix.mp begins).length_le
          omega
      · obtain ⟨j, later, rfl⟩ := Option.map_eq_some_iff.mp found
        have bound := ih later
        rw [List.length_cons]
        omega

theorem index_append {word s : List α} {i : Nat} (found : index word s = some i) (t : List α) :
    index word (s ++ t) = some i := by
  induction s generalizing i with
  | nil =>
      by_cases empty : word = []
      · rw [index, if_pos empty] at found
        cases found
        cases t <;> simp [index, empty]
      · rw [index, if_neg empty] at found
        cases found
  | cons a rest ih =>
      rw [index] at found
      rw [List.cons_append, index]
      split at found
      · next begins =>
          have longer : word <+: a :: (rest ++ t) :=
            (List.isPrefixOf_iff_prefix.mp begins).trans (List.prefix_append _ t)
          rw [if_pos (List.isPrefixOf_iff_prefix.mpr longer), ← found]
      · next none =>
          obtain ⟨j, later, rfl⟩ := Option.map_eq_some_iff.mp found
          rw [if_neg, ih later]
          · rfl
          · intro begins
            -- A word that begins here would end before the place where it was found.
            have bound := index_bound later
            have whole := List.isPrefixOf_iff_prefix.mp begins
            refine none (List.isPrefixOf_iff_prefix.mpr ?_)
            exact List.prefix_of_prefix_length_le whole (List.prefix_append (a :: rest) t)
              (by rw [List.length_cons]; omega)

theorem index_letter {a : α} {s : List α} (absent : a ∉ s) (t : List α) :
    index [a] (s ++ a :: t) = some s.length := by
  induction s with
  | nil => simp [index]
  | cons b rest ih =>
      have differ : a ≠ b := fun same => absent (same ▸ List.mem_cons_self ..)
      have later := ih fun member => absent (List.mem_cons_of_mem _ member)
      simp [index, differ, later]

theorem lastIndex_short {word s : List α} (short : s.length < word.length) : lastIndex word s = none := by
  induction s with
  | nil =>
      have filled : word ≠ [] := by
        rintro rfl
        cases short
      rw [lastIndex, if_neg filled]
  | cons a rest ih =>
      rw [List.length_cons] at short
      rw [lastIndex, ih (by omega)]
      refine if_neg fun begins => ?_
      have shorter := (List.isPrefixOf_iff_prefix.mp begins).length_le
      rw [List.length_cons] at shorter
      omega

theorem lastIndex_end {word : List α} (filled : word ≠ []) (s : List α) :
    lastIndex word (s ++ word) = some s.length := by
  induction s with
  | nil =>
      cases word with
      | nil => exact absurd rfl filled
      | cons a rest =>
          have short : lastIndex (a :: rest) rest = none := lastIndex_short (by simp)
          rw [List.nil_append, lastIndex, short]
          simp
  | cons a rest ih => rw [List.cons_append, lastIndex, ih, List.length_cons]

/-! ## Lines -/

def unlines (a : α) (lines : List (List α)) : List α := lines.flatMap (· ++ [a])

theorem not_mem_of_mem_splitOn {a : α} {s line : List α} (member : line ∈ s.splitOn a) : a ∉ line := by
  induction s generalizing line with
  | nil =>
      rw [List.splitOn_nil, List.mem_singleton] at member
      rw [member]
      exact List.not_mem_nil
  | cons b rest ih =>
      rw [List.splitOn_cons_eq_if_modifyHead] at member
      split at member
      · obtain rfl | later := List.mem_cons.mp member
        · exact List.not_mem_nil
        · exact ih later
      · next other =>
          have different : a ≠ b := fun same => other (by rw [same]; exact beq_self_eq_true b)
          cases pieces : rest.splitOn a with
          | nil => exact absurd pieces (List.splitOn_ne_nil a _)
          | cons first others =>
              rw [pieces, List.modifyHead_cons] at member
              obtain rfl | later := List.mem_cons.mp member
              · rw [List.mem_cons, not_or]
                exact ⟨different, ih (pieces ▸ List.mem_cons_self ..)⟩
              · exact ih (pieces ▸ List.mem_cons_of_mem _ later)

theorem splitOn_unlines {a : α} {lines : List (List α)} (free : ∀ line ∈ lines, a ∉ line) :
    (unlines a lines).splitOn a = lines ++ [[]] := by
  induction lines with
  | nil => rfl
  | cons line rest ih =>
      have shape : unlines a (line :: rest) = line ++ a :: unlines a rest := by simp [unlines]
      rw [shape, List.splitOn_append_cons_self_of_not_mem (free line (List.mem_cons_self ..)),
        ih fun other member => free other (List.mem_cons_of_mem _ member), List.cons_append]

omit [DecidableEq α] in
theorem intercalate_cons (a : α) (first : List α) (rest : List (List α)) :
    [a].intercalate (first :: rest) = first ++ rest.flatMap (a :: ·) := by
  induction rest generalizing first with
  | nil => simp [List.intercalate]
  | cons second rest ih =>
      have next := ih second
      simp only [List.intercalate, List.intersperse_cons_cons, List.flatten_cons, List.singleton_append,
        List.flatMap_cons] at next ⊢
      rw [next, List.cons_append]

omit [DecidableEq α] in
theorem unlines_cons (a : α) (first : List α) (rest : List (List α)) :
    unlines a (first :: rest) = first ++ rest.flatMap (a :: ·) ++ [a] := by
  induction rest generalizing first with
  | nil => simp [unlines]
  | cons second rest ih =>
      have next := ih second
      simp only [unlines, List.flatMap_cons, List.append_assoc] at next ⊢
      rw [next]
      simp

theorem unlines_splitOn (a : α) (s : List α) : unlines a (s.splitOn a) = s ++ [a] := by
  cases pieces : s.splitOn a with
  | nil => exact absurd pieces (List.splitOn_ne_nil a _)
  | cons first rest =>
      have whole : [a].intercalate (s.splitOn a) = s := List.intercalate_splitOn a
      rw [pieces, intercalate_cons] at whole
      rw [unlines_cons, whole]

theorem mem_of_mem_splitOn {a b : α} {s line : List α} (piece : line ∈ s.splitOn a) (member : b ∈ line) : b ∈ s := by
  have whole : b ∈ unlines a (s.splitOn a) :=
    List.mem_flatMap.mpr ⟨line, piece, List.mem_append_left _ member⟩
  rw [unlines_splitOn] at whole
  obtain inside | last := List.mem_append.mp whole
  · exact inside
  · exact absurd (List.mem_singleton.mp last ▸ member) (not_mem_of_mem_splitOn piece)

/-! ## Trimming -/

/-- A set of words no one of which begins or ends another. -/
structure Separators (α : Type) where
  words : List (List α)
  filled : [] ∉ words
  prefixFree : ∀ u ∈ words, ∀ v ∈ words, u <+: v → u = v
  suffixFree : ∀ u ∈ words, ∀ v ∈ words, u <:+ v → u = v

namespace Separators

def reverse (seps : Separators α) : Separators α where
  words := seps.words.map List.reverse
  filled := by
    intro empty
    obtain ⟨u, member, none⟩ := List.mem_map.mp empty
    exact seps.filled (List.reverse_eq_nil_iff.mp none ▸ member)
  prefixFree := by
    intro _ first _ second begins
    obtain ⟨u, held, rfl⟩ := List.mem_map.mp first
    obtain ⟨v, other, rfl⟩ := List.mem_map.mp second
    rw [seps.suffixFree u held v other (List.reverse_prefix.mp begins)]
  suffixFree := by
    intro _ first _ second ends
    obtain ⟨u, held, rfl⟩ := List.mem_map.mp first
    obtain ⟨v, other, rfl⟩ := List.mem_map.mp second
    rw [seps.prefixFree u held v other (List.reverse_suffix.mp ends)]

def Leads (seps : Separators α) (s : List α) : Prop := ∃ word ∈ seps.words, word <+: s

def Trails (seps : Separators α) (s : List α) : Prop := ∃ word ∈ seps.words, word <:+ s

instance (seps : Separators α) (s : List α) : Decidable (seps.Leads s) :=
  inferInstanceAs (Decidable (∃ word ∈ seps.words, word <+: s))

instance (seps : Separators α) (s : List α) : Decidable (seps.Trails s) :=
  inferInstanceAs (Decidable (∃ word ∈ seps.words, word <:+ s))

/-- No word but the letter alone has the letter. -/
def Boundary (seps : Separators α) (a : α) : Prop := ∀ word ∈ seps.words, a ∈ word → word = [a]

/-- The first `skip` letters belong to a word that is already removed. -/
def stripFrom (seps : Separators α) : (skip : Nat) → List α → List α
  | _, [] => []
  | skip + 1, _ :: rest => stripFrom seps skip rest
  | 0, a :: rest =>
      match seps.words.find? (·.isPrefixOf (a :: rest)) with
      | some word => stripFrom seps (word.length - 1) rest
      | none => a :: rest

def strip (seps : Separators α) (s : List α) : List α := seps.stripFrom 0 s

def trim (seps : Separators α) (s : List α) : List α := (seps.reverse.strip (seps.strip s).reverse).reverse

@[mk_iff]
structure Trimmed (seps : Separators α) (s : List α) : Prop where
  front : ¬ seps.Leads s
  back : ¬ seps.Trails s

instance (seps : Separators α) (s : List α) : Decidable (seps.Trimmed s) := decidable_of_iff' _ (trimmed_iff seps s)

variable (seps : Separators α) {s t : List α} {a : α}

omit [DecidableEq α] in
theorem leads_reverse : seps.reverse.Leads s.reverse ↔ seps.Trails s := by
  constructor
  · rintro ⟨word, member, begins⟩
    obtain ⟨u, held, rfl⟩ := List.mem_map.mp member
    exact ⟨u, held, List.reverse_prefix.mp begins⟩
  · rintro ⟨u, member, ends⟩
    exact ⟨u.reverse, List.mem_map_of_mem member, List.reverse_prefix.mpr ends⟩

omit [DecidableEq α] in
theorem boundary_reverse (boundary : seps.Boundary a) : seps.reverse.Boundary a := by
  intro word member holds
  obtain ⟨u, held, rfl⟩ := List.mem_map.mp member
  rw [boundary u held (List.mem_reverse.mp holds), List.reverse_singleton]

theorem stripFrom_eq (skip : Nat) (s : List α) : seps.stripFrom skip s = seps.strip (s.drop skip) := by
  induction s generalizing skip with
  | nil => cases skip <;> rfl
  | cons a rest ih =>
      cases skip with
      | zero => rfl
      | succ skip => exact ih skip

theorem strip_word {word : List α} (member : word ∈ seps.words) (s : List α) :
    seps.strip (word ++ s) = seps.strip s := by
  cases word with
  | nil => exact absurd member seps.filled
  | cons a rest =>
      have found : seps.words.find? (·.isPrefixOf (a :: rest ++ s)) = some (a :: rest) := by
        cases looked : seps.words.find? (·.isPrefixOf (a :: rest ++ s)) with
        | none =>
            have absent := List.find?_eq_none.mp looked _ member
            exact absurd (List.isPrefixOf_iff_prefix.mpr (List.prefix_append _ s)) absent
        | some other =>
            have passed := List.find?_some looked
            have begins := List.isPrefixOf_iff_prefix.mp passed
            have inside := List.mem_of_find?_eq_some looked
            -- Two words that both begin the string are prefixes of one another.
            obtain shorter | longer := Nat.le_total other.length (a :: rest).length
            · rw [seps.prefixFree other inside _ member
                (List.prefix_of_prefix_length_le begins (List.prefix_append _ s) shorter)]
            · rw [seps.prefixFree _ member other inside
                (List.prefix_of_prefix_length_le (List.prefix_append _ s) begins longer)]
      rw [List.cons_append] at found ⊢
      rw [strip, stripFrom, found]
      simp only [List.length_cons, Nat.add_sub_cancel]
      rw [stripFrom_eq, List.drop_left]

theorem strip_eq_self (none : ¬ seps.Leads s) : seps.strip s = s := by
  cases s with
  | nil => rfl
  | cons a rest =>
      have absent : seps.words.find? (·.isPrefixOf (a :: rest)) = Option.none :=
        List.find?_eq_none.mpr fun word member begins =>
          none ⟨word, member, List.isPrefixOf_iff_prefix.mp begins⟩
      rw [strip, stripFrom, absent]

/-- A string is a run of words before a string that begins with none. -/
theorem leads_induction {motive : List α → Prop} (stop : ∀ s, ¬ seps.Leads s → motive s)
    (word : ∀ word ∈ seps.words, ∀ s, motive s → motive (word ++ s)) (s : List α) : motive s := by
  induction size : s.length using Nat.strongRecOn generalizing s with
  | _ n ih =>
      by_cases leads : seps.Leads s
      · obtain ⟨u, member, rest, rfl⟩ := leads
        have positive : 0 < u.length := List.length_pos_iff.mpr fun none => seps.filled (none ▸ member)
        rw [List.length_append] at size
        exact word u member rest (ih rest.length (by omega) rest rfl)
      · exact stop s leads

theorem not_leads_strip (s : List α) : ¬ seps.Leads (seps.strip s) := by
  induction s using seps.leads_induction with
  | stop s none => rwa [seps.strip_eq_self none]
  | word word member s ih => rwa [seps.strip_word member]

omit [DecidableEq α] in
theorem not_leads_append (boundary : seps.Boundary a) (none : ¬ seps.Leads s) (filled : s ≠ []) (t : List α) :
    ¬ seps.Leads (s ++ a :: t) := by
  rintro ⟨word, member, begins⟩
  obtain shorter | longer := Nat.le_total word.length s.length
  · exact none ⟨word, member, List.prefix_of_prefix_length_le begins (List.prefix_append _ _) shorter⟩
  · -- The word has the letter behind the string, so it is that letter, and the string is empty.
    obtain ⟨rest, split⟩ := List.prefix_of_prefix_length_le (List.prefix_append s (a :: t)) begins longer
    cases rest with
    | nil => exact none ⟨word, member, by rw [← split, List.append_nil]⟩
    | cons b rest =>
        rw [← split, List.prefix_append_right_inj, List.cons_prefix_cons] at begins
        have letter := boundary word member (by rw [← split, begins.1]; simp)
        rw [letter] at split
        obtain ⟨front, empty⟩ | ⟨empty, back⟩ := List.append_eq_singleton_iff.mp split
        · exact filled front
        · cases back

theorem strip_append (boundary : seps.Boundary a) (s t : List α) :
    seps.strip (s ++ a :: t) = if seps.strip s = [] then seps.strip (a :: t) else seps.strip s ++ a :: t := by
  induction s using seps.leads_induction with
  | stop s none =>
      rw [seps.strip_eq_self none]
      by_cases empty : s = []
      · rw [if_pos empty, empty, List.nil_append]
      · rw [if_neg empty, seps.strip_eq_self (seps.not_leads_append boundary none empty t)]
  | word word member s ih => rw [List.append_assoc, seps.strip_word member, seps.strip_word member, ih]

theorem trim_cons (member : [a] ∈ seps.words) (s : List α) : seps.trim (a :: s) = seps.trim s := by
  have stripped := seps.strip_word member s
  rw [List.singleton_append] at stripped
  rw [trim, stripped, trim]

theorem trim_concat (member : [a] ∈ seps.words) (boundary : seps.Boundary a) (s : List α) :
    seps.trim (s ++ [a]) = seps.trim s := by
  have alone : seps.strip [a] = [] := seps.strip_word member []
  rw [trim, trim, seps.strip_append boundary, alone]
  by_cases empty : seps.strip s = []
  · rw [if_pos empty, empty]
  · have last : [a] ∈ seps.reverse.words := List.mem_map.mpr ⟨[a], member, rfl⟩
    have stripped := seps.reverse.strip_word last (seps.strip s).reverse
    rw [if_neg empty, List.reverse_concat, ← List.singleton_append, stripped]

theorem strip_suffix (s : List α) : seps.strip s <:+ s := by
  induction s using seps.leads_induction with
  | stop s none => rw [seps.strip_eq_self none]
  | word word member s ih =>
      rw [seps.strip_word member]
      exact ih.trans (List.suffix_append word s)

theorem trim_front (s : List α) : seps.trim s <+: seps.strip s := by
  rw [trim, ← List.reverse_suffix, List.reverse_reverse]
  exact seps.reverse.strip_suffix _

theorem trim_trimmed (s : List α) : seps.Trimmed (seps.trim s) := by
  constructor
  · rintro ⟨word, member, begins⟩
    exact seps.not_leads_strip s ⟨word, member, begins.trans (seps.trim_front s)⟩
  · rw [← leads_reverse, trim, List.reverse_reverse]
    exact seps.reverse.not_leads_strip _

theorem trim_eq_self (trimmed : seps.Trimmed s) : seps.trim s = s := by
  have back := mt seps.leads_reverse.mp trimmed.back
  rw [trim, seps.strip_eq_self trimmed.front, seps.reverse.strip_eq_self back, List.reverse_reverse]

theorem mem_of_mem_trim {b : α} (member : b ∈ seps.trim s) : b ∈ s :=
  (seps.strip_suffix s).subset ((seps.trim_front s).subset member)

omit [DecidableEq α] in
theorem not_trails_suffix (none : ¬ seps.Trails s) (ends : t <:+ s) : ¬ seps.Trails t := by
  rintro ⟨word, member, last⟩
  exact none ⟨word, member, last.trans ends⟩

theorem trim_of_not_trails (none : ¬ seps.Trails s) : seps.trim s = seps.strip s := by
  have back := mt seps.leads_reverse.mp (seps.not_trails_suffix none (seps.strip_suffix s))
  rw [trim, seps.reverse.strip_eq_self back, List.reverse_reverse]

theorem flatten_of_strip_nil (empty : seps.strip s = []) :
    ∃ words : List (List α), (∀ word ∈ words, word ∈ seps.words) ∧ s = words.flatten := by
  induction s using seps.leads_induction with
  | stop s none =>
      rw [seps.strip_eq_self none] at empty
      exact ⟨[], List.forall_mem_nil _, empty⟩
  | word word member s ih =>
      rw [seps.strip_word member] at empty
      obtain ⟨words, inside, rfl⟩ := ih empty
      exact ⟨word :: words, List.forall_mem_cons.mpr ⟨member, inside⟩, rfl⟩

theorem trim_ne_nil (none : ¬ seps.Leads s) (filled : s ≠ []) : seps.trim s ≠ [] := by
  intro empty
  rw [trim, List.reverse_eq_nil_iff, seps.strip_eq_self none] at empty
  obtain ⟨words, inside, reversed⟩ := seps.reverse.flatten_of_strip_nil empty
  -- The string is made of words, and begins with the one that the reversed string ends with.
  cases last : words.reverse with
  | nil =>
      rw [List.reverse_eq_nil_iff.mp last, List.flatten_nil] at reversed
      exact filled (List.reverse_eq_nil_iff.mp reversed)
  | cons word rest =>
      have member : word ∈ words := List.mem_reverse.mp (last ▸ List.mem_cons_self ..)
      obtain ⟨u, held, rfl⟩ := List.mem_map.mp (inside word member)
      refine none ⟨u, held, ?_⟩
      have split : words = rest.reverse ++ [u.reverse] := by
        rw [← List.reverse_reverse words, last, List.reverse_cons]
      rw [← List.reverse_suffix, reversed, split, List.flatten_append, List.flatten_singleton]
      exact List.suffix_append ..

omit [DecidableEq α] in
theorem not_trails_append (boundary : seps.Boundary a) (none : ¬ seps.Trails t) (filled : t ≠ []) (s : List α) :
    ¬ seps.Trails (s ++ a :: t) := by
  have reversed := seps.reverse.not_leads_append (seps.boundary_reverse boundary)
    (mt seps.leads_reverse.mp none) (mt List.reverse_eq_nil_iff.mp filled) s.reverse
  rw [← leads_reverse]
  rwa [List.reverse_append, List.reverse_cons, List.append_assoc, List.singleton_append]

end Separators

end Xrtc.Lib.Strings
