import Mathlib.Data.Finset.Card
import Mathlib.Data.Finset.Dedup
import Mathlib.Data.List.Infix

/-!
# Texts with references

A reference is a name between marks. `expand` looks for the leftmost reference, puts the value of its
name in the place of all its occurrences, and starts again, a bounded number of times. On a text whose
marks all belong to references this is substitution.
-/

namespace Xrtc.Lib.Template

variable {α : Type} [DecidableEq α]

/-- The first `skip` letters belong to an occurrence that is already replaced. -/
def replaceFrom (old new : List α) : (skip : Nat) → List α → List α
  | _, [] => []
  | skip + 1, _ :: rest => replaceFrom old new skip rest
  | 0, a :: rest =>
      if old.isPrefixOf (a :: rest) then new ++ replaceFrom old new (old.length - 1) rest
      else a :: replaceFrom old new 0 rest

def replace (old new s : List α) : List α := replaceFrom old new 0 s

/-- A reference to `name` is `mark opening name closing stop`. -/
structure Marks (α : Type) where
  mark : α
  opening : α
  closing : α
  stop : α
  alone : mark ∉ [opening, closing, stop]

namespace Marks

variable (m : Marks α)

def reference (name : List α) : List α := m.mark :: m.opening :: name ++ [m.closing, m.stop]

def leading : List α → Option (List α)
  | a :: b :: rest =>
      let name := rest.takeWhile (· ≠ m.closing)
      match rest.drop name.length with
      | _ :: d :: _ =>
          if a = m.mark ∧ b = m.opening ∧ name ≠ [] ∧ d = m.stop then some (m.reference name) else none
      | _ => none
  | _ => none

def find : List α → Option (List α)
  | [] => none
  | a :: rest =>
      match m.leading (a :: rest) with
      | some found => some found
      | none => find rest

def expand (resolve : List α → Option (List α)) : Nat → List α → Option (List α)
  | 0, value => some value
  | n + 1, value =>
      match m.find value with
      | none => some value
      | some found => (resolve found).bind fun new => expand resolve n (replace found new value)

end Marks

/-! ## Texts made of segments -/

inductive Segment (α : Type)
  | text (s : List α)
  | ref (name : List α)
  deriving DecidableEq

def Segment.name : Segment α → Option (List α)
  | .text _ => none
  | .ref name => some name

def Segment.subst (value : List α → List α) : Segment α → List α
  | .text s => s
  | .ref name => value name

def names (segments : List (Segment α)) : List (List α) := segments.filterMap Segment.name

def subst (value : List α → List α) (segments : List (Segment α)) : List α :=
  segments.flatMap (Segment.subst value)

namespace Marks

variable (m : Marks α)

def render (segments : List (Segment α)) : List α := subst m.reference segments

@[mk_iff]
structure Proper (name : List α) : Prop where
  filled : name ≠ []
  unmarked : m.mark ∉ name
  open_ : m.closing ∉ name

def Formed : Segment α → Prop
  | .text s => m.mark ∉ s
  | .ref name => m.Proper name

instance (name : List α) : Decidable (m.Proper name) := decidable_of_iff' _ (proper_iff m name)

instance : DecidablePred m.Formed
  | .text s => inferInstanceAs (Decidable (m.mark ∉ s))
  | .ref name => inferInstanceAs (Decidable (m.Proper name))

omit [DecidableEq α] in
theorem unmarked_tail {name : List α} (proper : m.Proper name) :
    m.mark ∉ m.opening :: name ++ [m.closing, m.stop] := by
  have alone := m.alone
  have unmarked := proper.unmarked
  simp_all

theorem takeWhile_name {name : List α} (absent : m.closing ∉ name) (t : List α) :
    (name ++ m.closing :: t).takeWhile (· ≠ m.closing) = name := by
  rw [List.takeWhile_append_of_pos]
  · simp
  · intro a member
    exact decide_eq_true fun same => absent (same ▸ member)

theorem leading_reference {name : List α} (proper : m.Proper name) (t : List α) :
    m.leading (m.reference name ++ t) = some (m.reference name) := by
  have shape : m.reference name ++ t = m.mark :: m.opening :: (name ++ m.closing :: m.stop :: t) := by
    simp [reference]
  rw [shape, leading, m.takeWhile_name proper.open_, List.drop_left]
  simp [proper.filled]

theorem leading_unmarked {a : α} (other : a ≠ m.mark) (rest : List α) : m.leading (a :: rest) = none := by
  cases rest with
  | nil => rfl
  | cons b rest =>
      rw [leading]
      split
      · rw [if_neg fun holds => other holds.1]
      · rfl

theorem find_text {s : List α} (unmarked : m.mark ∉ s) (t : List α) : m.find (s ++ t) = m.find t := by
  induction s with
  | nil => rfl
  | cons a rest ih =>
      rw [List.mem_cons, not_or] at unmarked
      rw [List.cons_append, find, m.leading_unmarked (Ne.symm unmarked.1)]
      exact ih unmarked.2

theorem find_leading {s found : List α} (leads : m.leading s = some found) : m.find s = some found := by
  cases s with
  | nil => cases leads
  | cons a rest => rw [find, leads]

theorem find_render {segments : List (Segment α)} (formed : ∀ segment ∈ segments, m.Formed segment) :
    m.find (m.render segments) = (names segments).head?.map m.reference := by
  induction segments with
  | nil => rfl
  | cons segment rest ih =>
      have later := ih fun other member => formed other (List.mem_cons_of_mem _ member)
      have first := formed segment (List.mem_cons_self ..)
      cases segment with
      | text s => exact (m.find_text first _).trans later
      | ref name =>
          exact m.find_leading (m.leading_reference first (m.render rest))

/-! ## Replacing -/

theorem replaceFrom_eq (old new : List α) (skip : Nat) (s : List α) :
    replaceFrom old new skip s = replace old new (s.drop skip) := by
  induction s generalizing skip with
  | nil => cases skip <;> rfl
  | cons a rest ih =>
      cases skip with
      | zero => rfl
      | succ skip => exact ih skip

theorem replace_word {old : List α} (filled : old ≠ []) (new t : List α) :
    replace old new (old ++ t) = new ++ replace old new t := by
  cases old with
  | nil => exact absurd rfl filled
  | cons a rest =>
      have begins : (a :: rest).isPrefixOf (a :: (rest ++ t)) = true :=
        List.isPrefixOf_iff_prefix.mpr (List.prefix_append (a :: rest) t)
      rw [List.cons_append, replace, replaceFrom, if_pos begins, replaceFrom_eq, List.length_cons,
        Nat.add_sub_cancel, List.drop_left]

theorem replace_cons {old : List α} {a : α} {rest : List α} (absent : ¬ old <+: a :: rest) (new : List α) :
    replace old new (a :: rest) = a :: replace old new rest := by
  rw [replace, replaceFrom, if_neg (mt List.isPrefixOf_iff_prefix.mp absent)]
  rfl

theorem replace_text {s : List α} (unmarked : m.mark ∉ s) (name new t : List α) :
    replace (m.reference name) new (s ++ t) = s ++ replace (m.reference name) new t := by
  induction s with
  | nil => rfl
  | cons a rest ih =>
      rw [List.mem_cons, not_or] at unmarked
      have absent : ¬ m.reference name <+: a :: (rest ++ t) := fun begins =>
        unmarked.1 (List.cons_prefix_cons.mp begins).1
      rw [List.cons_append, replace_cons absent, ih unmarked.2, List.cons_append]

theorem reference_inj {first second : List α} (one : m.closing ∉ first) (two : m.closing ∉ second) (t : List α)
    (begins : m.reference first <+: m.reference second ++ t) : first = second := by
  obtain ⟨rest, split⟩ := begins
  simp only [reference, List.cons_append, List.append_assoc, List.cons.injEq, true_and] at split
  rw [← m.takeWhile_name one _, split, m.takeWhile_name two]

theorem replace_other {name other : List α} (proper : m.Proper name) (formed : m.Proper other)
    (differ : other ≠ name) (new t : List α) :
    replace (m.reference name) new (m.reference other ++ t) =
      m.reference other ++ replace (m.reference name) new t := by
  have absent : ¬ m.reference name <+: m.reference other ++ t := fun begins =>
    differ (m.reference_inj proper.open_ formed.open_ t begins).symm
  have tail := m.replace_text (m.unmarked_tail formed) name new t
  have shape : m.reference other = m.mark :: (m.opening :: other ++ [m.closing, m.stop]) := rfl
  rw [shape, List.cons_append] at absent ⊢
  rw [replace_cons absent]
  exact congrArg (m.mark :: ·) tail

/-- The segment after the value of a name has come in the place of its references. -/
def settle (name value : List α) : Segment α → Segment α
  | .text s => .text s
  | .ref other => if other = name then .text value else .ref other

theorem replace_render {name : List α} (proper : m.Proper name) (value : List α)
    {segments : List (Segment α)} (formed : ∀ segment ∈ segments, m.Formed segment) :
    replace (m.reference name) value (m.render segments) = m.render (segments.map (settle name value)) := by
  induction segments with
  | nil => rfl
  | cons segment rest ih =>
      have later := ih fun other member => formed other (List.mem_cons_of_mem _ member)
      have first := formed segment (List.mem_cons_self ..)
      cases segment with
      | text s => exact (m.replace_text first name value _).trans (congrArg (s ++ ·) later)
      | ref other =>
          by_cases same : other = name
          · subst same
            have filled : m.reference other ≠ [] := by simp [reference]
            have word := replace_word filled value (m.render rest)
            rw [later] at word
            simpa [render, subst, Segment.subst, settle] using word
          · have kept := m.replace_other proper first same value (m.render rest)
            rw [later] at kept
            simpa [render, subst, Segment.subst, settle, same] using kept

/-! ## Expanding -/

theorem formed_settle {name value : List α} (unmarked : m.mark ∉ value) {segment : Segment α}
    (formed : m.Formed segment) : m.Formed (settle name value segment) := by
  cases segment with
  | text s => exact formed
  | ref other =>
      rw [settle]
      split
      · exact unmarked
      · exact formed

theorem names_settle (name value : List α) (segments : List (Segment α)) :
    names (segments.map (settle name value)) = (names segments).filter (· != name) := by
  rw [names, names, List.filterMap_map, List.filter_filterMap]
  refine List.filterMap_congr fun segment _ => ?_
  cases segment with
  | text s => rfl
  | ref other =>
      by_cases same : other = name
      · simp [settle, same, Segment.name, Option.filter]
      · simp [settle, same, Segment.name, Option.filter]

theorem subst_settle (name : List α) (value : List α → List α) (segments : List (Segment α)) :
    subst value (segments.map (settle name (value name))) = subst value segments := by
  rw [subst, subst, List.flatMap_map]
  refine List.flatMap_congr fun segment _ => ?_
  cases segment with
  | text s => rfl
  | ref other =>
      rw [settle]
      split
      · next same => rw [same]; rfl
      · rfl

omit [DecidableEq α] in
theorem render_plain {segments : List (Segment α)} (plain : names segments = []) (value : List α → List α) :
    m.render segments = subst value segments := by
  refine List.flatMap_congr fun segment member => ?_
  cases segment with
  | text s => rfl
  | ref name =>
      have named : name ∈ names segments := List.mem_filterMap.mpr ⟨.ref name, member, rfl⟩
      rw [plain] at named
      cases named

/-- If as many names as there are rounds occur at most, all references are replaced. -/
theorem expand_render {resolve : List α → Option (List α)} {value : List α → List α} (n : Nat)
    {segments : List (Segment α)} (formed : ∀ segment ∈ segments, m.Formed segment)
    (resolved : ∀ name ∈ names segments, resolve (m.reference name) = some (value name))
    (unmarked : ∀ name ∈ names segments, m.mark ∉ value name) (few : (names segments).toFinset.card ≤ n) :
    m.expand resolve n (m.render segments) = some (subst value segments) := by
  induction n generalizing segments with
  | zero =>
      have plain : names segments = [] := by simpa using few
      rw [expand, m.render_plain plain value]
  | succ n ih =>
      have found := m.find_render formed
      rw [expand]
      cases first : names segments with
      | nil => rw [found, first, m.render_plain first value]; rfl
      | cons name others =>
          have member : name ∈ names segments := first ▸ List.mem_cons_self ..
          have proper : m.Proper name := by
            obtain ⟨segment, inside, named⟩ := List.mem_filterMap.mp member
            cases segment with
            | text s => cases named
            | ref other => exact Option.some.inj named ▸ formed _ inside
          rw [found, first, List.head?_cons, Option.map_some]
          simp only [resolved name member, Option.bind_some, m.replace_render proper (value name) formed]
          rw [ih, subst_settle]
          · intro segment inside
            obtain ⟨old, held, rfl⟩ := List.mem_map.mp inside
            exact m.formed_settle (unmarked name member) (formed old held)
          · intro other inside
            rw [names_settle] at inside
            exact resolved other (List.mem_filter.mp inside).1
          · intro other inside
            rw [names_settle] at inside
            exact unmarked other (List.mem_filter.mp inside).1
          · -- The name is gone from the names.
            have fewer : (names (segments.map (settle name (value name)))).toFinset ⊆
                (names segments).toFinset.erase name := by
              intro other inside
              rw [names_settle, List.mem_toFinset, List.mem_filter] at inside
              exact Finset.mem_erase.mpr ⟨by simpa using inside.2, List.mem_toFinset.mpr inside.1⟩
            have card := Finset.card_le_card fewer
            rw [Finset.card_erase_of_mem (List.mem_toFinset.mpr member)] at card
            omega

omit [DecidableEq α] in
theorem unmarked_subst {value : List α → List α} {segments : List (Segment α)}
    (formed : ∀ segment ∈ segments, m.Formed segment)
    (unmarked : ∀ name ∈ names segments, m.mark ∉ value name) : m.mark ∉ subst value segments := by
  intro marked
  obtain ⟨segment, member, inside⟩ := List.mem_flatMap.mp marked
  cases segment with
  | text s => exact formed _ member inside
  | ref name => exact unmarked name (List.mem_filterMap.mpr ⟨_, member, rfl⟩) inside

end Marks

end Xrtc.Lib.Template
