import Mathlib.Data.List.Nodup
import Mathlib.Logic.Function.Basic

/-!
# Blocks of memory and who holds them

`heap` are the blocks that were allocated and not freed, `held k` the blocks that the holder `k` has to
free, in the order in which it will. A holder that goes away without freeing them leaves them `lost`.
-/

namespace Xrtc.Lib

structure Custody (K A : Type*) where
  heap : List A
  held : K → List A
  lost : List A

namespace Custody

variable {K A : Type*} [DecidableEq K] [DecidableEq A]

def empty : Custody K A := ⟨[], fun _ => [], []⟩

def free (heap : List A) (a : A) : Option (List A) := if a ∈ heap then some (heap.erase a) else none

def freeAll (heap : List A) : List A → Option (List A)
  | [] => some heap
  | a :: rest => (free heap a).bind fun heap => freeAll heap rest

def acquire (s : Custody K A) (k : K) (a : A) : Custody K A :=
  { s with heap := a :: s.heap, held := Function.update s.held k (s.held k ++ [a]) }

/-- The holder frees its first `n` blocks. -/
def release (s : Custody K A) (k : K) (n : Nat) : Option (Custody K A) :=
  (freeAll s.heap ((s.held k).take n)).map fun heap =>
    { s with heap := heap, held := Function.update s.held k ((s.held k).drop n) }

def abandon (s : Custody K A) (k : K) : Custody K A :=
  { s with held := Function.update s.held k [], lost := s.lost ++ s.held k }

/-- Every allocated block is held once or lost. -/
structure Sound (s : Custody K A) : Prop where
  nodup : s.heap.Nodup
  once : ∀ k, (s.held k).Nodup
  apart : ∀ k k' a, a ∈ s.held k → a ∈ s.held k' → k = k'
  kept : ∀ k a, a ∈ s.held k → a ∉ s.lost
  covered : ∀ a, a ∈ s.heap ↔ (∃ k, a ∈ s.held k) ∨ a ∈ s.lost

omit [DecidableEq K] [DecidableEq A] in
theorem empty_sound : (empty : Custody K A).Sound := by
  constructor <;> simp [empty]

omit [DecidableEq A] in
theorem mem_held_update {held : K → List A} {k k' : K} {blocks : List A} {a : A}
    (member : a ∈ Function.update held k blocks k') :
    (k' = k ∧ a ∈ blocks) ∨ (k' ≠ k ∧ a ∈ held k') := by
  by_cases same : k' = k
  · subst same
    rw [Function.update_self] at member
    exact .inl ⟨rfl, member⟩
  · rw [Function.update_of_ne same] at member
    exact .inr ⟨same, member⟩

omit [DecidableEq A] in
theorem mem_held_acquire {s : Custody K A} {k k' : K} {a b : A} :
    b ∈ (s.acquire k a).held k' ↔ b ∈ s.held k' ∨ (k' = k ∧ b = a) := by
  unfold Custody.acquire
  by_cases same : k' = k
  · subst same
    simp
  · simp [same]

omit [DecidableEq A] in
theorem Sound.acquire {s : Custody K A} (sound : s.Sound) (k : K) {a : A} (fresh : a ∉ s.heap) :
    (s.acquire k a).Sound := by
  have unheld (k' : K) : a ∉ s.held k' := fun member => fresh ((sound.covered a).2 (.inl ⟨k', member⟩))
  have unlost : a ∉ s.lost := fun member => fresh ((sound.covered a).2 (.inr member))
  constructor
  · exact List.nodup_cons.2 ⟨fresh, sound.nodup⟩
  · intro k'
    by_cases same : k' = k
    · subst same
      simpa [Custody.acquire, List.nodup_append] using
        ⟨sound.once k', fun b member equal => unheld k' (equal ▸ member)⟩
    · simpa [Custody.acquire, Function.update_of_ne same] using sound.once k'
  · intro k₁ k₂ b first second
    rcases mem_held_acquire.1 first with held | ⟨at_k, rfl⟩
    · rcases mem_held_acquire.1 second with held' | ⟨-, rfl⟩
      · exact sound.apart _ _ b held held'
      · exact absurd held (unheld k₁)
    · rcases mem_held_acquire.1 second with held' | ⟨at_k', -⟩
      · exact absurd held' (unheld k₂)
      · exact at_k.trans at_k'.symm
  · intro k' b member
    rcases mem_held_acquire.1 member with old | ⟨-, rfl⟩
    · exact sound.kept _ b old
    · exact unlost
  · intro b
    have held : (∃ k', b ∈ (s.acquire k a).held k') ↔ b = a ∨ ∃ k', b ∈ s.held k' := by
      simp only [mem_held_acquire, exists_or, exists_eq_left, or_comm]
    rw [held, or_assoc, show (s.acquire k a).lost = s.lost from rfl, ← sound.covered]
    exact List.mem_cons

theorem freeAll_spec {heap blocks : List A} (nodup : heap.Nodup) (distinct : blocks.Nodup)
    (allocated : ∀ a ∈ blocks, a ∈ heap) :
    ∃ heap', freeAll heap blocks = some heap' ∧ heap'.Nodup ∧
      ∀ a, a ∈ heap' ↔ a ∈ heap ∧ a ∉ blocks := by
  induction blocks generalizing heap with
  | nil => exact ⟨heap, rfl, nodup, by simp⟩
  | cons b rest ih =>
      obtain ⟨unlisted, distinct⟩ := List.nodup_cons.1 distinct
      have first : free heap b = some (heap.erase b) := if_pos (allocated b List.mem_cons_self)
      obtain ⟨heap', freed, nodup', remains⟩ := ih (nodup.erase b) distinct fun a member => by
        rw [nodup.mem_erase_iff]
        exact ⟨fun equal => unlisted (equal ▸ member), allocated a (List.mem_cons_of_mem _ member)⟩
      refine ⟨heap', by simp [freeAll, first, freed], nodup', fun a => ?_⟩
      rw [remains, nodup.mem_erase_iff, List.mem_cons, not_or]
      exact ⟨fun ⟨⟨ne, member⟩, out⟩ => ⟨member, ne, out⟩, fun ⟨member, ne, out⟩ => ⟨⟨ne, member⟩, out⟩⟩

omit [DecidableEq K] [DecidableEq A] in
theorem Sound.disjoint_take_drop {s : Custody K A} (sound : s.Sound) (k : K) (n : Nat) {a : A}
    (first : a ∈ (s.held k).take n) : a ∉ (s.held k).drop n :=
  fun second => List.disjoint_take_drop (sound.once k) (Nat.le_refl n) first second

theorem Sound.release {s : Custody K A} (sound : s.Sound) (k : K) (n : Nat) :
    ∃ heap, s.release k n =
        some { s with heap := heap, held := Function.update s.held k ((s.held k).drop n) } ∧
      Sound { s with heap := heap, held := Function.update s.held k ((s.held k).drop n) } := by
  obtain ⟨heap, freed, nodup, remains⟩ := freeAll_spec sound.nodup
    ((sound.once k).sublist (List.take_sublist n _))
    fun a member => (sound.covered a).2 (.inl ⟨k, List.mem_of_mem_take member⟩)
  have still {k' : K} {a : A} (member : a ∈ Function.update s.held k ((s.held k).drop n) k') :
      a ∈ s.held k' ∧ a ∉ (s.held k).take n := by
    obtain ⟨rfl, rest⟩ | ⟨other, member⟩ := mem_held_update member
    · exact ⟨List.mem_of_mem_drop rest, fun first => sound.disjoint_take_drop _ n first rest⟩
    · exact ⟨member, fun first => other (sound.apart _ _ a member (List.mem_of_mem_take first))⟩
  refine ⟨heap, by simp [Custody.release, freed], nodup, fun k' => ?_, ?_, ?_, fun a => ?_⟩
  · by_cases same : k' = k
    · subst same
      simpa using (sound.once k').sublist (List.drop_sublist n _)
    · simpa [Function.update_of_ne same] using sound.once k'
  · exact fun k₁ k₂ a first second => sound.apart _ _ a (still first).1 (still second).1
  · exact fun k' a member => sound.kept _ a (still member).1
  · rw [remains, sound.covered]
    constructor
    · rintro ⟨⟨k', member⟩ | lost, out⟩
      · refine .inl ⟨k', ?_⟩
        by_cases same : k' = k
        · subst same
          rw [← List.take_append_drop n (s.held k'), List.mem_append] at member
          simpa using member.resolve_left out
        · simpa [Function.update_of_ne same] using member
      · exact .inr lost
    · rintro (⟨k', member⟩ | lost)
      · exact ⟨.inl ⟨k', (still member).1⟩, (still member).2⟩
      · exact ⟨.inr lost, fun first => sound.kept k a (List.mem_of_mem_take first) lost⟩

omit [DecidableEq A] in
theorem Sound.abandon {s : Custody K A} (sound : s.Sound) (k : K) : (s.abandon k).Sound := by
  have still {k' : K} {a : A} (member : a ∈ (s.abandon k).held k') : k' ≠ k ∧ a ∈ s.held k' := by
    obtain ⟨-, none⟩ | other := mem_held_update member
    · cases none
    · exact other
  constructor
  · exact sound.nodup
  · intro k'
    by_cases same : k' = k
    · subst same
      simp [Custody.abandon]
    · simpa [Custody.abandon, Function.update_of_ne same] using sound.once k'
  · exact fun k₁ k₂ a first second => sound.apart _ _ a (still first).2 (still second).2
  · intro k' a member lost
    obtain ⟨other, held⟩ := still member
    rcases List.mem_append.1 lost with old | new
    · exact sound.kept _ a held old
    · exact other (sound.apart _ _ a held new)
  · intro a
    rw [show (s.abandon k).heap = s.heap from rfl, sound.covered]
    constructor
    · rintro (⟨k', held⟩ | lost)
      · by_cases same : k' = k
        · subst same
          exact .inr (List.mem_append_right _ held)
        · exact .inl ⟨k', by simpa [Custody.abandon, Function.update_of_ne same] using held⟩
      · exact .inr (List.mem_append_left _ lost)
    · rintro (⟨k', held⟩ | lost)
      · exact .inl ⟨k', (still held).2⟩
      · rcases List.mem_append.1 lost with old | new
        · exact .inr old
        · exact .inl ⟨k, new⟩

omit [DecidableEq K] [DecidableEq A] in
/-- The blocks held are all there are exactly when none was lost. -/
theorem Sound.covers_iff {s : Custody K A} (sound : s.Sound) :
    (∀ a, a ∈ s.heap ↔ ∃ k, a ∈ s.held k) ↔ s.lost = [] := by
  constructor
  · intro all
    rw [List.eq_nil_iff_forall_not_mem]
    intro a lost
    obtain ⟨k, held⟩ := (all a).1 ((sound.covered a).2 (.inr lost))
    exact sound.kept k a held lost
  · intro none a
    rw [sound.covered, none]
    simp

end Custody

end Xrtc.Lib
