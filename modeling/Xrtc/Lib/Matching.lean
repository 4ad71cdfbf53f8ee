import Mathlib.Logic.Function.Basic

/-!
# Tables whose entries own a handle

`Matched table handle live key`: the entries of `table` and the handles that are `live` are in
one-to-one correspondence, an entry pointing to its handle by `handle` and the handle back to the
entry's key by `key`.
-/

namespace Xrtc.Lib

variable {K I C W : Type*}

structure Matched (table : K → Option C) (handle : C → I) (live : I → Option W) (key : W → K) : Prop where
  owned : ∀ i w, live i = some w → ∃ c, table (key w) = some c ∧ handle c = i
  owns : ∀ k c, table k = some c → ∃ w, live (handle c) = some w ∧ key w = k

theorem update_cases {A B : Type*} [DecidableEq A] {f : A → B} {a x : A} {entry y : B}
    (found : Function.update f a entry x = y) : x = a ∧ entry = y ∨ x ≠ a ∧ f x = y := by
  by_cases same : x = a
  · subst same
    rw [Function.update_self] at found
    exact .inl ⟨rfl, found⟩
  · rw [Function.update_of_ne same] at found
    exact .inr ⟨same, found⟩

namespace Matched

variable {table : K → Option C} {handle : C → I} {live : I → Option W} {key : W → K}
variable {k : K} {c c' : C} {i : I} {w : W}

theorem empty : Matched (fun _ : K => (none : Option C)) handle (fun _ => none) key :=
  ⟨fun _ _ found => by simp at found, fun _ _ held => by simp at held⟩

theorem handle_inj (matched : Matched table handle live key) {k' : K} (held : table k = some c)
    (held' : table k' = some c') (same : handle c = handle c') : k = k' := by
  obtain ⟨w, found, rfl⟩ := matched.owns k c held
  obtain ⟨w', found', rfl⟩ := matched.owns k' c' held'
  rw [same, found'] at found
  rw [Option.some.inj found]

/-- The handles that point to a key are the one handle of its entry. -/
theorem live_iff (matched : Matched table handle live key) (held : table k = some c) :
    (∃ w, live i = some w ∧ key w = k) ↔ i = handle c := by
  constructor
  · rintro ⟨w, found, rfl⟩
    obtain ⟨c', held', rfl⟩ := matched.owned i w found
    rw [Option.some.inj (held.symm.trans held')]
  · rintro rfl
    exact matched.owns k c held

theorem held_of_live (matched : Matched table handle live key) (found : live i = some w) :
    table (key w) ≠ none := by
  obtain ⟨c, held, -⟩ := matched.owned i w found
  simp [held]

/-- A key is in use exactly when there is one handle that points to it. -/
theorem held_iff_existsUnique (matched : Matched table handle live key) :
    table k ≠ none ↔ ∃! i, ∃ w, live i = some w ∧ key w = k := by
  constructor
  · intro inUse
    obtain ⟨c, held⟩ := Option.ne_none_iff_exists'.1 inUse
    exact ⟨handle c, (matched.live_iff held).2 rfl, fun i found => (matched.live_iff held).1 found⟩
  · rintro ⟨i, ⟨w, found, rfl⟩, -⟩
    exact matched.held_of_live found

variable [DecidableEq K] [DecidableEq I]

theorem add (matched : Matched table handle live key) (free : table k = none)
    (unused : live (handle c) = none) (points : key w = k) :
    Matched (Function.update table k (some c)) handle
      (Function.update live (handle c) (some w)) key := by
  constructor
  · intro i w' found
    rcases update_cases found with ⟨rfl, new⟩ | ⟨-, found⟩
    · obtain rfl := Option.some.inj new
      exact ⟨c, by rw [points, Function.update_self], rfl⟩
    · obtain ⟨c', held, rfl⟩ := matched.owned i w' found
      have other : key w' ≠ k := by
        intro same
        rw [same, free] at held
        cases held
      exact ⟨c', by rwa [Function.update_of_ne other], rfl⟩
  · intro k' c' held
    rcases update_cases held with ⟨rfl, new⟩ | ⟨-, held⟩
    · obtain rfl := Option.some.inj new
      exact ⟨w, Function.update_self .., points⟩
    · obtain ⟨w', found, at_key⟩ := matched.owns k' c' held
      have other : handle c' ≠ handle c := by
        intro same
        rw [same, unused] at found
        cases found
      exact ⟨w', by rwa [Function.update_of_ne other], at_key⟩

theorem remove (matched : Matched table handle live key) (held : table k = some c) :
    Matched (Function.update table k none) handle (Function.update live (handle c) none) key := by
  constructor
  · intro i w' found
    rcases update_cases found with ⟨-, new⟩ | ⟨other, found⟩
    · cases new
    · obtain ⟨c', held', rfl⟩ := matched.owned i w' found
      have elsewhere : key w' ≠ k := by
        intro same
        rw [same, held] at held'
        exact other (congrArg handle (Option.some.inj held').symm)
      exact ⟨c', by rwa [Function.update_of_ne elsewhere], rfl⟩
  · intro k' c' held'
    rcases update_cases held' with ⟨-, new⟩ | ⟨other, held'⟩
    · cases new
    · obtain ⟨w', found, at_key⟩ := matched.owns k' c' held'
      have apart : handle c' ≠ handle c := fun same => other (matched.handle_inj held' held same)
      exact ⟨w', by rwa [Function.update_of_ne apart], at_key⟩

theorem change (matched : Matched table handle live key) (held : table k = some c)
    (same : handle c' = handle c) (points : key w = k) :
    Matched (Function.update table k (some c')) handle
      (Function.update live (handle c) (some w)) key := by
  have without := matched.remove held
  have back := without.add (c := c') (w := w) (Function.update_self ..)
    (by rw [same, Function.update_self]) points
  rwa [Function.update_idem, same, Function.update_idem] at back

theorem change_entry (matched : Matched table handle live key) (held : table k = some c)
    (same : handle c' = handle c) : Matched (Function.update table k (some c')) handle live key := by
  obtain ⟨w, found, points⟩ := matched.owns k c held
  have changed := matched.change held same points
  rwa [← found, Function.update_eq_self] at changed

end Matched

end Xrtc.Lib
