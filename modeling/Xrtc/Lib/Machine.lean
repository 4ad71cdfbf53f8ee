import Mathlib.Data.Fintype.Card
import Mathlib.Data.List.Induction
import Mathlib.Logic.Relation
import Mathlib.Order.WellFounded

/-!
# Runs of a partial labelled step function

A machine is a function `step : σ → ℓ → Option σ`; a label that gives `none` is not enabled.
`Reachable step admits start` are the states of the runs whose every label is let through by
`admits` in the state in which it is taken, so a run of the machine in any order of its labels is
the case `admits = fun _ _ => True`.
-/

namespace Xrtc.Lib

variable {σ ℓ : Type*}

/-- A computation that may fail, taken apart at its first statement. -/
theorem bind_eq_ok {ε α β : Type} {x : Except ε α} {f : α → Except ε β} {b : β} (done : x >>= f = .ok b) :
    ∃ a, x = .ok a ∧ f a = .ok b := by
  cases x with
  | error e => cases done
  | ok a => exact ⟨a, rfl, done⟩

theorem run_bind_ok {ε τ α β : Type} {x : EStateM ε τ α} {f : α → EStateM ε τ β} {t t' : τ} {a : α}
    (ran : x t = .ok a t') : (x >>= f) t = f a t' := by
  change EStateM.bind x f t = f a t'
  rw [EStateM.bind, ran]

theorem run_bind_error {ε τ α β : Type} {x : EStateM ε τ α} {f : α → EStateM ε τ β} {t t' : τ} {e : ε}
    (ran : x t = .error e t') : (x >>= f) t = .error e t' := by
  change EStateM.bind x f t = .error e t'
  rw [EStateM.bind, ran]

inductive Reachable (step : σ → ℓ → Option σ) (admits : σ → ℓ → Prop) (start : σ) : σ → Prop
  | start : Reachable step admits start start
  | next {s s' : σ} {l : ℓ} : Reachable step admits start s → admits s l → step s l = some s' →
      Reachable step admits start s'

def Always (_ : σ) (_ : ℓ) : Prop := True

theorem Reachable.invariant {step : σ → ℓ → Option σ} {admits : σ → ℓ → Prop} {start s : σ}
    {Inv : σ → Prop} (initial : Inv start)
    (preserved : ∀ s s' l, Inv s → admits s l → step s l = some s' → Inv s')
    (reachable : Reachable step admits start s) : Inv s := by
  induction reachable with
  | start => exact initial
  | next _ admitted taken ih => exact preserved _ _ _ ih admitted taken

/-- An invariant that needs another one of the states it passes through. -/
theorem Reachable.invariant_with {step : σ → ℓ → Option σ} {admits : σ → ℓ → Prop} {start s : σ}
    {Known Inv : σ → Prop} (known : ∀ s, Reachable step admits start s → Known s)
    (initial : Inv start)
    (preserved : ∀ s s' l, Known s → Inv s → admits s l → step s l = some s' → Inv s')
    (reachable : Reachable step admits start s) : Inv s := by
  induction reachable with
  | start => exact initial
  | next before admitted taken ih => exact preserved _ _ _ (known _ before) ih admitted taken

theorem Reachable.mono {step : σ → ℓ → Option σ} {admits admits' : σ → ℓ → Prop} {start s : σ}
    (weaker : ∀ s l, admits s l → admits' s l) (reachable : Reachable step admits start s) :
    Reachable step admits' start s := by
  induction reachable with
  | start => exact .start
  | next _ admitted taken ih => exact .next ih (weaker _ _ admitted) taken

def runLabels (step : σ → ℓ → Option σ) : σ → List ℓ → Option σ
  | s, [] => some s
  | s, l :: labels => (step s l).bind fun s' => runLabels step s' labels

/-- `step` restricted to the labels that pass a test. -/
def guarded (test : σ → ℓ → Bool) (step : σ → ℓ → Option σ) (s : σ) (l : ℓ) : Option σ :=
  if test s l then step s l else none

theorem reachable_of_runLabels {step : σ → ℓ → Option σ} {admits : σ → ℓ → Prop} {test : σ → ℓ → Bool}
    (sound : ∀ s l, test s l = true → admits s l) {start s s' : σ} {labels : List ℓ}
    (reachable : Reachable step admits start s) (run : runLabels (guarded test step) s labels = some s') :
    Reachable step admits start s' := by
  induction labels generalizing s with
  | nil =>
      cases run
      exact reachable
  | cons l labels ih =>
      obtain ⟨middle, taken, rest⟩ := Option.bind_eq_some_iff.mp run
      unfold guarded at taken
      split at taken
      · next passed => exact ih (.next reachable (sound s l passed) taken) rest
      · cases taken

def always (_ : σ) (_ : ℓ) : Bool := true

theorem always_sound (s : σ) (l : ℓ) (_ : always s l = true) : Always s l := trivial

/-- A run of fixed labels that ends in a state where the test `p` holds. -/
theorem exists_reachable_of_runLabels (step : σ → ℓ → Option σ) {admits : σ → ℓ → Prop}
    {test : σ → ℓ → Bool} (sound : ∀ s l, test s l = true → admits s l) (start : σ) (labels : List ℓ)
    (p : σ → Bool) (run : (runLabels (guarded test step) start labels).map p = some true) :
    ∃ s, Reachable step admits start s ∧ p s = true := by
  obtain ⟨s, ends, holds⟩ := Option.map_eq_some_iff.mp run
  exact ⟨s, reachable_of_runLabels sound .start ends, holds⟩

/-- A total machine shows what an abstract one does after every prefix of the labels, exactly when
no label is taken in a state in which the two part. -/
theorem view_foldl_iff {τ : Type*} {step : σ → ℓ → σ} {spec : τ → ℓ → τ} {view : σ → τ}
    {Parts : σ → ℓ → Prop} (one : ∀ s l, view (step s l) = spec (view s) l ↔ ¬ Parts s l) (start : σ)
    (labels : List ℓ) :
    (∀ done, done <+: labels → view (done.foldl step start) = done.foldl spec (view start)) ↔
      ∀ done l, done ++ [l] <+: labels → ¬ Parts (done.foldl step start) l := by
  constructor
  · intro agree done l next parts
    have before := agree done ((List.prefix_append done [l]).trans next)
    have after := agree (done ++ [l]) next
    simp only [List.foldl_append, List.foldl_cons, List.foldl_nil, ← before] at after
    exact (one _ l).1 after parts
  · intro together done
    induction done using List.reverseRecOn with
    | nil => exact fun _ => rfl
    | append_singleton done l ih =>
        intro next
        have before := ih ((List.prefix_append done [l]).trans next)
        simp only [List.foldl_append, List.foldl_cons, List.foldl_nil, ← before]
        exact (one _ l).2 (together done l next)

theorem runLabels_append (step : σ → ℓ → Option σ) (s : σ) (front back : List ℓ) :
    runLabels step s (front ++ back) = (runLabels step s front).bind fun s' => runLabels step s' back := by
  induction front generalizing s with
  | nil => rfl
  | cons l front ih =>
      simp only [List.cons_append, runLabels]
      cases step s l with
      | none => rfl
      | some s' => exact ih s'

theorem runLabels_concat {step : σ → ℓ → Option σ} {s s' : σ} {labels : List ℓ} {l : ℓ} :
    runLabels step s (labels ++ [l]) = some s' ↔
      ∃ before, runLabels step s labels = some before ∧ step before l = some s' := by
  rw [runLabels_append, Option.bind_eq_some_iff]
  simp only [runLabels, Option.bind_fun_some]

theorem reachable_runLabels {step : σ → ℓ → Option σ} {start s s' : σ} {labels : List ℓ}
    (reachable : Reachable step Always start s) (run : runLabels step s labels = some s') :
    Reachable step Always start s' := by
  have unguarded : guarded always step = step := rfl
  rw [← unguarded] at run
  exact reachable_of_runLabels always_sound reachable run

/-- When `Range` is left at the labels that break it and there at once visibly, a run is good all along exactly
if it has no such label. -/
theorem runs_good_iff {step : σ → ℓ → Option σ} {start : σ} {Good Range : σ → Prop} {Breaks : σ → ℓ → Prop}
    (initial : Range start) (good : ∀ s, Reachable step Always start s → Range s → Good s)
    (kept : ∀ s l s', Reachable step Always start s → Range s → ¬ Breaks s l → step s l = some s' → Range s')
    (broken : ∀ s l, Reachable step Always start s → Range s → Breaks s l → ∃ s', step s l = some s' ∧ ¬ Good s')
    (labels : List ℓ) :
    (∀ done s, done <+: labels → runLabels step start done = some s → Good s) ↔
      ∀ done l s, done ++ [l] <+: labels → runLabels step start done = some s → ¬ Breaks s l := by
  have stays : (∀ done l s s', done ++ [l] <+: labels → runLabels step start done = some s →
      step s l = some s' → Range s → Range s') →
      ∀ done s, done <+: labels → runLabels step start done = some s → Range s := by
    intro one done
    induction done using List.reverseRecOn with
    | nil =>
        intro s _ run
        cases run
        exact initial
    | append_singleton done l ih =>
        intro s next run
        obtain ⟨before, earlier, taken⟩ := runLabels_concat.1 run
        exact one done l before s next earlier taken
          (ih before ((List.prefix_append done [l]).trans next) earlier)
  constructor
  · intro always done l s next run breaks
    have range := stays (fun done l s s' next run taken range => ?_) done s
      ((List.prefix_append done [l]).trans next) run
    · obtain ⟨s', taken, bad⟩ := broken s l (reachable_runLabels .start run) range breaks
      exact bad (always (done ++ [l]) s' next (runLabels_concat.2 ⟨s, run, taken⟩))
    · refine kept s l s' (reachable_runLabels .start run) range (fun breaks => ?_) taken
      obtain ⟨bad, took, worse⟩ := broken s l (reachable_runLabels .start run) range breaks
      obtain rfl := Option.some.inj (taken.symm.trans took)
      exact worse (always (done ++ [l]) s' next (runLabels_concat.2 ⟨s, run, taken⟩))
  · intro never done s within run
    refine good s (reachable_runLabels .start run) (stays ?_ done s within run)
    intro done l s s' next run taken range
    exact kept s l s' (reachable_runLabels .start run) range (never done l s next run) taken

/-! A list of calls under way, to which calls are appended and in which single ones are replaced. -/

theorem getElem?_concat_cases {α : Type*} {xs : List α} {x y : α} {i : Nat} (found : (xs ++ [x])[i]? = some y) :
    xs[i]? = some y ∨ y = x := by
  rcases Nat.lt_or_ge i xs.length with inside | beyond
  · rw [List.getElem?_append_left inside] at found
    exact .inl found
  · rw [List.getElem?_append_right beyond] at found
    exact .inr (List.mem_singleton.1 (List.mem_of_getElem? found))

theorem getElem?_set_cases {α : Type*} {xs : List α} {x y : α} {i j : Nat} (found : (xs.set i x)[j]? = some y) :
    (j = i ∧ y = x) ∨ xs[j]? = some y := by
  by_cases here : i = j
  · subst here
    obtain ⟨inside, same⟩ := List.getElem?_eq_some_iff.1 found
    rw [List.getElem_set_self] at same
    exact .inl ⟨rfl, same.symm⟩
  · rw [List.getElem?_set_ne here] at found
    exact .inr found

/-- In a finite set, a walk that can always go on runs into a cycle. -/
theorem exists_cycle {α : Type*} [Finite α] {next : α → α → Prop} (stays : α → Prop)
    (serial : ∀ a, stays a → ∃ b, next a b ∧ stays b) {a : α} (start : stays a) :
    ∃ b, Relation.TransGen next b b := by
  by_contra acyclic
  have irrefl : Std.Irrefl (Relation.TransGen (Function.swap next)) :=
    ⟨fun b cycle => acyclic ⟨b, Relation.transGen_swap.1 cycle⟩⟩
  have founded := Finite.wellFounded_of_trans_of_irrefl (Relation.TransGen (Function.swap next))
  obtain ⟨least, holds, minimal⟩ := founded.has_min {b | stays b} ⟨a, start⟩
  obtain ⟨b, step, still⟩ := serial least holds
  exact minimal b still (.single step)

end Xrtc.Lib
