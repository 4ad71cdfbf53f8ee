import Xrtc.Proof.LockFreeQueue

/-!
# The counter of the lock-free queue
-/

namespace Xrtc.Proof.QueueSize
open Base Lib LockFreeQueue

variable {T : Type} {s s' : QueueThreads T}

/-! ## What the counter counts -/

/-- `late` elements are published and not yet counted, `kept` ones are taken and still counted. -/
structure Tally where
  size : Int
  published : Nat
  late : Nat
  taken : Nat
  kept : Nat

def late : Producing T → Nat
  | .count => 1
  | _ => 0

theorem late_le_one (producer : Producing T) : late producer ≤ 1 := by
  cases producer with
  | count => exact Nat.le_refl 1
  | _ => exact Nat.zero_le 1

def kept : Consuming T → Nat
  | .count _ => 1
  | _ => 0

def tally (s : QueueThreads T) : Tally :=
  ⟨s.q.size, s.published.length, late s.producer, s.taken.length, kept s.consumer⟩

inductive Tick (before : Tally) : QueueAction T → Tally → Prop
  | still (action : QueueAction T) : Tick before action before
  | publish (none_late : before.late = 0) :
      Tick before .producer { before with published := before.published + 1, late := 1 }
  | countUp (one_late : before.late = 1) : Tick before .producer { before with size := before.size + 1, late := 0 }
  | move (none_kept : before.kept = 0) :
      Tick before .consumer { before with taken := before.taken + 1, kept := 1 }
  | countDown (one_kept : before.kept = 1) :
      Tick before .consumer { before with size := before.size - 1, kept := 0 }

theorem Tick.of_eq {before after after' : Tally} {action : QueueAction T} (tick : Tick before action after)
    (same : after' = after) : Tick before action after' :=
  same ▸ tick

section
variable {q q' : Base.LockFreeQueue T}

theorem size_of_update {α : Type} {load : Except NodeFault α} (update : α → Base.LockFreeQueue T)
    (same : ∀ a, (update a).size = q.size) (done : (do return update (← load)) = Except.ok q') :
    q'.size = q.size := by
  obtain ⟨a, -, done⟩ := bind_eq_ok done
  cases done
  exact same a

theorem link_size {t : T} {addr : Nat} (linked : q.link t addr = .ok q') : q'.size = q.size :=
  size_of_update (fun node : Node T => { q with
    heap := Function.update (Function.update q.heap addr (some ⟨t, none⟩)) q.last
      (some { node with next := some addr }) }) (fun _ => rfl) linked

theorem publish_size (published : q.publish = .ok q') : q'.size = q.size :=
  size_of_update (fun last => { q with last := last }) (fun _ => rfl) published

theorem advance_size (advanced : q.advance = .ok q') : q'.size = q.size :=
  size_of_update (fun first => { q with first := first }) (fun _ => rfl) advanced

theorem delete_size {temp : Nat} (deleted : q.delete temp = .ok q') : q'.size = q.size :=
  size_of_update (fun _ => { q with heap := Function.update q.heap temp none }) (fun _ => rfl) deleted

theorem move_size (moved : q.move = .ok q') : q'.size = q.size :=
  size_of_update (fun divider => { q with divider := divider }) (fun _ => rfl) moved

end

theorem produce_tick {t : T} {addr : Nat} (done : s.event (.produce t addr) = some (.ok s')) :
    Tick (tally s) (.produce t addr) (tally s') := by
  unfold QueueThreads.event at done
  cases turn : s.producer with
  | idle =>
      simp only [turn] at done
      split at done
      · obtain ⟨q, linked, done⟩ := bind_eq_ok (Option.some.inj done)
        cases done
        exact (Tick.still _).of_eq (by simp [tally, turn, late, link_size linked])
      · cases done
  | _ => simp [turn] at done

theorem producer_tick (done : s.event .producer = some (.ok s')) :
    Tick (tally s) (.producer : QueueAction T) (tally s') := by
  cases producer_inv done with
  | publish turn published =>
      exact (Tick.publish (by simp [tally, turn, late])).of_eq (by simp [tally, late, publish_size published])
  | count turn => exact Tick.countUp (by simp [tally, turn, late])
  | test turn =>
      refine (Tick.still _).of_eq ?_
      by_cases stale : s.q.divider ≠ s.q.first
      · simp [tally, turn, late, stale]
      · simp [tally, turn, late, not_not.1 stale]
  | begin turn => exact (Tick.still _).of_eq (by simp [tally, turn, late])
  | advance turn advanced =>
      exact (Tick.still _).of_eq (by simp [tally, turn, late, advance_size advanced])
  | delete turn deleted => exact (Tick.still _).of_eq (by simp [tally, turn, late, delete_size deleted])

theorem consume_tick (done : s.event .consume = some (.ok s')) :
    Tick (tally s) (.consume : QueueAction T) (tally s') := by
  unfold QueueThreads.event at done
  cases turn : s.consumer with
  | idle =>
      simp only [turn] at done
      cases done
      refine (Tick.still _).of_eq ?_
      cases filled : s.isFilled with
      | true => simp [tally, turn, kept]
      | false => simp [tally, turn, kept]
  | _ => simp [turn] at done

theorem consumer_tick (done : s.event .consumer = some (.ok s')) :
    Tick (tally s) (.consumer : QueueAction T) (tally s') := by
  cases consumer_inv done with
  | read turn => exact (Tick.still _).of_eq (by simp [tally, turn, kept])
  | move turn moved =>
      exact (Tick.move (by simp [tally, turn, kept])).of_eq (by simp [tally, kept, move_size moved])
  | count turn => exact Tick.countDown (by simp [tally, turn, kept])
  | leave turn => exact (Tick.still _).of_eq (by simp [tally, turn, kept])

theorem step_tick {action : QueueAction T} (taken : s.step action = some s') :
    Tick (tally s) action (tally s') := by
  have done := step_inv taken
  cases action with
  | produce t addr => exact produce_tick done
  | producer => exact producer_tick done
  | consume => exact consume_tick done
  | consumer => exact consumer_tick done

def Counted (t : Tally) : Prop := t.size + t.late + t.taken = t.published + t.kept

theorem Counted.tick {t t' : Tally} {action : QueueAction T} (counted : Counted t) (tick : Tick t action t') :
    Counted t' := by
  unfold Counted at counted ⊢
  cases tick with
  | still => exact counted
  | _ => dsimp only; omega

theorem reachable_counted [Inhabited T] {addr : Nat}
    (reachable : Reachable QueueThreads.step Always (QueueThreads.start addr) s) : Counted (tally s) := by
  induction reachable with
  | start => rfl
  | next _ _ taken ih => exact ih.tick (step_tick taken)

/-! ## What `size` and `empty` return -/

def Quiet (s : QueueThreads T) : Prop := s.producer = .idle ∧ s.consumer = .idle

structure Meaningful (s : QueueThreads T) : Prop where
  nonneg : 0 ≤ s.q.loadSize
  counts : Quiet s → s.q.loadSize = (s.produced.length : Int) - s.returned.length
  nonempty : Quiet s → s.isFilled = true → s.q.empty = false

/-- `size_ --` for the only published element, which `produce` has still to count; or `size_ ++` at the
largest `int`. -/
def Miscounts (s : QueueThreads T) : QueueAction T → Prop
  | .consumer => kept s.consumer = 1 ∧ late s.producer = 1 ∧ s.published.length = s.taken.length
  | .producer => late s.producer = 1 ∧ s.published.length + kept s.consumer = s.taken.length + 2 ^ 31
  | _ => False

def InRange (s : QueueThreads T) : Prop := 0 ≤ s.q.size ∧ s.q.size < 2 ^ 31

theorem InRange.loadSize (range : InRange s) : s.q.loadSize = s.q.size := by
  obtain ⟨nonneg, bound⟩ := range
  exact Int.bmod_eq_of_le (by omega) (by omega)

theorem InRange.meaningful [Inhabited T] {addr : Nat} (range : InRange s)
    (reachable : Reachable QueueThreads.step Always (QueueThreads.start addr) s) : Meaningful s := by
  obtain ⟨live, gone, stale, mark, ready, hidden, shape⟩ := reachable_intact reachable
  have counted := reachable_counted reachable
  have exactly : Quiet s → s.q.size = ready.length := by
    rintro ⟨producer, consumer⟩
    have published := congrArg List.length shape.published
    simp only [List.length_append, List.length_map] at published
    simp only [Counted, tally, producer, consumer, late, kept] at counted
    omega
  constructor
  case nonneg =>
    rw [range.loadSize]
    exact range.1
  case counts =>
    intro quiet
    have at_producer := shape.producer
    have at_consumer := shape.consumer
    rw [quiet.1] at at_producer
    rw [quiet.2] at at_consumer
    have same : s.taken = s.returned := at_consumer
    have produced := congrArg List.length shape.produced
    simp only [at_producer.2, List.map_nil, List.append_nil, List.length_append, List.length_map, same] at produced
    rw [range.loadSize, exactly quiet]
    omega
  case nonempty =>
    intro quiet filled
    have some_ready := List.length_pos_iff.2 (shape.isFilled_iff.1 filled)
    rw [Base.LockFreeQueue.empty, range.loadSize, exactly quiet]
    exact decide_eq_false (by omega)

theorem taken_le [Inhabited T] {addr : Nat}
    (reachable : Reachable QueueThreads.step Always (QueueThreads.start addr) s) :
    s.taken.length ≤ s.published.length := by
  obtain ⟨live, gone, stale, mark, ready, hidden, shape⟩ := reachable_intact reachable
  rw [shape.published, List.length_append]
  exact Nat.le_add_right _ _

theorem InRange.kept [Inhabited T] {addr : Nat} {action : QueueAction T}
    (reachable : Reachable QueueThreads.step Always (QueueThreads.start addr) s) (range : InRange s)
    (right : ¬ Miscounts s action) (taken : s.step action = some s') : InRange s' := by
  have counted := reachable_counted reachable
  have within := taken_le reachable
  have tick := step_tick taken
  obtain ⟨nonneg, bound⟩ := range
  change 0 ≤ (tally s').size ∧ (tally s').size < 2 ^ 31
  generalize tally s' = after at tick
  simp only [Counted, tally] at counted
  cases tick with
  | still => exact ⟨nonneg, bound⟩
  | publish => exact ⟨nonneg, bound⟩
  | move => exact ⟨nonneg, bound⟩
  | countUp one_late =>
      simp only [tally] at one_late
      have room := not_and.1 right one_late
      dsimp only [tally]
      omega
  | countDown one_kept =>
      simp only [tally] at one_kept
      have pair := not_and.1 right one_kept
      dsimp only [tally]
      have small := late_le_one s.producer
      omega

theorem miscounts_shows [Inhabited T] {addr : Nat} {action : QueueAction T}
    (reachable : Reachable QueueThreads.step Always (QueueThreads.start addr) s) (wrong : Miscounts s action) :
    ∃ s', s.step action = some s' ∧ ¬ Meaningful s' := by
  have counted := reachable_counted reachable
  simp only [Counted, tally] at counted
  cases action with
  | produce t addr => cases wrong
  | consume => cases wrong
  | producer =>
      obtain ⟨one_late, full⟩ := wrong
      cases turn : s.producer with
      | count =>
          refine ⟨{ s with q := { s.q with size := s.q.size + 1 }, producer := .test },
            by simp only [QueueThreads.step, QueueThreads.event, QueueThreads.produceStep, turn], ?_⟩
          intro meaningful
          have size : s.q.size + 1 = 2 ^ 31 := by omega
          have nonneg := meaningful.nonneg
          simp only [Base.LockFreeQueue.loadSize, size] at nonneg
          exact absurd nonneg (by decide)
      | _ => simp [turn, late] at one_late
  | consumer =>
      obtain ⟨one_kept, one_late, only⟩ := wrong
      cases turn : s.consumer with
      | count value =>
          refine ⟨{ s with q := { s.q with size := s.q.size - 1 }, consumer := .leave value },
            by simp only [QueueThreads.step, QueueThreads.event, QueueThreads.consumeStep, turn], ?_⟩
          intro meaningful
          have size : s.q.size - 1 = -1 := by omega
          have nonneg := meaningful.nonneg
          simp only [Base.LockFreeQueue.loadSize, size] at nonneg
          exact absurd nonneg (by decide)
      | _ => simp [turn, QueueSize.kept] at one_kept

/-- In a run of the two threads the counter is right all along exactly if `consume` never counts an element
out before `produce` has counted it in, with nothing else counted, and no more than the largest `int`
are counted. -/
theorem counter_meaningful_iff [Inhabited T] (addr : Nat) (actions : List (QueueAction T)) :
    (∀ done s, done <+: actions → runLabels QueueThreads.step (QueueThreads.start addr) done = some s →
      Meaningful s) ↔
    ∀ done action s, done ++ [action] <+: actions →
      runLabels QueueThreads.step (QueueThreads.start addr) done = some s → ¬ Miscounts s action := by
  have initial : InRange (QueueThreads.start addr : QueueThreads T) := ⟨Int.le_refl 0, Int.pow_pos (by decide)⟩
  apply runs_good_iff initial
  · intro s reachable range
    exact range.meaningful reachable
  · intro s action s' reachable range right taken
    exact range.kept reachable right taken
  · intro s action reachable _ wrong
    exact miscounts_shows reachable wrong

/-- `consume` takes the element and counts it out before `produce` has counted it in. -/
theorem overtaken_negative :
    ∃ s : QueueThreads Nat, runLabels QueueThreads.step (QueueThreads.start 0)
        [.produce 7 1, .producer, .consume, .consumer, .consumer, .consumer] = some s ∧
      s.q.loadSize = -1 ∧ ¬ Meaningful s := by
  obtain ⟨s, run, holds⟩ := Option.map_eq_some_iff.1 (show (runLabels QueueThreads.step (QueueThreads.start 0)
    [.produce 7 1, .producer, .consume, .consumer, .consumer, .consumer]).map
      (fun s : QueueThreads Nat => s.q.loadSize) = some (-1) by decide)
  refine ⟨s, run, holds, fun meaningful => ?_⟩
  have nonneg := meaningful.nonneg
  rw [holds] at nonneg
  exact absurd nonneg (by decide)

end Xrtc.Proof.QueueSize
