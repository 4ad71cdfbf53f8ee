import Xrtc.Base.LockFreeQueue
import Xrtc.Lib.Machine

/-!
# The lock-free queue is a queue

The nodes of the queue are one linked list in every state of the two threads: a node that the producer
is about to delete, the stale nodes before the one `divider` marks, the marked node, the nodes that
are ready for the consumer, and a node that is linked and not yet published.
-/

namespace Xrtc.Proof.LockFreeQueue
open Base Lib Chain

variable {T : Type}

/-! ## The statements -/

section Statements

variable {q : Base.LockFreeQueue T} {a b : Nat} {x y : T} {link : Option Nat}

theorem load_eq (held : q.heap a = some ⟨x, link⟩) : q.load a = .ok ⟨x, link⟩ := by
  rw [LockFreeQueue.load, held]

theorem next_eq (held : q.heap a = some ⟨x, some b⟩) : q.next a = .ok b := by
  rw [LockFreeQueue.next, load_eq held]
  rfl

theorem link_eq (t : T) (addr : Nat) (held : q.heap q.last = some ⟨x, link⟩) : q.link t addr = .ok { q with
    heap := Function.update (Function.update q.heap addr (some ⟨t, none⟩)) q.last (some ⟨x, some addr⟩) } := by
  rw [LockFreeQueue.link, load_eq held]
  rfl

theorem publish_eq (held : q.heap q.last = some ⟨x, some b⟩) : q.publish = .ok { q with last := b } := by
  rw [LockFreeQueue.publish, next_eq held]
  rfl

theorem advance_eq (held : q.heap q.first = some ⟨x, some b⟩) : q.advance = .ok { q with first := b } := by
  rw [LockFreeQueue.advance, next_eq held]
  rfl

theorem delete_eq (held : q.heap a = some ⟨x, link⟩) :
    q.delete a = .ok { q with heap := Function.update q.heap a none } := by
  rw [LockFreeQueue.delete, load_eq held]
  rfl

theorem front_eq (held : q.heap q.divider = some ⟨x, some b⟩) (held' : q.heap b = some ⟨y, link⟩) :
    q.front = .ok y := by
  rw [LockFreeQueue.front, next_eq held]
  change (do return (← q.load b).data) = _
  rw [load_eq held']
  rfl

theorem move_eq (held : q.heap q.divider = some ⟨x, some b⟩) : q.move = .ok { q with divider := b } := by
  rw [LockFreeQueue.move, next_eq held]
  rfl

end Statements

/-! ## The shape of the list -/

abbrev Nodes (T : Type) := List (Nat × T)

def ProducerAt (first : Nat) (gone stale hidden : Nodes T) : Producing T → Prop
  | .publish t => gone = [] ∧ ∃ addr, hidden = [(addr, t)]
  | .begin => gone = [] ∧ hidden = [] ∧ stale ≠ []
  | .advance temp => gone = [] ∧ hidden = [] ∧ stale ≠ [] ∧ temp = first
  | .delete temp => hidden = [] ∧ ∃ x, gone = [(temp, x)]
  | _ => gone = [] ∧ hidden = []

def ConsumerAt (taken returned : List T) (ready : Nodes T) : Consuming T → Prop
  | .idle => taken = returned
  | .read => taken = returned ∧ ready ≠ []
  | .move result => taken = returned ∧ ∃ addr rest, ready = (addr, result) :: rest
  | .count result => taken = returned ++ [result]
  | .leave result => taken = returned ++ [result]

theorem ConsumerAt.more {taken returned : List T} {ready : Nodes T} {consumer : Consuming T}
    (at_consumer : ConsumerAt taken returned ready consumer) (nodes : Nodes T) :
    ConsumerAt taken returned (ready ++ nodes) consumer := by
  cases consumer with
  | read => exact ⟨at_consumer.1, by simp [at_consumer.2]⟩
  | move result =>
      obtain ⟨same, addr, rest, rfl⟩ := at_consumer
      exact ⟨same, addr, rest ++ nodes, rfl⟩
  | _ => exact at_consumer

theorem ConsumerAt.pending {taken returned : List T} {ready : Nodes T} {consumer : Consuming T}
    (at_consumer : ConsumerAt taken returned ready consumer) : returned <+: taken := by
  cases consumer with
  | idle => exact ⟨[], (List.append_nil _).trans at_consumer.symm⟩
  | read => exact ⟨[], (List.append_nil _).trans at_consumer.1.symm⟩
  | move result => exact ⟨[], (List.append_nil _).trans at_consumer.1.symm⟩
  | count result => exact ⟨[result], at_consumer.symm⟩
  | leave result => exact ⟨[result], at_consumer.symm⟩

theorem ProducerAt.more {first : Nat} {gone stale hidden : Nodes T} {producer : Producing T}
    (at_producer : ProducerAt first gone stale hidden producer) (nodes : Nodes T) :
    ProducerAt first gone (stale ++ nodes) hidden producer := by
  cases producer with
  | begin => exact ⟨at_producer.1, at_producer.2.1, by simp [at_producer.2.2]⟩
  | advance temp =>
      obtain ⟨none, unhidden, some, at_first⟩ := at_producer
      exact ⟨none, unhidden, by simp [some], at_first⟩
  | _ => exact at_producer

/-- `live` are the nodes that are allocated. -/
structure Shape (s : QueueThreads T) (live gone stale : Nodes T) (mark : T) (ready hidden : Nodes T) :
    Prop where
  split : live = gone ++ stale ++ (s.q.divider, mark) :: ready ++ hidden
  heap : s.q.heap = cells live
  nodup : (addrs live).Nodup
  first : ∃ x rest, stale ++ [(s.q.divider, mark)] = (s.q.first, x) :: rest
  last : ∃ before x, (s.q.divider, mark) :: ready = before ++ [(s.q.last, x)]
  created : s.created = s.deleted ++ addrs live
  produced : s.produced = s.taken ++ ready.map Prod.snd ++ hidden.map Prod.snd
  published : s.published = s.taken ++ ready.map Prod.snd
  producer : ProducerAt s.q.first gone stale hidden s.producer
  consumer : ConsumerAt s.taken s.returned ready s.consumer

def Intact (s : QueueThreads T) : Prop :=
  ∃ live gone stale mark ready hidden, Shape s live gone stale mark ready hidden

theorem start_intact [Inhabited T] (addr : Nat) : Intact (QueueThreads.start addr : QueueThreads T) :=
  ⟨[(addr, default)], [], [], default, [], [], rfl, rfl, List.nodup_singleton addr, ⟨default, [], rfl⟩,
    ⟨[], default, rfl⟩, rfl, rfl, rfl, ⟨rfl, rfl⟩, rfl⟩

variable {s s' : QueueThreads T} {live gone stale ready hidden : Nodes T} {mark : T}

theorem Shape.cell (shape : Shape s live gone stale mark ready hidden) {before behind : Nodes T} {a : Nat}
    {x : T} (split : live = before ++ (a, x) :: behind) : s.q.heap a = some ⟨x, Chain.front behind⟩ := by
  subst split
  rw [shape.heap]
  exact cells_at shape.nodup

theorem Shape.unlisted (shape : Shape s live gone stale mark ready hidden) {a : Nat}
    (free : s.q.heap a = none) : a ∉ addrs live := by
  intro member
  rw [shape.heap] at free
  exact cells_ne_none_iff.2 member free

def Good : Except NodeFault (QueueThreads T) → Prop
  | .ok s => Intact s
  | .error _ => False

variable {result : Except NodeFault (QueueThreads T)}

/-! ## The producer -/

theorem produce_good {t : T} {addr : Nat} (shape : Shape s live gone stale mark ready hidden)
    (done : s.event (.produce t addr) = some result) : Good result := by
  have at_producer := shape.producer
  cases idle : s.producer with
  | idle =>
      rw [idle] at at_producer
      obtain ⟨rfl, rfl⟩ := at_producer
      obtain ⟨before, x, upTo⟩ := shape.last
      obtain rfl : live = stale ++ before ++ [(s.q.last, x)] := by
        rw [shape.split, List.append_assoc stale, ← upTo]
        simp
      cases free : s.q.heap addr with
      | some node => simp [QueueThreads.event, idle, free] at done
      | none =>
          have unlisted := shape.unlisted free
          simp only [QueueThreads.event, idle, free, link_eq t addr (shape.cell rfl)] at done
          cases done
          change Intact _
          refine ⟨stale ++ before ++ [(s.q.last, x)] ++ [(addr, t)], [], stale, mark, ready, [(addr, t)],
            ?_, ?_, nodup_snoc shape.nodup unlisted, shape.first, shape.last, ?_, ?_, shape.published,
            ⟨rfl, addr, rfl⟩, shape.consumer⟩
          · rw [shape.split]
            simp
          · dsimp only
            rw [shape.heap]
            exact cells_link shape.nodup unlisted
          · dsimp only
            rw [shape.created]
            simp
          · dsimp only
            rw [shape.produced]
            simp
  | _ => simp [QueueThreads.event, idle] at done

theorem publish_good {t : T} (shape : Shape s live gone stale mark ready hidden)
    (at_publish : s.producer = .publish t)
    (done : s.event .producer = some result) : Good result := by
  have at_producer := shape.producer
  rw [at_publish] at at_producer
  obtain ⟨rfl, addr, rfl⟩ := at_producer
  obtain ⟨before, x, upTo⟩ := shape.last
  have split : live = stale ++ before ++ (s.q.last, x) :: [(addr, t)] := by
    rw [shape.split, List.nil_append, List.append_assoc stale, upTo]
    simp
  have next : s.q.heap s.q.last = some ⟨x, some addr⟩ := shape.cell split
  simp only [QueueThreads.event, QueueThreads.produceStep, at_publish, publish_eq next] at done
  cases done
  change Intact _
  refine ⟨live, [], stale, mark, ready ++ [(addr, t)], [], ?_, shape.heap, shape.nodup, shape.first, ?_,
    shape.created, ?_, ?_, ⟨rfl, rfl⟩, ?_⟩
  · rw [shape.split]
    simp
  · exact ⟨before ++ [(s.q.last, x)], t, by rw [← upTo]; rfl⟩
  · dsimp only
    rw [shape.produced]
    simp
  · dsimp only
    rw [shape.published]
    simp
  · exact shape.consumer.more _

theorem Shape.stale_ne_nil (shape : Shape s live gone stale mark ready hidden)
    (apart : s.q.divider ≠ s.q.first) : stale ≠ [] := by
  rintro rfl
  obtain ⟨x, rest, start⟩ := shape.first
  exact apart (Prod.mk.inj (List.cons.inj start).1).1

theorem advance_good {temp : Nat} (shape : Shape s live gone stale mark ready hidden)
    (at_advance : s.producer = .advance temp) (done : s.event .producer = some result) : Good result := by
  have at_producer := shape.producer
  rw [at_advance] at at_producer
  obtain ⟨rfl, rfl, nonempty, rfl⟩ := at_producer
  obtain ⟨⟨a, x⟩, stale, rfl⟩ := List.exists_cons_of_ne_nil nonempty
  obtain ⟨x', rest, start⟩ := shape.first
  cases start
  -- the node behind the first one: the next stale node, or the marked one
  obtain ⟨⟨b, y⟩, others, behind⟩ : ∃ node others, stale ++ [(s.q.divider, mark)] = node :: others :=
    List.exists_cons_of_ne_nil (by simp)
  have split : live = [] ++ (s.q.first, x) :: (stale ++ (s.q.divider, mark) :: ready) := by
    rw [shape.split]
    simp
  have linked : Chain.front (stale ++ (s.q.divider, mark) :: ready) = some b := by
    rw [← List.singleton_append, ← List.append_assoc, behind]
    rfl
  have next := shape.cell split
  rw [linked] at next
  simp only [QueueThreads.event, QueueThreads.produceStep, at_advance, advance_eq next] at done
  cases done
  exact ⟨live, [(s.q.first, x)], stale, mark, ready, [], by rw [shape.split]; simp, shape.heap, shape.nodup,
    ⟨y, others, behind⟩, shape.last, shape.created, shape.produced, shape.published, ⟨rfl, x, rfl⟩,
    shape.consumer⟩

theorem delete_good {temp : Nat} (shape : Shape s live gone stale mark ready hidden)
    (at_delete : s.producer = .delete temp) (done : s.event .producer = some result) : Good result := by
  have at_producer := shape.producer
  rw [at_delete] at at_producer
  obtain ⟨rfl, x, rfl⟩ := at_producer
  obtain rfl : live = (temp, x) :: (stale ++ (s.q.divider, mark) :: ready) := by
    rw [shape.split]
    simp
  have held := shape.cell (List.nil_append _).symm
  simp only [QueueThreads.event, QueueThreads.produceStep, at_delete, delete_eq held] at done
  cases done
  change Intact _
  refine ⟨stale ++ (s.q.divider, mark) :: ready, [], stale, mark, ready, [], by simp, ?_,
    (List.nodup_cons.1 shape.nodup).2, shape.first, shape.last, ?_, shape.produced, shape.published, ⟨rfl, rfl⟩,
    shape.consumer⟩
  · dsimp only
    rw [shape.heap]
    exact cells_drop shape.nodup
  · dsimp only
    rw [shape.created]
    simp

theorem producer_good (shape : Shape s live gone stale mark ready hidden)
    (done : s.event .producer = some result) : Good result := by
  have at_producer := shape.producer
  cases turn : s.producer with
  | idle => simp [QueueThreads.event, QueueThreads.produceStep, turn] at done
  | publish t => exact publish_good shape turn done
  | advance temp => exact advance_good shape turn done
  | delete temp => exact delete_good shape turn done
  | count =>
      simp only [QueueThreads.event, QueueThreads.produceStep, turn] at done
      cases done
      rw [turn] at at_producer
      exact ⟨live, gone, stale, mark, ready, hidden, { shape with producer := at_producer }⟩
  | test =>
      simp only [QueueThreads.event, QueueThreads.produceStep, turn] at done
      cases done
      rw [turn] at at_producer
      refine ⟨live, gone, stale, mark, ready, hidden, { shape with producer := ?_ }⟩
      dsimp only
      split
      · next apart => exact ⟨at_producer.1, at_producer.2, shape.stale_ne_nil apart⟩
      · exact at_producer
  | begin =>
      simp only [QueueThreads.event, QueueThreads.produceStep, turn] at done
      cases done
      rw [turn] at at_producer
      obtain ⟨none, unhidden, some⟩ := at_producer
      exact ⟨live, gone, stale, mark, ready, hidden, { shape with producer := ⟨none, unhidden, some, rfl⟩ }⟩

/-! ## The consumer -/

theorem Shape.ready_ne_nil (shape : Shape s live gone stale mark ready hidden)
    (apart : s.q.divider ≠ s.q.last) : ready ≠ [] := by
  rintro rfl
  obtain ⟨before, x, upTo⟩ := shape.last
  have same := congrArg List.getLast? upTo
  rw [List.getLast?_append, List.getLast?_singleton, List.getLast?_singleton] at same
  exact apart (Prod.mk.inj (Option.some.inj same)).1

theorem consume_good (shape : Shape s live gone stale mark ready hidden)
    (done : s.event .consume = some result) : Good result := by
  have at_consumer := shape.consumer
  cases turn : s.consumer with
  | idle =>
      simp only [QueueThreads.event, turn] at done
      cases done
      rw [turn] at at_consumer
      refine ⟨live, gone, stale, mark, ready, hidden, { shape with consumer := ?_ }⟩
      dsimp only
      split
      · next filled => exact ⟨at_consumer, shape.ready_ne_nil (of_decide_eq_true filled)⟩
      · exact at_consumer
  | _ => simp [QueueThreads.event, turn] at done

theorem Shape.marked {a : Nat} {x : T} {rest : Nodes T}
    (shape : Shape s live gone stale mark ((a, x) :: rest) hidden) :
    s.q.heap s.q.divider = some ⟨mark, some a⟩ ∧ s.q.heap a = some ⟨x, Chain.front (rest ++ hidden)⟩ := by
  have at_mark : live = gone ++ stale ++ (s.q.divider, mark) :: ((a, x) :: rest ++ hidden) := by
    rw [shape.split]
    simp
  have behind : live = gone ++ stale ++ [(s.q.divider, mark)] ++ (a, x) :: (rest ++ hidden) := by
    rw [shape.split]
    simp
  exact ⟨shape.cell at_mark, shape.cell behind⟩

theorem consumer_good (shape : Shape s live gone stale mark ready hidden)
    (done : s.event .consumer = some result) : Good result := by
  have at_consumer := shape.consumer
  cases turn : s.consumer with
  | idle => simp [QueueThreads.event, QueueThreads.consumeStep, turn] at done
  | read =>
      rw [turn] at at_consumer
      obtain ⟨same, nonempty⟩ := at_consumer
      obtain ⟨⟨a, x⟩, rest, rfl⟩ := List.exists_cons_of_ne_nil nonempty
      obtain ⟨marked, behind⟩ := shape.marked
      simp only [QueueThreads.event, QueueThreads.consumeStep, turn, front_eq marked behind] at done
      cases done
      exact ⟨live, gone, stale, mark, (a, x) :: rest, hidden, { shape with consumer := ⟨same, a, rest, rfl⟩ }⟩
  | move value =>
      rw [turn] at at_consumer
      obtain ⟨same, a, rest, rfl⟩ := at_consumer
      simp only [QueueThreads.event, QueueThreads.consumeStep, turn, move_eq shape.marked.1] at done
      cases done
      change Intact _
      obtain ⟨x, others, start⟩ := shape.first
      obtain ⟨before, y, upTo⟩ := shape.last
      refine ⟨live, gone, stale ++ [(s.q.divider, mark)], value, rest, hidden, ?_, shape.heap, shape.nodup, ?_, ?_,
        shape.created, ?_, ?_, shape.producer.more _, ?_⟩
      · rw [shape.split]
        simp
      · exact ⟨x, others ++ [(a, value)], by rw [start]; rfl⟩
      · cases before with
        | nil => simp at upTo
        | cons node before => exact ⟨before, y, (List.cons.inj upTo).2⟩
      · dsimp only
        rw [shape.produced]
        simp
      · dsimp only
        rw [shape.published]
        simp
      · dsimp only [ConsumerAt]
        rw [same]
  | count value =>
      simp only [QueueThreads.event, QueueThreads.consumeStep, turn] at done
      cases done
      rw [turn] at at_consumer
      exact ⟨live, gone, stale, mark, ready, hidden, { shape with consumer := at_consumer }⟩
  | leave value =>
      simp only [QueueThreads.event, QueueThreads.consumeStep, turn] at done
      cases done
      rw [turn] at at_consumer
      exact ⟨live, gone, stale, mark, ready, hidden, { shape with consumer := at_consumer }⟩

theorem event_good {action : QueueAction T} (intact : Intact s) (done : s.event action = some result) :
    Good result := by
  obtain ⟨live, gone, stale, mark, ready, hidden, shape⟩ := intact
  cases action with
  | produce t addr => exact produce_good shape done
  | producer => exact producer_good shape done
  | consume => exact consume_good shape done
  | consumer => exact consumer_good shape done

theorem step_inv {action : QueueAction T} (taken : s.step action = some s') : s.event action = some (.ok s') := by
  unfold QueueThreads.step at taken
  split at taken
  · next done =>
      cases taken
      exact done
  · cases taken

theorem reachable_intact [Inhabited T] {addr : Nat}
    (reachable : Reachable QueueThreads.step Always (QueueThreads.start addr) s) : Intact s :=
  reachable.invariant (start_intact addr) fun _ _ _ intact _ taken => event_good intact (step_inv taken)

/-! ## What one statement does -/

inductive Produced (s : QueueThreads T) : QueueThreads T → Prop
  | publish {t : T} {q : Base.LockFreeQueue T} (turn : s.producer = .publish t) (done : s.q.publish = .ok q) :
      Produced s { s with q := q, producer := .count, published := s.published ++ [t] }
  | count (turn : s.producer = .count) :
      Produced s { s with q := { s.q with size := s.q.size + 1 }, producer := .test }
  | test (turn : s.producer = .test) :
      Produced s { s with producer := if s.q.divider ≠ s.q.first then .begin else .idle }
  | begin (turn : s.producer = .begin) : Produced s { s with producer := .advance s.q.first }
  | advance {temp : Nat} {q : Base.LockFreeQueue T} (turn : s.producer = .advance temp)
      (done : s.q.advance = .ok q) : Produced s { s with q := q, producer := .delete temp }
  | delete {temp : Nat} {q : Base.LockFreeQueue T} (turn : s.producer = .delete temp)
      (done : s.q.delete temp = .ok q) :
      Produced s { s with q := q, producer := .test, deleted := s.deleted ++ [temp] }

theorem producer_inv (done : s.event .producer = some (.ok s')) : Produced s s' := by
  simp only [QueueThreads.event, QueueThreads.produceStep] at done
  cases turn : s.producer with
  | idle => simp [turn] at done
  | publish t =>
      simp only [turn, Option.some.injEq] at done
      obtain ⟨q, published, done⟩ := bind_eq_ok done
      cases done
      exact .publish turn published
  | count =>
      simp only [turn] at done
      cases done
      exact .count turn
  | test =>
      simp only [turn] at done
      cases done
      exact .test turn
  | begin =>
      simp only [turn] at done
      cases done
      exact .begin turn
  | advance temp =>
      simp only [turn, Option.some.injEq] at done
      obtain ⟨q, advanced, done⟩ := bind_eq_ok done
      cases done
      exact .advance turn advanced
  | delete temp =>
      simp only [turn, Option.some.injEq] at done
      obtain ⟨q, deleted, done⟩ := bind_eq_ok done
      cases done
      exact .delete turn deleted

inductive Consumed (s : QueueThreads T) : QueueThreads T → Prop
  | read {value : T} (turn : s.consumer = .read) : Consumed s { s with consumer := .move value }
  | move {value : T} {q : Base.LockFreeQueue T} (turn : s.consumer = .move value) (done : s.q.move = .ok q) :
      Consumed s { s with q := q, consumer := .count value, taken := s.taken ++ [value] }
  | count {value : T} (turn : s.consumer = .count value) :
      Consumed s { s with q := { s.q with size := s.q.size - 1 }, consumer := .leave value }
  | leave {value : T} (turn : s.consumer = .leave value) :
      Consumed s { s with consumer := .idle, returned := s.returned ++ [value] }

theorem consumer_inv (done : s.event .consumer = some (.ok s')) : Consumed s s' := by
  simp only [QueueThreads.event, QueueThreads.consumeStep] at done
  cases turn : s.consumer with
  | idle => simp [turn] at done
  | read =>
      simp only [turn, Option.some.injEq] at done
      obtain ⟨value, -, done⟩ := bind_eq_ok done
      cases done
      exact .read turn
  | move value =>
      simp only [turn, Option.some.injEq] at done
      obtain ⟨q, moved, done⟩ := bind_eq_ok done
      cases done
      exact .move turn moved
  | count value =>
      simp only [turn] at done
      cases done
      exact .count turn
  | leave value =>
      simp only [turn] at done
      cases done
      exact .leave turn

/-! ## The queue that the threads implement -/

structure Fifo (T : Type) where
  queue : List T
  added : List T
  taken : List T

inductive FifoAction (T : Type)
  | enqueue (t : T)
  | dequeue

namespace Fifo

def empty : Fifo T := ⟨[], [], []⟩

def step (f : Fifo T) : FifoAction T → Option (Fifo T)
  | .enqueue t => some { f with queue := f.queue ++ [t], added := f.added ++ [t] }
  | .dequeue =>
      match f.queue with
      | [] => some f
      | t :: rest => some { f with queue := rest, taken := f.taken ++ [t] }

theorem balanced {f : Fifo T} (reachable : Reachable step Always empty f) : f.added = f.taken ++ f.queue := by
  induction reachable with
  | start => rfl
  | @next f f' action _ _ taken ih =>
      cases action with
      | enqueue t =>
          cases taken
          simp [ih]
      | dequeue =>
          cases queue : f.queue with
          | nil =>
              simp only [step, queue] at taken
              cases taken
              exact ih
          | cons t rest =>
              simp only [step, queue] at taken
              cases taken
              simp [ih, queue]

end Fifo

/-- The statement of each operation that takes effect on the queue. -/
def point (s : QueueThreads T) : QueueAction T → Option (FifoAction T)
  | .produce _ _ => none
  | .producer =>
      match s.producer with
      | .publish t => some (.enqueue t)
      | _ => none
  | .consume => if s.isFilled then none else some .dequeue
  | .consumer =>
      match s.consumer with
      | .move _ => some .dequeue
      | _ => none

structure Implements (s : QueueThreads T) (f : Fifo T) : Prop where
  added : f.added = s.published
  taken : f.taken = s.taken

def Simulates (f : Fifo T) (s : QueueThreads T) : Option (FifoAction T) → Prop
  | none => Implements s f
  | some action => ∃ f', f.step action = some f' ∧ Implements s f'

theorem Shape.queue_eq {f : Fifo T} (shape : Shape s live gone stale mark ready hidden)
    (reachable : Reachable Fifo.step Always Fifo.empty f) (implements : Implements s f) :
    f.queue = ready.map Prod.snd := by
  have balanced := Fifo.balanced reachable
  rw [implements.added, implements.taken, shape.published] at balanced
  exact (List.append_cancel_left balanced).symm

theorem produce_simulates {f : Fifo T} {t : T} {addr : Nat} (implements : Implements s f)
    (done : s.event (.produce t addr) = some (.ok s')) : Implements s' f := by
  unfold QueueThreads.event at done
  cases turn : s.producer with
  | idle =>
      simp only [turn] at done
      split at done
      · obtain ⟨q, -, done⟩ := bind_eq_ok (Option.some.inj done)
        cases done
        exact ⟨implements.added, implements.taken⟩
      · cases done
  | _ => simp [turn] at done

theorem producer_simulates {f : Fifo T} (implements : Implements s f)
    (done : s.event .producer = some (.ok s')) : Simulates f s' (point s .producer) := by
  unfold point
  cases producer_inv done with
  | publish turn =>
      rw [turn]
      exact ⟨_, rfl, by simp [implements.added], implements.taken⟩
  | count turn =>
      rw [turn]
      exact ⟨implements.added, implements.taken⟩
  | test turn =>
      rw [turn]
      exact ⟨implements.added, implements.taken⟩
  | begin turn =>
      rw [turn]
      exact ⟨implements.added, implements.taken⟩
  | advance turn =>
      rw [turn]
      exact ⟨implements.added, implements.taken⟩
  | delete turn =>
      rw [turn]
      exact ⟨implements.added, implements.taken⟩

theorem Shape.divider_once (shape : Shape s live gone stale mark ready hidden) :
    s.q.divider ∉ addrs stale ∧ s.q.divider ∉ addrs ready := by
  have nodup := shape.nodup
  rw [shape.split] at nodup
  simp only [addrs, List.map_append, List.map_cons, List.append_assoc, List.nodup_append, List.cons_append,
    List.nodup_cons, List.mem_append, List.mem_cons] at nodup
  obtain ⟨-, ⟨-, ⟨single, -⟩, apart⟩, -⟩ := nodup
  exact ⟨fun member => apart _ member _ (.inl rfl) rfl, fun member => single (.inl member)⟩

theorem Shape.isFilled_iff (shape : Shape s live gone stale mark ready hidden) :
    s.isFilled = true ↔ ready ≠ [] := by
  constructor
  · exact fun filled => shape.ready_ne_nil (of_decide_eq_true filled)
  · intro nonempty
    refine decide_eq_true fun same => ?_
    obtain ⟨before, x, upTo⟩ := shape.last
    cases before with
    | nil =>
        rw [(List.cons.inj upTo).2] at nonempty
        exact nonempty rfl
    | cons node before =>
        have rest : ready = before ++ [(s.q.last, x)] := (List.cons.inj upTo).2
        refine shape.divider_once.2 ?_
        rw [rest, same]
        simp

theorem consume_simulates {f : Fifo T} (shape : Shape s live gone stale mark ready hidden)
    (reachable : Reachable Fifo.step Always Fifo.empty f) (implements : Implements s f)
    (done : s.event .consume = some (.ok s')) : Simulates f s' (point s .consume) := by
  unfold QueueThreads.event at done
  cases turn : s.consumer with
  | idle =>
      simp only [turn] at done
      cases done
      unfold point
      split
      · exact ⟨implements.added, implements.taken⟩
      · next empty =>
          have none : ready = [] := not_not.1 (mt shape.isFilled_iff.2 empty)
          have queue := shape.queue_eq reachable implements
          rw [none] at queue
          refine ⟨f, ?_, implements.added, implements.taken⟩
          simp [Fifo.step, queue]
  | _ => simp [turn] at done

theorem consumer_simulates {f : Fifo T} (shape : Shape s live gone stale mark ready hidden)
    (reachable : Reachable Fifo.step Always Fifo.empty f) (implements : Implements s f)
    (done : s.event .consumer = some (.ok s')) : Simulates f s' (point s .consumer) := by
  have at_consumer := shape.consumer
  unfold point
  cases consumer_inv done with
  | read turn =>
      rw [turn]
      exact ⟨implements.added, implements.taken⟩
  | @move value _ turn =>
      rw [turn] at at_consumer ⊢
      obtain ⟨-, addr, rest, rfl⟩ := at_consumer
      have queue : f.queue = value :: rest.map Prod.snd := shape.queue_eq reachable implements
      refine ⟨{ f with queue := rest.map Prod.snd, taken := f.taken ++ [value] }, ?_, implements.added, ?_⟩
      · simp [Fifo.step, queue]
      · simp [implements.taken]
  | count turn =>
      rw [turn]
      exact ⟨implements.added, implements.taken⟩
  | leave turn =>
      rw [turn]
      exact ⟨implements.added, implements.taken⟩

theorem reachable_implements [Inhabited T] {addr : Nat}
    (reachable : Reachable QueueThreads.step Always (QueueThreads.start addr) s) :
    ∃ f, Reachable Fifo.step Always Fifo.empty f ∧ Implements s f := by
  induction reachable with
  | start => exact ⟨Fifo.empty, .start, rfl, rfl⟩
  | @next s s' action before _ taken ih =>
      obtain ⟨f, reachable, implements⟩ := ih
      obtain ⟨live, gone, stale, mark, ready, hidden, shape⟩ := reachable_intact before
      have done := step_inv taken
      have simulates : Simulates f s' (point s action) := by
        cases action with
        | produce t addr => exact produce_simulates implements done
        | producer => exact producer_simulates implements done
        | consume => exact consume_simulates shape reachable implements done
        | consumer => exact consumer_simulates shape reachable implements done
      cases acts : point s action with
      | none =>
          rw [acts] at simulates
          exact ⟨f, reachable, simulates⟩
      | some act =>
          rw [acts] at simulates
          obtain ⟨f', stepped, implements'⟩ := simulates
          exact ⟨f', .next reachable trivial stepped, implements'⟩

/-- The values come out in the order in which they went in, no node is used that is not allocated, `consume`
returns false exactly when it has returned everything published, and the nodes are deleted in the
order in which they were created, all of them before the one that `divider` marks. -/
theorem queue_refines_fifo [Inhabited T] (addr : Nat) (s : QueueThreads T)
    (reachable : Reachable QueueThreads.step Always (QueueThreads.start addr) s) :
    (s.returned <+: s.produced ∧ s.published <+: s.produced) ∧
    (∀ action fault, s.event action ≠ some (.error fault)) ∧
    (∃ f, Reachable Fifo.step Always Fifo.empty f ∧ f.added = s.published ∧ f.taken = s.taken) ∧
    (s.consumer = .idle → s.returned = s.taken ∧ (s.isFilled = false ↔ s.returned = s.published)) ∧
    ∃ doomed stale rest, s.created = s.deleted ++ (doomed ++ stale ++ s.q.divider :: rest) ∧
      (doomed ++ stale ++ s.q.divider :: rest).Nodup ∧
      (∀ a, s.q.heap a ≠ none ↔ a ∈ doomed ++ stale ++ s.q.divider :: rest) ∧
      (stale ++ [s.q.divider]).head? = some s.q.first ∧
      (∀ a, Relation.ReflTransGen (Link s.q.heap) s.q.divider a → a ∈ s.q.divider :: rest) ∧
      (s.producer = .test → doomed = [] ∧ (s.q.divider = s.q.first → stale = [])) := by
  obtain ⟨live, gone, stale, mark, ready, hidden, shape⟩ := reachable_intact reachable
  obtain ⟨f, runs, implements⟩ := reachable_implements reachable
  have split : addrs live = addrs gone ++ addrs stale ++ s.q.divider :: addrs (ready ++ hidden) := by
    rw [shape.split]
    simp [addrs]
  refine ⟨⟨?_, ?_⟩, ?_, ⟨f, runs, implements.added, implements.taken⟩, ?_, addrs gone, addrs stale,
    addrs (ready ++ hidden), ?_, ?_, ?_, ?_, ?_, ?_⟩
  · rw [shape.produced, List.append_assoc]
    exact shape.consumer.pending.trans (List.prefix_append _ _)
  · exact ⟨hidden.map Prod.snd, by rw [shape.published, shape.produced]⟩
  · intro action fault failed
    exact event_good ⟨live, gone, stale, mark, ready, hidden, shape⟩ failed
  · intro idle
    have same := shape.consumer
    rw [idle] at same
    refine ⟨same.symm, ?_⟩
    rw [← Bool.not_eq_true, shape.isFilled_iff, not_not, shape.published, same]
    simp
  · rw [← split]
    exact shape.created
  · rw [← split]
    exact shape.nodup
  · intro a
    rw [← split, shape.heap]
    exact cells_ne_none_iff
  · obtain ⟨x, rest, start⟩ := shape.first
    have heads := congrArg (fun nodes => (addrs nodes).head?) start
    simpa [addrs] using heads
  · intro a reach
    have nodup := shape.nodup
    have parts : live = (gone ++ stale) ++ ((s.q.divider, mark) :: (ready ++ hidden)) := by
      rw [shape.split]
      simp
    rw [parts] at nodup
    rw [shape.heap, parts] at reach
    exact reach_mem nodup List.mem_cons_self reach
  · intro testing
    have at_producer := shape.producer
    rw [testing] at at_producer
    refine ⟨by rw [at_producer.1]; rfl, fun same => ?_⟩
    obtain ⟨x, rest, start⟩ := shape.first
    cases stale with
    | nil => rfl
    | cons node others =>
        obtain ⟨rfl, -⟩ := List.cons.inj start
        exact absurd (same ▸ List.mem_cons_self) shape.divider_once.1

/-- Two values pass the queue, and the first node is deleted and its address used again. -/
def exchange : List (QueueAction Nat) :=
  [.produce 7 1, .producer, .consume, .producer, .producer, .consumer, .consumer, .consumer, .consumer,
    .produce 8 2, .producer, .producer, .producer, .producer, .consume, .producer, .consumer, .producer,
    .consumer, .producer, .producer, .producer, .producer, .producer, .consumer, .consumer, .produce 9 0]

theorem queue_refines_fifo_exchange : ∃ s : QueueThreads Nat,
    Reachable QueueThreads.step Always (QueueThreads.start 0) s ∧ s.returned = [7, 8] ∧ s.deleted = [0, 1] ∧
    s.created = [0, 1, 2, 0] ∧ s.returned <+: s.produced := by
  obtain ⟨s, reachable, holds⟩ := exists_reachable_of_runLabels QueueThreads.step always_sound
    (QueueThreads.start 0) exchange
    (fun s => decide (s.returned = [7, 8] ∧ s.deleted = [0, 1] ∧ s.created = [0, 1, 2, 0])) (by decide)
  obtain ⟨returned, deleted, created⟩ := of_decide_eq_true holds
  exact ⟨s, reachable, returned, deleted, created, (queue_refines_fifo 0 s reachable).1.1⟩

end Xrtc.Proof.LockFreeQueue
