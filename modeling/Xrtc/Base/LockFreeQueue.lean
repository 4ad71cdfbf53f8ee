import Mathlib.Data.Int.Basic
import Mathlib.Tactic.NormNum
import Xrtc.Lib.Chain

/-!
# The queue of one producer and one consumer

`produce` and `consume` of `LockFreeQueue`, statement by statement, so that the two threads can be
interleaved in any way: `link` is `last->next = new Node(t)`, `publish` `last = last->next`, `advance`
`first = first->next`, `delete` `delete temp`, `front` `divider->next->data` and `move`
`divider = divider->next`. A pointer is an address; an address that was freed can be given out again.
-/

namespace Xrtc.Base
open Lib

abbrev Node (T : Type) := Cell Nat T

structure LockFreeQueue (T : Type) where
  heap : Nat → Option (Node T)
  first : Nat
  divider : Nat
  last : Nat
  size : Int

inductive NodeFault
  | freed
  | null
  deriving DecidableEq

namespace LockFreeQueue

variable {T : Type}

/-- The constructor; `new` returned `addr`. -/
def init [Inhabited T] (addr : Nat) : LockFreeQueue T where
  heap := Function.update (fun _ => none) addr (some ⟨default, none⟩)
  first := addr
  divider := addr
  last := addr
  size := 0

def load (q : LockFreeQueue T) (addr : Nat) : Except NodeFault (Node T) :=
  match q.heap addr with
  | none => .error .freed
  | some node => .ok node

def next (q : LockFreeQueue T) (addr : Nat) : Except NodeFault Nat := do
  match (← q.load addr).next with
  | none => .error .null
  | some following => .ok following

def link (q : LockFreeQueue T) (t : T) (addr : Nat) : Except NodeFault (LockFreeQueue T) := do
  let node ← q.load q.last
  let heap := Function.update q.heap addr (some ⟨t, none⟩)
  return { q with heap := Function.update heap q.last (some { node with next := some addr }) }

def publish (q : LockFreeQueue T) : Except NodeFault (LockFreeQueue T) := do
  return { q with last := ← q.next q.last }

def advance (q : LockFreeQueue T) : Except NodeFault (LockFreeQueue T) := do
  return { q with first := ← q.next q.first }

def delete (q : LockFreeQueue T) (temp : Nat) : Except NodeFault (LockFreeQueue T) := do
  let _ ← q.load temp
  return { q with heap := Function.update q.heap temp none }

def front (q : LockFreeQueue T) : Except NodeFault T := do
  return (← q.load (← q.next q.divider)).data

def move (q : LockFreeQueue T) : Except NodeFault (LockFreeQueue T) := do
  return { q with divider := ← q.next q.divider }

/-- `size()`. The updates of a `std::atomic<int>` wrap, so reducing their sum gives what they leave. -/
def loadSize (q : LockFreeQueue T) : Int := Int.bmod q.size (2 ^ 32)

def empty (q : LockFreeQueue T) : Bool := q.loadSize = 0

end LockFreeQueue

inductive Producing (T : Type)
  | idle
  | publish (t : T)
  | count
  | test
  | begin
  | advance (temp : Nat)
  | delete (temp : Nat)

inductive Consuming (T : Type)
  | idle
  | read
  | move (result : T)
  | count (result : T)
  | leave (result : T)

/-- Both threads and the queue. The other fields record what happened and are read by no code: the values
given to `produce`, those whose node `last` has reached, those `divider` has reached, those
`consume` has returned, and the addresses of the nodes created and deleted. -/
structure QueueThreads (T : Type) where
  q : LockFreeQueue T
  producer : Producing T
  consumer : Consuming T
  produced : List T
  published : List T
  taken : List T
  returned : List T
  created : List Nat
  deleted : List Nat

inductive QueueAction (T : Type)
  /-- A call of `produce` up to the end of its first statement; `new` returns `addr`. -/
  | produce (t : T) (addr : Nat)
  | producer
  /-- A call of `consume` up to the end of its test. -/
  | consume
  | consumer

namespace QueueThreads

variable {T : Type}

def start [Inhabited T] (addr : Nat) : QueueThreads T :=
  ⟨.init addr, .idle, .idle, [], [], [], [], [addr], []⟩

def produceStep (s : QueueThreads T) : Option (Except NodeFault (QueueThreads T)) :=
  match s.producer with
  | .idle => none
  | .publish t => some do
      return { s with q := ← s.q.publish, producer := .count, published := s.published ++ [t] }
  | .count => some (.ok { s with q := { s.q with size := s.q.size + 1 }, producer := .test })
  | .test => some (.ok { s with producer := if s.q.divider ≠ s.q.first then .begin else .idle })
  | .begin => some (.ok { s with producer := .advance s.q.first })
  | .advance temp => some do
      return { s with q := ← s.q.advance, producer := .delete temp }
  | .delete temp => some do
      return { s with q := ← s.q.delete temp, producer := .test, deleted := s.deleted ++ [temp] }

def consumeStep (s : QueueThreads T) : Option (Except NodeFault (QueueThreads T)) :=
  match s.consumer with
  | .idle => none
  | .read => some do
      return { s with consumer := .move (← s.q.front) }
  | .move result => some do
      return { s with q := ← s.q.move, consumer := .count result, taken := s.taken ++ [result] }
  | .count result =>
      some (.ok { s with q := { s.q with size := s.q.size - 1 }, consumer := .leave result })
  | .leave result => some (.ok { s with consumer := .idle, returned := s.returned ++ [result] })

def isFilled (s : QueueThreads T) : Bool := s.q.divider ≠ s.q.last

/-- `none`: the thread is not at that statement, or `new` does not return the address of a node. -/
def event (s : QueueThreads T) : QueueAction T → Option (Except NodeFault (QueueThreads T))
  | .produce t addr =>
      match s.producer with
      | .idle =>
          if (s.q.heap addr).isNone then some do
            return { s with
              q := ← s.q.link t addr
              producer := .publish t
              produced := s.produced ++ [t]
              created := s.created ++ [addr] }
          else none
      | _ => none
  | .producer => s.produceStep
  | .consume =>
      match s.consumer with
      | .idle => some (.ok { s with consumer := if s.isFilled then .read else .idle })
      | _ => none
  | .consumer => s.consumeStep

def step (s : QueueThreads T) (action : QueueAction T) : Option (QueueThreads T) :=
  match s.event action with
  | some (.ok s') => some s'
  | _ => none

end QueueThreads

end Xrtc.Base
