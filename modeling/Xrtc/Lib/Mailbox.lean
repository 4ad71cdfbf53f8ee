import Mathlib.Algebra.BigOperators.Group.Finset.Basic
import Mathlib.Data.Fintype.BigOperators
import Mathlib.Logic.Function.Basic

/-!
# Networks of notified mailboxes

Threads exchange items through boxes. A sender first pushes its item into a box and then, in a
second step, writes the box's tag into a pipe of bounded capacity; a full pipe blocks the writer.
The one reader of a pipe takes a tag, and in a later step takes one item from the box the tag
names. Several boxes may share a pipe under different tags.

The histories `pushed`, `popped`, `created` and `consumed` record what the steps did and are read
by no step.
-/

namespace Xrtc.Lib.Mailbox

variable {T B P L I : Type*}

structure Wiring (T B P L : Type*) where
  pipeOf : B → P
  tagOf : B → L
  boxOf : P → L → Option B
  readerOf : P → T
  capacity : P → Nat
  boxOf_iff : ∀ p l b, boxOf p l = some b ↔ pipeOf b = p ∧ tagOf b = l

inductive Role (B I : Type*)
  | free
  | woken (b : B)
  | holding (x : I)
  | owes (b : B)
  deriving DecidableEq

namespace Role

def held : Role B I → List I
  | .holding x => [x]
  | _ => []

def debt [DecidableEq B] (b : B) : Role B I → Nat
  | .owes b' => if b' = b then 1 else 0
  | _ => 0

def claim [DecidableEq B] (b : B) : Role B I → Nat
  | .woken b' => if b' = b then 1 else 0
  | _ => 0

section

variable [DecidableEq B] (b c : B) (x : I)

@[simp] theorem debt_free : (.free : Role B I).debt b = 0 := rfl

@[simp] theorem debt_woken : (.woken c : Role B I).debt b = 0 := rfl

@[simp] theorem debt_holding : (.holding x : Role B I).debt b = 0 := rfl

@[simp] theorem debt_owes : (.owes c : Role B I).debt b = if c = b then 1 else 0 := rfl

@[simp] theorem claim_free : (.free : Role B I).claim b = 0 := rfl

@[simp] theorem claim_woken : (.woken c : Role B I).claim b = if c = b then 1 else 0 := rfl

@[simp] theorem claim_holding : (.holding x : Role B I).claim b = 0 := rfl

@[simp] theorem claim_owes : (.owes c : Role B I).claim b = 0 := rfl

end

end Role

structure Net (T B P L I : Type*) where
  role : T → Role B I
  queue : B → List I
  pipe : P → List L
  pushed : B → List I
  popped : B → List I
  created : List I
  consumed : List I

def Net.empty : Net T B P L I where
  role _ := .free
  queue _ := []
  pipe _ := []
  pushed _ := []
  popped _ := []
  created := []
  consumed := []

namespace Net

variable [DecidableEq T] [DecidableEq B] [DecidableEq P]

def create (net : Net T B P L I) (t : T) (x : I) : Option (Net T B P L I) :=
  match net.role t with
  | .free => some { net with
      role := Function.update net.role t (.holding x)
      created := net.created ++ [x] }
  | _ => none

/-- The holder finishes its item by `f` and pushes it. -/
def push (net : Net T B P L I) (t : T) (b : B) (f : I → I) : Option (Net T B P L I) :=
  match net.role t with
  | .holding x => some { net with
      role := Function.update net.role t (.owes b)
      queue := Function.update net.queue b (net.queue b ++ [f x])
      pushed := Function.update net.pushed b (net.pushed b ++ [f x]) }
  | _ => none

/-- The blocking write of a tag: enabled only while the pipe has room. -/
def notify (w : Wiring T B P L) (net : Net T B P L I) (t : T) : Option (Net T B P L I) :=
  match net.role t with
  | .owes b =>
      if (net.pipe (w.pipeOf b)).length < w.capacity (w.pipeOf b) then
        some { net with
          role := Function.update net.role t .free
          pipe := Function.update net.pipe (w.pipeOf b) (net.pipe (w.pipeOf b) ++ [w.tagOf b]) }
      else none
  | _ => none

/-- The write of a tag that fails: the item stays in its box without a tag. -/
def abandon (net : Net T B P L I) (t : T) : Option (Net T B P L I) :=
  match net.role t with
  | .owes _ => some { net with role := Function.update net.role t .free }
  | _ => none

/-- The reader takes the first tag; a tag that names no box is dropped. -/
def wake (w : Wiring T B P L) (net : Net T B P L I) (p : P) : Option (Net T B P L I) :=
  match net.role (w.readerOf p), net.pipe p with
  | .free, l :: rest => some { net with
      role := Function.update net.role (w.readerOf p)
        (match w.boxOf p l with | some b => .woken b | none => .free)
      pipe := Function.update net.pipe p rest }
  | _, _ => none

def pop (net : Net T B P L I) (t : T) : Option (Net T B P L I) :=
  match net.role t with
  | .woken b =>
      match net.queue b with
      | x :: rest => some { net with
          role := Function.update net.role t (.holding x)
          queue := Function.update net.queue b rest
          popped := Function.update net.popped b (net.popped b ++ [x]) }
      | [] => some { net with role := Function.update net.role t .free }
  | _ => none

def consume (net : Net T B P L I) (t : T) : Option (Net T B P L I) :=
  match net.role t with
  | .holding x => some { net with
      role := Function.update net.role t .free
      consumed := net.consumed ++ [x] }
  | _ => none

end Net

inductive Move (T B P I : Type*)
  | create (t : T) (x : I)
  | push (t : T) (b : B) (f : I → I)
  | notify (t : T)
  | abandon (t : T)
  | wake (p : P)
  | pop (t : T)
  | consume (t : T)

def Net.step [DecidableEq T] [DecidableEq B] [DecidableEq P] (w : Wiring T B P L)
    (net : Net T B P L I) : Move T B P I → Option (Net T B P L I)
  | .create t x => net.create t x
  | .push t b f => net.push t b f
  | .notify t => net.notify w t
  | .abandon t => net.abandon t
  | .wake p => net.wake w p
  | .pop t => net.pop t
  | .consume t => net.consume t

/-! ## What each step does -/

section Steps

variable {net net' : Net T B P L I} {w : Wiring T B P L} {t : T} {b : B} {p : P} {x : I} {f : I → I}

section

variable [DecidableEq T]

theorem Net.create_inv (h : net.create t x = some net') :
    net.role t = .free ∧ net' = { net with
      role := Function.update net.role t (.holding x), created := net.created ++ [x] } := by
  unfold Net.create at h
  split at h
  · exact ⟨‹_›, (Option.some.inj h).symm⟩
  · cases h

theorem Net.abandon_inv (h : net.abandon t = some net') :
    ∃ b, net.role t = .owes b ∧ net' = { net with role := Function.update net.role t .free } := by
  unfold Net.abandon at h
  split at h
  · exact ⟨_, ‹_›, (Option.some.inj h).symm⟩
  · cases h

theorem Net.consume_inv (h : net.consume t = some net') :
    ∃ x, net.role t = .holding x ∧ net' = { net with
      role := Function.update net.role t .free, consumed := net.consumed ++ [x] } := by
  unfold Net.consume at h
  split at h
  · exact ⟨_, ‹_›, (Option.some.inj h).symm⟩
  · cases h

variable [DecidableEq B]

theorem Net.push_inv (h : net.push t b f = some net') :
    ∃ x, net.role t = .holding x ∧ net' = { net with
      role := Function.update net.role t (.owes b)
      queue := Function.update net.queue b (net.queue b ++ [f x])
      pushed := Function.update net.pushed b (net.pushed b ++ [f x]) } := by
  unfold Net.push at h
  split at h
  · exact ⟨_, ‹_›, (Option.some.inj h).symm⟩
  · cases h

theorem Net.pop_inv (h : net.pop t = some net') :
    ∃ b, net.role t = .woken b ∧
      ((∃ x rest, net.queue b = x :: rest ∧ net' = { net with
          role := Function.update net.role t (.holding x)
          queue := Function.update net.queue b rest
          popped := Function.update net.popped b (net.popped b ++ [x]) }) ∨
        (net.queue b = [] ∧ net' = { net with role := Function.update net.role t .free })) := by
  unfold Net.pop at h
  split at h
  · refine ⟨_, ‹_›, ?_⟩
    split at h
    · exact .inl ⟨_, _, ‹_›, (Option.some.inj h).symm⟩
    · exact .inr ⟨‹_›, (Option.some.inj h).symm⟩
  · cases h

end

section

variable [DecidableEq T] [DecidableEq P]

theorem Net.notify_inv (h : net.notify w t = some net') :
    ∃ b, net.role t = .owes b ∧ (net.pipe (w.pipeOf b)).length < w.capacity (w.pipeOf b) ∧
      net' = { net with
        role := Function.update net.role t .free
        pipe := Function.update net.pipe (w.pipeOf b) (net.pipe (w.pipeOf b) ++ [w.tagOf b]) } := by
  unfold Net.notify at h
  split at h
  · split at h
    · exact ⟨_, ‹_›, ‹_›, (Option.some.inj h).symm⟩
    · cases h
  · cases h

theorem Net.wake_inv (h : net.wake w p = some net') :
    ∃ l rest, net.role (w.readerOf p) = .free ∧ net.pipe p = l :: rest ∧ net' = { net with
      role := Function.update net.role (w.readerOf p)
        (match w.boxOf p l with | some b => .woken b | none => .free)
      pipe := Function.update net.pipe p rest } := by
  unfold Net.wake at h
  split at h
  · exact ⟨_, _, ‹_›, ‹_›, (Option.some.inj h).symm⟩
  · cases h

end

variable [DecidableEq T] [DecidableEq B] [DecidableEq P]

/-! ## When a step is taken -/

theorem Net.create_step (free : net.role t = .free) (x : I) :
    net.step w (.create t x) = some { net with
      role := Function.update net.role t (.holding x), created := net.created ++ [x] } := by
  simp [Net.step, Net.create, free]

theorem Net.push_step (holds : net.role t = .holding x) (b : B) (f : I → I) :
    net.step w (.push t b f) = some { net with
      role := Function.update net.role t (.owes b)
      queue := Function.update net.queue b (net.queue b ++ [f x])
      pushed := Function.update net.pushed b (net.pushed b ++ [f x]) } := by
  simp [Net.step, Net.push, holds]

theorem Net.notify_step (owes : net.role t = .owes b)
    (room : (net.pipe (w.pipeOf b)).length < w.capacity (w.pipeOf b)) :
    net.step w (.notify t) = some { net with
      role := Function.update net.role t .free
      pipe := Function.update net.pipe (w.pipeOf b) (net.pipe (w.pipeOf b) ++ [w.tagOf b]) } := by
  simp [Net.step, Net.notify, owes, room]

theorem Net.wake_step {l : L} {rest : List L} (free : net.role (w.readerOf p) = .free)
    (head : net.pipe p = l :: rest) (named : w.boxOf p l = some b) :
    net.step w (.wake p) = some { net with
      role := Function.update net.role (w.readerOf p) (.woken b)
      pipe := Function.update net.pipe p rest } := by
  simp [Net.step, Net.wake, free, head, named]

theorem Net.pop_step {rest : List I} (woken : net.role t = .woken b) (head : net.queue b = x :: rest) :
    net.step w (.pop t) = some { net with
      role := Function.update net.role t (.holding x)
      queue := Function.update net.queue b rest
      popped := Function.update net.popped b (net.popped b ++ [x]) } := by
  simp [Net.step, Net.pop, woken, head]

theorem Net.consume_step (holds : net.role t = .holding x) :
    net.step w (.consume t) = some { net with
      role := Function.update net.role t .free, consumed := net.consumed ++ [x] } := by
  simp [Net.step, Net.consume, holds]

theorem Net.wake_enabled (free : net.role (w.readerOf p) = .free) (waiting : net.pipe p ≠ []) :
    ∃ net', net.step w (.wake p) = some net' := by
  obtain ⟨l, rest, head⟩ := List.exists_cons_of_ne_nil waiting
  simp [Net.step, Net.wake, free, head]

theorem Net.pop_enabled (woken : net.role t = .woken b) : ∃ net', net.step w (.pop t) = some net' := by
  cases found : net.queue b <;> simp [Net.step, Net.pop, woken, found]

/-! ## Roles -/

/-- The thread a move is made by, and its role after the move. -/
inductive Shift (w : Wiring T B P L) (net : Net T B P L I) : Move T B P I → T → Role B I → Prop
  | create {t : T} {x : I} (free : net.role t = .free) : Shift w net (.create t x) t (.holding x)
  | push {t : T} {b : B} {f : I → I} {x : I} (holds : net.role t = .holding x) :
      Shift w net (.push t b f) t (.owes b)
  | notify {t : T} {b : B} (owes : net.role t = .owes b) : Shift w net (.notify t) t .free
  | abandon {t : T} {b : B} (owes : net.role t = .owes b) : Shift w net (.abandon t) t .free
  | wake {p : P} {l : L} {b : B} (free : net.role (w.readerOf p) = .free) (named : w.boxOf p l = some b) :
      Shift w net (.wake p) (w.readerOf p) (.woken b)
  | skip {p : P} (free : net.role (w.readerOf p) = .free) : Shift w net (.wake p) (w.readerOf p) .free
  | pop {t : T} {b : B} {x : I} (woken : net.role t = .woken b) : Shift w net (.pop t) t (.holding x)
  | miss {t : T} {b : B} (woken : net.role t = .woken b) : Shift w net (.pop t) t .free
  | consume {t : T} {x : I} (holds : net.role t = .holding x) : Shift w net (.consume t) t .free

theorem Net.step_shift {move : Move T B P I} (taken : net.step w move = some net') :
    ∃ t r, Shift w net move t r ∧ net'.role = Function.update net.role t r := by
  cases move with
  | create t x =>
      obtain ⟨free, rfl⟩ := Net.create_inv taken
      exact ⟨t, _, .create free, rfl⟩
  | push t b f =>
      obtain ⟨x, holds, rfl⟩ := Net.push_inv taken
      exact ⟨t, _, .push holds, rfl⟩
  | notify t =>
      obtain ⟨b, owes, -, rfl⟩ := Net.notify_inv taken
      exact ⟨t, _, .notify owes, rfl⟩
  | abandon t =>
      obtain ⟨b, owes, rfl⟩ := Net.abandon_inv taken
      exact ⟨t, _, .abandon owes, rfl⟩
  | wake p =>
      obtain ⟨l, rest, free, -, rfl⟩ := Net.wake_inv taken
      cases named : w.boxOf p l with
      | none => exact ⟨_, _, .skip free, rfl⟩
      | some b => exact ⟨_, _, .wake free named, rfl⟩
  | pop t =>
      obtain ⟨b, woken, ⟨x, rest, -, rfl⟩ | ⟨-, rfl⟩⟩ := Net.pop_inv taken
      · exact ⟨t, _, .pop woken, rfl⟩
      · exact ⟨t, _, .miss woken, rfl⟩
  | consume t =>
      obtain ⟨x, holds, rfl⟩ := Net.consume_inv taken
      exact ⟨t, _, .consume holds, rfl⟩

end Steps

end Xrtc.Lib.Mailbox
