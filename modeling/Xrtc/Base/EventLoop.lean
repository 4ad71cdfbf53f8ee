import Mathlib.Logic.Function.Basic

/-!
# The event loop's watchers

A watcher is known by the pointer its creation returned, here a number that is never used twice.
`io` and `timer` hold the watchers that were created and not deleted yet; the watcher of a worker's
notification pipe is not among them.
-/

namespace Xrtc.Base

/-- A use of memory or of a descriptor that the code relies on never making. -/
inductive Fault
  | freedWatcher
  | closedFd
  | emptySlot
  | outOfRange
  /-- No block for a dynamic string, or its length overflows, see `Sds`. -/
  | brokenSds
  deriving DecidableEq

structure Mask where
  read : Bool
  write : Bool
  deriving DecidableEq

namespace Mask

def empty : Mask := ⟨false, false⟩
def READ : Mask := ⟨true, false⟩
def WRITE : Mask := ⟨false, true⟩

def union (a b : Mask) : Mask := ⟨a.read || b.read, a.write || b.write⟩
def diff (a b : Mask) : Mask := ⟨a.read && !b.read, a.write && !b.write⟩

end Mask

structure IOWatcher where
  fd : Int
  events : Mask
  active : Bool
  deriving DecidableEq

def IOWatcher.blank : IOWatcher := ⟨-1, Mask.empty, false⟩

/-- `data` of the timers in use points to the connection's `cfd`. -/
structure TimerWatcher where
  cfd : Int
  active : Bool
  deriving DecidableEq

def IOWatcher.start (w : IOWatcher) (fd : Int) (mask : Mask) : IOWatcher :=
  if w.active then
    let events := w.events.union mask
    if events = w.events then w else ⟨fd, events, true⟩
  else ⟨fd, mask, true⟩

/-- Reads the event mask without looking at `active`, as the source does. -/
def IOWatcher.stop (w : IOWatcher) (fd : Int) (mask : Mask) : IOWatcher :=
  let events := w.events.diff mask
  if events = w.events then w
  else if events = Mask.empty then { w with active := false }
  else ⟨fd, events, true⟩

def IOWatcher.monitored (w : IOWatcher) : Mask := if w.active then w.events else Mask.empty

inductive IoCall
  | startIoEvent (mask : Mask)
  | stopIoEvent (mask : Mask)
  deriving DecidableEq

def IOWatcher.call (fd : Int) (w : IOWatcher) : IoCall → IOWatcher
  | .startIoEvent mask => w.start fd mask
  | .stopIoEvent mask => w.stop fd mask

structure EventLoop where
  io : Nat → Option IOWatcher
  timer : Nat → Option TimerWatcher
  fresh : Nat

namespace EventLoop

def empty : EventLoop := ⟨fun _ => none, fun _ => none, 0⟩

/-- `ev_init` leaves the descriptor and the mask as they were in `memory`. -/
def createIoEvent (el : EventLoop) (memory : IOWatcher) : EventLoop × Nat :=
  ({ el with
      io := Function.update el.io el.fresh (some { memory with active := false })
      fresh := el.fresh + 1 }, el.fresh)

def startIoEvent (el : EventLoop) (w : Nat) (fd : Int) (mask : Mask) : Except Fault EventLoop :=
  match el.io w with
  | none => .error .freedWatcher
  | some watcher => .ok { el with io := Function.update el.io w (some (watcher.start fd mask)) }

def stopIoEvent (el : EventLoop) (w : Nat) (fd : Int) (mask : Mask) : Except Fault EventLoop :=
  match el.io w with
  | none => .error .freedWatcher
  | some watcher => .ok { el with io := Function.update el.io w (some (watcher.stop fd mask)) }

def deleteIoEvent (el : EventLoop) (w : Nat) : Except Fault EventLoop :=
  match el.io w with
  | none => .error .freedWatcher
  | some _ => .ok { el with io := Function.update el.io w none }

def createTimer (el : EventLoop) (cfd : Int) : EventLoop × Nat :=
  ({ el with timer := Function.update el.timer el.fresh (some ⟨cfd, false⟩), fresh := el.fresh + 1 },
    el.fresh)

def startTimer (el : EventLoop) (t : Nat) : Except Fault EventLoop :=
  match el.timer t with
  | none => .error .freedWatcher
  | some timer => .ok { el with timer := Function.update el.timer t (some { timer with active := true }) }

def deleteTimer (el : EventLoop) (t : Nat) : Except Fault EventLoop :=
  match el.timer t with
  | none => .error .freedWatcher
  | some _ => .ok { el with timer := Function.update el.timer t none }

end EventLoop

end Xrtc.Base
