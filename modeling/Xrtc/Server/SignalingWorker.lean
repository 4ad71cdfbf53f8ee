import Xrtc.Base.EventLoop
import Xrtc.Server.Message
import Xrtc.Server.TcpConnection

/-!
# The signaling worker

`SignalingWorker` is the part of the class that its own thread alone uses: the event loop and the
table of connections. `Host` adds the kernel's descriptor table and is what one callback of the
thread turns into another.
-/

namespace Xrtc.Server
open Base Lib

/-- A `shared_ptr<TcpConnection>`: the object, its address, and the number of the accept the
connection came from, which no code reads. -/
structure ConnPtr where
  addr : Nat
  origin : Nat
  obj : TcpConnection

structure SignalingWorker where
  el : EventLoop
  conns : List (Option ConnPtr)

/-- `conns_[fd]` behind the test `fd < 0 || (size_t)fd >= conns_.size() || !conns_[fd]`. -/
def lookup (conns : List (Option ConnPtr)) (fd : Int) : Option ConnPtr :=
  if fd < 0 then none else (conns[fd.toNat]?).join

namespace SignalingWorker

def empty : SignalingWorker := ⟨EventLoop.empty, []⟩

def store (w : SignalingWorker) (fd : Int) (c : ConnPtr) : SignalingWorker :=
  { w with conns := w.conns.set fd.toNat (some c) }

def newConn (w : SignalingWorker) (cfd : Int) (addr origin now : Nat) :
    Except Fault SignalingWorker := do
  -- what the memory of the watcher held makes no difference: it is started before it is used
  let (el, io) := w.el.createIoEvent IOWatcher.blank
  let el ← el.startIoEvent io cfd Mask.READ
  -- a negative descriptor is only logged, and then used as an index
  if cfd < 0 then throw .outOfRange
  let conns := w.conns ++ List.replicate (cfd.toNat + 1 - w.conns.length) none
  let (el, timer) := el.createTimer cfd
  let el ← el.startTimer timer
  return ⟨el, conns.set cfd.toNat (some ⟨addr, origin, TcpConnection.new cfd io timer now⟩)⟩

def removeConn (w : SignalingWorker) (c : ConnPtr) : Except Fault SignalingWorker := do
  let el ← w.el.deleteTimer c.obj.timerWatcher
  let el ← el.deleteIoEvent c.obj.ioWatcher
  if c.obj.cfd < 0 ∨ w.conns.length ≤ c.obj.cfd.toNat then throw .outOfRange
  return ⟨el, w.conns.set c.obj.cfd.toNat none⟩

def addReply (w : SignalingWorker) (c : ConnPtr) (reply : Slice) : Except Fault SignalingWorker := do
  let obj := { c.obj with replyList := c.obj.replyList ++ [reply] }
  let el ← w.el.startIoEvent obj.ioWatcher obj.cfd Mask.WRITE
  return { w with el := el }.store obj.cfd { c with obj := obj }

def offerTarget {W : Type} (w : SignalingWorker) (msg : RtcMsg W) : Option ConnPtr :=
  match msg.conn with
  | none => none
  | some addr =>
      if msg.fd ≤ 0 then none
      else
        match lookup w.conns msg.fd with
        | none => none
        | some c => if c.addr ≠ addr then none else some c

/-- The reply for a connection whose buffer is `querybuf`; `mem` is what the fresh block holds. -/
def encodeReply {V : Type} (json : Json V) (querybuf : List UInt8) (root : ResRoot)
    (mem : Nat → UInt8) : Slice :=
  let buf : Block := ⟨xheadSize + MAX_RES_BUF, mem⟩
  let buf := buf.write 0 (slice querybuf 0 xheadSize)
  let jsonData := json.writeString root
  let bodyLen := UInt32.ofNat jsonData.length
  let buf := buf.write 32 (leBytes 4 bodyLen.toNat)
  let buf := buf.snprintf xheadSize MAX_RES_BUF jsonData
  ⟨buf, xheadSize + bodyLen.toNat⟩

def responseServerOffer {V W : Type} (json : Json V) (w : SignalingWorker) (msg : RtcMsg W)
    (mem : Nat → UInt8) : Except Fault SignalingWorker :=
  match w.offerTarget msg with
  | none => .ok w
  | some c => w.addReply c (encodeReply json c.obj.querybuf.buf msg.resRoot mem)

/-- The test of `process_timeout`, in unsigned 64-bit arithmetic. -/
def expired (timeout : Int) (now : Nat) (c : TcpConnection) : Bool :=
  toSizeT timeout < (now + 2 ^ 64 - c.lastInteraction) % 2 ^ 64

end SignalingWorker

/-- A worker and the descriptor table, which maps an open descriptor to its accept's number. -/
structure Host where
  worker : SignalingWorker
  fds : Int → Option Nat

def closeFd (fds : Int → Option Nat) (fd : Int) : Except Fault (Int → Option Nat) :=
  match fds fd with
  | none => .error .closedFd
  | some _ => .ok (Function.update fds fd none)

structure ReadInput where
  result : ReadResult
  request : Nat → List UInt8 → List UInt8 → Int
  fuel : Nat

namespace Host

def closeConn (h : Host) (c : ConnPtr) : Except Fault Host := do
  let fds ← closeFd h.fds c.obj.cfd
  let worker ← h.worker.removeConn c
  return ⟨worker, fds⟩

def afterFill (h : Host) (cfd : Int) (c : ConnPtr) (input : ReadInput) :
    Option (TcpConnection × Bool) → Option (Except Fault Host)
  | none => some (.error .brokenSds)
  | some (obj, true) => some (h.closeConn { c with obj := obj })
  | some (obj, false) =>
      match processQueryBuffer input.request input.fuel obj [] with
      | none => none
      | some (ret, obj, _) =>
          if ret ≠ 0 then some (h.closeConn { c with obj := obj })
          else some (.ok { h with worker := h.worker.store cfd { c with obj := obj } })

def readQuery (h : Host) (cfd : Int) (input : ReadInput) (now : Nat) : Option (Except Fault Host) :=
  match lookup h.worker.conns cfd with
  | none => some (.ok h)
  | some c => h.afterFill cfd c input (c.obj.fill input.result now)

def finishWrite (h : Host) (fd : Int) (c : ConnPtr) (now : Nat) : TcpConnection × Bool → Except Fault Host
  | (obj, true) => h.closeConn { c with obj := obj }
  | (obj, false) => do
      let obj := { obj with lastInteraction := now }
      let el ← if obj.replyList.isEmpty then
          h.worker.el.stopIoEvent obj.ioWatcher obj.cfd Mask.WRITE
        else .ok h.worker.el
      return { h with worker := { h.worker with el := el }.store fd { c with obj := obj } }

def writeReply (h : Host) (fd : Int) (results : List WriteResult) (now : Nat) :
    Option (Except Fault Host) :=
  if fd ≤ 0 then some (.ok h)
  else
    match lookup h.worker.conns fd with
    | none => some (.ok h)
    | some c => (c.obj.writeLoop results).map (h.finishWrite fd c now)

/-- Dereferences `conns_[cfd]` without a test. -/
def processTimeout (timeout : Int) (h : Host) (cfd : Int) (now : Nat) : Except Fault Host :=
  match lookup h.worker.conns cfd with
  | none => .error .emptySlot
  | some c => if SignalingWorker.expired timeout now c.obj then h.closeConn c else .ok h

def readable (h : Host) (fd : Int) (read : Option ReadInput) (now : Nat) : Option (Except Fault Host) :=
  match read with
  | none => some (.ok h)
  | some input => h.readQuery fd input now

def connIoCb (h : Host) (fd : Int) (read : Option ReadInput) (write : Option (List WriteResult))
    (now : Nat) : Option (Except Fault Host) :=
  match h.readable fd read now with
  | some (.ok h) =>
      match write with
      | none => some (.ok h)
      | some results => h.writeReply fd results now
  | result => result

end Host

inductive WorkerEvent (W : Type)
  | newConn (cfd : Int) (addr origin now : Nat)
  | io (watcher : Nat) (read : Option ReadInput) (write : Option (List WriteResult)) (now : Nat)
  | timer (watcher now : Nat)
  | offer (msg : RtcMsg W) (mem : Nat → UInt8)
  | close (cfd : Int)

namespace Host

/-- `none`: libev does not deliver the event (the watcher is not active or gone), or the callback does
not return. A connection accepted by the server is open when `new_conn` is called for it. -/
def event {V W : Type} (json : Json V) (timeout : Int) (h : Host) :
    WorkerEvent W → Option (Except Fault Host)
  | .newConn cfd addr origin now => some do
      let worker ← h.worker.newConn cfd addr origin now
      return ⟨worker, Function.update h.fds cfd (some origin)⟩
  | .io watcher read write now =>
      match h.worker.el.io watcher with
      | none => none
      | some w => if w.active then h.connIoCb w.fd read write now else none
  | .timer watcher now =>
      match h.worker.el.timer watcher with
      | none => none
      | some t => if t.active then some (h.processTimeout timeout t.cfd now) else none
  | .offer msg mem => some do
      let worker ← h.worker.responseServerOffer json msg mem
      return { h with worker := worker }
  | .close cfd =>
      match lookup h.worker.conns cfd with
      | none => none
      | some c => some (h.closeConn c)

def step {V W : Type} (json : Json V) (timeout : Int) (h : Host) (e : WorkerEvent W) : Option Host :=
  match h.event json timeout e with
  | some (.ok h') => some h'
  | _ => none

end Host

end Xrtc.Server
