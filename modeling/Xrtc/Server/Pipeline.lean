import Mathlib.Tactic.DeriveFintype
import Xrtc.Lib.Machine
import Xrtc.Lib.MailboxFlow
import Xrtc.Server.RtcServer
import Xrtc.Server.SignalingWorker

/-!
# The threads of the server

The acceptor, `n` signaling workers, the rtc server and `m` rtc workers run in any interleaving. A
step ends where another thread can see the difference: at an operation of a queue or a pipe, at
`accept`, and between `close(fd)` and `conns_[fd].reset()`. The queues and pipes are a network of
mailboxes. `QUIT` is never sent here: the server runs until it is stopped from outside.
-/

namespace Xrtc.Server
open Base Lib Lib.Mailbox

/-! ## The queues and pipes -/

inductive Thread (n m : Nat)
  | acceptor
  | signaling (i : Fin n)
  | rtcServer
  | rtcWorker (j : Fin m)
  deriving DecidableEq, Fintype

/-- `q_conn_` and `rtc_msg_queue_` of a signaling worker, `msg_queue_` of the rtc server and of an rtc
worker. -/
inductive Box (n m : Nat)
  | conns (i : Fin n)
  | replies (i : Fin n)
  | server
  | worker (j : Fin m)
  deriving DecidableEq, Fintype

inductive Pipe (n m : Nat)
  | signaling (i : Fin n)
  | server
  | worker (j : Fin m)
  deriving DecidableEq

def SignalingWorker.NEW_CONN : Int := 1
def SignalingWorker.RTC_MSG : Int := 2
def RtcServer.RTC_MSG : Int := 1
def RtcWorker.RTC_MSG : Int := 1

variable {V : Type} {n m : Nat}

def Box.pipe : Box n m → Pipe n m
  | .conns i => .signaling i
  | .replies i => .signaling i
  | .server => .server
  | .worker j => .worker j

def Box.tag : Box n m → Int
  | .conns _ => SignalingWorker.NEW_CONN
  | .replies _ => SignalingWorker.RTC_MSG
  | .server => RtcServer.RTC_MSG
  | .worker _ => RtcWorker.RTC_MSG

def Pipe.reader : Pipe n m → Thread n m
  | .signaling i => .signaling i
  | .server => .rtcServer
  | .worker j => .rtcWorker j

def Pipe.processNotify : Pipe n m → Int → Option (Box n m)
  | .signaling i, msg =>
      if msg = SignalingWorker.NEW_CONN then some (.conns i)
      else if msg = SignalingWorker.RTC_MSG then some (.replies i)
      else none
  | .server, msg => if msg = RtcServer.RTC_MSG then some .server else none
  | .worker j, msg => if msg = RtcWorker.RTC_MSG then some (.worker j) else none

theorem processNotify_iff (p : Pipe n m) (msg : Int) (b : Box n m) :
    p.processNotify msg = some b ↔ b.pipe = p ∧ b.tag = msg := by
  cases p <;> cases b <;>
    simp [Pipe.processNotify, Box.pipe, Box.tag, SignalingWorker.NEW_CONN, SignalingWorker.RTC_MSG,
      RtcServer.RTC_MSG, RtcWorker.RTC_MSG, eq_comm]
  all_goals grind

/-- All pipes are created alike and hold `capacity` notifications. -/
def wiring (n m capacity : Nat) : Wiring (Thread n m) (Box n m) (Pipe n m) Int where
  pipeOf := Box.pipe
  tagOf := Box.tag
  boxOf := Pipe.processNotify
  readerOf := Pipe.reader
  capacity _ := capacity
  boxOf_iff := processNotify_iff

/-! ## The state -/

/-- A message, with the worker that created it, the accept its connection came from and a number of its
own; no code reads the last three. -/
structure Envelope (n : Nat) where
  msg : RtcMsg (Fin n)
  creator : Fin n
  origin : Nat
  serial : Nat
  deriving DecidableEq

/-- What goes through the queues. `origin` counts the accepts and is read by no code. -/
inductive Item (n : Nat)
  | conn (fd : Int) (origin : Nat)
  | msg (envelope : Envelope n)
  deriving DecidableEq

/-- Where a signaling worker is in its callback. The `c` of the callback is `conns_[fd]`; `write` says
that `conn_io_cb` still has to call `write_reply`. -/
inductive Pc
  | loop
  /-- At the loop guard of `process_query_buffer`. -/
  | querying (fd : Int) (write : Bool)
  /-- In `g_rtc_server->send_rtc_msg`. -/
  | sending (fd : Int) (write : Bool)
  /-- In `close_conn`, before `close`. -/
  | closing (fd : Int) (write : Bool)
  /-- In `close_conn`, before `remove_conn`. -/
  | removing (fd : Int) (write : Bool)
  | replying (fd : Int)
  deriving DecidableEq

structure Agent where
  worker : SignalingWorker
  pc : Pc

/-- What the history of a run records; no step reads it. -/
inductive Event (n m : Nat)
  /-- `new_conn`, with the accept of the connection that was in the slot before. -/
  | register (i : Fin n) (fd : Int) (origin : Nat) (old : Option Nat)
  /-- `close`, with the accept of the connection that `i` registered and of the one that was open. -/
  | close (i : Fin n) (fd : Int) (registered : Nat) (opened : Option Nat)
  /-- `response_server_offer`, with the accept of the connection that got the reply. -/
  | offer (i : Fin n) (envelope : Envelope n) (target : Option Nat)
  | process (j : Fin m) (envelope : Envelope n)
  | unknown (t : Thread n m) (envelope : Envelope n)
  | dropped (t : Thread n m) (envelope : Envelope n)

structure Local (n m : Nat) where
  agent : Fin n → Agent
  /-- The descriptors of connections that are open, with their accepts. -/
  fds : Int → Option Nat
  accepted : Nat
  sent : Nat
  nextWorkerIndex : Nat
  server : RtcServer (Fin m)
  log : List (Event n m)
  crash : Option Fault

abbrev Queues (n m : Nat) := Net (Thread n m) (Box n m) (Pipe n m) Int (Item n)

structure System (n m : Nat) where
  net : Queues n m
  loc : Local n m

def System.start (n m : Nat) : System n m where
  net := .empty
  loc := {
    agent := fun _ => ⟨.empty, .loop⟩
    fds := fun _ => none
    accepted := 0
    sent := 0
    nextWorkerIndex := 0
    server := .init m
    log := []
    crash := none }

structure Config (V : Type) (m : Nat) where
  json : Json V
  crc32 : List UInt8 → UInt32
  capacity : Nat
  connectionTimeout : Int
  workerNum_lt : m < 2 ^ 31

/-! ## The callbacks of a signaling worker -/

def Pc.afterRead (fd : Int) (write : Bool) : Pc := if write then .replying fd else .loop

namespace Agent

def afterFill (a : Agent) (fd : Int) (write : Bool) (c : ConnPtr) :
    Option (TcpConnection × Bool) → Except Fault Agent
  | none => .error .brokenSds
  | some (obj, close) => .ok {
      worker := a.worker.store fd { c with obj := obj }
      pc := if close then .closing fd write else .querying fd write }

/-- `conn_io_cb` up to the end of the read. -/
def connIoCb (a : Agent) (fd : Int) (read : Option ReadResult) (write : Bool) (now : Nat) :
    Except Fault Agent :=
  match read with
  | none => .ok { a with pc := .afterRead fd write }
  | some result =>
      match lookup a.worker.conns fd with
      | none => .ok { a with pc := .afterRead fd write }
      | some c => a.afterFill fd write c (c.obj.fill result now)

/-- One iteration of `process_query_buffer` on worker `i`; a push request gives a message and the accept
of its connection. -/
def query (json : Json V) (i : Fin n) (a : Agent) : Option (Agent × Option (RtcMsg (Fin n) × Nat)) :=
  match a.pc with
  | .querying fd write =>
      match lookup a.worker.conns fd with
      | none => none
      | some c =>
          match c.obj.queryStep with
          | .done => some ({ a with pc := .afterRead fd write }, none)
          | .badMagic => some ({ a with pc := .closing fd write }, none)
          | .header obj => some ({ a with worker := a.worker.store fd { c with obj := obj } }, none)
          | .request header body =>
              match decodeRequest json body with
              | .reject => some ({ a with pc := .closing fd write }, none)
              | .handled =>
                  some ({ a with worker := a.worker.store fd { c with obj := c.obj.served } }, none)
              | .push params => some ({ a with pc := .sending fd write },
                  some (pushMsg params header i c.addr c.obj.cfd, c.origin))
  | _ => none

/-- `send_rtc_msg` has returned, 0 if `ok`. -/
def sent (a : Agent) (ok : Bool) : Option Agent :=
  match a.pc with
  | .sending fd write =>
      match lookup a.worker.conns fd with
      | none => none
      | some c =>
          if ok then some ⟨a.worker.store fd { c with obj := c.obj.served }, .querying fd write⟩
          else some { a with pc := .closing fd write }
  | _ => none

def close (a : Agent) : Option (Agent × ConnPtr) :=
  match a.pc with
  | .closing fd write =>
      match lookup a.worker.conns fd with
      | none => none
      | some c => some ({ a with pc := .removing fd write }, c)
  | _ => none

def remove (a : Agent) : Option (Except Fault Agent) :=
  match a.pc with
  | .removing fd write =>
      match lookup a.worker.conns fd with
      | none => none
      | some c => some do
          let worker ← a.worker.removeConn c
          return ⟨worker, .afterRead fd write⟩
  | _ => none

def writeReply (a : Agent) (results : List WriteResult) (now : Nat) : Option (Except Fault Agent) :=
  match a.pc with
  | .replying fd =>
      if fd ≤ 0 then some (.ok { a with pc := .loop })
      else
        match lookup a.worker.conns fd with
        | none => some (.ok { a with pc := .loop })
        | some c =>
            match c.obj.writeLoop results with
            | none => none
            | some (obj, true) =>
                some (.ok ⟨a.worker.store fd { c with obj := obj }, .closing fd false⟩)
            | some (obj, false) => some do
                let obj := { obj with lastInteraction := now }
                let el ← if obj.replyList.isEmpty then
                    a.worker.el.stopIoEvent obj.ioWatcher obj.cfd Mask.WRITE
                  else .ok a.worker.el
                return ⟨{ a.worker with el := el }.store fd { c with obj := obj }, .loop⟩
  | _ => none

def processTimeout (timeout : Int) (a : Agent) (cfd : Int) (now : Nat) : Except Fault Agent :=
  match lookup a.worker.conns cfd with
  | none => .error .emptySlot
  | some c =>
      if SignalingWorker.expired timeout now c.obj then .ok { a with pc := .closing cfd false } else .ok a

end Agent

/-! ## The steps -/

inductive Label (n m : Nat)
  | accept (fd : Int)
  | dispatch
  | notify (t : Thread n m) (ok : Bool)
  | wake (p : Pipe n m)
  | pop (t : Thread n m)
  | forward
  | process (j : Fin m)
  | register (i : Fin n) (addr now : Nat)
  | handle (i : Fin n) (mem : Nat → UInt8)
  | io (i : Fin n) (watcher : Nat) (read : Option ReadResult) (write : Bool) (now : Nat)
  | timer (i : Fin n) (watcher now : Nat)
  | query (i : Fin n)
  | send (i : Fin n)
  | close (i : Fin n)
  | remove (i : Fin n)
  | reply (i : Fin n) (results : List WriteResult) (now : Nat)

/-- A step of the network, if the code makes one, and the rest of the state behind it. -/
structure Plan (n m : Nat) where
  move : Option (Move (Thread n m) (Box n m) (Pipe n m) (Item n))
  loc : Local n m

/-- `none`: the step cannot be taken in this state. -/
abbrev Outcome (n m : Nat) := Option (Except Fault (Plan n m))

namespace Local

def setAgent (loc : Local n m) (i : Fin n) (a : Agent) : Local n m :=
  { loc with agent := Function.update loc.agent i a }

def record (loc : Local n m) (e : Event n m) : Local n m := { loc with log := loc.log ++ [e] }

def freeAddr (loc : Local n m) (addr : Nat) : Bool :=
  (List.finRange n).all fun i => (loc.agent i).worker.conns.all (·.all (·.addr ≠ addr))

end Local

namespace System

def accept (s : System n m) (fd : Int) : Outcome n m :=
  if 0 ≤ fd ∧ s.loc.fds fd = none then
    some (.ok ⟨some (.create .acceptor (.conn fd s.loc.accepted)), { s.loc with
      fds := Function.update s.loc.fds fd (some s.loc.accepted)
      accepted := s.loc.accepted + 1 }⟩)
  else none

def dispatchNewConn (s : System n m) : Outcome n m :=
  match s.net.role .acceptor with
  | .holding _ =>
      let index := s.loc.nextWorkerIndex
      let next := if n ≤ index + 1 then 0 else index + 1
      if inside : index < n then
        some (.ok ⟨some (.push .acceptor (.conns ⟨index, inside⟩) id),
          { s.loc with nextWorkerIndex := next }⟩)
      else some (.error .outOfRange)
  | _ => none

/-- Only `process_push` looks at the result of a notification. -/
def notify (s : System n m) (t : Thread n m) (ok : Bool) : Outcome n m :=
  let move := if ok then .notify t else .abandon t
  match t with
  | .signaling i =>
      match (s.loc.agent i).sent ok with
      | none => none
      | some a => some (.ok ⟨some move, s.loc.setAgent i a⟩)
  | _ => some (.ok ⟨some move, s.loc⟩)

def wake (s : System n m) (p : Pipe n m) : Outcome n m :=
  match p with
  | .signaling i =>
      if (s.loc.agent i).pc = .loop then some (.ok ⟨some (.wake p), s.loc⟩) else none
  | _ => some (.ok ⟨some (.wake p), s.loc⟩)

def forward (cfg : Config V m) (s : System n m) : Outcome n m :=
  match s.net.role .rtcServer with
  | .holding (.msg envelope) =>
      match s.loc.server.getWorker cfg.crc32 envelope.msg.streamName with
      | .error fault => some (.error fault)
      | .ok none => some (.ok ⟨some (.consume .rtcServer), s.loc.record (.dropped .rtcServer envelope)⟩)
      | .ok (some j) => some (.ok ⟨some (.push .rtcServer (.worker j) id), s.loc⟩)
  | _ => none

def process (s : System n m) (j : Fin m) : Outcome n m :=
  match s.net.role (.rtcWorker j) with
  | .holding (.msg envelope) =>
      let loc := s.loc.record (.process j envelope)
      match RtcWorker.processRtcMsg envelope.msg with
      | .unknown =>
          some (.ok ⟨some (.consume (.rtcWorker j)), loc.record (.unknown (.rtcWorker j) envelope)⟩)
      | .drop =>
          some (.ok ⟨some (.consume (.rtcWorker j)), loc.record (.dropped (.rtcWorker j) envelope)⟩)
      | .send i msg =>
          some (.ok ⟨some (.push (.rtcWorker j) (.replies i) fun _ => .msg { envelope with msg := msg }),
            loc⟩)
  | _ => none

def register (s : System n m) (i : Fin n) (addr now : Nat) : Outcome n m :=
  let a := s.loc.agent i
  match a.pc, s.net.role (.signaling i) with
  | .loop, .holding (.conn fd origin) =>
      if s.loc.freeAddr addr then
        match a.worker.newConn fd addr origin now with
        | .error fault => some (.error fault)
        | .ok worker => some (.ok ⟨some (.consume (.signaling i)),
            (s.loc.setAgent i { a with worker := worker }).record
              (.register i fd origin ((lookup a.worker.conns fd).map ConnPtr.origin))⟩)
      else none
  | _, _ => none

def handle (cfg : Config V m) (s : System n m) (i : Fin n) (mem : Nat → UInt8) : Outcome n m :=
  let a := s.loc.agent i
  match a.pc, s.net.role (.signaling i) with
  | .loop, .holding (.msg envelope) =>
      if envelope.msg.cmdno = CMDNO_PUSH then
        match a.worker.responseServerOffer cfg.json envelope.msg mem with
        | .error fault => some (.error fault)
        | .ok worker => some (.ok ⟨some (.consume (.signaling i)),
            (s.loc.setAgent i { a with worker := worker }).record
              (.offer i envelope ((a.worker.offerTarget envelope.msg).map ConnPtr.origin))⟩)
      else some (.ok ⟨some (.consume (.signaling i)), s.loc.record (.unknown (.signaling i) envelope)⟩)
  | _, _ => none

def waiting (s : System n m) (i : Fin n) : Bool :=
  match s.net.role (.signaling i), (s.loc.agent i).pc with
  | .free, .loop => true
  | _, _ => false

def turn (s : System n m) (i : Fin n) (result : Except Fault Agent) : Except Fault (Plan n m) :=
  result.map fun a => ⟨none, s.loc.setAgent i a⟩

def io (s : System n m) (i : Fin n) (watcher : Nat) (read : Option ReadResult) (write : Bool)
    (now : Nat) : Outcome n m :=
  let a := s.loc.agent i
  match a.worker.el.io watcher with
  | none => none
  | some w =>
      if s.waiting i ∧ w.active then some (s.turn i (a.connIoCb w.fd read write now)) else none

def timer (cfg : Config V m) (s : System n m) (i : Fin n) (watcher now : Nat) : Outcome n m :=
  let a := s.loc.agent i
  match a.worker.el.timer watcher with
  | none => none
  | some w =>
      if s.waiting i ∧ w.active then
        some (s.turn i (a.processTimeout cfg.connectionTimeout w.cfd now))
      else none

def query (cfg : Config V m) (s : System n m) (i : Fin n) : Outcome n m :=
  match (s.loc.agent i).query cfg.json i with
  | none => none
  | some (a, none) => some (.ok ⟨none, s.loc.setAgent i a⟩)
  | some (a, some (msg, origin)) =>
      some (.ok ⟨some (.create (.signaling i) (.msg ⟨msg, i, origin, s.loc.sent⟩)),
        { s.loc.setAgent i a with sent := s.loc.sent + 1 }⟩)

def send (s : System n m) (i : Fin n) : Outcome n m :=
  match (s.loc.agent i).pc, s.net.role (.signaling i) with
  | .sending _ _, .holding (.msg _) => some (.ok ⟨some (.push (.signaling i) .server id), s.loc⟩)
  | _, _ => none

def close (s : System n m) (i : Fin n) : Outcome n m :=
  match (s.loc.agent i).close with
  | none => none
  | some (a, c) => some (.ok ⟨none, ({ s.loc.setAgent i a with
      fds := Function.update s.loc.fds c.obj.cfd none }).record
        (.close i c.obj.cfd c.origin (s.loc.fds c.obj.cfd))⟩)

def remove (s : System n m) (i : Fin n) : Outcome n m :=
  (s.loc.agent i).remove.map (s.turn i)

def reply (s : System n m) (i : Fin n) (results : List WriteResult) (now : Nat) : Outcome n m :=
  ((s.loc.agent i).writeReply results now).map (s.turn i)

def plan (cfg : Config V m) (s : System n m) : Label n m → Outcome n m
  | .accept fd => s.accept fd
  | .dispatch => s.dispatchNewConn
  | .notify t ok => s.notify t ok
  | .wake p => s.wake p
  | .pop t => some (.ok ⟨some (.pop t), s.loc⟩)
  | .forward => s.forward cfg
  | .process j => s.process j
  | .register i addr now => s.register i addr now
  | .handle i mem => s.handle cfg i mem
  | .io i watcher read write now => s.io i watcher read write now
  | .timer i watcher now => s.timer cfg i watcher now
  | .query i => s.query cfg i
  | .send i => s.send i
  | .close i => s.close i
  | .remove i => s.remove i
  | .reply i results now => s.reply i results now

/-- A plan is carried out if the network allows its move; a blocked write is one it does not allow. -/
def carry (cfg : Config V m) (s : System n m) (plan : Plan n m) : Option (System n m) :=
  match plan.move with
  | none => some { s with loc := plan.loc }
  | some move => (s.net.step (wiring n m cfg.capacity) move).map fun net => ⟨net, plan.loc⟩

/-- A fault of one thread ends the process. -/
def step (cfg : Config V m) (s : System n m) (l : Label n m) : Option (System n m) :=
  if s.loc.crash ≠ none then none
  else
    match s.plan cfg l with
    | none => none
    | some (.error fault) => some { s with loc := { s.loc with crash := some fault } }
    | some (.ok plan) => s.carry cfg plan

end System

end Xrtc.Server
