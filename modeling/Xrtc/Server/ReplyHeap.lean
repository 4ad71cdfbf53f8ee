import Xrtc.Lib.Custody
import Xrtc.Server.SignalingWorker

/-!
# The buffers of the replies

`response_server_offer` gets a buffer by `zmalloc` and puts it into the `reply_list` of a connection;
`write_reply` passes it to `zfree` when the reply is out. A `Ledger` is a host together with the
addresses of the buffers: `replies.held fd` are those in the `reply_list` of `conns_[fd]`, in order.
-/

namespace Xrtc.Server
open Base Lib

def TcpConnection.popped : List WriteResult → TcpConnection → Nat
  | results, c =>
      match c.replyList with
      | [] => 0
      | reply :: rest =>
          match results with
          | [] => 0
          | result :: results =>
              match c.writeStep reply rest result with
              | none => 0
              | some c' => popped results c' + (c.replyList.length - c'.replyList.length)

structure Ledger where
  host : Host
  replies : Custody Int Nat

inductive LedgerFault
  | worker (fault : Fault)
  | badFree
deriving DecidableEq

namespace Ledger

def start (fds : Int → Option Nat) : Ledger := ⟨⟨SignalingWorker.empty, fds⟩, Custody.empty⟩

/-- A connection that is gone took its `reply_list` with it: `~TcpConnection` frees `querybuf`, and the
list holds slices, which own nothing. -/
def settle (host : Host) (fd : Int) (replies : Custody Int Nat) : Custody Int Nat :=
  if (lookup host.worker.conns fd).isNone then replies.abandon fd else replies

/-- The ledger after a call that can close the connection of `fd` and no other. -/
def after (fd : Int) (replies : Custody Int Nat) :
    Option (Except Fault Host) → Option (Except LedgerFault Ledger)
  | none => none
  | some (.error fault) => some (.error (.worker fault))
  | some (.ok host) => some (.ok ⟨host, settle host fd replies⟩)

def popped (l : Ledger) (fd : Int) (results : List WriteResult) : Nat :=
  if fd ≤ 0 then 0
  else
    match lookup l.host.worker.conns fd with
    | none => 0
    | some c => c.obj.popped results

def writeReply (l : Ledger) (fd : Int) (results : List WriteResult) (now : Nat) :
    Option (Except LedgerFault Ledger) :=
  match l.replies.release fd (l.popped fd results) with
  | none => some (.error .badFree)
  | some replies => after fd replies (l.host.writeReply fd results now)

def connIoCb (l : Ledger) (fd : Int) (read : Option ReadInput) (write : Option (List WriteResult))
    (now : Nat) : Option (Except LedgerFault Ledger) :=
  match after fd l.replies (l.host.readable fd read now) with
  | some (.ok l) =>
      match write with
      | none => some (.ok l)
      | some results => l.writeReply fd results now
  | result => result

def offer {V W : Type} (json : Json V) (l : Ledger) (msg : RtcMsg W) (mem : Nat → UInt8) (addr : Nat) :
    Option (Except LedgerFault Ledger) :=
  let replies := if (l.host.worker.offerTarget msg).isSome then l.replies.acquire msg.fd addr else l.replies
  after msg.fd replies (some do
    let worker ← l.host.worker.responseServerOffer json msg mem
    return { l.host with worker := worker })

def event {V W : Type} (json : Json V) (timeout : Int) (l : Ledger) (addr : Nat) (e : WorkerEvent W) :
    Option (Except LedgerFault Ledger) :=
  match e with
  | .newConn cfd _ _ _ => after cfd l.replies (l.host.event json timeout e)
  | .io watcher read write now =>
      match l.host.worker.el.io watcher with
      | none => none
      | some w => if w.active then l.connIoCb w.fd read write now else none
  | .timer watcher _ =>
      match l.host.worker.el.timer watcher with
      | none => none
      | some t => after t.cfd l.replies (l.host.event json timeout e)
  | .offer msg mem => l.offer json msg mem addr
  | .close cfd => after cfd l.replies (l.host.event json timeout e)

def step {V W : Type} (json : Json V) (timeout : Int) (l : Ledger) (label : Nat × WorkerEvent W) :
    Option Ledger :=
  match l.event json timeout label.1 label.2 with
  | some (.ok l') => some l'
  | _ => none

end Ledger

end Xrtc.Server
