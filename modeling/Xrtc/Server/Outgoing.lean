import Xrtc.Lib.Machine
import Xrtc.Server.TcpConnection

/-!
# Sending the replies of one connection

`Outgoing` follows `add_reply` and `write_reply` on one connection, one write of the socket at a time.
-/

namespace Xrtc.Server
open Base Lib

inductive Writing
  | idle
  /-- At the loop guard of `write_reply`. -/
  | inside
  | closed
  deriving DecidableEq

/-- `added` and `sent` record the replies and the bytes the socket took; no code reads them. -/
structure Outgoing where
  obj : TcpConnection
  phase : Writing
  added : List Slice
  sent : List UInt8

inductive OutgoingEvent
  | addReply (reply : Slice)
  | writable
  | write (result : WriteResult)
  | leave (now : Nat)

def WriteResult.taken : WriteResult → Nat
  | .wrote n => n
  | _ => 0

namespace Outgoing

def start (fd : Int) (ioWatcher timerWatcher now : Nat) : Outgoing :=
  ⟨TcpConnection.new fd ioWatcher timerWatcher now, .idle, [], []⟩

def write (s : Outgoing) (result : WriteResult) : Option Outgoing :=
  match s.obj.replyList with
  | [] => none
  | reply :: rest =>
      match s.obj.writeStep reply rest result with
      | none => some { s with phase := .closed }
      | some obj => some { s with
          obj := obj
          sent := s.sent ++ (reply.bytes.drop s.obj.curRespPos).take (WriteResult.taken result) }

def step (s : Outgoing) : OutgoingEvent → Option Outgoing
  | .addReply reply =>
      if s.phase = .idle then some { s with
        obj := { s.obj with replyList := s.obj.replyList ++ [reply] }
        added := s.added ++ [reply] }
      else none
  | .writable => if s.phase = .idle then some { s with phase := .inside } else none
  | .write result => if s.phase = .inside then s.write result else none
  | .leave now =>
      if s.phase = .inside ∧ s.obj.replyList.isEmpty then
        some { s with phase := .idle, obj := { s.obj with lastInteraction := now } }
      else none

end Outgoing

end Xrtc.Server
