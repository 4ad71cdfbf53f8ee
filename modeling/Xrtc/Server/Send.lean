import Xrtc.Server.Pipeline

/-!
# Sending a message

`send_rtc_msg` of the rtc server, of an rtc worker and of a signaling worker, each over its queue and
the `RTC_MSG` notifications in its pipe. A notification is kept with the message of the call that
wrote it, which no code reads. `ok` says whether `write` wrote all of the `int`.
-/

namespace Xrtc.Server

structure Channel (M : Type) where
  queue : List M
  pipe : List M
  deriving DecidableEq

namespace Channel

variable {M : Type}

def pushMsg (c : Channel M) (msg : M) : Channel M := { c with queue := c.queue ++ [msg] }

def popMsg (c : Channel M) : Option M × Channel M :=
  match c.queue with
  | [] => (none, c)
  | msg :: rest => (some msg, { c with queue := rest })

def notify (c : Channel M) (msg : M) (ok : Bool) : Int × Channel M :=
  if ok then (0, { c with pipe := c.pipe ++ [msg] }) else (-1, c)

end Channel

variable {R : Type}

/-- A message is a `shared_ptr`, and `none` is the null pointer. -/
def RtcServer.sendRtcMsg (c : Channel (Option R)) (msg : Option R) (ok : Bool) :
    Int × Channel (Option R) :=
  if msg.isNone then (-1, c) else (c.pushMsg msg).notify msg ok

def SignalingWorker.sendRtcMsg (c : Channel (Option R)) (msg : Option R) (ok : Bool) :
    Int × Channel (Option R) :=
  if msg.isNone then (-1, c) else (c.pushMsg msg).notify msg ok

/-- Has no test for the null pointer. -/
def RtcWorker.sendRtcMsg (c : Channel (Option R)) (msg : Option R) (ok : Bool) :
    Int × Channel (Option R) :=
  (c.pushMsg msg).notify msg ok

/-- The senders and the reader of one channel. `pending` are the calls between `push_msg` and `write`,
`failed` those whose `write` failed; `reads` are the notifications read, with the message that
`pop_msg` gave for each. -/
structure Traffic (M : Type) where
  channel : Channel M
  pending : List M
  failed : List M
  reads : List (M × Option M)
  deriving DecidableEq

inductive TrafficEvent (M : Type)
  | push (msg : M)
  | write (msg : M) (ok : Bool)
  | read

namespace Traffic

variable {M : Type}

def start : Traffic M := ⟨⟨[], []⟩, [], [], []⟩

def step [DecidableEq M] (s : Traffic M) : TrafficEvent M → Option (Traffic M)
  | .push msg => some { s with channel := s.channel.pushMsg msg, pending := s.pending ++ [msg] }
  | .write msg ok =>
      if msg ∈ s.pending then some { s with
        channel := (s.channel.notify msg ok).2
        pending := s.pending.erase msg
        failed := if ok then s.failed else s.failed ++ [msg] }
      else none
  | .read =>
      match s.channel.pipe with
      | [] => none
      | author :: rest =>
          let (msg, channel) := { s.channel with pipe := rest }.popMsg
          some { s with channel := channel, reads := s.reads ++ [(author, msg)] }

end Traffic

end Xrtc.Server
