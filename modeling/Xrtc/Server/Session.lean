import Xrtc.Server.SignalingWorker

/-!
# The life of one connection

`Session` follows `read_query` on one connection from the registration on, over the results that
the reads of its readable events give.
-/

namespace Xrtc.Server
open Base Lib

inductive Life
  | opened (c : TcpConnection)
  | closed
  /-- The process has aborted: no block for the buffer. -/
  | aborted
  /-- The length of the buffer has overflowed, with undefined behaviour. -/
  | broken

structure Session where
  life : Life
  calls : List Call

structure ReadEvent where
  result : ReadResult
  now : Nat

def Session.start (fd : Int) (ioWatcher timerWatcher now : Nat) : Session :=
  ⟨.opened (TcpConnection.new fd ioWatcher timerWatcher now), []⟩

def Session.after : Int × TcpConnection × List Call → Session
  | (ret, c, calls) => ⟨if ret ≠ 0 then .closed else .opened c, calls⟩

/-- `read_query` behind the read, `none` when the loop of `process_query_buffer` is out of fuel. -/
def Session.afterFill (request : Nat → List UInt8 → List UInt8 → Int) (fuel : Nat) (s : Session) :
    Option (TcpConnection × Bool) → Option Session
  | none => some { s with life := .broken }
  | some (_, true) => some { s with life := .closed }
  | some (c, false) => (processQueryBuffer request fuel c s.calls).map after

def Session.readQuery (request : Nat → List UInt8 → List UInt8 → Int) (fuel : Nat) (s : Session)
    (e : ReadEvent) : Option Session :=
  match s.life with
  | .opened c =>
      if (sdsMakeRoomFor c.querybuf c.readLen).isNone then some { s with life := .aborted }
      else s.afterFill request fuel (c.fill e.result e.now)
  | _ => some s

def Session.serve (request : Nat → List UInt8 → List UInt8 → Int) (fuel : Nat) :
    Session → List ReadEvent → Option Session
  | s, [] => some s
  | s, e :: reads => (s.readQuery request fuel e).bind fun s => s.serve request fuel reads

structure Buffered where
  session : Session
  size : Nat

def Buffered.start (fd : Int) (ioWatcher timerWatcher now : Nat) : Buffered :=
  ⟨Session.start fd ioWatcher timerWatcher now, 0⟩

def Buffered.room (b : Buffered) : Nat :=
  match b.session.life with
  | .opened c => sdsBlockSize b.size c.querybuf c.readLen
  | _ => b.size

def Buffered.readQuery (request : Nat → List UInt8 → List UInt8 → Int) (fuel : Nat) (b : Buffered)
    (e : ReadEvent) : Option Buffered :=
  (b.session.readQuery request fuel e).map fun session => ⟨session, b.room⟩

def Buffered.serve (request : Nat → List UInt8 → List UInt8 → Int) (fuel : Nat) :
    Buffered → List ReadEvent → Option Buffered
  | b, [] => some b
  | b, e :: reads => (b.readQuery request fuel e).bind fun b => b.serve request fuel reads

/-- The bytes that arrive before the peer closes or a read fails. -/
def received : List ReadEvent → List UInt8
  | [] => []
  | e :: reads =>
      match e.result with
      | .received [] => []
      | .received bytes => bytes ++ received reads
      | .again => received reads
      | .failed => []

def bodyLen (s : List UInt8) : Nat := (Xhead.view s).bodyLen.toNat

def expected (s : List UInt8) : Nat := if s.length < xheadSize then xheadSize else bodyLen s

/-- What the kernel promises of the reads after `s` has arrived: a read gives at most the bytes it
is asked for. -/
def OfferedAfter : List UInt8 → List ReadEvent → Prop
  | _, [] => True
  | s, e :: reads =>
      match e.result with
      | .received bytes => bytes.length ≤ toSizeT (toInt (expected s)) ∧ OfferedAfter (s ++ bytes) reads
      | .again => OfferedAfter s reads
      | .failed => True

instance OfferedAfter.decidable : (s : List UInt8) → (reads : List ReadEvent) →
    Decidable (OfferedAfter s reads)
  | _, [] => .isTrue trivial
  | s, ⟨.received bytes, _⟩ :: reads =>
      have := OfferedAfter.decidable (s ++ bytes) reads
      inferInstanceAs (Decidable (_ ∧ _))
  | s, ⟨.again, _⟩ :: reads => OfferedAfter.decidable s reads
  | _, ⟨.failed, _⟩ :: _ => .isTrue trivial

def Offered (reads : List ReadEvent) : Prop := OfferedAfter [] reads
  deriving Decidable

def HasHeader (s : List UInt8) : Prop :=
  xheadSize ≤ s.length ∧ (Xhead.view s).magicNum = xheadMagicNum
  deriving Decidable

def requestOf (s : List UInt8) : Call := (slice s 0 xheadSize, slice s xheadSize (bodyLen s))

end Xrtc.Server
