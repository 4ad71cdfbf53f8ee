import Xrtc.Lib.Machine
import Xrtc.Server.Session

/-!
# The buffer of one connection

`Parsing` follows what happens to one connection object: the reads of `read_query`, the iterations
of `process_query_buffer`, and the replies and writes between them. It records every access to
`querybuf` together with the length that was buffered at that time.
-/

namespace Xrtc.Server
open Base Lib

inductive Reading
  | waiting
  /-- At the loop guard of `process_query_buffer`. -/
  | inside
  | closed
  /-- The run has left the model, see `Sds`. -/
  | broken
  deriving DecidableEq

/-- What a part of the buffer is taken for; `xhead` is also the header slice. -/
inductive View
  | xhead
  | body
  | text
  deriving DecidableEq

structure Access where
  view : View
  offset : Nat
  size : Nat
  buffered : Nat

/-- `received` are the bytes the reads brought, `dispatched` the calls of `process_request`; no code
reads these or `accesses`. -/
structure Parsing where
  obj : TcpConnection
  phase : Reading
  received : List UInt8
  dispatched : Nat
  accesses : List Access

inductive ParsingEvent
  | read (result : ReadResult) (now : Nat)
  /-- One turn of the loop; `process_request` returns `ret` if it is called. -/
  | iterate (ret : Int)
  /-- `response_server_offer` with a message for this connection. -/
  | offer (root : ResRoot) (mem : Nat → UInt8)
  | write (results : List WriteResult) (now : Nat)
  /-- `close_conn` from a timer or from the end of the worker. -/
  | close

namespace Parsing

def start (fd : Int) (ioWatcher timerWatcher now : Nat) : Parsing :=
  ⟨TcpConnection.new fd ioWatcher timerWatcher now, .waiting, [], 0, []⟩

def access (p : Parsing) (view : View) (offset size : Nat) : Access :=
  ⟨view, offset, size, sdslen p.obj.querybuf⟩

def headAccess (p : Parsing) : Access := p.access .xhead 0 xheadSize

/-- The accesses of an iteration that calls `process_request`: its log prints `body.data()` up to a
nul, and the parser reads the slice. -/
def requestAccesses (p : Parsing) : List Access :=
  let buf := p.obj.querybuf.buf
  [p.headAccess, p.access .text xheadSize ((cString (buf.drop xheadSize)).length + 1),
    p.access .body xheadSize (Xhead.view buf).bodyLen.toNat]

def afterFill (p : Parsing) : Option (TcpConnection × Bool) → Parsing
  | none => { p with phase := .broken }
  | some (obj, true) => { p with obj := obj, phase := .closed }
  | some (obj, false) => { p with obj := obj, phase := .inside }

def readQuery (p : Parsing) (result : ReadResult) (now : Nat) : Parsing :=
  { p with received := p.received ++ (sockReadData (sysRead p.obj.readLen result)).getD [] }.afterFill
    (p.obj.fill result now)

def iterate (p : Parsing) (ret : Int) : Parsing :=
  match p.obj.queryStep with
  | .done => { p with phase := .waiting }
  | .badMagic => { p with phase := .closed, accesses := p.accesses ++ [p.headAccess] }
  | .header obj => { p with obj := obj, accesses := p.accesses ++ [p.headAccess] }
  | .request _ _ => { p with
      obj := if ret ≠ 0 then p.obj else p.obj.served
      phase := if ret ≠ 0 then .closed else .inside
      dispatched := p.dispatched + 1
      accesses := p.accesses ++ p.requestAccesses }

def responseServerOffer {V : Type} (json : Json V) (p : Parsing) (root : ResRoot) (mem : Nat → UInt8) :
    Parsing :=
  let reply := SignalingWorker.encodeReply json p.obj.querybuf.buf root mem
  { p with
    obj := { p.obj with replyList := p.obj.replyList ++ [reply] }
    accesses := p.accesses ++ [p.headAccess] }

def afterWrite (p : Parsing) (now : Nat) : TcpConnection × Bool → Parsing
  | (obj, true) => { p with obj := obj, phase := .closed }
  | (obj, false) => { p with obj := { obj with lastInteraction := now } }

/-- All but the iterations are callbacks of the worker's one thread; a message for this connection is
the answer to a request of it. -/
def step {V : Type} (json : Json V) (p : Parsing) : ParsingEvent → Option Parsing
  | .read result now => if p.phase = .waiting then some (p.readQuery result now) else none
  | .iterate ret => if p.phase = .inside then some (p.iterate ret) else none
  | .offer root mem =>
      if p.phase = .waiting ∧ 0 < p.dispatched then some (p.responseServerOffer json root mem) else none
  | .write results now =>
      if p.phase = .waiting then (p.obj.writeLoop results).map (p.afterWrite now) else none
  | .close => if p.phase = .waiting then some { p with phase := .closed } else none

def Offers (p : Parsing) : ParsingEvent → Prop
  | .read (.received bytes) _ => bytes.length ≤ p.obj.readLen
  | _ => True

instance (p : Parsing) : (e : ParsingEvent) → Decidable (Offers p e)
  | .read (.received _) _ => inferInstanceAs (Decidable (_ ≤ _))
  | .read .again _ => .isTrue trivial
  | .read .failed _ => .isTrue trivial
  | .iterate _ => .isTrue trivial
  | .offer _ _ => .isTrue trivial
  | .write _ _ => .isTrue trivial
  | .close => .isTrue trivial

end Parsing

end Xrtc.Server
