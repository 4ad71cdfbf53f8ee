import Xrtc.Base.Memory
import Xrtc.Base.Sds
import Xrtc.Base.Socket
import Xrtc.Base.Xhead

/-!
# One connection: reading requests and writing replies

The functions are those of `SignalingWorker` as far as they touch one connection object only. The
loop of `process_query_buffer` is cut into its iterations, `TcpConnection.queryStep`, since a
request is sent to another thread in the middle of it.
-/

namespace Xrtc.Server
open Base Lib

inductive ConnState
  | head
  | body
  deriving DecidableEq

structure TcpConnection where
  cfd : Int
  ioWatcher : Nat
  timerWatcher : Nat
  querybuf : Sds
  bytesExpected : Nat
  bytesProcessed : Nat
  currentState : ConnState
  lastInteraction : Nat
  replyList : List Slice
  curRespPos : Nat

/-- The constructor, with the watchers and the time that `new_conn` sets right after it. -/
def TcpConnection.new (fd : Int) (ioWatcher timerWatcher now : Nat) : TcpConnection where
  cfd := fd
  ioWatcher := ioWatcher
  timerWatcher := timerWatcher
  querybuf := sdsempty
  bytesExpected := xheadSize
  bytesProcessed := 0
  currentState := .head
  lastInteraction := now
  replyList := []
  curRespPos := 0

namespace TcpConnection

def readLen (c : TcpConnection) : Nat := toSizeT (toInt c.bytesExpected)

/-- What `read_query` does with the result of `sock_read_data`; `true` asks to close the connection. -/
def takeRead (c : TcpConnection) : Option (List UInt8) → Option (TcpConnection × Bool)
  | none => some (c, true)
  | some [] => some (c, false)
  | some data => (sdsIncrLen c.querybuf data).map fun querybuf => ({ c with querybuf := querybuf }, false)

def fill (c : TcpConnection) (result : ReadResult) (now : Nat) : Option (TcpConnection × Bool) :=
  (sdsMakeRoomFor c.querybuf c.readLen).bind fun querybuf =>
    { c with querybuf := querybuf, lastInteraction := now }.takeRead (sockReadData (sysRead c.readLen result))

inductive QueryStep
  | done
  | badMagic
  | header (c : TcpConnection)
  | request (header body : List UInt8)

/-- One test of the loop guard of `process_query_buffer` and the iteration behind it, up to the call
of `process_request`. -/
def queryStep (c : TcpConnection) : QueryStep :=
  if sdslen c.querybuf < c.bytesProcessed + c.bytesExpected then .done
  else
    let head := Xhead.view c.querybuf.buf
    match c.currentState with
    | .head =>
        if xheadMagicNum ≠ head.magicNum then .badMagic
        else .header { c with
          currentState := .body
          bytesProcessed := c.bytesProcessed + xheadSize
          bytesExpected := head.bodyLen.toNat }
    | .body => .request (slice c.querybuf.buf 0 xheadSize)
        (slice c.querybuf.buf xheadSize head.bodyLen.toNat)

def served (c : TcpConnection) : TcpConnection := { c with bytesProcessed := 65535 }

/-- One iteration of the loop of `write_reply`, for the result of its write; `none` asks to close the
connection. -/
def writeStep (c : TcpConnection) (reply : Slice) (rest : List Slice) (result : WriteResult) :
    Option TcpConnection :=
  let nwritten := sockWriteData result
  if nwritten < 0 then none
  else if nwritten = 0 then some c
  else if reply.size ≤ nwritten.toNat + c.curRespPos then
    some { c with replyList := rest, curRespPos := 0 }
  else some { c with curRespPos := c.curRespPos + nwritten.toNat }

/-- The loop of `write_reply` on the results of its writes; `true` asks to close the connection,
`none` means that the results end while the loop still runs. -/
def writeLoop : List WriteResult → TcpConnection → Option (TcpConnection × Bool)
  | results, c =>
      match c.replyList with
      | [] => some (c, false)
      | reply :: rest =>
          match results with
          | [] => none
          | result :: results =>
              match c.writeStep reply rest result with
              | none => some (c, true)
              | some c => writeLoop results c

end TcpConnection

abbrev Call := List UInt8 × List UInt8

/-- `process_query_buffer` with its result and the calls of `process_request` made so far, where
`request k` says what the call number `k` of the connection returns; `none` is out of fuel. -/
def processQueryBuffer (request : Nat → List UInt8 → List UInt8 → Int) :
    Nat → TcpConnection → List Call → Option (Int × TcpConnection × List Call)
  | 0, _, _ => none
  | fuel + 1, c, calls =>
      match c.queryStep with
      | .done => some (0, c, calls)
      | .badMagic => some (-1, c, calls)
      | .header c => processQueryBuffer request fuel c calls
      | .request header body =>
          if request calls.length header body ≠ 0 then some (-1, c, calls ++ [(header, body)])
          else processQueryBuffer request fuel c.served (calls ++ [(header, body)])

end Xrtc.Server
