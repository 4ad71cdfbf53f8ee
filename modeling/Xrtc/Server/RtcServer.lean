import Xrtc.Base.EventLoop
import Xrtc.Base.Sds
import Xrtc.Server.Message

/-!
# The rtc server and its workers

Both threads forward messages; their queues and pipes are in `Pipeline`. `rtc::ComputeCrc32` is the
parameter `crc32`, a function of the bytes of the stream name.
-/

namespace Xrtc.Server
open Base

/-- `workers_` and `options_.worker_num`; `W` names the worker objects. -/
structure RtcServer (W : Type) where
  workers : List W
  workerNum : Int

namespace RtcServer

variable {W : Type}

def createWorker (server : RtcServer W) (worker : W) : RtcServer W :=
  { server with workers := server.workers ++ [worker] }

def init (m : Nat) : RtcServer (Fin m) := (List.finRange m).foldl createWorker ⟨[], m⟩

/-- The remainder is taken in unsigned 32-bit arithmetic, the type of `num`. -/
def getWorker (crc32 : List UInt8 → UInt32) (server : RtcServer W) (streamName : List UInt8) :
    Except Fault (Option W) :=
  if server.workers.length = 0 ∨ server.workers.length ≠ toSizeT server.workerNum then .ok none
  else
    let num := crc32 streamName
    let index := num.toNat % (server.workerNum % 2 ^ 32).toNat
    match server.workers[index]? with
    | none => .error .outOfRange
    | some worker => .ok (some worker)

end RtcServer

namespace RtcWorker

inductive Task (W : Type)
  | unknown
  | drop
  | send (worker : W) (msg : RtcMsg W)

def processPush {W : Type} (msg : RtcMsg W) : Task W :=
  let msg := { msg with sdp := utf8 "offer" }
  match msg.worker with
  | none => .drop
  | some worker => .send worker msg

def processRtcMsg {W : Type} (msg : RtcMsg W) : Task W :=
  if msg.cmdno = CMDNO_PUSH then processPush msg else .unknown

end RtcWorker

end Xrtc.Server
