import Xrtc.Base.EventLoop

/-!
# The signaling server

`init` reads the configuration and creates the workers; later the server's thread hands each accepted
connection to a worker. A worker is known by the id it was created with. What the members hold that
the constructor does not set is `none`.
-/

namespace Xrtc.Server
open Base

structure SignalingServerOptions where
  host : String
  port : Int
  workerNum : Int
  connectionTimeout : Int
  deriving DecidableEq

structure Surroundings where
  /-- `YAML::LoadFile` and the conversions of the four values; `none` for a `YAML::Exception`. -/
  loadFile : String → Option SignalingServerOptions
  /-- `none` for -1. -/
  pipe : Option (Int × Int)
  createTcpServer : String → Int → Int
  workerInit : Nat → Int
  workerStart : Nat → Bool

structure SignalingServer where
  el : EventLoop
  options : Option SignalingServerOptions
  ioWatcher : Option Nat
  pipeWatcher : Option Nat
  notifyRecvFd : Int
  notifySendFd : Int
  listenFd : Option Int
  workers : List Nat
  nextWorkerIndex : Nat

namespace SignalingServer

def new : SignalingServer where
  el := EventLoop.empty
  options := none
  ioWatcher := none
  pipeWatcher := none
  notifyRecvFd := -1
  notifySendFd := -1
  listenFd := none
  workers := []
  nextWorkerIndex := 0

def createWorker (around : Surroundings) (s : SignalingServer) (workerId : Nat) : Int × SignalingServer :=
  if around.workerInit workerId ≠ 0 then (-1, s)
  else if !around.workerStart workerId then (-1, s)
  else (0, { s with workers := s.workers ++ [workerId] })

def createWorkers (around : Surroundings) (s : SignalingServer) : List Nat → Int × SignalingServer
  | [] => (0, s)
  | i :: rest =>
      let (ret, s) := createWorker around s i
      if ret ≠ 0 then (-1, s) else createWorkers around s rest

def watch (el : EventLoop) (fd : Int) : Except Fault (EventLoop × Nat) := do
  let (el, watcher) := el.createIoEvent IOWatcher.blank
  let el ← el.startIoEvent watcher fd Mask.READ
  return (el, watcher)

def listen (around : Surroundings) (s : SignalingServer) (options : SignalingServerOptions) :
    Except Fault (Int × SignalingServer) := do
  let (el, pipeWatcher) ← watch s.el s.notifyRecvFd
  let s := { s with el := el, pipeWatcher := some pipeWatcher }
  let listenFd := around.createTcpServer options.host options.port
  let s := { s with listenFd := some listenFd }
  if listenFd < 0 then return (-1, s)
  let (el, ioWatcher) ← watch s.el listenFd
  let s := { s with el := el, ioWatcher := some ioWatcher }
  return createWorkers around s (List.range options.workerNum.toNat)

def init (around : Surroundings) (s : SignalingServer) (confFile : Option String) :
    Except Fault (Int × SignalingServer) :=
  match confFile with
  | none => .ok (-1, s)
  | some confFile =>
      match around.loadFile confFile with
      | none => .ok (-1, s)
      | some options =>
          let s := { s with options := some options }
          match around.pipe with
          | none => .ok (-1, s)
          | some (recvFd, sendFd) =>
              { s with notifyRecvFd := recvFd, notifySendFd := sendFd }.listen around options

/-- The second result is the call `worker->notify_new_conn(cfd)`. -/
def dispatchNewConn (s : SignalingServer) (cfd : Int) : Except Fault (SignalingServer × (Nat × Int)) :=
  let index := s.nextWorkerIndex
  let next := s.nextWorkerIndex + 1
  let next := if s.workers.length ≤ next then 0 else next
  match s.workers[index]? with
  | none => .error .outOfRange
  | some worker => .ok ({ s with nextWorkerIndex := next }, (worker, cfd))

def dispatchAll (s : SignalingServer) : List Int → Except Fault (SignalingServer × List (Nat × Int))
  | [] => .ok (s, [])
  | cfd :: cfds => do
      let (s, call) ← s.dispatchNewConn cfd
      let (s, calls) ← s.dispatchAll cfds
      return (s, call :: calls)

end SignalingServer

end Xrtc.Server
