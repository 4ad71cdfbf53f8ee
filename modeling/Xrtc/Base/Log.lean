import Mathlib.Logic.Function.Basic

/-!
# The asynchronous log

`OnLogMessage` is called by any thread; the writer thread drains the two queues into its string
stream and writes that to the files. A text is kept as the messages it is put together from, and
`render` gives the characters. Opening, writing and flushing a file succeed.
-/

namespace Xrtc.Base

inductive LoggingSeverity
  | LS_VERBOSE
  | LS_INFO
  | LS_WARNING
  | LS_ERROR
  | LS_NONE
  deriving DecidableEq

def LoggingSeverity.value : LoggingSeverity → Nat
  | LS_VERBOSE => 0
  | LS_INFO => 1
  | LS_WARNING => 2
  | LS_ERROR => 3
  | LS_NONE => 4

/-- `log_queue_`, `log_mtx_` and `out_file_`, or the same with `wf`. -/
inductive LogStream
  | log
  | wf
  deriving DecidableEq

def LoggingSeverity.stream (severity : LoggingSeverity) : LogStream :=
  if LoggingSeverity.LS_WARNING.value ≤ severity.value then .wf else .log

/-- `call` is the number of the call of `OnLogMessage`, which no code reads. -/
structure LogMessage where
  call : Nat
  text : List UInt8
  deriving DecidableEq

def render (text : List LogMessage) : List UInt8 := text.flatMap LogMessage.text

/-- An `ofstream`: what was put into it, and what has reached the file. -/
structure OutFile where
  isOpen : Bool
  text : List LogMessage
  disk : List LogMessage
  deriving DecidableEq

namespace OutFile

def put (f : OutFile) (text : List LogMessage) : OutFile :=
  if f.isOpen then { f with text := f.text ++ text } else f

def flush (f : OutFile) : OutFile := { f with disk := f.text }

def close (f : OutFile) : OutFile := { f.flush with isOpen := false }

def reopen (f : OutFile) : OutFile := { f.close with isOpen := true }

end OutFile

inductive CallPhase
  | called
  | locked
  | pushed
  | returned
  deriving DecidableEq

structure LogCall where
  text : List UInt8
  severity : LoggingSeverity
  phase : CallPhase
  deriving DecidableEq

inductive MutexOwner
  | writer
  | call (i : Nat)
  deriving DecidableEq

inductive WriterPc
  | idle
  | test
  | stat (st : LogStream)
  | lock (st : LogStream)
  /-- The block under the lock, with `write_log`. -/
  | drain (st : LogStream) (writeLog : Bool)
  | write (st : LogStream)
  | flush (st : LogStream)
  | clear (st : LogStream)
  | sleep
  | close (st : LogStream)
  | done
  deriving DecidableEq

/-- Where the call of `stop` is. Recorded are the calls of `OnLogMessage` that had returned when it was
called, and the writer's place and the queues at the store to `running_`. -/
inductive StopPc
  | notCalled
  | called (before : List Nat)
  | joining (before : List Nat) (pc : WriterPc) (queue : LogStream → List LogMessage)
  | returned (before : List Nat) (pc : WriterPc) (queue : LogStream → List LogMessage)

structure XrtcLog where
  running : Bool
  pc : WriterPc
  ss : List LogMessage
  queue : LogStream → List LogMessage
  mtx : LogStream → Option MutexOwner
  out : LogStream → OutFile
  stopping : StopPc
  calls : List LogCall
  pushes : List (LoggingSeverity × LogMessage)

inductive LogLabel
  | start
  | onLogMessage (text : List UInt8) (severity : LoggingSeverity)
  | call (i : Nat)
  /-- A step of the writer thread; the flag is what `stat` finds. -/
  | writer (fileThere : Bool)
  | stop
  | store
  | join

namespace XrtcLog

def new : XrtcLog where
  running := false
  pc := .idle
  ss := []
  queue _ := []
  mtx _ := none
  out _ := ⟨true, [], []⟩
  stopping := .notCalled
  calls := []
  pushes := []

def setOut (l : XrtcLog) (st : LogStream) (f : OutFile) : XrtcLog :=
  { l with out := Function.update l.out st f }

def setQueue (l : XrtcLog) (st : LogStream) (queue : List LogMessage) : XrtcLog :=
  { l with queue := Function.update l.queue st queue }

def setMtx (l : XrtcLog) (st : LogStream) (owner : Option MutexOwner) : XrtcLog :=
  { l with mtx := Function.update l.mtx st owner }

def writerStep (l : XrtcLog) (fileThere : Bool) : Option XrtcLog :=
  match l.pc with
  | .idle => none
  | .test => some { l with pc := if l.running then .stat .log else .close .log }
  | .stat .log => some { if fileThere then l else l.setOut .log (l.out .log).reopen with pc := .stat .wf }
  | .stat .wf => some { if fileThere then l else l.setOut .wf (l.out .wf).reopen with pc := .lock .log }
  | .lock st => if l.mtx st = none then some { l.setMtx st (some .writer) with pc := .drain st false } else none
  | .drain st writeLog =>
      match l.queue st with
      | [] => some { l.setMtx st none with pc := if writeLog then .write st else .clear st }
      | front :: rest => some { l.setQueue st rest with ss := l.ss ++ [front], pc := .drain st true }
  | .write st => some { l.setOut st ((l.out st).put l.ss) with pc := .flush st }
  | .flush st => some { l.setOut st (l.out st).flush with pc := .clear st }
  | .clear .log => some { l with ss := [], pc := .lock .wf }
  | .clear .wf => some { l with ss := [], pc := .sleep }
  | .sleep => some { l with pc := .test }
  | .close .log => some { l.setOut .log (l.out .log).close with pc := .close .wf }
  | .close .wf => some { l.setOut .wf (l.out .wf).close with pc := .done }
  | .done => none

def setPhase (l : XrtcLog) (i : Nat) (c : LogCall) (phase : CallPhase) : XrtcLog :=
  { l with calls := l.calls.set i { c with phase := phase } }

def callStep (l : XrtcLog) (i : Nat) : Option XrtcLog :=
  match l.calls[i]? with
  | none => none
  | some c =>
      let st := c.severity.stream
      match c.phase with
      | .called => if l.mtx st = none then some ((l.setMtx st (some (.call i))).setPhase i c .locked) else none
      | .locked =>
          let message : LogMessage := ⟨i, c.text⟩
          some { (l.setQueue st (l.queue st ++ [message])).setPhase i c .pushed with
            pushes := l.pushes ++ [(c.severity, message)] }
      | .pushed => some ((l.setMtx st none).setPhase i c .returned)
      | .returned => none

def returnedCalls (l : XrtcLog) : List Nat :=
  (List.range l.calls.length).filter fun i => l.calls[i]?.any (·.phase = .returned)

/-- `start` is called once, by the thread that calls `stop` afterwards. A thread that was never started
is not joinable. -/
def step (l : XrtcLog) : LogLabel → Option XrtcLog
  | .start =>
      match l.pc, l.stopping with
      | .idle, .notCalled => some { l with running := true, pc := .test }
      | _, _ => none
  | .onLogMessage text severity => some { l with calls := l.calls ++ [⟨text, severity, .called⟩] }
  | .call i => l.callStep i
  | .writer fileThere => l.writerStep fileThere
  | .stop =>
      match l.stopping with
      | .notCalled => some { l with stopping := .called l.returnedCalls }
      | _ => none
  | .store =>
      match l.stopping with
      | .called before => some { l with running := false, stopping := .joining before l.pc l.queue }
      | _ => none
  | .join =>
      match l.stopping with
      | .joining before pc queue =>
          if l.pc = .done ∨ l.pc = .idle then some { l with stopping := .returned before pc queue } else none
      | _ => none

end XrtcLog

end Xrtc.Base
