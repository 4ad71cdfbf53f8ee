import Mathlib.Logic.Function.Basic
import Xrtc.Go.ConfigFile
import Xrtc.Lib.FileWriter

/-!
# The log files of the Go signaling server

The package `glog`. Every call runs under `l.mu`, so a run is a list of calls. The disk, the clock and the
stacks of the goroutines are the parameter `LogDisk`. The trace locations, the verbosity of `V` and the text of
the header of a message are left out, and the flush before the process exits is in time.
-/

namespace Xrtc.Go.Glog
open Lib Lib.Printf

inductive Severity
  | debugLog
  | infoLog
  | warningLog
  | errorLog
  | fatalLog
  deriving DecidableEq

def Severity.toNat : Severity → Nat
  | debugLog => 0
  | infoLog => 1
  | warningLog => 2
  | errorLog => 3
  | fatalLog => 4

def Severity.name : Severity → Str
  | debugLog => text "DEBUG"
  | infoLog => text "INFO"
  | warningLog => text "WARNING"
  | errorLog => text "ERROR"
  | fatalLog => text "FATAL"

structure LogTime where
  year : Nat
  month : Nat
  day : Nat
  hour : Nat
  minute : Nat
  second : Nat
  deriving DecidableEq

structure LogDisk where
  /-- As `createLogDirs` leaves it. -/
  logDirs : List Str
  logFilename : Str
  pid : Nat
  host : Str
  built : Str
  /-- What `time.Now()` gives to a logger that has asked the system so many times before. -/
  clock : Nat → LogTime
  /-- What `os.Create` gives: an error, or the length at which the file is full. -/
  osCreate : Nat → Except String (Option (Nat × String))
  maxSize : Nat
  /-- The error of a write to a file that was closed. -/
  closedError : String
  stacksOf : (all : Bool) → Str

def padded (width n : Nat) : Str := List.replicate (width - (decimal n).length) 0x30 ++ decimal n

def logName (disk : LogDisk) (tag : Str) (t : LogTime) : Str :=
  disk.logFilename ++ text ".log." ++ tag ++ text "." ++ padded 4 t.year ++ padded 2 t.month ++ padded 2 t.day ++
    text "-" ++ padded 2 t.hour ++ padded 2 t.minute ++ padded 2 t.second ++ text "." ++ decimal disk.pid

def fileHeader (disk : LogDisk) (t : LogTime) : Str :=
  text "Log file created at: " ++ padded 4 t.year ++ text "/" ++ padded 2 t.month ++ text "/" ++ padded 2 t.day ++
    text " " ++ padded 2 t.hour ++ text ":" ++ padded 2 t.minute ++ text ":" ++ padded 2 t.second ++
    text "\nRunning on machine: " ++ disk.host ++ text "\nBinary: Built with " ++ disk.built ++
    text "\nLog line format: [IWEF]mmdd hh:mm:ss.uuuuuu threadid file:line] msg\n"

abbrev Path := Str × Str

def bufferSize : Nat := 256 * 1024

structure SyncBuffer where
  /-- The files that were rotated away, as they are on the disk. -/
  closed : List (Path × Str) := []
  file : Option Path := none
  writer : Option (FileWriter UInt8 String) := none
  nbytes : Nat := 0
  /-- All files that were created. -/
  created : List Path := []

namespace SyncBuffer

def flush (sb : SyncBuffer) : SyncBuffer := { sb with writer := sb.writer.map FileWriter.flush }

/-- The flush and the close at the front of `rotateFile`. The errors of the flush are not looked at. -/
def close (disk : LogDisk) (sb : SyncBuffer) : SyncBuffer :=
  match sb.file, sb.writer with
  | some path, some w =>
      let w := w.flush
      { sb with
        closed := sb.closed ++ [(path, w.file)]
        file := none
        writer := some { w with limit := some (w.file.length, disk.closedError) }
        nbytes := 0 }
  | _, _ => { sb with nbytes := 0 }

/-- `os.Create` truncates a file that is there already. The lines at the front do not go through the buffer. -/
def reopen (sb : SyncBuffer) (path : Path) (limit : Option (Nat × String)) (header : Str) :
    SyncBuffer × Option String :=
  let w := FileWriter.put ⟨limit, [], [], none⟩ header
  (⟨sb.closed.filter (·.1 ≠ path), some path, some { w with err := none }, w.file.length, sb.created ++ [path]⟩,
    w.err)

end SyncBuffer

structure Logging where
  parsed : Bool := true
  toStderr : Bool := false
  alsoToStderr : Bool := false
  stderrThreshold : Int := 3
  file : Severity → Option SyncBuffer := fun _ => none
  fatalNoStacks : Bool := false
  exitFunc : Bool := false
  stderr : Str := []
  /-- The number of calls of `time.Now` and `os.Create`. -/
  asked : Nat := 0
  lines : Severity → Nat := fun _ => 0
  bytes : Severity → Nat := fun _ => 0

inductive Stop
  | exit (code : Nat)
  | panic (p : Panic)
  deriving DecidableEq

abbrev LogM := EStateM Stop Logging

namespace Logging

def setFile (l : Logging) (s : Severity) (sb : SyncBuffer) : Logging :=
  { l with file := Function.update l.file s (some sb) }

def complain (l : Logging) (data : Str) : Logging := { l with stderr := l.stderr ++ data }

/-- There is no file for `debugLog`. -/
def flushAll (l : Logging) : Logging := { l with file := fun s => (l.file s).map SyncBuffer.flush }

def loud (l : Logging) (s : Severity) : Bool := l.alsoToStderr || l.stderrThreshold ≤ s.toNat

def count (l : Logging) (s : Severity) (data : Str) : Logging :=
  { l with
    lines := Function.update l.lines s (l.lines s + 1)
    bytes := Function.update l.bytes s (l.bytes s + data.length) }

end Logging

def exit (err : String) : LogM Unit := do
  modify (·.complain (text ("log: exiting because of error: " ++ err ++ "\n")))
  if (← get).exitFunc then return
  modify Logging.flushAll
  throw (.exit 2)

section

variable (disk : LogDisk)

def ask {α : Type} (answers : Nat → α) : LogM α := do
  let n := (← get).asked
  modify fun l => { l with asked := l.asked + 1 }
  return answers n

def createIn (name : Str) (lastErr : String) : List Str → LogM (Except String (Path × Option (Nat × String)))
  | [] => return .error ("log: cannot create log: " ++ lastErr)
  | dir :: dirs => do
      match ← ask disk.osCreate with
      | .ok limit => return .ok ((dir, name), limit)
      | .error err => createIn name err dirs

def create (tag : Str) (t : LogTime) : LogM (Except String (Path × Option (Nat × String))) :=
  if disk.logDirs.isEmpty then return .error "log: no log dirs"
  else createIn disk (logName disk tag t) "<nil>" disk.logDirs

def rotateFile (s : Severity) (now : LogTime) (sb : SyncBuffer) : LogM (SyncBuffer × Option String) := do
  let sb := sb.close disk
  match ← create disk s.name now with
  | .error err => return (sb, some err)
  | .ok (path, limit) => return sb.reopen path limit (fileHeader disk now)

def rotated (s : Severity) (p : Str) (sb : SyncBuffer) : LogM SyncBuffer := do
  if disk.maxSize ≤ sb.nbytes + p.length then
    let now ← ask disk.clock
    let (sb, err) ← rotateFile disk s now sb
    modify (·.setFile s sb)
    match err with
    | none => return sb
    | some err =>
        exit err
        return sb
  else return sb

def write (s : Severity) (p : Str) : LogM Unit := do
  match (← get).file s with
  | none => throw (.panic .nilDereference)
  | some sb =>
      let sb ← rotated disk s p sb
      match sb.writer with
      | none => throw (.panic .nilDereference)
      | some w =>
          let (w, rest) := w.write bufferSize p
          modify (·.setFile s { sb with writer := some w, nbytes := sb.nbytes + (p.length - rest.length) })
          match w.err with
          | none => return
          | some err => exit err

def Severity.down : Severity → List Severity
  | debugLog => []
  | infoLog => [infoLog]
  | warningLog => [warningLog, infoLog]
  | errorLog => [errorLog, warningLog, infoLog]
  | fatalLog => [fatalLog, errorLog, warningLog, infoLog]

def createLoop (now : LogTime) : List Severity → LogM (Option String)
  | [] => return none
  | s :: rest => do
      if ((← get).file s).isSome then return none
      let (sb, err) ← rotateFile disk s now {}
      match err with
      | some err => return some err
      | none =>
          modify (·.setFile s sb)
          createLoop now rest

def createFiles (s : Severity) : LogM (Option String) := do
  let now ← ask disk.clock
  createLoop disk now s.down

def Severity.targets : Severity → List Severity
  | fatalLog | errorLog | warningLog => [warningLog, infoLog]
  | debugLog | infoLog => [infoLog]

def writeAll (data : Str) : List Severity → LogM Unit
  | [] => return
  | s :: rest => do
      write disk s data
      writeAll data rest

def ensureFiles (s : Severity) (data : Str) : LogM Unit := do
  if ((← get).file s).isNone then
    match ← createFiles disk s with
    | none => return
    | some err =>
        modify (·.complain data)
        exit err

/-- `output` up to what a fatal message does, with `alsoToStderr` not set. -/
def record (s : Severity) (data : Str) : LogM Unit := do
  let l ← get
  if !l.parsed then modify (·.complain (text "ERROR: logging before flag.Parse: " ++ data))
  else if l.toStderr then modify (·.complain data)
  else
    if l.loud s then modify (·.complain data)
    ensureFiles disk s data
    writeAll disk data s.targets

def writeTrace (trace : Str) : List Severity → LogM Unit
  | [] => return
  | s :: rest => do
      if ((← get).file s).isSome then write disk s trace
      writeTrace trace rest

def die : LogM Unit := do
  if (← get).fatalNoStacks then
    modify Logging.flushAll
    throw (.exit 1)
  if !(← get).toStderr then modify (·.complain (disk.stacksOf false))
  modify fun l => { l with exitFunc := true }
  writeTrace disk (disk.stacksOf true) Severity.fatalLog.down
  modify Logging.flushAll
  throw (.exit 255)

def output (s : Severity) (data : Str) : LogM Unit := do
  record disk s data
  if s = .fatalLog then die disk
  modify (·.count s data)

/-- A message ends with a line break; the header in front of it is not empty. -/
def terminated (buf : Str) : Str := if buf.getLast? = some 0x0a then buf else buf ++ [0x0a]

def printf (s : Severity) (header message : Str) : LogM Unit := output disk s (terminated (header ++ message))

inductive Call
  | printf (s : Severity) (header message : Str)
  | flush

def perform : Call → LogM Unit
  | .printf s header message => printf disk s header message
  | .flush => modify Logging.flushAll

def run : List Call → LogM Unit
  | [] => return
  | call :: rest => do
      perform disk call
      run rest

end

end Xrtc.Go.Glog
