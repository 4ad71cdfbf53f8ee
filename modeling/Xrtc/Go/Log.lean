import Xrtc.Lib.Printf

/-!
# The request log of the Go signaling server

`ComLog` and the places that use it. `glog` writes the text that `fmt.Sprintf` makes of its arguments,
behind a header of its own. Times are what `time.Now().UnixNano()` gives.
-/

namespace Xrtc.Go
open Lib.Printf

structure LogItem where
  field : List UInt8
  value : List UInt8
  deriving DecidableEq

structure TimeItem where
  field : List UInt8
  beginTime : Int64
  endTime : Int64 := 0
  deriving DecidableEq

structure ComLog where
  mainLog : List LogItem := []
  timeLog : List TimeItem := []
  deriving DecidableEq

inductive Severity
  | debug
  | info
  | warning
  deriving DecidableEq

structure Line where
  severity : Severity
  text : List UInt8
  deriving DecidableEq

/-- The loop of `TimeEnd`, which stops at the first item of the field. -/
def endFirst (field : List UInt8) (now : Int64) : List TimeItem → List TimeItem
  | [] => []
  | item :: items =>
      if item.field = field then { item with endTime := now / 1000 } :: items
      else item :: endFirst field now items

/-- The subtraction is that of `int64`. -/
def TimeItem.diff (item : TimeItem) : Int64 := item.endTime - item.beginTime

/-- `float64(diff) / 1000.0`. -/
def TimeItem.fdiff (item : TimeItem) : ℚ := round64 (round64 item.diff.toInt / 1000)

namespace ComLog

def addNotice (l : ComLog) (field value : List UInt8) : ComLog :=
  { l with mainLog := l.mainLog ++ [⟨field, value⟩] }

def timeBegin (l : ComLog) (field : List UInt8) (now : Int64) : ComLog :=
  { l with timeLog := l.timeLog ++ [{ field := field, beginTime := now / 1000 }] }

def timeEnd (l : ComLog) (field : List UInt8) (now : Int64) : ComLog :=
  { l with timeLog := endFirst field now l.timeLog }

def mainText (item : LogItem) : List UInt8 :=
  sprintf (text "%s[%s] ") [.string item.field, .string item.value]

def timeText (item : TimeItem) : List UInt8 :=
  if item.diff < 0 then []
  else sprintf (text "%s[%.3fms] ") [.string item.field, .float64 item.fdiff]

def getPrefixLog (l : ComLog) : List UInt8 :=
  let prefixLog := l.mainLog.foldl (fun prefixLog item => prefixLog ++ mainText item) []
  l.timeLog.foldl (fun prefixLog item => prefixLog ++ timeText item) prefixLog

def logf (severity : Severity) (l : ComLog) (format : List UInt8) (args : List Operand) : Line :=
  let totalLog := l.getPrefixLog ++ format
  ⟨severity, sprintf totalLog args⟩

def debugf (l : ComLog) (format : List UInt8) (args : List Operand) : Line := l.logf .debug format args

def infof (l : ComLog) (format : List UInt8) (args : List Operand) : Line := l.logf .info format args

def warningf (l : ComLog) (format : List UInt8) (args : List Operand) : Line := l.logf .warning format args

end ComLog

def itoa (i : Int) : List UInt8 := text (toString i)

/-- What `entry` reads of a request. A header that is missing is empty; `form` are the keys and first
values of `r.Form`, in the order in which its map is ranged over. -/
structure HttpRequest where
  path : List UInt8
  referer : List UInt8 := []
  cookie : List UInt8 := []
  userAgent : List UInt8 := []
  remoteAddr : List UInt8
  realIP : List UInt8 := []
  forwardedIP : List UInt8 := []
  form : List (List UInt8 × List UInt8) := []

def getRealClientIP (r : HttpRequest) : List UInt8 :=
  if r.realIP ≠ [] then r.realIP
  else if r.forwardedIP ≠ [] then r.forwardedIP
  else r.remoteAddr

def requestLog (logId : UInt32) (r : HttpRequest) : ComLog :=
  let l := ({} : ComLog).addNotice (text "logId") (itoa logId.toNat)
  let l := l.addNotice (text "url") r.path
  let l := l.addNotice (text "referer") r.referer
  let l := l.addNotice (text "cookie") r.cookie
  let l := l.addNotice (text "ua") r.userAgent
  let l := l.addNotice (text "clientIP") r.remoteAddr
  let l := l.addNotice (text "realClientIP") (getRealClientIP r)
  r.form.foldl (fun l item => l.addNotice item.1 item.2) l

/-- How an action ends, as far as it logs: with `writeJsonErrorResponse`, with the response of a push,
or without a word. -/
inductive Executed
  | failed (errno : Int) (message : List UInt8)
  | answered (resp : List UInt8)
  | quiet

def logError (l : ComLog) (errno : Int) (message : List UInt8) : ComLog × List Line :=
  let l := l.addNotice (text "errNo") (itoa errno)
  let l := l.addNotice (text "errMsg") message
  (l, [l.warningf (text "request process failed") []])

def logExecute (l : ComLog) : Executed → ComLog × List Line
  | .failed errno message => logError l errno message
  | .answered resp => (l.addNotice (text "resp") resp, [])
  | .quiet => (l, [])

def entry (logId : UInt32) (r : HttpRequest) (started finished : Int64) (executed : Executed) : List Line :=
  let l := (requestLog logId r).timeBegin (text "totalCost") started
  let (l, lines) := logExecute l executed
  let l := l.timeEnd (text "totalCost") finished
  lines ++ [l.infof [] []]

end Xrtc.Go
