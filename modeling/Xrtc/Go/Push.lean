import Xrtc.Go.Xrpc
import Xrtc.Lib.Rfc8259

/-!
# The push action of the Go signaling server

A Go string is its bytes. What `encoding/json` and `client.Do` do are parameters.
-/

namespace Xrtc.Go

def ParamErr : Int := -1
def NetworkErr : Int := -2

def CMDNO_PUSH : Int := 1

inductive NumErr
  | invalid
  | outOfRange
  deriving DecidableEq

def parseDigits (n : Nat) : List UInt8 → Except NumErr Nat
  | [] => .ok n
  | c :: rest =>
      if c < 0x30 ∨ 0x39 < c then .error .invalid
      else if 2 ^ 64 ≤ 10 * n + (c.toNat - 0x30) then .error .outOfRange
      else parseDigits (10 * n + (c.toNat - 0x30)) rest

def parseUint (s : List UInt8) : Except NumErr UInt64 :=
  if s = [] then .error .invalid else (parseDigits 0 s).map UInt64.ofNat

inductive GoError
  | num (s : List UInt8) (err : NumErr)
  | text (message : String)
  deriving DecidableEq

/-- The text of a `comerrors.Errors` is `err` with the text of `cause` behind it. -/
structure Errors where
  errno : Int
  err : String
  cause : Option GoError := none
  deriving DecidableEq

/-- `r.Form`, in which a name can stand several times. -/
abbrev Form := String → Option (List (List UInt8))

def formValue (form : Form) (key : String) : Except Panic (List UInt8) :=
  match form key with
  | none => .ok []
  | some [] => .error .indexOutOfRange
  | some (value :: _) => .ok value

/-- A form as `ParseForm` makes it: a name that is there has a value. -/
structure ParsedForm where
  values : Form
  present : ∀ key, values key ≠ some []

structure XrtcPushReq where
  cmdno : Int
  uid : UInt64
  streamName : List UInt8
  audio : Int
  video : Int
  deriving DecidableEq

def XrtcPushReq.fields (req : XrtcPushReq) : List (List Char × Lib.Rfc8259.Field) :=
  [("cmdno".toList, .int req.cmdno), ("uid".toList, .int req.uid.toNat),
    ("stream_name".toList, .string req.streamName), ("audio".toList, .int req.audio),
    ("video".toList, .int req.video)]

structure XrtcPushResp where
  errNo : Int
  offer : List UInt8
  deriving DecidableEq

structure PushData where
  type : String
  sdp : List UInt8
  deriving DecidableEq

structure ComHttpResp where
  errNo : Int
  errMsg : String
  data : Option PushData := none
  deriving DecidableEq

/-- What `Execute` has done when it returns: the backend call, the error that is logged and the response. -/
structure Served where
  called : Option XrtcPushReq
  cerr : Option Errors
  resp : ComHttpResp
  deriving DecidableEq

def writeJsonErrorResponse (cerr : Errors) (called : Option XrtcPushReq) : Served :=
  ⟨called, some cerr, { errNo := cerr.errno, errMsg := "process error" }⟩

def flag (value : List UInt8) : Int := if value = [] ∨ value = [0x30] then 0 else 1

def finish (req : XrtcPushReq) : Except GoError XrtcPushResp → Served
  | .error err =>
      writeJsonErrorResponse { errno := NetworkErr, err := "backend process error:", cause := err } req
  | .ok resp =>
      if resp.errNo ≠ 0 then
        writeJsonErrorResponse
          { errno := NetworkErr, err := "backend process errno: " ++ toString resp.errNo } req
      else ⟨some req, none, { errNo := 0, errMsg := "success", data := some ⟨"offer", resp.offer⟩ }⟩

def execute (form : Form) (call : XrtcPushReq → Except GoError XrtcPushResp) : Except Panic Served := do
  let strUid ← formValue form "uid"
  match parseUint strUid with
  | .error err =>
      return writeJsonErrorResponse
        { errno := ParamErr, err := "parse uid error:", cause := some (.num strUid err) } none
  | .ok uid =>
      -- `err` is nil here, and `err.Error()` is called all the same
      if uid ≤ 0 then throw .nilDereference
      let streamName ← formValue form "streamName"
      if streamName = [] then
        return writeJsonErrorResponse { errno := ParamErr, err := "streamName is null" } none
      let strAudio ← formValue form "audio"
      let strVideo ← formValue form "video"
      let req := ⟨CMDNO_PUSH, uid, streamName, flag strAudio, flag strVideo⟩
      return finish req (call req)

/-! `Execute` once more, statement by statement on what it writes to. -/

/-- The responses written to `w`, the requests given to `framework.Call` and the errors logged. -/
structure Handling where
  written : List ComHttpResp
  calls : List XrtcPushReq
  logged : List Errors
  deriving DecidableEq

namespace Handling

def value (form : Form) (key : String) : EStateM Panic Handling (List UInt8) :=
  match formValue form key with
  | .error p => throw p
  | .ok value => pure value

def uidOf (strUid : List UInt8) : UInt64 × Option GoError :=
  match parseUint strUid with
  | .ok uid => (uid, none)
  | .error .invalid => (0, some (.num strUid .invalid))
  | .error .outOfRange => (18446744073709551615, some (.num strUid .outOfRange))

def error : Option GoError → EStateM Panic Handling GoError
  | none => throw .nilDereference
  | some err => pure err

def write (resp : ComHttpResp) : EStateM Panic Handling Unit :=
  modify fun h => { h with written := h.written ++ [resp] }

def writeError (cerr : Errors) : EStateM Panic Handling Unit := do
  modify fun h => { h with logged := h.logged ++ [cerr] }
  write { errNo := cerr.errno, errMsg := "process error" }

def call (backend : XrtcPushReq → Except GoError XrtcPushResp) (req : XrtcPushReq) :
    EStateM Panic Handling (Except GoError XrtcPushResp) := do
  modify fun h => { h with calls := h.calls ++ [req] }
  return backend req

def report : Except GoError XrtcPushResp → EStateM Panic Handling Unit
  | .error err => writeError { errno := NetworkErr, err := "backend process error:", cause := err }
  | .ok resp =>
      if resp.errNo ≠ 0 then
        writeError { errno := NetworkErr, err := "backend process errno: " ++ toString resp.errNo }
      else write { errNo := 0, errMsg := "success", data := some ⟨"offer", resp.offer⟩ }

def push (form : Form) (backend : XrtcPushReq → Except GoError XrtcPushResp) (uid : UInt64)
    (streamName : List UInt8) : EStateM Panic Handling Unit := do
  let strAudio ← value form "audio"
  let strVideo ← value form "video"
  let req := ⟨CMDNO_PUSH, uid, streamName, flag strAudio, flag strVideo⟩
  let result ← call backend req
  report result

def execute (form : Form) (backend : XrtcPushReq → Except GoError XrtcPushResp) :
    EStateM Panic Handling Unit := do
  let strUid ← value form "uid"
  let (uid, err) := uidOf strUid
  if err.isSome ∨ uid ≤ 0 then
    let cause ← error err
    writeError { errno := ParamErr, err := "parse uid error:", cause := cause }
  else
    let streamName ← value form "streamName"
    if streamName = [] then writeError { errno := ParamErr, err := "streamName is null" }
    else push form backend uid streamName

end Handling

def callRequest (marshal : XrtcPushReq → Except GoError (List UInt8)) (req : XrtcPushReq) (logId : UInt32) :
    Except GoError (Option Request) :=
  (marshal req).map fun content => newRequest (.bytes content) logId

/-- `client` is `client.Do` of the client of the service, if there is one. -/
def call (client : Option (Option Request → Except GoError Response))
    (marshal : XrtcPushReq → Except GoError (List UInt8))
    (unmarshal : List UInt8 → Except GoError XrtcPushResp) (logId : UInt32) (req : XrtcPushReq) :
    Except GoError XrtcPushResp :=
  match client with
  | none => .error (.text "[xrtc] service not found")
  | some doRequest => do
      let request ← callRequest marshal req logId
      let resp ← doRequest request
      unmarshal resp.body

end Xrtc.Go
