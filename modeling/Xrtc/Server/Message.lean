import Xrtc.Base.Xhead

/-!
# Requests, replies and the messages between the threads

The JSON library is a parameter: `Json V` lists the calls the server makes of it, with `none` for a
parse error or a thrown `Json::Exception`.
-/

namespace Xrtc.Server
open Base

def CMDNO_PUSH : Int := 1
def CMDNO_PULL : Int := 2
def CMDNO_ANSWER : Int := 3
def CMDNO_STOPPUSH : Int := 4
def CMDNO_STOPPULL : Int := 5

def MAX_RES_BUF : Nat := 4096

structure ResRoot where
  errNo : Int
  errMsg : String
  offer : List UInt8
  deriving DecidableEq

structure Json (V : Type) where
  parse : List UInt8 → Option V
  get : V → String → Option V
  asInt : V → Option Int
  asUInt64 : V → Option UInt64
  asString : V → Option (List UInt8)
  writeString : ResRoot → List UInt8

def utf8 (text : String) : List UInt8 := text.toUTF8.toList

/-- The shortest requests, `{"cmdno":1}` and `{"cmdno":2}`. -/
def pushText : List UInt8 := [0x7b, 0x22, 0x63, 0x6d, 0x64, 0x6e, 0x6f, 0x22, 0x3a, 0x31, 0x7d]
def pullText : List UInt8 := [0x7b, 0x22, 0x63, 0x6d, 0x64, 0x6e, 0x6f, 0x22, 0x3a, 0x32, 0x7d]

inductive Sample
  | null
  | number (i : Int)
  | object (cmdno : Int)

def padded (text body : List UInt8) : Bool :=
  text.isPrefixOf body && (body.drop text.length).all (· == 0x20)

/-- What jsoncpp does with the two texts above, where a missing member is `null`, and with responses
that have nothing to escape. -/
def Json.sample : Json Sample where
  parse body :=
    if padded pushText body then some (.object CMDNO_PUSH)
    else if padded pullText body then some (.object CMDNO_PULL)
    else none
  get
    | .object cmdno, key => some (if key = "cmdno" then .number cmdno else .null)
    | .null, _ => some .null
    | .number _, _ => none
  asInt
    | .number i => some i
    | .null => some 0
    | .object _ => none
  asUInt64
    | .number i => some (UInt64.ofNat i.toNat)
    | .null => some 0
    | .object _ => none
  asString
    | .number i => some (utf8 (toString i))
    | .null => some []
    | .object _ => none
  writeString root :=
    utf8 "\x7b\"err_msg\":\"" ++ utf8 root.errMsg ++ utf8 "\",\"err_no\":" ++
      utf8 (toString root.errNo) ++ utf8 ",\"offer\":\"" ++ root.offer ++ utf8 "\"\x7d"

/-- `W` names the signaling workers, the number in `conn` is the address of a connection object. -/
structure RtcMsg (W : Type) where
  cmdno : Int := -1
  uid : UInt64 := 0
  streamName : List UInt8 := []
  audio : Int := 0
  video : Int := 0
  logId : UInt32 := 0
  worker : Option W := none
  conn : Option Nat := none
  fd : Int := 0
  sdp : List UInt8 := []
  errNo : Int := 0
  deriving DecidableEq

structure PushParams where
  uid : UInt64
  streamName : List UInt8
  audio : Int
  video : Int
  deriving DecidableEq

inductive Request
  | reject
  | handled
  | push (params : PushParams)
  deriving DecidableEq

variable {V : Type}

def Json.member (json : Json V) (root : V) (key : String) (as : V → Option α) : Option α :=
  (json.get root key).bind as

def pushParams (json : Json V) (root : V) : Option PushParams := do
  let uid ← json.member root "uid" json.asUInt64
  let streamName ← json.member root "stream_name" json.asString
  let audio ← json.member root "audio" json.asInt
  let video ← json.member root "video" json.asInt
  return ⟨uid, streamName, audio, video⟩

def decodeRequest (json : Json V) (body : List UInt8) : Request :=
  match json.parse body with
  | none => .reject
  | some root =>
      match json.member root "cmdno" json.asInt with
      | none => .reject
      | some cmdno =>
          if cmdno = CMDNO_PUSH then
            match pushParams json root with
            | none => .reject
            | some params => .push params
          else if cmdno = CMDNO_PULL ∨ cmdno = CMDNO_ANSWER ∨ cmdno = CMDNO_STOPPUSH ∨
              cmdno = CMDNO_STOPPULL then .handled
          else .reject

def pushMsg {W : Type} (params : PushParams) (header : List UInt8) (worker : W) (conn : Nat)
    (fd : Int) : RtcMsg W where
  cmdno := CMDNO_PUSH
  uid := params.uid
  streamName := params.streamName
  audio := params.audio
  video := params.video
  logId := (Xhead.view header).logId
  worker := some worker
  conn := some conn
  fd := fd

/-- `send` is the result of `g_rtc_server->send_rtc_msg`. -/
def processRequest {W : Type} (json : Json V) (send : RtcMsg W → Int) (worker : W) (conn : Nat)
    (fd : Int) (header body : List UInt8) : Int :=
  match decodeRequest json body with
  | .reject => -1
  | .handled => 0
  | .push params => send (pushMsg params header worker conn fd)

def RtcMsg.resRoot {W : Type} (msg : RtcMsg W) : ResRoot :=
  if msg.errNo ≠ 0 then ⟨msg.errNo, "process error", []⟩
  else ⟨msg.errNo, "process success", msg.sdp⟩

end Xrtc.Server
