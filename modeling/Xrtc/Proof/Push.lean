import Xrtc.Go.Push
import Xrtc.Lib.Machine
import Xrtc.Proof.ShortConnection

/-!
# The parameters of a push, from the HTTP form to the message

The two JSON libraries are parameters, tied together by the meaning that `Rfc8259.decode` gives to a text.
-/

namespace Xrtc.Proof.Push
open Lib Base Server ShortConnection

/-- The forms that lead to a backend call. -/
structure Accepted (form : Go.Form) (uid : UInt64) (streamName strAudio strVideo : List UInt8) : Prop where
  parsed : ∃ strUid, Go.formValue form "uid" = .ok strUid ∧ Go.parseUint strUid = .ok uid
  positive : 0 < uid
  name : Go.formValue form "streamName" = .ok streamName
  named : streamName ≠ []
  audio : Go.formValue form "audio" = .ok strAudio
  video : Go.formValue form "video" = .ok strVideo

theorem finish_called (req : Go.XrtcPushReq) (result : Except Go.GoError Go.XrtcPushResp) :
    (Go.finish req result).called = some req := by
  cases result with
  | error err => rfl
  | ok resp =>
      rw [Go.finish]
      split <;> rfl

variable {form : Go.Form} {call : Go.XrtcPushReq → Except Go.GoError Go.XrtcPushResp}

def pushReq (uid : UInt64) (streamName strAudio strVideo : List UInt8) : Go.XrtcPushReq :=
  ⟨Go.CMDNO_PUSH, uid, streamName, Go.flag strAudio, Go.flag strVideo⟩

theorem execute_accepted {uid : UInt64} {streamName strAudio strVideo : List UInt8}
    (accepted : Accepted form uid streamName strAudio strVideo) :
    Go.execute form call = .ok (Go.finish (pushReq uid streamName strAudio strVideo)
      (call (pushReq uid streamName strAudio strVideo))) := by
  obtain ⟨strUid, value, parsed⟩ := accepted.parsed
  have positive : ¬ uid ≤ 0 := UInt64.not_le.mpr accepted.positive
  simp only [Go.execute, value, parsed, accepted.name, accepted.audio, accepted.video, bind, Except.bind,
    if_neg positive, if_neg accepted.named]
  rfl

theorem execute_calls {served : Go.Served} {req : Go.XrtcPushReq} (executed : Go.execute form call = .ok served)
    (called : served.called = some req) :
    ∃ uid streamName strAudio strVideo, Accepted form uid streamName strAudio strVideo ∧
      req = pushReq uid streamName strAudio strVideo := by
  obtain ⟨strUid, value, executed⟩ := bind_eq_ok executed
  cases parsed : Go.parseUint strUid with
  | error err =>
      rw [parsed] at executed
      cases executed
      cases called
  | ok uid =>
      simp only [parsed] at executed
      split at executed
      · cases executed
      · next positive =>
          obtain ⟨streamName, name, executed⟩ := bind_eq_ok executed
          split at executed
          · cases executed
            cases called
          · next named =>
              obtain ⟨strAudio, audio, executed⟩ := bind_eq_ok executed
              obtain ⟨strVideo, video, executed⟩ := bind_eq_ok executed
              cases executed
              rw [finish_called] at called
              exact ⟨uid, streamName, strAudio, strVideo,
                ⟨⟨strUid, value, parsed⟩, UInt64.not_le.mp positive, name, named, audio, video⟩,
                (Option.some.inj called).symm⟩

/-! ## The JSON libraries -/

variable {V W : Type} {json : Json V} {marshal : Go.XrtcPushReq → Except Go.GoError (List UInt8)}

/-- `v` stands for a number, as far as the C++ type holds it, or for a string. -/
def Means (json : Json V) (v : V) : Rfc8259.Scalar → Prop
  | .number i =>
      (-2 ^ 31 ≤ i → i < 2 ^ 31 → json.asInt v = some i) ∧
        ∀ n : UInt64, i = n.toNat → json.asUInt64 v = some n
  | .string text => json.asString v = some (Utf8.encode text)

/-- jsoncpp reads an object as RFC 8259 has it. -/
def Reads (json : Json V) : Prop :=
  ∀ bytes object, Rfc8259.decode bytes = some object → ∃ root, json.parse bytes = some root ∧
    ∀ key : String, ∀ value, (key.toList, value) ∈ object →
      ∃ v, json.get root key = some v ∧ Means json v value

/-- `json.Marshal` writes such an object, U+FFFD standing for each invalid byte of a string. -/
def Writes (marshal : Go.XrtcPushReq → Except Go.GoError (List UInt8)) : Prop :=
  ∀ req, ∃ content, marshal req = .ok content ∧
    Rfc8259.decode content = some (req.fields.map fun field => (field.1, field.2.meaning))

theorem member_eq {root : V} {key : String} {value : Rfc8259.Scalar} {as : V → Option α} {a : α}
    (found : ∃ v, json.get root key = some v ∧ Means json v value)
    (means : ∀ v, Means json v value → as v = some a) : json.member root key as = some a := by
  obtain ⟨v, get, meaning⟩ := found
  rw [Json.member, get, Option.bind_some, means v meaning]

theorem flag_cases (value : List UInt8) : Go.flag value = 0 ∨ Go.flag value = 1 := by
  unfold Go.flag
  split
  · exact .inl rfl
  · exact .inr rfl

theorem decodeRequest_fields (reads : Reads json) {content : List UInt8} (uid : UInt64)
    (streamName strAudio strVideo : List UInt8)
    (written : Rfc8259.decode content = some
      ((pushReq uid streamName strAudio strVideo).fields.map fun field => (field.1, field.2.meaning))) :
    decodeRequest json content = .push
      ⟨uid, Utf8.encode (Utf8.sanitize streamName), Go.flag strAudio, Go.flag strVideo⟩ := by
  obtain ⟨root, parsed, get⟩ := reads _ _ written
  have small : ∀ {i : Int}, i = 0 ∨ i = 1 → ∀ v, Means json v (.number i) → json.asInt v = some i := by
    rintro i cases v means
    exact means.1 (by omega) (by omega)
  have cmdno : json.member root "cmdno" json.asInt = some CMDNO_PUSH :=
    member_eq (get "cmdno" _ (.head _)) (small (.inr rfl))
  have uidValue : json.member root "uid" json.asUInt64 = some uid :=
    member_eq (get "uid" _ (.tail _ (.head _))) fun v means => means.2 uid rfl
  have name : json.member root "stream_name" json.asString = some (Utf8.encode (Utf8.sanitize streamName)) :=
    member_eq (get "stream_name" _ (.tail _ (.tail _ (.head _)))) fun v means => means
  have audio : json.member root "audio" json.asInt = some (Go.flag strAudio) :=
    member_eq (get "audio" _ (.tail _ (.tail _ (.tail _ (.head _))))) (small (flag_cases strAudio))
  have video : json.member root "video" json.asInt = some (Go.flag strVideo) :=
    member_eq (get "video" _ (.tail _ (.tail _ (.tail _ (.tail _ (.head _)))))) (small (flag_cases strVideo))
  have params : pushParams json root = some
      ⟨uid, Utf8.encode (Utf8.sanitize streamName), Go.flag strAudio, Go.flag strVideo⟩ := by
    rw [pushParams, uidValue, name, audio, video]
    rfl
  rw [decodeRequest, parsed]
  simp only [cmdno, params, if_true]

structure Arrives (msg : RtcMsg W) (uid : UInt64) (streamName strAudio strVideo : List UInt8) : Prop where
  uid : msg.uid = uid
  streamName : msg.streamName = Utf8.encode (Utf8.sanitize streamName)
  audio : msg.audio = Go.flag strAudio ∧ (msg.audio = 0 ∨ msg.audio = 1)
  video : msg.video = Go.flag strVideo ∧ (msg.video = 0 ∨ msg.video = 1)

theorem Arrives.valid {msg : RtcMsg W} {uid : UInt64} {streamName strAudio strVideo : List UInt8}
    (arrives : Arrives msg uid streamName strAudio strVideo) (valid : Utf8.Valid streamName) :
    msg.streamName = streamName :=
  arrives.streamName.trans (Utf8.encode_sanitize valid)

theorem processRequest_push (reads : Reads json) {content : List UInt8} (uid : UInt64)
    (streamName strAudio strVideo : List UInt8)
    (written : Rfc8259.decode content = some
      ((pushReq uid streamName strAudio strVideo).fields.map fun field => (field.1, field.2.meaning)))
    (header : List UInt8) (worker : W) (conn : Nat) (fd : Int) :
    ∃ msg, Arrives msg uid streamName strAudio strVideo ∧ msg.logId = (Xhead.view header).logId ∧
      ∀ send, processRequest json send worker conn fd header content = send msg := by
  refine ⟨pushMsg ⟨uid, Utf8.encode (Utf8.sanitize streamName), Go.flag strAudio, Go.flag strVideo⟩ header
    worker conn fd, ⟨rfl, rfl, ⟨rfl, flag_cases strAudio⟩, ⟨rfl, flag_cases strVideo⟩⟩, rfl, fun send => ?_⟩
  rw [processRequest, decodeRequest_fields reads uid streamName strAudio strVideo written]

theorem call_arrives {request : Nat → List UInt8 → List UInt8 → Int} {req : Go.XrtcPushReq} {logId : UInt32}
    {r : Go.Request} {content frame : List UInt8} {events : List ReadEvent}
    (marshaled : marshal req = .ok content) (size : content.length ≤ 2 ^ 29)
    (made : Go.callRequest marshal req logId = .ok (some r)) (written : r.write = .ok frame)
    (delivers : Delivers events frame) (fuel : Nat) (fd : Int) (ioWatcher timerWatcher now : Nat) :
    ∃ session header, (Session.start fd ioWatcher timerWatcher now).serve request (fuel + 3) events =
        some session ∧
      session.calls = [(header, content)] ∧ (Xhead.view header).logId = logId := by
  rw [Go.callRequest, marshaled] at made
  exact serve_newRequest request fuel fd ioWatcher timerWatcher now size (Except.ok.inj made) written delivers

/-- The values arrive as they are, the invalid bytes of the name apart; so different names that are UTF-8
stay different. -/
theorem push_parameters (json : Json V) (marshal : Go.XrtcPushReq → Except Go.GoError (List UInt8))
    (reads : Reads json) (writes : Writes marshal) (call : Go.XrtcPushReq → Except Go.GoError Go.XrtcPushResp)
    (worker : W) (conn : Nat) (fd : Int) :
    (∀ form, (∃ served req, Go.execute form call = .ok served ∧ served.called = some req) ↔
      ∃ uid streamName strAudio strVideo, Accepted form uid streamName strAudio strVideo) ∧
    (∀ form uid streamName strAudio strVideo, Accepted form uid streamName strAudio strVideo →
      ∃ served content, Go.execute form call = .ok served ∧
        served.called = some (pushReq uid streamName strAudio strVideo) ∧
        marshal (pushReq uid streamName strAudio strVideo) = .ok content ∧
        ∀ header, ∃ msg, (∀ send, processRequest json send worker conn fd header content = send msg) ∧
          Arrives msg uid streamName strAudio strVideo ∧
          (Utf8.Valid streamName → msg.streamName = streamName)) ∧
    (∀ (msg msg' : RtcMsg W) uid uid' streamName streamName' strAudio strAudio' strVideo strVideo',
      Arrives msg uid streamName strAudio strVideo → Arrives msg' uid' streamName' strAudio' strVideo' →
      Utf8.Valid streamName → Utf8.Valid streamName' → streamName ≠ streamName' →
      msg.streamName ≠ msg'.streamName) ∧
    (∀ send fuel ioWatcher timerWatcher now req content logId r frame events, marshal req = .ok content →
      content.length ≤ 2 ^ 29 → Go.callRequest marshal req logId = .ok (some r) → r.write = .ok frame →
      Delivers events frame →
      ∃ session header, (Session.start fd ioWatcher timerWatcher now).serve
          (handler json send worker conn fd) (fuel + 3) events = some session ∧
        session.calls = [(header, content)] ∧ (Xhead.view header).logId = logId) := by
  refine ⟨fun form => ⟨?_, ?_⟩, ?_, ?_, ?_⟩
  · rintro ⟨served, req, executed, called⟩
    obtain ⟨uid, streamName, strAudio, strVideo, accepted, -⟩ := execute_calls executed called
    exact ⟨uid, streamName, strAudio, strVideo, accepted⟩
  · rintro ⟨uid, streamName, strAudio, strVideo, accepted⟩
    exact ⟨_, _, execute_accepted accepted, finish_called _ _⟩
  · intro form uid streamName strAudio strVideo accepted
    obtain ⟨content, marshaled, written⟩ := writes (pushReq uid streamName strAudio strVideo)
    refine ⟨_, content, execute_accepted accepted, finish_called _ _, marshaled, fun header => ?_⟩
    obtain ⟨msg, arrives, -, sent⟩ :=
      processRequest_push reads uid streamName strAudio strVideo written header worker conn fd
    exact ⟨msg, sent, arrives, arrives.valid⟩
  · intro msg msg' uid uid' streamName streamName' strAudio strAudio' strVideo strVideo' arrives arrives'
      valid valid' different same
    rw [arrives.valid valid, arrives'.valid valid'] at same
    exact different same
  · intro send fuel ioWatcher timerWatcher now req content logId r frame events marshaled size made written
      delivers
    exact call_arrives marshaled size made written delivers fuel fd ioWatcher timerWatcher now

/-! ## Two libraries that keep to the format -/

def goMarshal (req : Go.XrtcPushReq) : Except Go.GoError (List UInt8) := .ok (Rfc8259.encode req.fields)

theorem goMarshal_writes : Writes goMarshal := by
  intro req
  refine ⟨_, rfl, Rfc8259.decode_encode ?_⟩
  have names : req.fields.map Prod.fst =
      ["cmdno".toList, "uid".toList, "stream_name".toList, "audio".toList, "video".toList] := rfl
  rw [names]
  decide

inductive Flat
  | null
  | scalar (value : Rfc8259.Scalar)
  | object (members : Rfc8259.Object)

def flat : Json Flat where
  parse bytes := (Rfc8259.decode bytes).map .object
  get
    | .object members, key => some ((members.lookup key.toList).elim .null .scalar)
    | .null, _ => some .null
    | .scalar _, _ => none
  asInt
    | .scalar (.number i) => if -2 ^ 31 ≤ i ∧ i < 2 ^ 31 then some i else none
    | .null => some 0
    | _ => none
  asUInt64
    | .scalar (.number i) => if 0 ≤ i ∧ i < 2 ^ 64 then some (UInt64.ofNat i.toNat) else none
    | .null => some 0
    | _ => none
  asString
    | .scalar (.string text) => some (Utf8.encode text)
    | .scalar (.number i) => some (utf8 (toString i))
    | .null => some []
    | .object _ => none
  writeString := Json.sample.writeString

theorem flat_asUInt64 (i : Int) : flat.asUInt64 (.scalar (.number i)) =
    if 0 ≤ i ∧ i < 2 ^ 64 then some (UInt64.ofNat i.toNat) else none := rfl

theorem flat_means (value : Rfc8259.Scalar) : Means flat (.scalar value) value := by
  cases value with
  | string text => rfl
  | number i =>
      refine ⟨fun low high => if_pos ⟨low, high⟩, ?_⟩
      rintro n rfl
      have within : (0 : Int) ≤ n.toNat ∧ (n.toNat : Int) < 2 ^ 64 :=
        ⟨Int.natCast_nonneg _, by exact_mod_cast n.toNat_lt⟩
      rw [flat_asUInt64, if_pos within, Int.toNat_natCast, UInt64.ofNat_toNat]

theorem flat_reads : Reads flat := by
  intro bytes members decoded
  refine ⟨.object members, congrArg (Option.map Flat.object) decoded, fun key value member => ?_⟩
  refine ⟨.scalar value, ?_, flat_means value⟩
  have found := Rfc8259.lookup_of_mem (Rfc8259.nodup_of_decode decoded) member
  exact congrArg (fun value => some (value.elim Flat.null Flat.scalar)) found

def formOf (entries : List (String × List UInt8)) : Go.Form := fun key => (entries.lookup key).map ([·])

/-- `18446744073709551615`. -/
def maximalUid : List UInt8 :=
  [0x31, 0x38, 0x34, 0x34, 0x36, 0x37, 0x34, 0x34, 0x30, 0x37, 0x33, 0x37, 0x30, 0x39, 0x35, 0x35, 0x31, 0x36,
    0x31, 0x35]

/-- The largest uid and a name with a control character, a tag and a letter of two bytes. -/
def maximal : Go.Form :=
  formOf [("uid", maximalUid), ("streamName", [0x0a, 0x3c, 0xc3, 0xa9]), ("audio", [0x79]),
    ("video", [0x30])]

theorem maximal_accepted : Accepted maximal (18446744073709551615) [0x0a, 0x3c, 0xc3, 0xa9] [0x79] [0x30] :=
  ⟨⟨maximalUid, by decide, by decide⟩, by decide, by decide, by decide, by decide,
    by decide⟩

theorem push_parameters_maximal : ∃ content msg,
    goMarshal (pushReq (18446744073709551615) [0x0a, 0x3c, 0xc3, 0xa9] [0x79] [0x30]) = .ok content ∧
      (∀ send, processRequest flat send () 1 5 [] content = send msg) ∧ msg.uid = 18446744073709551615 ∧
      msg.streamName = [0x0a, 0x3c, 0xc3, 0xa9] ∧ msg.audio = 1 ∧ msg.video = 0 := by
  obtain ⟨-, arrive, -⟩ := push_parameters flat goMarshal flat_reads goMarshal_writes
    (fun _ => .error (.text "connection refused")) () 1 5
  obtain ⟨served, content, -, -, marshaled, sent⟩ := arrive _ _ _ _ _ maximal_accepted
  obtain ⟨msg, sent, arrives, valid⟩ := sent []
  exact ⟨content, msg, marshaled, sent, arrives.uid, valid (by decide), arrives.audio.1, arrives.video.1⟩

/-- The forms `uid=7&streamName=%ff` and `uid=7&streamName=%fe` become the same stream, and it has neither
name. -/
theorem push_parameters_collision :
    Reads flat ∧ Writes goMarshal ∧
    Accepted (formOf [("uid", [0x37]), ("streamName", [0xff])]) 7 [0xff] [] [] ∧
    Accepted (formOf [("uid", [0x37]), ("streamName", [0xfe])]) 7 [0xfe] [] [] ∧
    ∃ content, goMarshal (pushReq 7 [0xff] [] []) = .ok content ∧
      goMarshal (pushReq 7 [0xfe] [] []) = .ok content ∧
      ∃ msg, (∀ send, processRequest flat send () 1 5 [] content = send msg) ∧
        msg.streamName = [0xef, 0xbf, 0xbd] := by
  have same : goMarshal (pushReq 7 [0xfe] [] []) = goMarshal (pushReq 7 [0xff] [] []) := by decide
  obtain ⟨content, marshaled, written⟩ := goMarshal_writes (pushReq 7 [0xff] [] [])
  obtain ⟨msg, arrives, -, sent⟩ := processRequest_push flat_reads 7 [0xff] [] [] written [] () 1 5
  refine ⟨flat_reads, goMarshal_writes, ⟨⟨[0x37], by decide, by decide⟩, by decide, by decide, by decide,
    by decide, by decide⟩, ⟨⟨[0x37], by decide, by decide⟩, by decide, by decide, by decide, by decide,
    by decide⟩, content, marshaled, same.trans marshaled, msg, sent, ?_⟩
  rw [arrives.streamName]
  decide

end Xrtc.Proof.Push
