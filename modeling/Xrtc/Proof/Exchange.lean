import Xrtc.Base.Crc32
import Xrtc.Proof.Client
import Xrtc.Proof.Push
import Xrtc.Proof.Refinement

/-!
# A push through both programs

The Go server writes a request to a connection of the C++ server, whose threads make a message of it
and queue a reply; the Go server reads the reply and answers its own client.
-/

namespace Xrtc.Proof.Exchange
open Lib Base Server Callbacks Steps Received Connections Refinement Push

variable {V A : Type} {n m : Nat}

/-- The members of a response, as jsoncpp sorts them. -/
def responseObject (root : ResRoot) (offer : List Char) : Rfc8259.Object :=
  [("err_msg".toList, .string root.errMsg.toList), ("err_no".toList, .number root.errNo),
    ("offer".toList, .string offer)]

/-- jsoncpp writes the answer of the rtc worker as RFC 8259 has it. -/
structure Serializes (json : Json V) : Prop where
  object : ∀ offer, Utf8.encode offer = success.offer →
    Rfc8259.decode (json.writeString success) = some (responseObject success offer)
  nulFree : ∀ b ∈ json.writeString success, b ≠ 0
  short : (json.writeString success).length < MAX_RES_BUF

/-- `json.Unmarshal` reads such an object into the response struct. -/
def Unmarshals (unmarshal : List UInt8 → Except Go.GoError Go.XrtcPushResp) : Prop :=
  ∀ bytes root offer, Rfc8259.decode bytes = some (responseObject root offer) →
    -2 ^ 63 ≤ root.errNo → root.errNo < 2 ^ 63 → unmarshal bytes = .ok ⟨root.errNo, Utf8.encode offer⟩

/-- `client.Do` as `Call` uses it; `fails` are the errors it returns. -/
def doRequest (net : Go.Network A) (client : Go.Client A) (picked : Go.Picked A) (ledger : Go.Ledger)
    (fails : Go.DoError → Go.GoError) (request : Option Go.Request) : Except Go.GoError Go.Response :=
  match client.Do net picked request ledger with
  | .ok resp _ => .ok resp
  | .error e _ => .error (fails e)

section Server

variable {cfg : Config V m} {s : System n m} {i : Fin n} {fd : Int} {c : ConnPtr}

theorem reached_reply (reached : Reached cfg Orderly s) (held : lookup (s.loc.agent i).worker.conns fd = some c)
    {reply : Slice} (pending : reply ∈ c.obj.replyList) :
    HasHeader c.obj.querybuf.buf ∧
      ∃ mem, reply = SignalingWorker.encodeReply cfg.json c.obj.querybuf.buf success mem := by
  obtain ⟨p, traced⟩ := reached_followed reached i fd c held
  have answers := run_answers traced.run
  rw [Answers, traced.same] at answers
  exact answers reply pending

theorem reached_carries (reached : Reached cfg Orderly s)
    (held : lookup (s.loc.agent i).worker.conns fd = some c) {msg : RtcMsg (Fin n)} (mail : Mail s c.origin msg) :
    Carries cfg.json c.obj.querybuf.buf msg := by
  obtain ⟨p, traced⟩ := reached_followed reached i fd c held
  exact traced.carries msg mail

/-- Every reply that waits on any connection is a frame that the Go client reads: the header of the
connection's own request, and the answer of the rtc worker. -/
theorem pending_decode (cfg : Config V m) (s : System n m) (reached : Reached cfg Orderly s)
    (nulFree : ∀ b ∈ cfg.json.writeString success, b ≠ 0)
    (short : (cfg.json.writeString success).length < MAX_RES_BUF) :
    ∀ i fd c, lookup (s.loc.agent i).worker.conns fd = some c → ∀ reply ∈ c.obj.replyList,
      HasHeader c.obj.querybuf.buf ∧
        Reply.Decodes (Xhead.view c.obj.querybuf.buf) (cfg.json.writeString success) reply := by
  intro i fd c held reply pending
  obtain ⟨header, mem, rfl⟩ := reached_reply reached held pending
  exact ⟨header, Reply.decodes_of_short header nulFree short⟩

end Server

/-! ## The two programs -/

theorem readResponse_pending {json : Json V} (serializes : Serializes json) {buf : List UInt8}
    (header : HasHeader buf)
    {mem : Nat → UInt8} {r : Go.Reader} {more : List UInt8}
    (bytes : r.flatten = (SignalingWorker.encodeReply json buf success mem).bytes ++ more) :
    ∃ resp rest, Go.readResponse r = .ok (resp, rest) ∧ resp.body = json.writeString success ∧
      resp.header.logId = (Xhead.view buf).logId := by
  have fits := serializes.short.le
  have view := Reply.replyHead_view header.1 (json.writeString success)
  rw [Reply.encodeReply_bytes header.1 serializes.nulFree fits, Reply.copied_of_short serializes.short,
    List.append_assoc] at bytes
  obtain ⟨rest, read, -⟩ := Xrpc.readResponse_flatten more (Reply.replyHead_length header.1 _) bytes
    (by rw [view]; exact header.2) (by rw [view]; exact Reply.length_toNat fits)
  exact ⟨_, rest, read, rfl, by rw [view]; rfl⟩

theorem doRequest_ok {net : Go.Network A} {client : Go.Client A} {addr : A}
    {connected : Go.Duration → Go.Duration → Go.Peer} {fails : Go.DoError → Go.GoError} {ledger : Go.Ledger}
    {r : Go.Request} {frame : List UInt8} {resp : Go.Response} {rest : Go.Reader}
    (dialled : net.dial addr client.connectTimeout = .ok connected) (written : r.write = .ok frame)
    (takes : (connected client.readTimeout client.writeTimeout).sink.Takes frame.length)
    (read : Go.readResponse (connected client.readTimeout client.writeTimeout).stream = .ok (resp, rest)) :
    doRequest net client (.addr addr) ledger fails (some r) = .ok resp := by
  obtain ⟨w, w', wrote, flushed⟩ := Client.writeTo_flush_iff.2 ⟨frame, written, takes⟩
  have done : Client.exchange (some r) (connected client.readTimeout client.writeTimeout) = .ok resp := by
    simp only [Client.exchange, wrote, flushed, read]
  rw [doRequest, Client.do_dialled dialled, done]

section Push

variable {cfg : Config V m} {s : System n m} {marshal : Go.XrtcPushReq → Except Go.GoError (List UInt8)}
  {unmarshal : List UInt8 → Except Go.GoError Go.XrtcPushResp} {form : Go.Form} {uid : UInt64}
  {streamName strAudio strVideo content frame : List UInt8} {logId : UInt32} {r : Go.Request}

theorem carries_frame {json : Json V} {buf : List UInt8} {msg : RtcMsg (Fin n)} (reads : Reads json)
    (written : Rfc8259.decode content = some
      ((pushReq uid streamName strAudio strVideo).fields.map fun field => (field.1, field.2.meaning)))
    (size : content.length ≤ 2 ^ 29) (made : Go.newRequest (.bytes content) logId = some r)
    (sent : r.write = .ok frame) (part : buf <+: frame) (carries : Carries json buf msg) :
    Arrives msg uid streamName strAudio strVideo ∧ msg.logId = logId := by
  obtain ⟨header, rfl, log, magic, len⟩ := Xrpc.write_newRequest (by omega) made sent
  have view : Xrpc.headerOf (Xhead.view (Xrpc.image header)) = header := Xrpc.view_image header
  have head : (Xrpc.image header).length = xheadSize := Xrpc.image_length header
  have bodyLen_eq : bodyLen (Xrpc.image header) = content.length := by
    rw [← len, ← congrArg Go.Header.bodyLen view]
    rfl
  obtain ⟨whole, params, worker, conn, fd, decoded, rfl⟩ := carries
  obtain ⟨more, all⟩ := part
  -- the header is there, so its length is that of the frame, and the body is there
  have long : xheadSize ≤ buf.length := by omega
  have lens : bodyLen buf = content.length := by
    rw [← bodyLen_eq, ← Framing.bodyLen_append long (t := more), all, Framing.bodyLen_append head.ge]
  have ends : more = [] := by
    have total := congrArg List.length all
    rw [List.length_append, List.length_append, head] at total
    exact List.eq_nil_of_length_eq_zero (by omega)
  rw [ends, List.append_nil] at all
  rw [all, ShortConnection.requestOf_frame head bodyLen_eq.symm] at decoded ⊢
  rw [decodeRequest_fields reads uid streamName strAudio strVideo written] at decoded
  cases decoded
  exact ⟨⟨rfl, rfl, ⟨rfl, flag_cases strAudio⟩, ⟨rfl, flag_cases strVideo⟩⟩,
    (congrArg Go.Header.logId view).trans log⟩

/-- Whatever the threads and the other connections do: the messages made for the connection of a push carry the
values of the form, and a reply on it makes the Go server answer with the offer. -/
theorem push_served (cfg : Config V m) (s : System n m) (reached : Reached cfg Orderly s) (reads : Reads cfg.json)
    (serializes : Serializes cfg.json) (writes : Writes marshal) (unmarshals : Unmarshals unmarshal)
    (accepted : Accepted form uid streamName strAudio strVideo)
    (marshaled : marshal (pushReq uid streamName strAudio strVideo) = .ok content)
    (size : content.length ≤ 2 ^ 29)
    (made : Go.callRequest marshal (pushReq uid streamName strAudio strVideo) logId = .ok (some r))
    (written : r.write = .ok frame) (i : Fin n) (fd : Int) (c : ConnPtr)
    (held : lookup (s.loc.agent i).worker.conns fd = some c) (part : c.obj.querybuf.buf <+: frame) :
    (∀ msg, Mail s c.origin msg → Arrives msg uid streamName strAudio strVideo ∧ msg.logId = logId) ∧
    ∀ reply ∈ c.obj.replyList, ∀ (net : Go.Network A) (client : Go.Client A) addr connected ledger fails more,
      net.dial addr client.connectTimeout = .ok connected →
      (connected client.readTimeout client.writeTimeout).sink.Takes frame.length →
      (connected client.readTimeout client.writeTimeout).stream.flatten = reply.bytes ++ more →
      Go.execute form (Go.call (some (doRequest net client (.addr addr) ledger fails)) marshal unmarshal logId) =
        .ok ⟨some (pushReq uid streamName strAudio strVideo), none,
          { errNo := 0, errMsg := "success", data := some ⟨"offer", utf8 "offer"⟩ }⟩ := by
  have request : Go.newRequest (.bytes content) logId = some r := by
    rw [Go.callRequest, marshaled] at made
    exact Except.ok.inj made
  constructor
  · intro msg mail
    obtain ⟨content', marshaled', decoded⟩ := writes (pushReq uid streamName strAudio strVideo)
    obtain rfl := Except.ok.inj (marshaled.symm.trans marshaled')
    exact carries_frame reads decoded size request written part (reached_carries reached held mail)
  · intro reply pending net client addr connected ledger fails more dialled takes stream
    obtain ⟨header, mem, rfl⟩ := reached_reply reached held pending
    obtain ⟨resp, rest, read, body, -⟩ := readResponse_pending serializes header stream
    have answered : doRequest net client (.addr addr) ledger fails (some r) = .ok resp :=
      doRequest_ok dialled written takes read
    have offer : Utf8.encode "offer".toList = success.offer := by decide +kernel
    have object := unmarshals _ success _ (serializes.object _ offer) (by decide) (by decide)
    rw [execute_accepted accepted, Go.call, made]
    simp only [bind, Except.bind, answered, body, object, offer]
    rfl

end Push

/-! ## One push -/

def goUnmarshal (bytes : List UInt8) : Except Go.GoError Go.XrtcPushResp :=
  match Rfc8259.decode bytes with
  | some [_, (_, .number errNo), (_, .string offer)] => .ok ⟨errNo, Utf8.encode offer⟩
  | _ => .error (.text "unexpected end of JSON input")

theorem goUnmarshal_unmarshals : Unmarshals goUnmarshal := by
  intro bytes root offer decoded _ _
  rw [goUnmarshal, decoded]
  rfl

theorem flat_serializes : Serializes flat where
  object offer encoded := by
    have offered : Utf8.encode "offer".toList = success.offer := by decide +kernel
    have letters := congrArg Utf8.decode (encoded.trans offered.symm)
    rw [Utf8.decode_encode, Utf8.decode_encode, Option.some.injEq] at letters
    rw [letters]
    decide +kernel
  nulFree := by decide +kernel
  short := by decide +kernel

/-- The server with a library that reads the requests of the Go client; its one rtc worker is chosen by
the checksum of the stream name. -/
def flatServer : Config Flat 1 where
  json := flat
  crc32 := Crc32.computeCrc32
  capacity := 1
  connectionTimeout := 1000
  workerNum_lt := Nat.one_lt_two_pow (Nat.succ_ne_zero 30)

/-- The form `uid=7&streamName=a`. -/
def sevenForm : Go.Form := formOf [("uid", [0x37]), ("streamName", [0x61])]

def sevenContent : List UInt8 := Rfc8259.encode (pushReq 7 [0x61] [] []).fields

def sevenHeader : Go.Header := { logId := 9, magicNum := xheadMagicNum, bodyLen := UInt32.ofNat sevenContent.length }

open Notifications (connect only asked answered) in
/-- The request of the form arrives in two pieces and is answered; a second connection comes in between. -/
def sevenRun : List (Label 1 1) :=
  connect 3 1 ++ [.io only 0 (some (.received (Xrpc.image sevenHeader))) false 0, .query only, .query only] ++
    connect 4 2 ++ [.io only 0 (some (.received sevenContent)) false 0, .query only, .send only] ++
    asked ++ answered

theorem seven_reached : ∃ (s : System 1 1) (c : ConnPtr) (reply : Slice), Reached flatServer Orderly s ∧
    lookup (s.loc.agent 0).worker.conns 3 = some c ∧
    c.obj.querybuf.buf = Xrpc.image sevenHeader ++ sevenContent ∧ reply ∈ c.obj.replyList := by
  obtain ⟨s, reached, holds⟩ := exists_reachable_of_runLabels (System.step flatServer) orderly_sound
    (System.start 1 1) sevenRun
    (fun s => (lookup (s.loc.agent 0).worker.conns 3).any fun c =>
      c.obj.querybuf.buf = Xrpc.image sevenHeader ++ sevenContent && !c.obj.replyList.isEmpty)
    (by decide +kernel)
  obtain ⟨c, held, passed⟩ := (Option.any_eq_true _ _).1 holds
  obtain ⟨buf, some⟩ := Bool.and_eq_true_iff.1 passed
  have pending : c.obj.replyList ≠ [] := by
    intro none
    rw [none] at some
    cases some
  obtain ⟨reply, member⟩ := List.exists_mem_of_ne_nil _ pending
  exact ⟨s, c, reply, reached, held, of_decide_eq_true buf, member⟩

theorem pending_decode_seven : ∃ (s : System 1 1) (c : ConnPtr) (reply : Slice), Reached flatServer Orderly s ∧
    lookup (s.loc.agent 0).worker.conns 3 = some c ∧ reply ∈ c.obj.replyList ∧
    Reply.Decodes (Xhead.view c.obj.querybuf.buf) (flat.writeString success) reply := by
  obtain ⟨s, c, reply, reached, held, -, member⟩ := seven_reached
  have decodes := pending_decode flatServer s reached flat_serializes.nulFree flat_serializes.short 0 3 c held reply
    member
  exact ⟨s, c, reply, reached, held, member, decodes.2⟩

def answering (reply : Slice) : Go.Network Unit where
  dial _ _ := .ok fun _ _ => ⟨⟨none⟩, [reply.bytes], .eof⟩

theorem push_served_seven : ∃ (s : System 1 1) (c : ConnPtr) (reply : Slice), Reached flatServer Orderly s ∧
    lookup (s.loc.agent 0).worker.conns 3 = some c ∧ reply ∈ c.obj.replyList ∧
    Go.execute sevenForm (Go.call (some (doRequest (answering reply) (Go.newClient (fun _ => .ok ()) []) (.addr ()) []
      fun _ => .text "failed")) goMarshal goUnmarshal 9) =
      .ok ⟨some (pushReq 7 [0x61] [] []), none,
        { errNo := 0, errMsg := "success", data := some ⟨"offer", utf8 "offer"⟩ }⟩ := by
  obtain ⟨s, c, reply, reached, held, buf, member⟩ := seven_reached
  have accepted : Accepted sevenForm 7 [0x61] [] [] :=
    ⟨⟨[0x37], by decide, by decide⟩, by decide, by decide, by decide, by decide, by decide⟩
  have written : (⟨sevenHeader, some sevenContent⟩ : Go.Request).write =
      .ok (Xrpc.image sevenHeader ++ sevenContent) := by
    rw [Go.Request.write, Xrpc.write_eq_image]
  have whole : sevenContent.take (UInt32.ofNat sevenContent.length).toNat = sevenContent := by decide +kernel
  have made : Go.callRequest goMarshal (pushReq 7 [0x61] [] []) 9 = .ok (some ⟨sevenHeader, some sevenContent⟩) :=
    congrArg (fun body => Except.ok (some (⟨sevenHeader, some body⟩ : Go.Request))) whole
  have served := push_served (A := Unit) flatServer s reached flat_reads flat_serializes goMarshal_writes
    goUnmarshal_unmarshals accepted rfl (by decide +kernel) made written 0 3 c held (by rw [buf])
  refine ⟨s, c, reply, reached, held, member, ?_⟩
  exact served.2 reply member (answering reply) _ () _ [] _ [] rfl (fun k e fails => by cases fails) (by simp)

end Xrtc.Proof.Exchange
