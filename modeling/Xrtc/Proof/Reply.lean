import Mathlib.Data.List.GetD
import Mathlib.Data.List.TakeWhile
import Xrtc.Proof.Watchers
import Xrtc.Proof.Xrpc

/-!
# Replies

What `response_server_offer` puts into the reply list of a connection, and what the Go client makes
of it.
-/

namespace Xrtc.Proof.Reply
open Server Base Lib

theorem write_byte_inside {b : Block} {offset k : Nat} {bytes : List UInt8} (lower : offset ≤ k)
    (upper : k < offset + bytes.length) : (b.write offset bytes).byte k = bytes.getD (k - offset) 0 :=
  if_pos ⟨lower, upper⟩

theorem write_byte_outside {b : Block} {offset k : Nat} {bytes : List UInt8}
    (outside : k < offset ∨ offset + bytes.length ≤ k) : (b.write offset bytes).byte k = b.byte k :=
  if_neg (by omega)

theorem getD_overwrite_before {bytes new : List UInt8} {offset i : Nat} (before : i < offset)
    (within : offset ≤ bytes.length) : (overwrite bytes offset new).getD i 0 = bytes.getD i 0 := by
  have front : i < (bytes.take offset).length := by simp; omega
  simp only [overwrite, List.append_assoc, List.getD_eq_getElem?_getD,
    List.getElem?_append_left front, List.getElem?_take_of_lt before]

theorem getD_overwrite_inside {bytes new : List UInt8} {offset i : Nat} (lower : offset ≤ i)
    (upper : i < offset + new.length) (within : offset ≤ bytes.length) :
    (overwrite bytes offset new).getD i 0 = new.getD (i - offset) 0 := by
  have front : (bytes.take offset).length = offset := by simp [within]
  simp only [overwrite, List.append_assoc, List.getD_eq_getElem?_getD]
  rw [List.getElem?_append_right (by omega), front, List.getElem?_append_left (by omega)]

theorem map_range_eq {f : Nat → UInt8} {bytes : List UInt8}
    (same : ∀ i, i < bytes.length → f i = bytes.getD i 0) : (List.range bytes.length).map f = bytes := by
  apply List.ext_getElem (by simp)
  intro i _ within
  simp [same i within, within]

theorem cString_eq {text : List UInt8} (nulFree : ∀ b ∈ text, b ≠ 0) : cString text = text := by
  simpa [cString, List.takeWhile_eq_self_iff] using nulFree

section

variable {V : Type} {json : Json V} {querybuf : List UInt8} {root : ResRoot} {mem : Nat → UInt8}

def replyHead (querybuf text : List UInt8) : List UInt8 :=
  overwrite (slice querybuf 0 xheadSize) 32 (leBytes 4 (UInt32.ofNat text.length).toNat)

theorem replyHead_length (long : xheadSize ≤ querybuf.length) (text : List UInt8) :
    (replyHead querybuf text).length = xheadSize := by
  have front : (slice querybuf 0 xheadSize).length = xheadSize := slice_length (by omega)
  rw [replyHead, overwrite_length (by rw [front, leBytes_length]; decide), front]

theorem replyHead_view (long : xheadSize ≤ querybuf.length) (text : List UInt8) :
    Xhead.view (replyHead querybuf text) =
      { Xhead.view querybuf with bodyLen := UInt32.ofNat text.length } := by
  have front : (slice querybuf 0 xheadSize).length = xheadSize := slice_length (by omega)
  rw [replyHead, Xhead.view_setBodyLen front.ge, Xhead.view_slice long]

def copied (text : List UInt8) : List UInt8 := text.take (MAX_RES_BUF - 1) ++ [0]

theorem encodeReply_byte_head (long : xheadSize ≤ querybuf.length) {k : Nat} (head : k < xheadSize) :
    (SignalingWorker.encodeReply json querybuf root mem).block.byte k =
      (replyHead querybuf (json.writeString root)).getD k 0 := by
  have front : (slice querybuf 0 xheadSize).length = xheadSize := slice_length (by omega)
  have bound : k < 36 := head
  unfold SignalingWorker.encodeReply Block.snprintf
  dsimp only
  rw [if_neg (by decide), write_byte_outside (.inl head)]
  by_cases field : 32 ≤ k
  · rw [write_byte_inside field (by simp; omega), replyHead,
      getD_overwrite_inside field (by simp; omega) (by rw [front]; decide)]
  · rw [write_byte_outside (.inl (by omega)), write_byte_inside (by omega) (by rw [front]; omega),
      replyHead, getD_overwrite_before (by omega) (by rw [front]; decide), Nat.sub_zero]

theorem encodeReply_byte_body {k : Nat} (nulFree : ∀ b ∈ json.writeString root, b ≠ 0)
    (within : k < (copied (json.writeString root)).length) :
    (SignalingWorker.encodeReply json querybuf root mem).block.byte (xheadSize + k) =
      (copied (json.writeString root)).getD k 0 := by
  unfold SignalingWorker.encodeReply Block.snprintf
  dsimp only
  rw [if_neg (by decide), cString_eq nulFree]
  rw [write_byte_inside (by omega) (by unfold copied at within; omega), Nat.add_sub_cancel_left, copied]

theorem encodeReply_size : (SignalingWorker.encodeReply json querybuf root mem).size =
    xheadSize + (json.writeString root).length % 2 ^ 32 := by
  simp [SignalingWorker.encodeReply]

theorem copied_of_short {text : List UInt8} (short : text.length < MAX_RES_BUF) :
    (copied text).take text.length = text := by
  rw [copied, List.take_of_length_le (Nat.le_sub_one_of_lt short), List.take_left]

theorem copied_of_full {text : List UInt8} (full : text.length = MAX_RES_BUF) :
    (copied text).take text.length = copied text :=
  List.take_of_length_le (by simp [copied, full, MAX_RES_BUF])

theorem copied_take_length {text : List UInt8} (fits : text.length ≤ MAX_RES_BUF) :
    ((copied text).take text.length).length = text.length := by
  rw [List.length_take, copied, List.length_append, List.length_take, List.length_singleton]
  unfold MAX_RES_BUF at *
  omega

theorem encodeReply_bytes (long : xheadSize ≤ querybuf.length)
    (nulFree : ∀ b ∈ json.writeString root, b ≠ 0)
    (fits : (json.writeString root).length ≤ MAX_RES_BUF) :
    (SignalingWorker.encodeReply json querybuf root mem).bytes =
      replyHead querybuf (json.writeString root) ++
        (copied (json.writeString root)).take (json.writeString root).length := by
  have head := replyHead_length long (json.writeString root)
  have body := copied_take_length fits
  have size : (SignalingWorker.encodeReply json querybuf root mem).size =
      (replyHead querybuf (json.writeString root) ++
        (copied (json.writeString root)).take (json.writeString root).length).length := by
    rw [encodeReply_size, List.length_append, head, body,
      Nat.mod_eq_of_lt (fits.trans_lt (by decide))]
  rw [Slice.bytes, size]
  refine map_range_eq fun i within => ?_
  rw [List.length_append, head, body] at within
  by_cases front : i < xheadSize
  · rw [encodeReply_byte_head long front, List.getD_append _ _ _ _ (by omega)]
  · obtain ⟨k, rfl⟩ := Nat.exists_eq_add_of_le (Nat.not_lt.1 front)
    have inText : k < (json.writeString root).length := by omega
    rw [encodeReply_byte_body nulFree (by rw [List.length_take] at body; omega),
      List.getD_append_right _ _ _ _ (by omega), head,
      Nat.add_sub_cancel_left]
    simp only [List.getD_eq_getElem?_getD, List.getElem?_take_of_lt inText]

end

/-- The reply lies in its block, and `ReadResponse` gets the request's header with the new length
and the text, however the bytes arrive. -/
structure Decodes (request : Xhead) (text : List UInt8) (reply : Slice) : Prop where
  size : reply.size = xheadSize + text.length
  inside : reply.Inside
  read : ∀ r : Go.Reader, r.flatten = reply.bytes → ∃ response rest,
    Go.readResponse r = .ok (response, rest) ∧ rest.flatten = [] ∧
    response.header = { Xrpc.headerOf request with bodyLen := response.header.bodyLen } ∧
    response.header.bodyLen.toNat = text.length ∧ response.body = text

section

variable {V : Type} {json : Json V} {querybuf : List UInt8} {root : ResRoot} {mem : Nat → UInt8}

theorem length_toNat {text : List UInt8} (fits : text.length ≤ MAX_RES_BUF) :
    (UInt32.ofNat text.length).toNat = text.length := by
  rw [UInt32.toNat_ofNat', Nat.mod_eq_of_lt (fits.trans_lt (by decide))]

theorem readResponse_reply (header : HasHeader querybuf) (nulFree : ∀ b ∈ json.writeString root, b ≠ 0)
    (fits : (json.writeString root).length ≤ MAX_RES_BUF) {r : Go.Reader}
    (bytes : r.flatten = (SignalingWorker.encodeReply json querybuf root mem).bytes) :
    ∃ rest, Go.readResponse r = .ok (⟨{ Xrpc.headerOf (Xhead.view querybuf) with
        bodyLen := UInt32.ofNat (json.writeString root).length },
      (copied (json.writeString root)).take (json.writeString root).length⟩, rest) ∧
      rest.flatten = [] := by
  have view := replyHead_view header.1 (json.writeString root)
  rw [encodeReply_bytes header.1 nulFree fits] at bytes
  obtain ⟨rest, read, left⟩ := Xrpc.readResponse_flatten (r := r) []
    (replyHead_length header.1 (json.writeString root)) (by rwa [List.append_nil])
    (by rw [view]; exact header.2)
    (by rw [view, copied_take_length fits]; exact length_toNat fits)
  rw [view] at read
  exact ⟨rest, read, left⟩

theorem decodes_of_short (header : HasHeader querybuf) (nulFree : ∀ b ∈ json.writeString root, b ≠ 0)
    (short : (json.writeString root).length < MAX_RES_BUF) :
    Decodes (Xhead.view querybuf) (json.writeString root)
      (SignalingWorker.encodeReply json querybuf root mem) := by
  have size : (SignalingWorker.encodeReply json querybuf root mem).size =
      xheadSize + (json.writeString root).length := by
    rw [encodeReply_size, Nat.mod_eq_of_lt (short.trans (by decide))]
  refine ⟨size, ?_, fun r bytes => ?_⟩
  · rw [Slice.Inside, size]
    exact Nat.add_le_add_left short.le _
  · obtain ⟨rest, read, left⟩ := readResponse_reply header nulFree short.le bytes
    exact ⟨_, rest, read, left, rfl, length_toNat short.le, copied_of_short short⟩

/-- A text of `MAX_RES_BUF` bytes loses its last byte to the NUL of `snprintf`, a longer one runs
out of the block. -/
theorem short_of_decodes (header : HasHeader querybuf) (nulFree : ∀ b ∈ json.writeString root, b ≠ 0)
    (decodes : Decodes (Xhead.view querybuf) (json.writeString root)
      (SignalingWorker.encodeReply json querybuf root mem)) :
    (json.writeString root).length < MAX_RES_BUF := by
  have inside := decodes.inside
  rw [Slice.Inside, decodes.size] at inside
  have fits : (json.writeString root).length ≤ MAX_RES_BUF := Nat.le_of_add_le_add_left inside
  refine lt_of_le_of_ne fits fun full => ?_
  have bytes : List.flatten [(SignalingWorker.encodeReply json querybuf root mem).bytes] =
      (SignalingWorker.encodeReply json querybuf root mem).bytes := by simp
  obtain ⟨rest, read, -⟩ := readResponse_reply header nulFree fits bytes
  obtain ⟨response, rest', read', -, -, -, body⟩ := decodes.read _ bytes
  rw [read, Except.ok.injEq, Prod.mk.injEq] at read'
  rw [← read'.1, copied_of_full full] at body
  refine nulFree 0 ?_ rfl
  rw [← body]
  simp [copied]

end

theorem offer_enqueues {V W : Type} (json : Json V) {h : Host} (consistent : Watchers.Consistent h)
    {msg : RtcMsg W} (mem : Nat → UInt8) {c : ConnPtr} (target : h.worker.offerTarget msg = some c) :
    ∃ worker c', h.worker.responseServerOffer json msg mem = .ok worker ∧
      lookup worker.conns msg.fd = some c' ∧
      c'.obj.replyList = c.obj.replyList ++
        [SignalingWorker.encodeReply json c.obj.querybuf.buf msg.resRoot mem] := by
  have held := Table.offerTarget_held target
  obtain ⟨worker, offered, -⟩ := Watchers.responseServerOffer_safe consistent json msg mem
  refine ⟨worker, { c with obj := { c.obj with replyList := c.obj.replyList ++
    [SignalingWorker.encodeReply json c.obj.querybuf.buf msg.resRoot mem] } }, offered, ?_, rfl⟩
  rw [SignalingWorker.responseServerOffer, target] at offered
  rw [Table.lookup_addReply held (consistent.cfd _ c held) offered, Function.update_self]

/-- The reply that `response_server_offer` enqueues is understood by the client exactly when the text
is shorter than `MAX_RES_BUF`. -/
theorem reply_decodes_iff {V W : Type} (json : Json V) (h : Host) (consistent : Watchers.Consistent h)
    (msg : RtcMsg W) (mem : Nat → UInt8) (c : ConnPtr) (target : h.worker.offerTarget msg = some c)
    (header : HasHeader c.obj.querybuf.buf) (nulFree : ∀ b ∈ json.writeString msg.resRoot, b ≠ 0) :
    ∃ worker c' reply, h.worker.responseServerOffer json msg mem = .ok worker ∧
      lookup worker.conns msg.fd = some c' ∧ c'.obj.replyList = c.obj.replyList ++ [reply] ∧
      (Decodes (Xhead.view c.obj.querybuf.buf) (json.writeString msg.resRoot) reply ↔
        (json.writeString msg.resRoot).length < MAX_RES_BUF) := by
  obtain ⟨worker, c', offered, held, enqueued⟩ := offer_enqueues json consistent mem target
  exact ⟨worker, c', _, offered, held, enqueued, short_of_decodes header nulFree,
    decodes_of_short header nulFree⟩

def answer (sdp : List UInt8) : RtcMsg Unit :=
  { cmdno := CMDNO_PUSH, worker := some (), conn := some 100, fd := 5, sdp := sdp }

def asking : List (WorkerEvent Unit) :=
  [.newConn 5 100 0 0,
    .io 0 (some ⟨.received (Xrpc.image { magicNum := xheadMagicNum, bodyLen := 11 }), fun _ _ _ => 0, 3⟩)
      none 0]

theorem asking_consistent (sdp : List UInt8) : ∃ h c, Watchers.Consistent h ∧
    h.worker.offerTarget (answer sdp) = some c ∧ HasHeader c.obj.querybuf.buf := by
  obtain ⟨h, reachable, target⟩ := exists_reachable_of_runLabels
    (Host.step (W := Unit) Json.sample 1000) Watchers.admits_of_admitted
    ⟨SignalingWorker.empty, fun _ => none⟩ asking
    (fun h => (h.worker.offerTarget (answer sdp)).any fun c => decide (HasHeader c.obj.querybuf.buf)) rfl
  obtain ⟨c, target, header⟩ := (Option.any_eq_true _ _).1 target
  exact ⟨h, c, Watchers.reachable_consistent reachable, target, of_decide_eq_true header⟩

theorem answer_text (sdp : List UInt8) : Json.sample.writeString (answer sdp).resRoot =
    utf8 "\x7b\"err_msg\":\"process success\",\"err_no\":0,\"offer\":\"" ++ sdp ++ utf8 "\"\x7d" := by
  have start : utf8 "\x7b\"err_msg\":\"" ++ utf8 "process success" ++ utf8 "\",\"err_no\":" ++
      utf8 (toString (0 : Int)) ++ utf8 ",\"offer\":\"" =
      utf8 "\x7b\"err_msg\":\"process success\",\"err_no\":0,\"offer\":\"" := by decide +kernel
  rw [← start]
  rfl

theorem answer_nulFree {sdp : List UInt8} (nulFree : ∀ b ∈ sdp, b ≠ 0) :
    ∀ b ∈ Json.sample.writeString (answer sdp).resRoot, b ≠ 0 := by
  intro b member
  rw [answer_text, List.mem_append, List.mem_append] at member
  rcases member with (before | inside) | after
  · revert b
    decide +kernel
  · exact nulFree b inside
  · revert b
    decide +kernel

theorem answer_length (sdp : List UInt8) :
    (Json.sample.writeString (answer sdp).resRoot).length = 51 + sdp.length := by
  have front : (utf8 "\x7b\"err_msg\":\"process success\",\"err_no\":0,\"offer\":\"").length = 49 := by
    decide +kernel
  have back : (utf8 "\"\x7d").length = 2 := by decide +kernel
  rw [answer_text, List.length_append, List.length_append, front, back]
  omega

/-- The answer that the rtc worker gives. -/
theorem reply_decodes_iff_offer :
    ∃ h c, Watchers.Consistent h ∧ h.worker.offerTarget (answer (utf8 "offer")) = some c ∧
      HasHeader c.obj.querybuf.buf ∧
      ∃ worker c' reply,
        h.worker.responseServerOffer Json.sample (answer (utf8 "offer")) (fun _ => 0) = .ok worker ∧
        lookup worker.conns 5 = some c' ∧ c'.obj.replyList = c.obj.replyList ++ [reply] ∧
        Decodes (Xhead.view c.obj.querybuf.buf)
          (Json.sample.writeString (answer (utf8 "offer")).resRoot) reply := by
  obtain ⟨h, c, consistent, target, header⟩ := asking_consistent (utf8 "offer")
  have nulFree := answer_nulFree (by decide +kernel : ∀ b ∈ utf8 "offer", b ≠ 0)
  obtain ⟨worker, c', reply, offered, held, enqueued, decodes⟩ :=
    reply_decodes_iff Json.sample h consistent (answer (utf8 "offer")) (fun _ => 0) c target header nulFree
  have short : (utf8 "offer").length = 5 := by decide +kernel
  have fits : (Json.sample.writeString (answer (utf8 "offer")).resRoot).length < MAX_RES_BUF := by
    rw [answer_length, short]
    decide
  exact ⟨h, c, consistent, target, header, worker, c', reply, offered, held, enqueued, decodes.2 fits⟩

/-- An answer of 4045 letters makes a response of exactly `MAX_RES_BUF` bytes. -/
theorem full_reply_not_decoded :
    ∃ h c, Watchers.Consistent h ∧ h.worker.offerTarget (answer (List.replicate 4045 0x61)) = some c ∧
      HasHeader c.obj.querybuf.buf ∧
      (∀ b ∈ Json.sample.writeString (answer (List.replicate 4045 0x61)).resRoot, b ≠ 0) ∧
      ∃ worker c' reply,
        h.worker.responseServerOffer Json.sample (answer (List.replicate 4045 0x61)) (fun _ => 0) =
          .ok worker ∧
        lookup worker.conns 5 = some c' ∧ c'.obj.replyList = c.obj.replyList ++ [reply] ∧
        ¬ Decodes (Xhead.view c.obj.querybuf.buf)
          (Json.sample.writeString (answer (List.replicate 4045 0x61)).resRoot) reply := by
  obtain ⟨h, c, consistent, target, header⟩ := asking_consistent (List.replicate 4045 0x61)
  have letters : ∀ b ∈ List.replicate 4045 (0x61 : UInt8), b ≠ 0 := by
    intro b member
    rw [List.eq_of_mem_replicate member]
    decide
  have nulFree := answer_nulFree letters
  obtain ⟨worker, c', offered, held, enqueued⟩ :=
    offer_enqueues Json.sample consistent (fun _ => 0) target
  refine ⟨h, c, consistent, target, header, nulFree, worker, c', _, offered, held, enqueued,
    fun decodes => ?_⟩
  have short := short_of_decodes header nulFree decodes
  rw [answer_length, List.length_replicate] at short
  exact absurd short (by decide)

end Xrtc.Proof.Reply
