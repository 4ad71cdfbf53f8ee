import Xrtc.Proof.Xrpc

/-!
# The streams `ReadResponse` accepts
-/

namespace Xrtc.Proof.Response
open Base Go Lib Xrpc

theorem readFull_short {n : Nat} {r : Reader} (got : List UInt8) (short : got.length + r.flatten.length < n) :
    readFull n got r = .error (if (got ++ r.flatten).isEmpty then .eof else .unexpectedEof) := by
  induction r generalizing got with
  | nil =>
      have missing : ¬ n ≤ got.length := by simpa using short
      rw [readFull, if_neg missing]
      simp
  | cons chunk rest ih =>
      rw [List.flatten_cons, List.length_append] at short
      have missing : ¬ n ≤ got.length := by omega
      have fits : chunk.length ≤ n - got.length := by omega
      rw [readFull, if_neg missing, if_pos fits, ih (got ++ chunk) (by rw [List.length_append]; omega),
        List.flatten_cons, List.append_assoc]

theorem readFull_inv {n : Nat} {r rest : Reader} {buf : List UInt8}
    (read : readFull n [] r = .ok (buf, rest)) :
    r.flatten = buf ++ rest.flatten ∧ buf.length = n := by
  rcases Nat.lt_or_ge r.flatten.length n with short | enough
  · rw [readFull_short [] (by simpa using short)] at read
    cases read
  · obtain ⟨rest', read', left⟩ := readFull_flatten (n := n) (r := r) [] (by simp) (by simpa using enough)
    rw [read'] at read
    cases read
    rw [left, List.nil_append, List.length_nil, Nat.sub_zero, List.take_append_drop, List.length_take]
    exact ⟨rfl, Nat.min_eq_left enough⟩

structure Frame (s : List UInt8) (h : Header) (body more : List UInt8) : Prop where
  bytes : s = image h ++ (body ++ more)
  magic : h.magicNum = HEADER_MAGICNUM
  len : body.length = h.bodyLen.toNat

theorem readResponse_frame {r : Reader} {h : Header} {body more : List UInt8}
    (frame : Frame r.flatten h body more) :
    ∃ rest, readResponse r = .ok (⟨h, body⟩, rest) ∧ rest.flatten = more := by
  have view := view_image h
  have read := readResponse_flatten more (image_length h) frame.bytes
    ((congrArg Header.magicNum view).trans frame.magic)
    ((congrArg (·.bodyLen.toNat) view).trans frame.len.symm)
  rwa [view] at read

theorem headerRead_inv {r rest : Reader} {h : Header} (read : Header.read r = .ok (h, rest)) :
    r.flatten = image h ++ rest.flatten := by
  unfold Header.read at read
  split at read
  · cases read
  · next buf r' filled =>
      obtain ⟨bytes, size⟩ := readFull_inv filled
      rw [unMarshal_eq_view size.ge] at read
      cases read
      rw [bytes, image_view size]

theorem frame_of_readResponse {r rest : Reader} {resp : Go.Response}
    (read : readResponse r = .ok (resp, rest)) : Frame r.flatten resp.header resp.body rest.flatten := by
  unfold readResponse at read
  split at read
  · cases read
  · next h r₁ headerRead =>
      split at read
      · cases read
      · next magic =>
          split at read
          · cases read
          · next body r₂ bodyRead =>
              cases read
              obtain ⟨bytes, size⟩ := readFull_inv bodyRead
              exact ⟨by rw [headerRead_inv headerRead, bytes], not_not.1 magic, size⟩

/-- The stream begins with `Marshal(h) ++ body`, and `h` announces `body`. -/
def Begins (s : List UInt8) (h : Header) (body : List UInt8) : Prop :=
  h.magicNum = HEADER_MAGICNUM ∧ body.length = h.bodyLen.toNat ∧
    ∃ head, h.marshal (List.replicate HEADER_SIZE 0) = .ok head ∧ head ++ body <+: s

theorem begins_iff_frame {s : List UInt8} {h : Header} {body : List UInt8} :
    Begins s h body ↔ ∃ more, Frame s h body more := by
  constructor
  · rintro ⟨magic, len, head, marshalled, more, bytes⟩
    obtain rfl := Except.ok.inj ((write_eq_image h).symm.trans marshalled)
    exact ⟨more, by rw [← bytes, List.append_assoc], magic, len⟩
  · rintro ⟨more, frame⟩
    refine ⟨frame.magic, frame.len, image h, write_eq_image h, more, ?_⟩
    rw [frame.bytes, List.append_assoc]

theorem readResponse_ok_iff (r : Reader) (h : Header) (body : List UInt8) :
    (∃ rest, readResponse r = .ok (⟨h, body⟩, rest)) ↔ Begins r.flatten h body := by
  rw [begins_iff_frame]
  constructor
  · rintro ⟨rest, read⟩
    exact ⟨_, frame_of_readResponse read⟩
  · rintro ⟨more, frame⟩
    obtain ⟨rest, read, -⟩ := readResponse_frame frame
    exact ⟨rest, read⟩

theorem readResponse_newRequest {content : List UInt8} (logId : UInt32) (small : content.length < 2 ^ 32) :
    ∃ req bytes, newRequest (.bytes content) logId = some req ∧ req.write = .ok bytes ∧
      ∀ r : Reader, r.flatten = bytes →
        ∃ resp rest, readResponse r = .ok (resp, rest) ∧ resp.header.logId = logId ∧
          resp.body = content := by
  obtain ⟨req, made⟩ : ∃ req, newRequest (.bytes content) logId = some req := ⟨_, rfl⟩
  obtain ⟨bytes, written⟩ : ∃ bytes, req.write = .ok bytes := by
    obtain rfl := Option.some.inj made
    exact ⟨_, by rw [Request.write, write_eq_image]⟩
  obtain ⟨header, rfl, log, magic, len⟩ := write_newRequest small made written
  refine ⟨req, _, made, written, fun r bytes => ?_⟩
  have frame : Frame r.flatten header content [] := ⟨by rw [bytes, List.append_nil], magic, len.symm⟩
  obtain ⟨rest, read, -⟩ := readResponse_frame frame
  exact ⟨_, rest, read, log, rfl⟩

/-- `ReadResponse` succeeds exactly on the streams that begin with a frame, takes the frame and
nothing behind it, and decodes what `Request.Write` emits, however the bytes are cut into reads. -/
theorem readResponse_exact :
    (∀ (r : Reader) (h : Header) (body : List UInt8),
      (∃ rest, readResponse r = .ok (⟨h, body⟩, rest)) ↔ Begins r.flatten h body) ∧
    (∀ (r rest : Reader) (h : Header) (body : List UInt8), readResponse r = .ok (⟨h, body⟩, rest) →
      ∃ used, r.flatten = used ++ rest.flatten ∧ used.length = 36 + h.bodyLen.toNat) ∧
    (∀ r : Reader, (¬ ∃ h body, Begins r.flatten h body) → ∃ e, readResponse r = .error e) ∧
    (∀ (content : List UInt8) (logId : UInt32), content.length < 2 ^ 32 →
      ∃ req bytes, newRequest (.bytes content) logId = some req ∧ req.write = .ok bytes ∧
        ∀ r : Reader, r.flatten = bytes →
          ∃ resp rest, readResponse r = .ok (resp, rest) ∧ resp.header.logId = logId ∧
            resp.body = content) := by
  refine ⟨readResponse_ok_iff, fun r rest h body read => ?_, fun r noFrame => ?_,
    fun content logId small => readResponse_newRequest logId small⟩
  · have frame := frame_of_readResponse read
    refine ⟨image h ++ body, ?_, ?_⟩
    · rw [frame.bytes, List.append_assoc]
    · rw [List.length_append, image_length, frame.len]
      rfl
  · cases read : readResponse r with
    | error e => exact ⟨e, rfl⟩
    | ok result =>
        obtain ⟨⟨h, body⟩, rest⟩ := result
        exact absurd ⟨h, body, (readResponse_ok_iff r h body).1 ⟨rest, read⟩⟩ noFrame

/-- A body of three bytes, sent in one piece and read byte by byte. -/
theorem readResponse_exact_hello :
    ∃ req bytes, newRequest (.bytes [104, 105, 33]) 7 = some req ∧ req.write = .ok bytes ∧
      ∃ resp rest, readResponse (bytes.map fun b => [b]) = .ok (resp, rest) ∧ resp.header.logId = 7 ∧
        resp.body = [104, 105, 33] ∧
        ∃ used, bytes = used ++ rest.flatten ∧ used.length = 36 + resp.header.bodyLen.toNat := by
  obtain ⟨-, consumed, -, undone⟩ := readResponse_exact
  obtain ⟨req, bytes, made, written, decoded⟩ := undone [104, 105, 33] 7 (by decide)
  have whole : (bytes.map fun b => [b]).flatten = bytes := by
    rw [← List.flatMap_def, List.flatMap_singleton']
  obtain ⟨⟨h, body⟩, rest, read, log, content⟩ := decoded (bytes.map fun b => [b]) whole
  obtain ⟨used, split, size⟩ := consumed _ rest h body read
  exact ⟨req, bytes, made, written, _, rest, read, log, content, used, whole.symm.trans split, size⟩

end Xrtc.Proof.Response
