import Xrtc.Base.Xhead
import Xrtc.Go.Xrpc

/-!
# The two readings of a header

`xhead_t` and the Go `Header` are one layout: reading it in place and `UnMarshal` give the same
fields, and `Marshal` writes what both read.
-/

namespace Xrtc.Proof.Xrpc
open Base Go Lib

/-- The Go value with the fields of an `xhead_t`. -/
def headerOf (x : Xhead) : Header where
  id := x.id
  version := x.version
  logId := x.logId
  provider := x.provider
  magicNum := x.magicNum
  reserved := x.reserved
  bodyLen := x.bodyLen

theorem unMarshal_eq_view {b : List UInt8} (long : xheadSize ≤ b.length) :
    Header.unMarshal b = .ok (headerOf (Xhead.view b)) :=
  if_neg (Nat.not_lt.2 long)

theorem uint16_leBytes (n : UInt16) : UInt16.ofNat (leValue (leBytes 2 n.toNat)) = n := by
  rw [leValue_leBytes (by simpa using n.toNat_lt), UInt16.ofNat_toNat]

theorem uint32_leBytes (n : UInt32) : UInt32.ofNat (leValue (leBytes 4 n.toNat)) = n := by
  rw [leValue_leBytes (by simpa using n.toNat_lt), UInt32.ofNat_toNat]

def image (h : Header) : List UInt8 :=
  leBytes 2 h.id.toNat ++ (leBytes 2 h.version.toNat ++ (leBytes 4 h.logId.toNat ++
    (h.provider.toList ++ (leBytes 4 h.magicNum.toNat ++ (leBytes 4 h.reserved.toNat ++
      leBytes 4 h.bodyLen.toNat)))))

theorem image_length (h : Header) : (image h).length = xheadSize := by
  simp [image, xheadSize]

theorem marshal_eq_image {b : List UInt8} (h : Header) (long : HEADER_SIZE ≤ b.length) :
    h.marshal b = .ok (image h ++ b.drop HEADER_SIZE) := by
  have start : b = [] ++ b := rfl
  rw [Header.marshal, if_neg (Nat.not_lt.2 long)]
  dsimp only
  conv_lhs => rw [start]
  rw [overwrite_front (by simp), overwrite_front (by simp), overwrite_front (by simp),
    overwrite_front (by simp), overwrite_front (by simp), overwrite_front (by simp),
    overwrite_front (by simp)]
  simp [image, HEADER_SIZE]

theorem write_eq_image (h : Header) : h.write = .ok (image h) := by
  rw [Header.write, marshal_eq_image h (by simp)]
  simp

theorem view_image (h : Header) : headerOf (Xhead.view (image h)) = h := by
  have provider : slice (image h) 8 16 = h.provider.toList := by
    simp (disch := simp) only [image, slice_append_right, slice_append_left]
    simp [slice]
  have providerView : (Vector.ofFn fun i : Fin 16 => (slice (image h) 8 16).getD i 0) = h.provider := by
    ext i bound
    rw [Vector.getElem_ofFn, provider]
    simp [bound]
  simp only [headerOf, Xhead.view, providerView]
  simp (disch := simp) only [image, slice_append_right, slice_append_left, leBytes_length,
    Vector.length_toList, Nat.reduceSub, slice_whole, uint16_leBytes, uint32_leBytes]

/-! ## Marshal and UnMarshal as inverses -/

theorem marshalInPlace_eq (h : Header) (b : List UInt8) : Header.marshalInPlace ⟨h, b⟩ =
    match h.marshal b with
    | .ok b' => .ok () ⟨h, b'⟩
    | .error text => .error text ⟨h, b⟩ := by
  unfold Header.marshalInPlace Header.marshal
  change (ite (b.length < HEADER_SIZE) _ _ : EStateM String Operands Unit) ⟨h, b⟩ = _
  by_cases short : b.length < HEADER_SIZE
  · rw [if_pos short, if_pos short]
    rfl
  · rw [if_neg short, if_neg short]
    rfl

theorem unMarshalInPlace_eq (h : Header) (b : List UInt8) : Header.unMarshalInPlace ⟨h, b⟩ =
    match Header.unMarshal b with
    | .ok h' => .ok () ⟨h', b⟩
    | .error text => .error text ⟨h, b⟩ := by
  unfold Header.unMarshalInPlace Header.unMarshal
  change (ite (b.length < HEADER_SIZE) _ _ : EStateM String Operands Unit) ⟨h, b⟩ = _
  by_cases short : b.length < HEADER_SIZE
  · rw [if_pos short, if_pos short]
    rfl
  · rw [if_neg short, if_neg short]
    rfl

theorem leBytes_slice {b : List UInt8} {offset width : Nat} (within : offset + width ≤ b.length) :
    leBytes width (leValue (slice b offset width)) = slice b offset width ∧
      leValue (slice b offset width) < 256 ^ width := by
  have size := slice_length within
  have back := leBytes_leValue (slice b offset width)
  have small := leValue_lt (slice b offset width)
  rw [size] at back small
  exact ⟨back, small⟩

theorem leBytes_uint16 {b : List UInt8} {offset : Nat} (within : offset + 2 ≤ b.length) :
    leBytes 2 (UInt16.ofNat (leValue (slice b offset 2))).toNat = slice b offset 2 := by
  obtain ⟨back, small⟩ := leBytes_slice within
  rw [UInt16.toNat_ofNat_of_lt' (by simpa using small), back]

theorem leBytes_uint32 {b : List UInt8} {offset : Nat} (within : offset + 4 ≤ b.length) :
    leBytes 4 (UInt32.ofNat (leValue (slice b offset 4))).toNat = slice b offset 4 := by
  obtain ⟨back, small⟩ := leBytes_slice within
  rw [UInt32.toNat_ofNat_of_lt' (by simpa using small), back]

theorem toList_ofFn_getD {n : Nat} {bytes : List UInt8} (exact : bytes.length = n) :
    (Vector.ofFn fun i : Fin n => bytes.getD i 0).toList = bytes := by
  apply List.ext_getElem
  · simp [exact]
  · intro i _ inside
    simp [inside]

theorem image_view {b : List UInt8} (exact : b.length = xheadSize) :
    image (headerOf (Xhead.view b)) = b := by
  have long : b.length = 36 := exact
  have provider : (slice b 8 16).length = 16 := slice_length (by omega)
  simp (disch := omega) only [image, headerOf, Xhead.view, leBytes_uint16, leBytes_uint32,
    toList_ofFn_getD provider]
  simp only [slice_append_slice b 28 4 4, slice_append_slice b 24 4 8, slice_append_slice b 8 16 12,
    slice_append_slice b 4 4 28, slice_append_slice b 2 2 32, slice_append_slice b 0 2 34]
  exact slice_whole long

/-- `Marshal` and `UnMarshal` undo each other, leave the rest of the buffer alone and touch nothing when
the buffer is too short; `xhead_t` read in place has the fields that were written. -/
theorem header_codec :
    (∀ (h old : Header) (b : List UInt8), HEADER_SIZE ≤ b.length →
      ∃ b', Header.marshalInPlace ⟨h, b⟩ = .ok () ⟨h, b'⟩ ∧
        Header.unMarshalInPlace ⟨old, b'⟩ = .ok () ⟨h, b'⟩ ∧
        b'.length = b.length ∧ b'.drop HEADER_SIZE = b.drop HEADER_SIZE ∧
        headerOf (Xhead.inPlace b') = h) ∧
    (∀ (old : Header) (b buf : List UInt8), b.length = HEADER_SIZE → buf.length = HEADER_SIZE →
      ∃ h, Header.unMarshalInPlace ⟨old, b⟩ = .ok () ⟨h, b⟩ ∧
        Header.marshalInPlace ⟨h, buf⟩ = .ok () ⟨h, b⟩) ∧
    (∀ (h : Header) (b : List UInt8), b.length < HEADER_SIZE →
      Header.marshalInPlace ⟨h, b⟩ = .error "no enough buffer for header" ⟨h, b⟩ ∧
      Header.unMarshalInPlace ⟨h, b⟩ = .error "incomplete header" ⟨h, b⟩) ∧
    (layout 0 Xhead.members).2 = xheadSize := by
  refine ⟨fun h old b long => ?_, fun old b buf exact exact' => ?_, fun h b short => ?_,
    Xhead.layout_size⟩
  · have size : (image h).length = HEADER_SIZE := image_length h
    have written : headerOf (Xhead.view (image h ++ b.drop HEADER_SIZE)) = h := by
      rw [Xhead.view_append (image_length h).ge, view_image]
    refine ⟨image h ++ b.drop HEADER_SIZE, ?_, ?_, ?_, ?_, written⟩
    · rw [marshalInPlace_eq, marshal_eq_image h long]
    · rw [unMarshalInPlace_eq, unMarshal_eq_view (by simp [image_length]), written]
    · rw [List.length_append, List.length_drop, size]
      omega
    · rw [← size, List.drop_left]
  · refine ⟨headerOf (Xhead.view b), ?_, ?_⟩
    · rw [unMarshalInPlace_eq, unMarshal_eq_view exact.ge]
    · rw [marshalInPlace_eq, marshal_eq_image _ exact'.ge, image_view exact, ← exact', List.drop_length,
        List.append_nil]
  · rw [marshalInPlace_eq, unMarshalInPlace_eq, Header.marshal, Header.unMarshal, if_pos short,
      if_pos short]
    exact ⟨rfl, rfl⟩

def distinct : Header where
  id := 0x0201
  version := 0x0403
  logId := 0x08070605
  provider := Vector.ofFn fun i => UInt8.ofNat (i + 9)
  magicNum := HEADER_MAGICNUM
  reserved := 0x20212223
  bodyLen := 0x28292a2b

theorem header_codec_distinct :
    (∃ b', Header.marshalInPlace ⟨distinct, List.replicate 40 0xaa⟩ = .ok () ⟨distinct, b'⟩ ∧
      Header.unMarshalInPlace ⟨{}, b'⟩ = .ok () ⟨distinct, b'⟩ ∧ b'.drop 36 = List.replicate 4 0xaa ∧
      headerOf (Xhead.inPlace b') = distinct) ∧
    (∃ h, Header.unMarshalInPlace ⟨distinct, List.replicate 36 7⟩ = .ok () ⟨h, List.replicate 36 7⟩ ∧
      Header.marshalInPlace ⟨h, List.replicate 36 0⟩ = .ok () ⟨h, List.replicate 36 7⟩) ∧
    Header.marshalInPlace ⟨distinct, [1, 2]⟩ = .error "no enough buffer for header" ⟨distinct, [1, 2]⟩ := by
  obtain ⟨there, back, short, -⟩ := header_codec
  obtain ⟨b', written, read, -, rest, fields⟩ := there distinct {} (List.replicate 40 0xaa) (by decide)
  exact ⟨⟨b', written, read, rest, fields⟩,
    back distinct (List.replicate 36 7) (List.replicate 36 0) (by decide) (by decide),
    (short distinct [1, 2] (by decide)).1⟩

theorem write_newRequest {content frame : List UInt8} {logId : UInt32} {r : Request}
    (fits : content.length < 2 ^ 32) (made : newRequest (.bytes content) logId = some r)
    (written : r.write = .ok frame) :
    ∃ header : Header, frame = image header ++ content ∧ header.logId = logId ∧
      header.magicNum = xheadMagicNum ∧ header.bodyLen.toNat = content.length := by
  obtain rfl := Option.some.inj made
  have size : (UInt32.ofNat content.length).toNat = content.length := by
    rw [UInt32.toNat_ofNat', Nat.mod_eq_of_lt fits]
  rw [Request.write, write_eq_image] at written
  obtain rfl := Except.ok.inj written
  refine ⟨{ logId := logId, magicNum := HEADER_MAGICNUM, bodyLen := UInt32.ofNat content.length },
    ?_, rfl, rfl, size⟩
  rw [size, List.take_length]

/-! ## Reading from a stream -/

theorem readFull_flatten {n : Nat} {r : Reader} (got : List UInt8) (room : got.length ≤ n)
    (enough : n ≤ got.length + r.flatten.length) :
    ∃ rest, readFull n got r = .ok (got ++ r.flatten.take (n - got.length), rest) ∧
      rest.flatten = r.flatten.drop (n - got.length) := by
  induction r generalizing got with
  | nil =>
      have exact : n ≤ got.length := by simpa using enough
      refine ⟨[], ?_, by simp⟩
      rw [readFull, if_pos exact]
      simp
  | cons chunk rest ih =>
      rw [readFull]
      by_cases full : n ≤ got.length
      · have none_left : n - got.length = 0 := by omega
        rw [if_pos full, none_left]
        exact ⟨chunk :: rest, by simp, by simp⟩
      · rw [if_neg full]
        by_cases fits : chunk.length ≤ n - got.length
        · obtain ⟨rest', read, left⟩ := ih (got ++ chunk) (by simp; omega)
            (by simp at enough ⊢; omega)
          have split : n - got.length = chunk.length + (n - (got ++ chunk).length) := by simp; omega
          refine ⟨rest', ?_, ?_⟩
          · rw [if_pos fits, read, split, List.flatten_cons, List.take_length_add_append,
              List.append_assoc]
          · rw [left, split, List.flatten_cons, List.drop_length_add_append]
        · refine ⟨chunk.drop (n - got.length) :: rest, ?_, ?_⟩
          · rw [if_neg fits, List.flatten_cons, List.take_append_of_le_length (by omega)]
          · rw [List.flatten_cons, List.flatten_cons, List.drop_append_of_le_length (by omega)]

theorem readResponse_flatten {r : Reader} {head body : List UInt8} (more : List UInt8)
    (header : head.length = xheadSize)
    (bytes : r.flatten = head ++ (body ++ more)) (magic : (Xhead.view head).magicNum = xheadMagicNum)
    (exact : (Xhead.view head).bodyLen.toNat = body.length) :
    ∃ rest, readResponse r = .ok (⟨headerOf (Xhead.view head), body⟩, rest) ∧ rest.flatten = more := by
  obtain ⟨r₁, readHead, left⟩ := readFull_flatten (n := HEADER_SIZE) (r := r) [] (by simp)
    (by rw [bytes]; simp only [List.length_append, header]; unfold HEADER_SIZE xheadSize; omega)
  have size : HEADER_SIZE = head.length := header.symm
  rw [bytes, List.nil_append, List.length_nil, Nat.sub_zero, size, List.take_left] at readHead
  rw [bytes, List.length_nil, Nat.sub_zero, size, List.drop_left] at left
  obtain ⟨r₂, readBody, left'⟩ := readFull_flatten (n := body.length) (r := r₁) [] (by simp)
    (by rw [left]; simp)
  rw [left, List.nil_append, List.length_nil, Nat.sub_zero, List.take_left] at readBody
  rw [left, List.length_nil, Nat.sub_zero, List.drop_left] at left'
  have magic' : (headerOf (Xhead.view head)).magicNum = HEADER_MAGICNUM := magic
  have exact' : (headerOf (Xhead.view head)).bodyLen.toNat = body.length := exact
  refine ⟨r₂, ?_, left'⟩
  simp only [readResponse, Header.read, size, readHead, unMarshal_eq_view header.ge, magic', ne_eq,
    not_true_eq_false, if_false, exact', readBody]

end Xrtc.Proof.Xrpc
