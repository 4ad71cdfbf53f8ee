import Xrtc.Base.Crc32
import Xrtc.Lib.Crc

namespace Xrtc.Proof.Crc32

open Base.Crc32 Lib.Crc Polynomial

theorem tableBit_shift (c : UInt32) :
    (tableBit c).toBitVec = shift kCrc32Polynomial.toBitVec c.toBitVec := by
  have flag : c &&& 1 ≠ 0 ↔ c.toBitVec.getLsbD 0 = true := by
    rw [Ne, ← UInt32.toBitVec_inj, UInt32.toBitVec_and]
    have one : (1 : UInt32).toBitVec = 1#32 := rfl
    rw [one, BitVec.and_one_eq_setWidth_ofBool_getLsbD]
    cases c.toBitVec.getLsbD 0 <;> decide
  unfold tableBit shift
  by_cases low : c &&& 1 ≠ 0
  · rw [if_pos low, if_pos (flag.mp low)]
    simp
  · rw [if_neg low, if_neg (fun set => low (flag.mpr set))]
    simp

theorem iterate_tableBit (n : Nat) (c : UInt32) :
    (tableBit^[n] c).toBitVec = (shift kCrc32Polynomial.toBitVec)^[n] c.toBitVec := by
  induction n generalizing c with
  | zero => rfl
  | succ n ih => rw [Function.iterate_succ_apply, ih, tableBit_shift, ← Function.iterate_succ_apply]

theorem table_get (i : Fin 256) :
    (loadCrc32Table.get i).toBitVec = (shift kCrc32Polynomial.toBitVec)^[8] (BitVec.ofNat 32 i) := by
  have entry : loadCrc32Table.get i = tableBit^[8] (UInt32.ofNat i) := Vector.getElem_ofFn i.isLt
  rw [entry, iterate_tableBit]
  rfl

theorem updateByte_feed (c : UInt32) (u : UInt8) :
    (updateByte c u).toBitVec = feed kCrc32Polynomial.toBitVec c.toBitVec u.toBitVec := by
  have low : BitVec.ofNat 32 ((c ^^^ u.toUInt32) &&& 0xFF).toNat =
      ((c.toBitVec ^^^ u.toBitVec.setWidth 32).setWidth 8).setWidth 32 := by
    have mask : ∀ i, (255#32).getLsbD i = decide (i < 8) := fun i => by
      have bit := Nat.testBit_two_pow_sub_one 8 i
      by_cases inside : i < 32
      · rw [BitVec.getLsbD_ofNat, decide_eq_true inside, Bool.true_and]
        exact bit
      · rw [BitVec.getLsbD_of_ge _ _ (by omega), decide_eq_false (by omega)]
    have word : BitVec.ofNat 32 ((c ^^^ u.toUInt32) &&& 0xFF).toNat =
        (c.toBitVec ^^^ u.toBitVec.setWidth 32) &&& 255#32 :=
      BitVec.eq_of_toNat_eq (Nat.mod_eq_of_lt (UInt32.toNat_lt _))
    rw [word]
    refine BitVec.eq_of_getLsbD_eq fun i inside => ?_
    rw [BitVec.getLsbD_and, mask, BitVec.getLsbD_setWidth, BitVec.getLsbD_setWidth,
      decide_eq_true inside, Bool.true_and, Bool.and_comm]
  have high : (c >>> 8).toBitVec = (c.toBitVec ^^^ u.toBitVec.setWidth 32) >>> 8 := by
    have down : (c >>> 8).toBitVec = c.toBitVec >>> 8 := by simp
    have none : u.toBitVec.setWidth 32 >>> 8 = 0#32 := by
      refine BitVec.eq_of_getLsbD_eq fun i inside => ?_
      rw [BitVec.getLsbD_ushiftRight, BitVec.getLsbD_setWidth, BitVec.getLsbD_of_ge _ (8 + i) (by omega)]
      simp
    rw [BitVec.ushiftRight_xor_distrib, none, BitVec.xor_zero, down]
  rw [feed, iterate_shift_split, updateByte, UInt32.toBitVec_xor, table_get, high]
  exact congrArg (fun x => (shift kCrc32Polynomial.toBitVec)^[8] x ^^^ _) low

theorem updateCrc32_run (start : UInt32) (buf : List UInt8) :
    (updateCrc32 start buf ^^^ 0xFFFFFFFF).toBitVec =
      run kCrc32Polynomial.toBitVec (start ^^^ 0xFFFFFFFF).toBitVec (buf.map UInt8.toBitVec) := by
  have loop : ∀ c : UInt32, (buf.foldl updateByte c).toBitVec =
      run kCrc32Polynomial.toBitVec c.toBitVec (buf.map UInt8.toBitVec) := by
    induction buf with
    | nil => exact fun c => rfl
    | cons u rest ih =>
        intro c
        rw [List.foldl_cons, ih, updateByte_feed]
        rfl
  rw [updateCrc32, UInt32.xor_assoc, UInt32.xor_self, UInt32.xor_zero, loop]

theorem updateCrc32_append (start : UInt32) (front back : List UInt8) :
    updateCrc32 (updateCrc32 start front) back = updateCrc32 start (front ++ back) := by
  have undone : updateCrc32 start front ^^^ 0xFFFFFFFF =
      front.foldl updateByte (start ^^^ 0xFFFFFFFF) := by
    rw [updateCrc32, UInt32.xor_assoc, UInt32.xor_self, UInt32.xor_zero]
  rw [updateCrc32, undone, updateCrc32, List.foldl_append]

theorem updateCrc32_chunks (start : UInt32) (chunks : List (List UInt8)) :
    chunks.foldl updateCrc32 start = updateCrc32 start chunks.flatten := by
  induction chunks generalizing start with
  | nil =>
      rw [List.flatten_nil, updateCrc32, List.foldl_nil, List.foldl_nil, UInt32.xor_assoc, UInt32.xor_self,
        UInt32.xor_zero]
  | cons chunk rest ih => rw [List.foldl_cons, ih, updateCrc32_append, List.flatten_cons]

/-- The generator of the checksum, written out. -/
noncomputable def ieee : (ZMod 2)[X] :=
  X ^ 32 + X ^ 26 + X ^ 23 + X ^ 22 + X ^ 16 + X ^ 12 + X ^ 11 + X ^ 10 + X ^ 8 + X ^ 7 + X ^ 5 + X ^ 4 +
    X ^ 2 + X + 1

theorem generator_ieee : generator kCrc32Polynomial.toBitVec = ieee := by
  have bits : ∀ k, kCrc32Polynomial.toBitVec.getMsbD k = (0xEDB88320#32).getMsbD k := fun k => rfl
  simp only [generator, toPoly, Finset.sum_range_succ, Finset.sum_range_zero, bits]
  simp [ieee]
  ring

theorem toPoly_ones : toPoly (0xFFFFFFFF : UInt32).toBitVec = ∑ k ∈ Finset.range 32, X ^ k := by
  refine Finset.sum_congr rfl fun k inside => if_pos ?_
  have all : ∀ k < 32, (0xFFFFFFFF : UInt32).toBitVec.getMsbD k = true := by decide
  exact all k (Finset.mem_range.mp inside)

/-- In whatever pieces a string is checksummed, the checksum is that of the whole string: the
complement of the remainder of its polynomial, with 32 zero bits behind it and its first 32 bits
complemented, by the generator. -/
theorem checksum_remainder (chunks : List (List UInt8)) :
    chunks.foldl updateCrc32 0 = computeCrc32 chunks.flatten ∧
      toPoly (computeCrc32 chunks.flatten ^^^ 0xFFFFFFFF).toBitVec =
        (X ^ (8 * chunks.flatten.length) * ∑ k ∈ Finset.range 32, X ^ k +
          X ^ 32 * message (chunks.flatten.map UInt8.toBitVec)) %ₘ ieee := by
  refine ⟨updateCrc32_chunks 0 chunks, ?_⟩
  rw [computeCrc32, updateCrc32_run, UInt32.zero_xor, toPoly_run _ (by decide), toPoly_ones,
    generator_ieee, List.length_map]

-- The check value of the algorithm, over the digits 1 to 9.
example : computeCrc32 [49, 50, 51, 52, 53, 54, 55, 56, 57] = 0xCBF43926 := by decide +kernel

/-- Names of one length that differ only inside four consecutive bytes have different checksums. -/
theorem checksum_separates (front x y back : List UInt8) (length : x.length = y.length)
    (window : x.length ≤ 4) (differ : x ≠ y) :
    computeCrc32 (front ++ x ++ back) ≠ computeCrc32 (front ++ y ++ back) := by
  intro same
  have runs := congrArg (fun c : UInt32 => (c ^^^ 0xFFFFFFFF).toBitVec) same
  simp only [computeCrc32, updateCrc32_run, List.map_append] at runs
  have mapped := run_separates _ (by decide) (by decide) _ _ _ _ _
    (by simp only [List.length_map, length]) (by rw [List.length_map]; omega) runs
  exact differ (List.map_injective_iff.mpr (fun _ _ => UInt8.toBitVec_inj.mp) mapped)

theorem checksum_separates_live :
    computeCrc32 [108, 105, 118, 101, 49] ≠ computeCrc32 [108, 105, 118, 101, 50] :=
  checksum_separates [108, 105, 118, 101] [49] [50] [] rfl (by decide) (by decide)

end Xrtc.Proof.Crc32
