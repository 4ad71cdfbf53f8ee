import Mathlib.Data.Nat.Digits.Defs
import Mathlib.Data.Nat.Digits.Lemmas

/-!
# Byte strings: fixed-width little-endian numbers, slices and overwriting
-/

namespace Xrtc.Lib

/-- The low `width` bytes of `n`, least significant first. -/
def leBytes : (width n : Nat) → List UInt8
  | 0, _ => []
  | width + 1, n => UInt8.ofNat n :: leBytes width (n / 256)

def leValue (bytes : List UInt8) : Nat :=
  Nat.ofDigits 256 (bytes.map UInt8.toNat)

/-- The `size` bytes of `bytes` from `offset` on. -/
def slice (bytes : List UInt8) (offset size : Nat) : List UInt8 :=
  (bytes.drop offset).take size

@[simp] theorem leBytes_length (width n : Nat) : (leBytes width n).length = width := by
  induction width generalizing n with
  | zero => rfl
  | succ width ih => simp [leBytes, ih]

@[simp] theorem leValue_nil : leValue [] = 0 := rfl

@[simp] theorem leValue_cons (byte : UInt8) (bytes : List UInt8) :
    leValue (byte :: bytes) = byte.toNat + 256 * leValue bytes := by
  simp [leValue, Nat.ofDigits_cons]

theorem leValue_leBytes {width n : Nat} (fits : n < 256 ^ width) : leValue (leBytes width n) = n := by
  induction width generalizing n with
  | zero =>
      have : n = 0 := by simpa using fits
      simp [leBytes, this]
  | succ width ih =>
      have rest : n / 256 < 256 ^ width := by
        rw [pow_succ] at fits
        exact Nat.div_lt_of_lt_mul (by omega)
      rw [leBytes, leValue_cons, ih rest]
      simp only [UInt8.toNat_ofNat']
      omega

theorem leValue_lt (bytes : List UInt8) : leValue bytes < 256 ^ bytes.length := by
  have digits : ∀ d ∈ bytes.map UInt8.toNat, d < 256 := by
    intro d member
    obtain ⟨byte, -, rfl⟩ := List.mem_map.mp member
    exact byte.toNat_lt
  simpa [leValue] using Nat.ofDigits_lt_base_pow_length (by norm_num) digits

theorem leBytes_leValue (bytes : List UInt8) : leBytes bytes.length (leValue bytes) = bytes := by
  induction bytes with
  | nil => rfl
  | cons byte bytes ih =>
      have low := byte.toNat_lt
      have head : UInt8.ofNat (byte.toNat + 256 * leValue bytes) = byte := by
        apply UInt8.toNat_inj.mp
        simp only [UInt8.toNat_ofNat']
        omega
      have tail : (byte.toNat + 256 * leValue bytes) / 256 = leValue bytes := by omega
      simp only [List.length_cons, leBytes, leValue_cons, head, tail, ih]

theorem slice_append_left {front back : List UInt8} {offset size : Nat}
    (within : offset + size ≤ front.length) : slice (front ++ back) offset size = slice front offset size := by
  unfold slice
  rw [List.drop_append_of_le_length (by omega), List.take_append_of_le_length (by simp; omega)]

theorem slice_append_right {front back : List UInt8} {offset size : Nat}
    (beyond : front.length ≤ offset) :
    slice (front ++ back) offset size = slice back (offset - front.length) size := by
  unfold slice
  rw [List.drop_append, List.drop_eq_nil_of_le beyond, List.nil_append]

theorem slice_length {bytes : List UInt8} {offset size : Nat} (within : offset + size ≤ bytes.length) :
    (slice bytes offset size).length = size := by
  simp only [slice, List.length_take, List.length_drop]
  omega

/-- `bytes` with `new` written over it from `offset` on. -/
def overwrite (bytes : List UInt8) (offset : Nat) (new : List UInt8) : List UInt8 :=
  bytes.take offset ++ new ++ bytes.drop (offset + new.length)

theorem slice_whole {bytes : List UInt8} {size : Nat} (exact : bytes.length = size) :
    slice bytes 0 size = bytes := by
  simp [slice, ← exact]

theorem overwrite_length {bytes new : List UInt8} {offset : Nat}
    (within : offset + new.length ≤ bytes.length) :
    (overwrite bytes offset new).length = bytes.length := by
  simp only [overwrite, List.length_append, List.length_take, List.length_drop]
  omega

theorem overwrite_front {front tail new : List UInt8} {offset : Nat} (start : front.length = offset) :
    overwrite (front ++ tail) offset new = (front ++ new) ++ tail.drop new.length := by
  subst start
  simp [overwrite, List.drop_append]

theorem slice_append_slice (bytes : List UInt8) (offset first second : Nat) :
    slice bytes offset first ++ slice bytes (offset + first) second = slice bytes offset (first + second) := by
  simp only [slice, List.take_add, List.drop_drop]

theorem slice_overwrite {bytes new : List UInt8} {offset size : Nat} (exact : new.length = size)
    (within : offset + size ≤ bytes.length) : slice (overwrite bytes offset new) offset size = new := by
  have front : (bytes.take offset).length = offset := by simp; omega
  rw [overwrite, List.append_assoc, slice_append_right (by omega), front, Nat.sub_self,
    slice_append_left (by omega), slice_whole exact]

theorem slice_overwrite_before {bytes new : List UInt8} {offset start size : Nat}
    (before : start + size ≤ offset) (within : offset + new.length ≤ bytes.length) :
    slice (overwrite bytes offset new) start size = slice bytes start size := by
  have front : (bytes.take offset).length = offset := by simp; omega
  rw [overwrite, List.append_assoc, slice_append_left (by omega)]
  conv_rhs => rw [← List.take_append_drop offset bytes]
  rw [slice_append_left (by omega)]

end Xrtc.Lib
