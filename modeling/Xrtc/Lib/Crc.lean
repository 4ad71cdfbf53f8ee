import Mathlib.RingTheory.AdjoinRoot
import Mathlib.Algebra.Polynomial.Div
import Mathlib.Algebra.Field.ZMod
import Mathlib.RingTheory.Coprime.Lemmas
import Mathlib.RingTheory.PrincipalIdealDomain

/-!
# Cyclic redundancy checks in reflected form

A register of `w` bits is a polynomial over the field of two elements of degree below `w`: its
lowest bit is the coefficient of the highest power.  Shifting the register by one place multiplies
that polynomial by `X` modulo the generator, so a checksum is a remainder.  The word that eight
shifts make of a register depends on its low octet only, up to the bits shifted down, which is why
a table of 256 words replaces the shifts.
-/

namespace Xrtc.Lib.Crc

open Polynomial

variable {w : Nat} (poly : BitVec w)

def shift (c : BitVec w) : BitVec w :=
  if c.getLsbD 0 then poly ^^^ (c >>> 1) else c >>> 1

def feed (c : BitVec w) (u : BitVec 8) : BitVec w :=
  (shift poly)^[8] (c ^^^ u.setWidth w)

def run (c : BitVec w) (bytes : List (BitVec 8)) : BitVec w :=
  bytes.foldl (feed poly) c

section Table

variable {poly}

theorem shift_xor (a b : BitVec w) : shift poly (a ^^^ b) = shift poly a ^^^ shift poly b := by
  unfold shift
  rw [BitVec.getLsbD_xor, BitVec.ushiftRight_xor_distrib]
  ext i inside
  cases a.getLsbD 0 <;> cases b.getLsbD 0 <;> simp only [Bool.xor_false, Bool.xor_true, Bool.not_true,
    Bool.not_false, if_true, if_false, Bool.false_eq_true, BitVec.getElem_xor] <;>
    cases poly[i] <;> cases (a >>> 1)[i] <;> cases (b >>> 1)[i] <;> rfl

theorem iterate_shift_xor (n : Nat) (a b : BitVec w) :
    (shift poly)^[n] (a ^^^ b) = (shift poly)^[n] a ^^^ (shift poly)^[n] b := by
  induction n generalizing a b with
  | zero => rfl
  | succ n ih => simp only [Function.iterate_succ_apply, shift_xor, ih]

theorem iterate_shift_clear (n : Nat) (c : BitVec w) (clear : ∀ i < n, c.getLsbD i = false) :
    (shift poly)^[n] c = c >>> n := by
  induction n generalizing c with
  | zero => simp
  | succ n ih =>
      have low : shift poly c = c >>> 1 := by simp [shift, clear 0 (by omega)]
      have rest : ∀ i < n, (c >>> 1).getLsbD i = false := fun i inside => by
        rw [BitVec.getLsbD_ushiftRight]
        exact clear (1 + i) (by omega)
      rw [Function.iterate_succ_apply, low, ih _ rest, ← BitVec.shiftRight_add, Nat.add_comm]

/-- The `n` low bits of a register decide what `n` shifts add to the bits shifted down. -/
theorem iterate_shift_split (n : Nat) (c : BitVec w) :
    (shift poly)^[n] c = (shift poly)^[n] ((c.setWidth n).setWidth w) ^^^ (c >>> n) := by
  have parts : c = (c.setWidth n).setWidth w ^^^ ((c >>> n) <<< n) := by
    ext i inside
    simp only [BitVec.getElem_xor, BitVec.getElem_setWidth, BitVec.getLsbD_setWidth,
      BitVec.getElem_shiftLeft, BitVec.getElem_ushiftRight]
    by_cases low : i < n
    · simp [low, BitVec.getLsbD_eq_getElem inside]
    · simp [low, BitVec.getLsbD_eq_getElem inside, Nat.add_sub_cancel' (Nat.le_of_not_lt low)]
  have shifted : (shift poly)^[n] ((c >>> n) <<< n) = c >>> n := by
    rw [iterate_shift_clear]
    · ext i inside
      simp only [BitVec.getElem_ushiftRight, BitVec.getLsbD_shiftLeft, BitVec.getLsbD_ushiftRight]
      by_cases fits : n + i < w
      · simp [fits]
      · simp [fits, BitVec.getLsbD_of_ge c (n + i) (by omega)]
    · intro i inside
      simp [inside]
  conv_lhs => rw [parts]
  rw [iterate_shift_xor, shifted]

end Table

section Polynomials

/-- The polynomial of a register: its lowest bit is the coefficient of the highest power. -/
noncomputable def toPoly (c : BitVec w) : (ZMod 2)[X] :=
  ∑ k ∈ Finset.range w, if c.getMsbD k then X ^ k else 0

noncomputable def generator : (ZMod 2)[X] :=
  X ^ w + toPoly poly

/-- A byte string as a polynomial: the first bit sent has the highest power. -/
noncomputable def message : List (BitVec 8) → (ZMod 2)[X]
  | [] => 0
  | u :: rest => X ^ (8 * rest.length) * toPoly u + message rest

theorem coeff_toPoly (c : BitVec w) (k : Nat) :
    (toPoly c).coeff k = if c.getMsbD k then 1 else 0 := by
  have term : ∀ i, (if c.getMsbD i then (X ^ i : (ZMod 2)[X]) else 0).coeff k =
      if k = i then (if c.getMsbD k then 1 else 0) else 0 := by
    intro i
    by_cases same : k = i
    · subst same
      cases c.getMsbD k <;> simp
    · cases c.getMsbD i <;> simp [coeff_X_pow, same]
  simp only [toPoly, finsetSum_coeff, term, Finset.sum_ite_eq, Finset.mem_range]
  by_cases inside : k < w
  · simp [inside]
  · simp [inside, BitVec.getMsbD_of_ge c k (by omega)]

theorem toPoly_injective {a b : BitVec w} (same : toPoly a = toPoly b) : a = b := by
  refine BitVec.eq_of_getMsbD_eq fun k _ => ?_
  have coefficients := congrArg (fun p => p.coeff k) same
  simp only [coeff_toPoly] at coefficients
  cases first : a.getMsbD k <;> cases second : b.getMsbD k <;> simp_all

theorem toPoly_xor (a b : BitVec w) : toPoly (a ^^^ b) = toPoly a + toPoly b := by
  ext k
  rw [coeff_add, coeff_toPoly, coeff_toPoly, coeff_toPoly, BitVec.getMsbD_xor]
  cases a.getMsbD k <;> cases b.getMsbD k <;> decide

theorem degree_toPoly (c : BitVec w) : (toPoly c).degree < w := by
  rw [degree_lt_iff_coeff_zero]
  intro k outside
  rw [coeff_toPoly, BitVec.getMsbD_of_ge c k outside]
  rfl

theorem X_mul_toPoly (c : BitVec w) :
    X * toPoly c = toPoly (c >>> 1) + (if c.getLsbD 0 then X ^ w else 0) := by
  ext k
  cases k with
  | zero =>
      have empty : (if c.getLsbD 0 then (X : (ZMod 2)[X]) ^ w else 0).coeff 0 = 0 := by
        cases w with
        | zero => simp
        | succ w => cases c.getLsbD 0 <;> simp
      rw [coeff_add, empty, coeff_toPoly]
      simp [mul_comm X, BitVec.getMsbD_ushiftRight]
  | succ k =>
      rw [coeff_X_mul, coeff_add, coeff_toPoly, coeff_toPoly, BitVec.getMsbD_ushiftRight]
      obtain inside | last | outside := Nat.lt_trichotomy (k + 1) w
      · cases c.getLsbD 0 <;> simp [inside, coeff_X_pow, Nat.ne_of_lt inside]
      · subst last
        have low : c.getMsbD k = c.getLsbD 0 := by simp [BitVec.getMsbD_eq_getLsbD]
        rw [low]
        cases c.getLsbD 0 <;> simp
      · have none : c.getMsbD k = false := BitVec.getMsbD_of_ge c k (by omega)
        cases c.getLsbD 0 <;> simp [none, coeff_X_pow, Nat.ne_of_gt outside]

theorem degree_generator : (generator poly).degree = w := by
  have larger : (toPoly poly).degree < (X ^ w : (ZMod 2)[X]).degree := by
    rw [degree_X_pow]
    exact degree_toPoly poly
  rw [generator, degree_add_eq_left_of_degree_lt larger, degree_X_pow]

theorem monic_generator : (generator poly).Monic :=
  monic_X_pow_add (degree_toPoly poly)

theorem X_mul_shift (c : BitVec w) :
    X * toPoly c = toPoly (shift poly c) + (if c.getLsbD 0 then generator poly else 0) := by
  rw [X_mul_toPoly, shift]
  cases c.getLsbD 0 with
  | false => simp
  | true =>
      have twice : toPoly poly + toPoly poly = 0 := CharTwo.add_self_eq_zero _
      simp only [if_true, toPoly_xor, generator]
      linear_combination -twice

noncomputable def residue (p : (ZMod 2)[X]) : AdjoinRoot (generator poly) :=
  AdjoinRoot.mk (generator poly) p

theorem toPoly_setWidth (wide : 8 ≤ w) (u : BitVec 8) : toPoly (u.setWidth w) = X ^ (w - 8) * toPoly u := by
  ext k
  rw [coeff_X_pow_mul', coeff_toPoly, BitVec.getMsbD_setWidth, coeff_toPoly]
  by_cases low : w - 8 ≤ k
  · have place : k + 8 - w = k - (w - 8) := by omega
    simp [low, place]
  · simp [low]

theorem residue_iterate (n : Nat) (c : BitVec w) :
    residue poly (toPoly ((shift poly)^[n] c)) = residue poly (X ^ n * toPoly c) := by
  induction n generalizing c with
  | zero => simp
  | succ n ih =>
      have one : residue poly (toPoly (shift poly c)) = residue poly (X * toPoly c) := by
        rw [X_mul_shift poly c]
        cases c.getLsbD 0 <;> simp [residue]
      rw [Function.iterate_succ_apply, ih]
      simp only [residue, map_mul] at one ⊢
      rw [one, pow_succ, map_mul, mul_assoc]

theorem residue_run (wide : 8 ≤ w) (bytes : List (BitVec 8)) (c : BitVec w) :
    residue poly (toPoly (run poly c bytes)) =
      residue poly (X ^ (8 * bytes.length) * toPoly c + X ^ w * message bytes) := by
  induction bytes generalizing c with
  | nil => simp [run, message]
  | cons u rest ih =>
      have entered : residue poly (toPoly (feed poly c u)) =
          residue poly (X ^ 8 * toPoly c + X ^ w * toPoly u) := by
        have width : (X : (ZMod 2)[X]) ^ 8 * X ^ (w - 8) = X ^ w := by
          rw [← pow_add, Nat.add_sub_cancel' wide]
        rw [feed, residue_iterate, toPoly_xor, toPoly_setWidth wide, mul_add, ← mul_assoc, width]
      have next : run poly c (u :: rest) = run poly (feed poly c u) rest := rfl
      rw [next, ih]
      simp only [residue, map_add, map_mul] at entered ⊢
      rw [entered, message, List.length_cons, Nat.mul_succ, pow_add]
      simp only [map_add, map_mul]
      ring

theorem eq_mod_of_residue {p q : (ZMod 2)[X]} (same : residue poly p = residue poly q)
    (small : p.degree < w) : p = q %ₘ generator poly := by
  have monic := monic_generator poly
  have divides : generator poly ∣ p - q := AdjoinRoot.mk_eq_mk.mp same
  rw [← modByMonic_eq_of_dvd_sub monic divides, eq_comm, modByMonic_eq_self_iff monic, degree_generator]
  exact small

/-- The register after a run is the remainder of the bytes after the register it started from. -/
theorem toPoly_run (wide : 8 ≤ w) (bytes : List (BitVec 8)) (c : BitVec w) :
    toPoly (run poly c bytes) =
      (X ^ (8 * bytes.length) * toPoly c + X ^ w * message bytes) %ₘ generator poly :=
  eq_mod_of_residue poly (residue_run poly wide bytes c) (degree_toPoly _)

theorem message_append (front back : List (BitVec 8)) :
    message (front ++ back) = X ^ (8 * back.length) * message front + message back := by
  induction front with
  | nil => simp [message]
  | cons u rest ih =>
      rw [List.cons_append, message, ih, message, List.length_append, Nat.mul_add, pow_add]
      ring

theorem degree_message (bytes : List (BitVec 8)) :
    (message bytes).degree < ((8 * bytes.length : Nat) : WithBot Nat) := by
  induction bytes with
  | nil => exact WithBot.bot_lt_coe 0
  | cons u rest ih =>
      rw [message, degree_lt_iff_coeff_zero]
      intro k outside
      rw [List.length_cons] at outside
      have high : (toPoly u).coeff (k - 8 * rest.length) = 0 := by
        rw [coeff_toPoly, BitVec.getMsbD_of_ge u _ (by omega)]
        rfl
      have below : (message rest).coeff k = 0 :=
        (degree_lt_iff_coeff_zero _ _).mp ih k (by omega)
      rw [coeff_add, coeff_X_pow_mul', if_pos (by omega), high, below, add_zero]

theorem message_injective {x y : List (BitVec 8)} (length : x.length = y.length)
    (same : message x = message y) : x = y := by
  induction x generalizing y with
  | nil => exact (List.length_eq_zero_iff.mp length.symm).symm
  | cons u rest ih =>
      cases y with
      | nil => cases length
      | cons v others =>
          have shorter : rest.length = others.length := Nat.succ.inj length
          -- The first byte is the part of the message at and above the power 8 * rest.length.
          have first : toPoly u = toPoly v := by
            ext k
            have coefficients := congrArg (fun p => p.coeff (k + 8 * rest.length)) same
            have front := (degree_lt_iff_coeff_zero _ _).mp (degree_message rest)
              (k + 8 * rest.length) (by omega)
            have back := (degree_lt_iff_coeff_zero _ _).mp (degree_message others)
              (k + 8 * rest.length) (by omega)
            simpa only [message, ← shorter, coeff_add, coeff_X_pow_mul, front, back, add_zero]
              using coefficients
          rw [message, message, ← shorter, first] at same
          rw [toPoly_injective first, ih shorter (add_left_cancel same)]

theorem coprime_generator (odd : poly.getMsbD 0 = true) (positive : 0 < w) :
    IsCoprime (generator poly) X := by
  refine ((irreducible_X.coprime_iff_not_dvd).mpr fun divides => ?_).symm
  have constant := X_dvd_iff.mp divides
  rw [generator, coeff_add, coeff_toPoly, odd, coeff_X_pow, if_neg (by omega)] at constant
  exact absurd constant (by decide)

/-- Strings that differ only inside a window no wider than the register have different checksums. -/
theorem run_separates (odd : poly.getMsbD 0 = true) (wide : 8 ≤ w) (c : BitVec w)
    (front x y back : List (BitVec 8)) (length : x.length = y.length) (window : 8 * x.length ≤ w)
    (same : run poly c (front ++ x ++ back) = run poly c (front ++ y ++ back)) : x = y := by
  have residues := congrArg (fun r => residue poly (toPoly r)) same
  simp only [residue_run poly wide, List.length_append, ← length, message_append] at residues
  have divides := AdjoinRoot.mk_eq_mk.mp residues
  have factored : generator poly ∣ X ^ (w + 8 * back.length) * (message x - message y) := by
    refine divides.trans (dvd_of_eq ?_)
    rw [pow_add]
    ring
  have coprime := (coprime_generator poly odd (by omega)).pow_right (n := w + 8 * back.length)
  have difference := coprime.dvd_of_dvd_mul_left factored
  have small : (message x - message y).degree < (generator poly).degree := by
    rw [degree_generator]
    refine (degree_sub_le _ _).trans_lt (max_lt ?_ ?_)
    · exact (degree_message x).trans_le (by exact_mod_cast window)
    · exact (degree_message y).trans_le (by rw [← length]; exact_mod_cast window)
  exact message_injective length (sub_eq_zero.mp (eq_zero_of_dvd_of_degree_lt difference small))

end Polynomials

end Xrtc.Lib.Crc
