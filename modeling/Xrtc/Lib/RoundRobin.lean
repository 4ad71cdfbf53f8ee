import Mathlib.Data.Int.CardIntervalMod

/-!
# A round-robin cursor

The cursor is read, advanced, and set back to 0 when it has reached the number of places.
-/

namespace Xrtc.Lib.RoundRobin

variable {n i j k : Nat}

def advance (n i : Nat) : Nat := if n ≤ i + 1 then 0 else i + 1

theorem advance_lt (positive : 0 < n) (i : Nat) : advance n i < n := by
  unfold advance
  split <;> omega

theorem advance_eq_zero (short : n ≤ 1) (i : Nat) : advance n i = 0 := by
  unfold advance
  split <;> omega

theorem advance_mod (positive : 0 < n) (k : Nat) : advance n (k % n) = (k + 1) % n := by
  have inside := Nat.mod_lt k positive
  rw [← Nat.mod_add_mod]
  unfold advance
  split
  · next last =>
      have least : k % n + 1 = n := by omega
      rw [least, Nat.mod_self]
  · next further => exact (Nat.mod_eq_of_lt (by omega)).symm

/-- The places that `k` picks choose, of a cursor that was at 0 before pick 0; the first is pick `a`. -/
def picks (n a k : Nat) : List Nat := (List.range' a k).map (· % n)

theorem picks_length (n a k : Nat) : (picks n a k).length = k := by
  rw [picks, List.length_map, List.length_range']

theorem picks_cons (n a k : Nat) : picks n a (k + 1) = a % n :: picks n (a + 1) k := rfl

theorem picks_append (n a k m : Nat) : picks n a k ++ picks n (a + k) m = picks n a (k + m) := by
  rw [picks, picks, picks, ← List.map_append, ← List.range'_append_1]

theorem picks_succ (n a k : Nat) : picks n a (k + 1) = picks n a k ++ [(a + k) % n] :=
  (picks_append n a k 1).symm

theorem getElem?_picks {n k i : Nat} (inside : i < k) : (picks n 0 k)[i]? = some (i % n) := by
  rw [picks, List.getElem?_map, ← List.range_eq_range', List.getElem?_range inside]
  rfl

theorem window_picks {n a k m : Nat} (within : a + k ≤ m) :
    ((picks n 0 m).drop a).take k = picks n a k := by
  have before := picks_append n 0 a (m - a)
  have after := picks_append n a k (m - a - k)
  rw [Nat.zero_add, Nat.add_sub_cancel' (by omega)] at before
  rw [Nat.add_sub_cancel' (by omega)] at after
  rw [← before, List.drop_left' (picks_length n 0 a), ← after, List.take_left' (picks_length n a k)]

theorem count_picks_eq (inside : j < n) (k : Nat) :
    (picks n 0 k).count j = Nat.count (· ≡ j [MOD n]) k := by
  induction k with
  | zero => rfl
  | succ k ih =>
      have same : k % n = j ↔ k ≡ j [MOD n] := by rw [Nat.ModEq, Nat.mod_eq_of_lt inside]
      rw [picks_succ, List.count_append, ih, Nat.count_succ, List.count_singleton, Nat.zero_add]
      simp only [beq_iff_eq, same]

/-- Each place is chosen once a round, and the places before the cursor once more. -/
theorem count_picks (inside : j < n) (k : Nat) :
    (picks n 0 k).count j = k / n + if j < k % n then 1 else 0 := by
  rw [count_picks_eq inside, Nat.count_modEq_card _ (Nat.zero_lt_of_lt inside), Nat.mod_eq_of_lt inside]

theorem count_picks_fair (inside : j < n) (k : Nat) :
    (picks n 0 k).count j = k / n ∨ (picks n 0 k).count j = (k + n - 1) / n := by
  rw [count_picks inside]
  split
  · next ahead =>
      right
      have split := Nat.div_add_mod k n
      have small := Nat.mod_lt k (Nat.zero_lt_of_lt inside)
      have rounds : (k / n + 1) * n = n * (k / n) + n := by ring
      symm
      rw [Nat.div_eq_iff (Nat.zero_lt_of_lt inside), rounds]
      omega
  · exact .inl rfl

/-- Any `k` rounds in a row, wherever they begin, choose each place `k` times. -/
theorem count_rounds (inside : j < n) (a k : Nat) : (picks n a (k * n)).count j = k := by
  have positive := Nat.zero_lt_of_lt inside
  have whole := congrArg (List.count j) (picks_append n 0 a (k * n))
  rw [Nat.zero_add, List.count_append, count_picks inside, count_picks inside,
    Nat.add_mul_div_right _ _ positive, Nat.add_mul_mod_self_right] at whole
  omega

end Xrtc.Lib.RoundRobin
