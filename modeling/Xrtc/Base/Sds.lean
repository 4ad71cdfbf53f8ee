import Mathlib.Data.Int.Basic
import Mathlib.Tactic.NormNum

/-!
# Dynamic strings and the C integer conversions around them

`Sds.buf` is the string, so `sh->len` is its length; `sh->free` is kept as the `int` it is. The library
is built with `NDEBUG`: the assertions of `sdsIncrLen` are gone and `sh->free` wraps around. The block
may be shorter than the string after `sdsMakeRoomFor`; the `read` that comes next then fails.
-/

namespace Xrtc.Base

def toInt (n : Int) : Int := n.bmod (2 ^ 32)

def toSizeT (i : Int) : Nat := (i % 2 ^ 64).toNat

def sdsMaxPrealloc : Nat := 1024 * 1024

structure Sds where
  buf : List UInt8
  free : Int
  deriving DecidableEq

def sdsempty : Sds := ⟨[], 0⟩

def sdslen (s : Sds) : Nat := s.buf.length

def sdsavail (s : Sds) : Nat := toSizeT s.free

def sdsNewlen (len addlen : Nat) : Nat :=
  let newlen := (len + addlen) % 2 ^ 64
  if newlen < sdsMaxPrealloc then newlen * 2 else (newlen + sdsMaxPrealloc) % 2 ^ 64

/-- `none`: `zrealloc` gets no block and aborts the process. -/
def sdsMakeRoomFor (s : Sds) (addlen : Nat) : Option Sds :=
  if addlen ≤ sdsavail s then some s
  else
    let newlen := sdsNewlen (sdslen s) addlen
    -- no allocator has a block of `2^63` bytes
    if 2 ^ 63 ≤ 8 + newlen + 1 then none
    else some { s with free := toInt (newlen - sdslen s) }

/-- The size of the block of `s` after `sdsMakeRoomFor(s, addlen)`, without the header and the byte for
the nul; `size` is what it was before. -/
def sdsBlockSize (size : Nat) (s : Sds) (addlen : Nat) : Nat :=
  if addlen ≤ sdsavail s then size else sdsNewlen (sdslen s) addlen

/-- `sdsIncrLen(s, nread)` after `nread` bytes were written behind the string. `none`: `sh->len`
overflows and the nul is written outside of the block. -/
def sdsIncrLen (s : Sds) (data : List UInt8) : Option Sds :=
  if 2 ^ 31 ≤ s.buf.length + data.length then none
  else some ⟨s.buf ++ data, toInt (s.free - data.length)⟩

def sdsIncrLenAsserts (s : Sds) (incr : Nat) : Prop :=
  (incr : Int) ≤ s.free ∧ 0 ≤ toInt (s.free - incr)

/-! ## The conversions -/

theorem toInt_of_lt {n : Nat} (small : n < 2 ^ 31) : toInt n = n := by
  unfold toInt
  rw [Int.bmod_eq_of_le] <;> omega

theorem toInt_of_le {n : Nat} (large : 2 ^ 31 ≤ n) (bound : n < 2 ^ 32) : toInt n = (n : Int) - 2 ^ 32 := by
  unfold toInt
  rw [Int.bmod_def]
  split <;> omega

theorem toInt_sub (n : Int) (m : Nat) : toInt (toInt n - m) = toInt (n - m) := by
  unfold toInt
  exact Int.bmod_sub_bmod

theorem toSizeT_of_lt {i : Int} (nonneg : 0 ≤ i) (small : i < 2 ^ 64) : (toSizeT i : Int) = i := by
  unfold toSizeT
  rw [Int.emod_eq_of_lt nonneg small]
  omega

theorem toSizeT_toInt {n : Nat} (small : n < 2 ^ 31) : toSizeT (toInt n) = n := by
  have back := toSizeT_of_lt (i := (n : Int)) (by omega) (by omega)
  rw [toInt_of_lt small]
  exact_mod_cast back

/-- From `2^31` on, the way through `int` and back gives more than a `read` can be asked for. -/
theorem toSizeT_toInt_huge {n : Nat} (large : 2 ^ 31 ≤ n) (bound : n < 2 ^ 32) :
    2 ^ 63 ≤ toSizeT (toInt n) := by
  rw [toSizeT, toInt_of_le large bound]
  omega

/-! ## Room for more bytes -/

theorem sdsNewlen_of_lt {len addlen : Nat} (short : len + addlen < sdsMaxPrealloc) :
    sdsNewlen len addlen = (len + addlen) * 2 := by
  unfold sdsNewlen sdsMaxPrealloc at *
  have exact : (len + addlen) % 2 ^ 64 = len + addlen := by omega
  simp only [exact, if_pos short]

theorem sdsNewlen_of_le {len addlen : Nat} (long : sdsMaxPrealloc ≤ len + addlen)
    (small : len + addlen < 2 ^ 32) : sdsNewlen len addlen = len + addlen + sdsMaxPrealloc := by
  unfold sdsNewlen sdsMaxPrealloc at *
  have exact : (len + addlen) % 2 ^ 64 = len + addlen := by omega
  simp only [exact, if_neg (Nat.not_lt.2 long)]
  omega

theorem sdsNewlen_bounds (len addlen : Nat) (small : len + addlen < 2 ^ 32) :
    len + addlen ≤ sdsNewlen len addlen ∧ sdsNewlen len addlen ≤ len + addlen + sdsMaxPrealloc := by
  by_cases less : len + addlen < sdsMaxPrealloc
  · rw [sdsNewlen_of_lt less]
    omega
  · rw [sdsNewlen_of_le (Nat.not_lt.1 less) small]
    omega

theorem sdsMakeRoomFor_buf {s s' : Sds} {addlen : Nat} (room : sdsMakeRoomFor s addlen = some s') :
    s'.buf = s.buf := by
  unfold sdsMakeRoomFor at room
  dsimp only at room
  split_ifs at room <;> exact Option.some.inj room ▸ rfl

theorem sdsMakeRoomFor_some (s : Sds) (addlen : Nat) (small : sdslen s + addlen < 2 ^ 32) :
    ∃ s', sdsMakeRoomFor s addlen = some s' := by
  unfold sdsMakeRoomFor
  split
  · exact ⟨s, rfl⟩
  · have bound := (sdsNewlen_bounds _ _ small).2
    unfold sdsMaxPrealloc at bound
    dsimp only
    rw [if_neg (by omega)]
    exact ⟨_, rfl⟩

theorem sdsIncrLen_of_lt {s : Sds} {data : List UInt8} (short : s.buf.length + data.length < 2 ^ 31) :
    sdsIncrLen s data = some ⟨s.buf ++ data, toInt (s.free - data.length)⟩ :=
  if_neg (by omega)

theorem sdsIncrLen_inv {s s' : Sds} {data : List UInt8} (grown : sdsIncrLen s data = some s') :
    s'.buf = s.buf ++ data ∧ s.buf.length + data.length < 2 ^ 31 := by
  unfold sdsIncrLen at grown
  split_ifs at grown with long
  rw [← Option.some.inj grown]
  exact ⟨rfl, Nat.not_le.1 long⟩

theorem sdsIncrLen_of_le {s : Sds} {data : List UInt8} (long : 2 ^ 31 ≤ s.buf.length + data.length) :
    sdsIncrLen s data = none :=
  if_pos long

/-! ## The block behind a string -/

/-- The block of `s` holds `size` bytes, and `sh->free` is what is left of it, as an `int`. -/
structure Sds.Backed (s : Sds) (size : Nat) : Prop where
  holds : sdslen s ≤ size
  small : size < sdslen s + 2 ^ 32
  free : s.free = toInt (size - sdslen s)

theorem sdsempty_backed : sdsempty.Backed 0 := ⟨by decide, by decide, by decide⟩

theorem Sds.Backed.room {s : Sds} {size : Nat} (backed : s.Backed size) :
    s.free = toInt ((size - sdslen s : Nat) : Int) := by
  rw [backed.free]
  have := backed.holds
  congr 1
  omega

theorem Sds.Backed.avail_iff {s : Sds} {size addlen : Nat} (backed : s.Backed size)
    (int : addlen < 2 ^ 31) : addlen ≤ sdsavail s ↔ sdslen s + addlen ≤ size := by
  have holds := backed.holds
  have small := backed.small
  rw [sdsavail, backed.room]
  by_cases fits : size - sdslen s < 2 ^ 31
  · rw [toSizeT_toInt fits]
    omega
  · have huge := toSizeT_toInt_huge (Nat.not_lt.1 fits) (by omega)
    omega

theorem Sds.Backed.blockSize {s : Sds} {size addlen : Nat} (backed : s.Backed size) (int : addlen < 2 ^ 31) :
    sdsBlockSize size s addlen =
      if sdslen s + addlen ≤ size then size else sdsNewlen (sdslen s) addlen := by
  rw [sdsBlockSize, if_congr (backed.avail_iff int) rfl rfl]

/-- `sh->free` counts the room exactly when it fits an `int`. -/
theorem Sds.Backed.free_iff {s : Sds} {size addlen : Nat} (backed : s.Backed size)
    (enough : sdslen s + addlen ≤ size) : (addlen : Int) ≤ s.free ↔ size < sdslen s + 2 ^ 31 := by
  have small := backed.small
  rw [backed.room]
  by_cases fits : size - sdslen s < 2 ^ 31
  · rw [toInt_of_lt fits]
    omega
  · rw [toInt_of_le (Nat.not_lt.1 fits) (by omega)]
    omega

theorem Sds.Backed.asserts {s : Sds} {size incr : Nat} (backed : s.Backed size)
    (enough : sdslen s + incr ≤ size) (int : size < sdslen s + 2 ^ 31) : sdsIncrLenAsserts s incr := by
  have holds := backed.holds
  have fits := (backed.free_iff enough).2 int
  refine ⟨fits, ?_⟩
  have exact : s.free - incr = ((size - sdslen s - incr : Nat) : Int) := by
    rw [backed.room, toInt_of_lt (by omega)]
    omega
  rw [exact, toInt_of_lt (by omega)]
  exact Int.natCast_nonneg _

theorem sdsMakeRoomFor_backed {s s' : Sds} {size addlen : Nat} (backed : s.Backed size)
    (short : sdslen s < 2 ^ 31) (int : addlen < 2 ^ 31) (made : sdsMakeRoomFor s addlen = some s') :
    s'.Backed (sdsBlockSize size s addlen) ∧ sdslen s + addlen ≤ sdsBlockSize size s addlen := by
  unfold sdsMakeRoomFor at made
  unfold sdsBlockSize
  split at made
  · next enough =>
      rw [if_pos enough, ← Option.some.inj made]
      exact ⟨backed, (backed.avail_iff int).1 enough⟩
  · next little =>
      have bounds := sdsNewlen_bounds (sdslen s) addlen (by omega)
      unfold sdsMaxPrealloc at bounds
      dsimp only at made
      rw [if_neg (by omega)] at made
      rw [if_neg little, ← Option.some.inj made]
      refine ⟨⟨?_, ?_, rfl⟩, bounds.1⟩
      · change sdslen s ≤ _
        omega
      · change _ < sdslen s + _
        omega

theorem sdsIncrLen_backed {s s' : Sds} {size : Nat} {data : List UInt8} (backed : s.Backed size)
    (fits : sdslen s + data.length ≤ size) (grown : sdsIncrLen s data = some s') : s'.Backed size := by
  unfold sdsIncrLen at grown
  split_ifs at grown
  rw [← Option.some.inj grown]
  have len : sdslen ⟨s.buf ++ data, toInt (s.free - data.length)⟩ = sdslen s + data.length :=
    List.length_append
  have := backed.small
  refine ⟨by rwa [len], by rw [len]; omega, ?_⟩
  rw [len, backed.free, toInt_sub]
  push_cast
  congr 1
  omega

end Xrtc.Base
