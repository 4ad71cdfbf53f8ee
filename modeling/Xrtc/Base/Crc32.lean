import Mathlib.Logic.Function.Iterate

/-!
# The checksum of a stream name

`rtc_base/crc32.cc`: a table of 256 words, made once, and one lookup for each byte.
-/

namespace Xrtc.Base.Crc32

def kCrc32Polynomial : UInt32 := 0xEDB88320

/-- The body of the inner loop of `LoadCrc32Table`. -/
def tableBit (c : UInt32) : UInt32 :=
  if c &&& 1 ≠ 0 then kCrc32Polynomial ^^^ (c >>> 1) else c >>> 1

def loadCrc32Table : Vector UInt32 256 :=
  Vector.ofFn fun i => tableBit^[8] (UInt32.ofNat i)

theorem index_lt (c : UInt32) : (c &&& 0xFF).toNat < 256 := by
  rw [UInt32.toNat_and]
  exact Nat.lt_succ_of_le Nat.and_le_right

def updateByte (c : UInt32) (u : UInt8) : UInt32 :=
  loadCrc32Table.get ⟨((c ^^^ u.toUInt32) &&& 0xFF).toNat, index_lt _⟩ ^^^ (c >>> 8)

def updateCrc32 (start : UInt32) (buf : List UInt8) : UInt32 :=
  buf.foldl updateByte (start ^^^ 0xFFFFFFFF) ^^^ 0xFFFFFFFF

def computeCrc32 (str : List UInt8) : UInt32 :=
  updateCrc32 0 str

end Xrtc.Base.Crc32
