import Xrtc.Lib.Bytes

/-!
# Heap blocks and slices of them
-/

namespace Xrtc.Base
open Lib

/-- A block of `size` bytes; what `byte` says beyond `size` is not memory of the block. -/
structure Block where
  size : Nat
  byte : Nat → UInt8

def Block.write (b : Block) (offset : Nat) (bytes : List UInt8) : Block :=
  { b with byte := fun k =>
      if offset ≤ k ∧ k < offset + bytes.length then bytes.getD (k - offset) 0 else b.byte k }

def cString (s : List UInt8) : List UInt8 := s.takeWhile (· ≠ 0)

def Block.snprintf (b : Block) (offset n : Nat) (s : List UInt8) : Block :=
  if n = 0 then b else b.write offset ((cString s).take (n - 1) ++ [0])

structure Slice where
  block : Block
  size : Nat

def Slice.Inside (s : Slice) : Prop := s.size ≤ s.block.size

def Slice.bytes (s : Slice) : List UInt8 := (List.range s.size).map s.block.byte

@[simp] theorem Slice.bytes_length (s : Slice) : s.bytes.length = s.size := by
  simp [Slice.bytes]

end Xrtc.Base
