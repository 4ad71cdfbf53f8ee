import Xrtc.Lib.Bytes

namespace Xrtc.Base
open Lib

def xheadSize : Nat := 36

def xheadMagicNum : UInt32 := 0xfb202202

structure Xhead where
  id : UInt16
  version : UInt16
  logId : UInt32
  provider : Vector UInt8 16
  magicNum : UInt32
  reserved : UInt32
  bodyLen : UInt32
  deriving DecidableEq

structure Member where
  size : Nat
  align : Nat

/-- The offsets of members from `start` on, each at the next multiple of its alignment, and the first
byte behind them. -/
def layout : (start : Nat) → List Member → List Nat × Nat
  | start, [] => ([], start)
  | start, m :: members =>
      let offset := (start + m.align - 1) / m.align * m.align
      let (offsets, size) := layout (offset + m.size) members
      (offset :: offsets, size)

def Xhead.members : List Member := [⟨2, 2⟩, ⟨2, 2⟩, ⟨4, 4⟩, ⟨16, 1⟩, ⟨4, 4⟩, ⟨4, 4⟩, ⟨4, 4⟩]

/-- The bytes of a buffer read in place as `xhead_t` on a little-endian host. -/
def Xhead.view (buf : List UInt8) : Xhead where
  id := UInt16.ofNat (leValue (slice buf 0 2))
  version := UInt16.ofNat (leValue (slice buf 2 2))
  logId := UInt32.ofNat (leValue (slice buf 4 4))
  provider := Vector.ofFn fun i => (slice buf 8 16).getD i 0
  magicNum := UInt32.ofNat (leValue (slice buf 24 4))
  reserved := UInt32.ofNat (leValue (slice buf 28 4))
  bodyLen := UInt32.ofNat (leValue (slice buf 32 4))

def Xhead.member (buf : List UInt8) (i : Nat) : List UInt8 :=
  slice buf ((layout 0 members).1.getD i 0) ((members.map Member.size).getD i 0)

/-- `xhead_t` read in place, with the offsets that the layout gives. -/
def Xhead.inPlace (buf : List UInt8) : Xhead where
  id := UInt16.ofNat (leValue (member buf 0))
  version := UInt16.ofNat (leValue (member buf 1))
  logId := UInt32.ofNat (leValue (member buf 2))
  provider := Vector.ofFn fun i => (member buf 3).getD i 0
  magicNum := UInt32.ofNat (leValue (member buf 4))
  reserved := UInt32.ofNat (leValue (member buf 5))
  bodyLen := UInt32.ofNat (leValue (member buf 6))

theorem Xhead.inPlace_eq_view (buf : List UInt8) : Xhead.inPlace buf = Xhead.view buf := rfl

theorem Xhead.layout_size : (layout 0 Xhead.members).2 = xheadSize := by decide

theorem Xhead.view_append {front back : List UInt8} (long : xheadSize ≤ front.length) :
    Xhead.view (front ++ back) = Xhead.view front := by
  have within : 36 ≤ front.length := long
  simp (disch := omega) only [Xhead.view, slice_append_left]

theorem Xhead.view_slice {buf : List UInt8} (long : xheadSize ≤ buf.length) :
    Xhead.view (slice buf 0 xheadSize) = Xhead.view buf := by
  have front : (slice buf 0 xheadSize).length = xheadSize := slice_length (by omega)
  conv_rhs => rw [← List.take_append_drop xheadSize buf]
  rw [Xhead.view_append (by simpa using long)]
  rfl

theorem Xhead.view_setBodyLen {buf : List UInt8} (long : xheadSize ≤ buf.length) (n : UInt32) :
    Xhead.view (overwrite buf 32 (leBytes 4 n.toNat)) = { Xhead.view buf with bodyLen := n } := by
  have within : 36 ≤ buf.length := long
  have read : UInt32.ofNat (leValue (leBytes 4 n.toNat)) = n := by
    rw [leValue_leBytes (by simpa using n.toNat_lt), UInt32.ofNat_toNat]
  simp (disch := (simp; try omega)) only [Xhead.view, slice_overwrite_before, slice_overwrite, read]

end Xrtc.Base
