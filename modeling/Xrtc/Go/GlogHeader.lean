import Xrtc.Go.Glog

/-!
# The header of a log line

`formatHeader` writes into the 64 bytes `tmp` of a buffer that is used again and again. What is in them at the
start is an argument; a severity beyond `fatalLog` does not exist.
-/

namespace Xrtc.Go.Glog
open Lib Lib.Printf

def Severity.char : Severity → UInt8
  | debugLog => 0x44
  | infoLog => 0x49
  | warningLog => 0x57
  | errorLog => 0x45
  | fatalLog => 0x46

def digit (d : Nat) : UInt8 := UInt8.ofNat (0x30 + d % 10)

def twoDigits (tmp : Str) (i d : Nat) : Str := (tmp.set (i + 1) (digit d)).set i (digit (d / 10))

/-- The first loop of `nDigits`; `j` is one more than in the source. -/
def digitLoop (i : Nat) : (j d : Nat) → (tmp : Str) → Str × Nat
  | 0, _, tmp => (tmp, 0)
  | j + 1, d, tmp => if 0 < d then digitLoop i j (d / 10) (tmp.set (i + j) (digit d)) else (tmp, j + 1)

def padLoop (i : Nat) (pad : UInt8) : (j : Nat) → (tmp : Str) → Str
  | 0, tmp => tmp
  | j + 1, tmp => padLoop i pad j (tmp.set (i + j) pad)

def nDigits (tmp : Str) (n i d : Nat) (pad : UInt8) : Str :=
  let (tmp, j) := digitLoop i n d tmp
  padLoop i pad j tmp

/-- The loop of `someDigits`, from the end of `tmp`; it is left before the front of `tmp`. -/
def topLoop : (j d : Nat) → (tmp : Str) → Str × Nat
  | 0, _, tmp => (tmp, 0)
  | j + 1, d, tmp =>
      let tmp := tmp.set j (digit d)
      if d / 10 = 0 then (tmp, j) else topLoop j (d / 10) tmp

def copyAt (tmp : Str) (i : Nat) (source : Str) : Str × Nat :=
  let n := min (tmp.length - i) source.length
  (tmp.take i ++ source.take n ++ tmp.drop (i + n), n)

def someDigits (tmp : Str) (i d : Nat) : Str × Nat :=
  let (tmp, j) := topLoop tmp.length d tmp
  copyAt tmp i (tmp.drop j)

structure HeaderArgs where
  severity : Severity
  month : Nat
  day : Nat
  hour : Nat
  minute : Nat
  second : Nat
  nanosecond : Nat
  pid : Nat
  file : Str
  line : Int

def writeFront (tmp : Str) (args : HeaderArgs) : Str :=
  let tmp := tmp.set 0 args.severity.char
  let tmp := twoDigits tmp 1 args.month
  let tmp := twoDigits tmp 3 args.day
  let tmp := tmp.set 5 0x20
  let tmp := twoDigits tmp 6 args.hour
  let tmp := tmp.set 8 0x3a
  let tmp := twoDigits tmp 9 args.minute
  let tmp := tmp.set 11 0x3a
  let tmp := twoDigits tmp 12 args.second
  let tmp := tmp.set 14 0x2e
  let tmp := nDigits tmp 6 15 (args.nanosecond / 1000) 0x30
  let tmp := tmp.set 21 0x20
  let tmp := nDigits tmp 7 22 args.pid 0x20
  tmp.set 29 0x20

/-- The header, and the bytes that are left in `tmp`. -/
def formatHeader (tmp : Str) (args : HeaderArgs) : Str × Str :=
  let line := if args.line < 0 then 0 else args.line.toNat
  let tmp := writeFront tmp args
  let bytes := tmp.take 30 ++ args.file
  let tmp := tmp.set 0 0x3a
  let (tmp, n) := someDigits tmp 1 line
  let tmp := tmp.set (n + 1) 0x5d
  let tmp := tmp.set (n + 2) 0x20
  (bytes ++ tmp.take (n + 3), tmp)

def headers (tmp : Str) : List HeaderArgs → List Str
  | [] => []
  | args :: rest => (formatHeader tmp args).1 :: headers (formatHeader tmp args).2 rest

end Xrtc.Go.Glog
