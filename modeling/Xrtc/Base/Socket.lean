import Mathlib.Algebra.Ring.Nat
import Mathlib.Data.Int.Basic

namespace Xrtc.Base

/-- What `read` on a connection gives; no bytes means that the peer has closed. -/
inductive ReadResult
  | received (bytes : List UInt8)
  | again
  | failed
  deriving DecidableEq

/-- The system call: asked for more than `SSIZE_MAX` bytes it fails. -/
def sysRead (count : Nat) (result : ReadResult) : ReadResult := if 2 ^ 63 ≤ count then .failed else result

/-- The bytes read, `none` for the result `-1`. -/
def sockReadData : ReadResult → Option (List UInt8)
  | .received [] => none
  | .received bytes => some bytes
  | .again => some []
  | .failed => none

inductive WriteResult
  | wrote (n : Nat)
  | again
  | failed
  deriving DecidableEq

def sockWriteData : WriteResult → Int
  | .wrote n => n
  | .again => 0
  | .failed => -1

end Xrtc.Base
