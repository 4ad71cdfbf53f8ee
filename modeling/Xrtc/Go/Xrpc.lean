import Xrtc.Lib.Bytes

/-!
# The xrpc package of the Go signaling server

A reader is the list of the chunks its `Read` calls return; after the last one it is at its end.
-/

namespace Xrtc.Go
open Lib

inductive Panic
  | indexOutOfRange
  | nilDereference
  deriving DecidableEq

def HEADER_SIZE : Nat := 36

def HEADER_MAGICNUM : UInt32 := 0xfb202202

structure Header where
  id : UInt16 := 0
  version : UInt16 := 0
  logId : UInt32 := 0
  provider : Vector UInt8 16 := Vector.replicate 16 0
  magicNum : UInt32 := 0
  reserved : UInt32 := 0
  bodyLen : UInt32 := 0
  deriving DecidableEq

def Header.marshal (h : Header) (b : List UInt8) : Except String (List UInt8) :=
  if b.length < HEADER_SIZE then .error "no enough buffer for header"
  else
    let b := overwrite b 0 (leBytes 2 h.id.toNat)
    let b := overwrite b 2 (leBytes 2 h.version.toNat)
    let b := overwrite b 4 (leBytes 4 h.logId.toNat)
    let b := overwrite b 8 h.provider.toList
    let b := overwrite b 24 (leBytes 4 h.magicNum.toNat)
    let b := overwrite b 28 (leBytes 4 h.reserved.toNat)
    .ok (overwrite b 32 (leBytes 4 h.bodyLen.toNat))

def Header.unMarshal (b : List UInt8) : Except String Header :=
  if b.length < HEADER_SIZE then .error "incomplete header"
  else .ok
    { id := UInt16.ofNat (leValue (slice b 0 2))
      version := UInt16.ofNat (leValue (slice b 2 2))
      logId := UInt32.ofNat (leValue (slice b 4 4))
      provider := Vector.ofFn fun i => (slice b 8 16).getD i 0
      magicNum := UInt32.ofNat (leValue (slice b 24 4))
      reserved := UInt32.ofNat (leValue (slice b 28 4))
      bodyLen := UInt32.ofNat (leValue (slice b 32 4)) }

/-! `Marshal` and `UnMarshal` once more, statement by statement on the memory they write to; an error
leaves the memory as it is at the `return`. -/

structure Operands where
  h : Header
  b : List UInt8
  deriving DecidableEq

namespace Operands

def put (offset : Nat) (bytes : Header → List UInt8) : EStateM String Operands Unit :=
  modify fun o => { o with b := overwrite o.b offset (bytes o.h) }

def assign (field : Header → List UInt8 → Header) : EStateM String Operands Unit :=
  modify fun o => { o with h := field o.h o.b }

end Operands

open Operands in
def Header.marshalInPlace : EStateM String Operands Unit := do
  if (← get).b.length < HEADER_SIZE then throw "no enough buffer for header"
  put 0 fun h => leBytes 2 h.id.toNat
  put 2 fun h => leBytes 2 h.version.toNat
  put 4 fun h => leBytes 4 h.logId.toNat
  put 8 fun h => h.provider.toList
  put 24 fun h => leBytes 4 h.magicNum.toNat
  put 28 fun h => leBytes 4 h.reserved.toNat
  put 32 fun h => leBytes 4 h.bodyLen.toNat

open Operands in
def Header.unMarshalInPlace : EStateM String Operands Unit := do
  if (← get).b.length < HEADER_SIZE then throw "incomplete header"
  assign fun h b => { h with id := UInt16.ofNat (leValue (slice b 0 2)) }
  assign fun h b => { h with version := UInt16.ofNat (leValue (slice b 2 2)) }
  assign fun h b => { h with logId := UInt32.ofNat (leValue (slice b 4 4)) }
  assign fun h b => { h with provider := Vector.ofFn fun i => (slice b 8 16).getD i 0 }
  assign fun h b => { h with magicNum := UInt32.ofNat (leValue (slice b 24 4)) }
  assign fun h b => { h with reserved := UInt32.ofNat (leValue (slice b 28 4)) }
  assign fun h b => { h with bodyLen := UInt32.ofNat (leValue (slice b 32 4)) }

def Header.write (h : Header) : Except String (List UInt8) :=
  h.marshal (List.replicate HEADER_SIZE 0)

inductive BodyReader
  | absent
  | bytes (content : List UInt8)
  | other

/-- `body` is what is left of the reader, `none` for the nil interface. -/
structure Request where
  header : Header
  body : Option (List UInt8)

/-- The body is the reader cut off by `LimitReader` at `BodyLen`; `none` is the nil request. -/
def newRequest (body : BodyReader) (logId : UInt32) : Option Request :=
  let header : Header := { logId := logId, magicNum := HEADER_MAGICNUM }
  match body with
  | .absent => some ⟨header, none⟩
  | .bytes content =>
      let bodyLen := UInt32.ofNat content.length
      some ⟨{ header with bodyLen := bodyLen }, some (content.take bodyLen.toNat)⟩
  | .other => none

inductive WriteError
  | marshal (text : String)
  /-- `io.Copy` panics on a nil reader. -/
  | nilBody
  deriving DecidableEq

def Request.write (r : Request) : Except WriteError (List UInt8) :=
  match r.header.write with
  | .error text => .error (.marshal text)
  | .ok header =>
      match r.body with
      | none => .error .nilBody
      | some body => .ok (header ++ body)

abbrev Reader := List (List UInt8)

inductive ReadError
  | eof
  | unexpectedEof
  | unmarshal (text : String)
  | invalidMagicNum (magicNum : UInt32)
  deriving DecidableEq

/-- `io.ReadFull` into a buffer of `n` bytes, `got` of which are there already. -/
def readFull (n : Nat) (got : List UInt8) : Reader → Except ReadError (List UInt8 × Reader)
  | [] =>
      if n ≤ got.length then .ok (got, [])
      else .error (if got.isEmpty then .eof else .unexpectedEof)
  | chunk :: rest =>
      if n ≤ got.length then .ok (got, chunk :: rest)
      else if chunk.length ≤ n - got.length then readFull n (got ++ chunk) rest
      else .ok (got ++ chunk.take (n - got.length), chunk.drop (n - got.length) :: rest)

def Header.read (r : Reader) : Except ReadError (Header × Reader) :=
  match readFull HEADER_SIZE [] r with
  | .error e => .error e
  | .ok (buf, r) =>
      match Header.unMarshal buf with
      | .error text => .error (.unmarshal text)
      | .ok h => .ok (h, r)

structure Response where
  header : Header
  body : List UInt8
  deriving DecidableEq

def readResponse (r : Reader) : Except ReadError (Response × Reader) :=
  match Header.read r with
  | .error e => .error e
  | .ok (header, r) =>
      if header.magicNum ≠ HEADER_MAGICNUM then .error (.invalidMagicNum header.magicNum)
      else
        match readFull header.bodyLen.toNat [] r with
        | .error e => .error e
        | .ok (body, r) => .ok (⟨header, body⟩, r)

end Xrtc.Go
