import Xrtc.Go.Selector
import Xrtc.Go.Xrpc
import Xrtc.Lib.BufWriter

/-!
# The xrpc client

`net.DialTimeout` and the connection behind it are the parameter `Network`: whatever the peer and the
deadlines do to a connection is in the `Peer` it behaves like.
-/

namespace Xrtc.Go
open Lib

abbrev Duration := Int

def millisecond : Duration := 1000000

def defaultConnectTimeout : Duration := 100 * millisecond
def defaultReadTimeout : Duration := 500 * millisecond
def defaultWriteTimeout : Duration := 500 * millisecond

structure Client (A : Type) where
  ConnectTimeout : Duration
  ReadTimeout : Duration
  WriteTimeout : Duration
  selector : RoundRobinSelector A

/-- The error of `SetServer` is not looked at. -/
def newClient {A : Type} (resolve : String → Except String A) (servers : List String) : Client A :=
  let selector :=
    match RoundRobinSelector.setServer resolve servers .new with
    | .ok _ ss => ss
    | .error _ ss => ss
  ⟨0, 0, 0, selector⟩

namespace Client

variable {A : Type}

def configured (timeout byDefault : Duration) : Duration := if timeout = 0 then byDefault else timeout

def connectTimeout (c : Client A) : Duration := configured c.ConnectTimeout defaultConnectTimeout
def readTimeout (c : Client A) : Duration := configured c.ReadTimeout defaultReadTimeout
def writeTimeout (c : Client A) : Duration := configured c.WriteTimeout defaultWriteTimeout

end Client

inductive NetError
  | eof
  | timeout
  | failed (text : String)
  deriving DecidableEq

structure Peer where
  sink : Sink NetError
  stream : Reader
  ends : NetError

/-- A dialled connection behaves according to its read and its write timeout. -/
structure Network (A : Type) where
  dial : A → Duration → Except NetError (Duration → Duration → Peer)

inductive DoError
  | text (message : String)
  | net (e : NetError)
  | read (e : ReadError)
  | panic (p : Panic)
  deriving DecidableEq

def defaultBufSize : Nat := 4096

/-- `Request.Write` on the buffered connection: the header only goes to the empty buffer, and `io.Copy`
calls `ReadFrom` of the buffered writer. -/
def Request.writeTo (r : Request) (peer : Peer) : Except DoError (BufWriter UInt8) :=
  match r.header.write with
  | .error text => .error (.text text)
  | .ok header =>
      match r.body with
      | none => .error (.panic .nilDereference)
      | some body => ((⟨[], header⟩ : BufWriter UInt8).readFrom defaultBufSize peer.sink body).mapError .net

/-- `io.ReadFull` turns the end of the stream into its own error only if it is `io.EOF`. -/
def endsWith (ends : NetError) : ReadError → DoError
  | .eof => if ends = .eof then .read .eof else .net ends
  | .unexpectedEof => if ends = .eof then .read .unexpectedEof else .net ends
  | e => .read e

/-- The connections that were opened, each with the number of times it was closed. -/
abbrev Ledger := List Nat

namespace Client

variable {A : Type}

def pickServer : Picked A → EStateM DoError Ledger A
  | .addr a => pure a
  | .err text => throw (.text text)
  | .indexOutOfRange => throw (.panic .indexOutOfRange)

def dialTimeout (net : Network A) (addr : A) (timeout : Duration) :
    EStateM DoError Ledger (Nat × (Duration → Duration → Peer)) :=
  match net.dial addr timeout with
  | .error e => throw (.net e)
  | .ok connected => do
      let nc := (← get).length
      modify (· ++ [0])
      return (nc, connected)

def close (nc : Nat) : EStateM DoError Ledger Unit := modify fun ledger => ledger.modify nc (· + 1)

def write (req : Option Request) (peer : Peer) : EStateM DoError Ledger (BufWriter UInt8) :=
  match req with
  | none => throw (.panic .nilDereference)
  | some r =>
      match r.writeTo peer with
      | .error e => throw e
      | .ok w => pure w

def flush (peer : Peer) (w : BufWriter UInt8) : EStateM DoError Ledger Unit :=
  match w.flush peer.sink with
  | .error e => throw (.net e)
  | .ok _ => pure ()

def read (peer : Peer) : EStateM DoError Ledger Response :=
  match readResponse peer.stream with
  | .error e => throw (endsWith peer.ends e)
  | .ok (resp, _) => pure resp

/-- `picked` is what `PickServer` returned. -/
def Do (net : Network A) (c : Client A) (picked : Picked A) (req : Option Request) :
    EStateM DoError Ledger Response := do
  let addr ← pickServer picked
  let (nc, connected) ← dialTimeout net addr c.connectTimeout
  let peer := connected c.readTimeout c.writeTimeout
  let rw ← write req peer
  flush peer rw
  let resp ← read peer
  close nc
  return resp

end Client

end Xrtc.Go
