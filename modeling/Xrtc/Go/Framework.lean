import Xrtc.Go.Client
import Xrtc.Go.ConfigRead
import Xrtc.Go.Push

/-!
# Starting the Go signaling server

`Init` of the package `framework`, which reads the configuration and makes the clients of the services. What
it tells `glog` and prints is left out.
-/

namespace Xrtc.Go
open Lib Lib.Strings Lib.Printf

/-! ## The strconv package -/

/-- The fast path of `Atoi` returns what `ParseInt` does. -/
def atoi (s : Str) : Except NumErr Int :=
  let negative := s.head? = some 0x2d
  let digits := if s.head? = some 0x2d ∨ s.head? = some 0x2b then s.drop 1 else s
  match parseUint digits with
  | .error err => .error err
  | .ok n =>
      if negative then if n.toNat ≤ 2 ^ 63 then .ok (-(n.toNat : Int)) else .error .outOfRange
      else if n.toNat < 2 ^ 63 then .ok n.toNat else .error .outOfRange

def parseBool (s : Str) : Except NumErr Bool :=
  if s ∈ [text "1", text "t", text "T", text "true", text "TRUE", text "True"] then .ok true
  else if s ∈ [text "0", text "f", text "F", text "false", text "FALSE", text "False"] then .ok false
  else .error .invalid

/-! ## The configuration -/

inductive InitError
  | load (err : LoadError)
  | get (err : GetError)
  | other (err : GoError)
  deriving DecidableEq

/-- `none` is a call that does not return. -/
abbrev Starting := ExceptT InitError Option

namespace ConfigFile

variable (c : ConfigFile) (fuel : Nat)

def valueOf (name key : String) : Starting Str :=
  ExceptT.mk ((c.getValue fuel (text name) (text key)).map (Except.mapError .get))

def bool (name key : String) : Starting Bool := do
  let value ← c.valueOf fuel name key
  ExceptT.mk (some ((parseBool value).mapError fun err => .other (.num value err)))

def int (name key : String) : Starting Int := do
  let value ← c.valueOf fuel name key
  ExceptT.mk (some ((atoi value).mapError fun err => .other (.num value err)))

end ConfigFile

structure FrameworkConf where
  logDir : Str
  logFile : Str
  logLevel : Str
  logToStderr : Bool
  httpPort : Int
  httpStaticDir : Str
  httpStaticPrefix : Str
  httpsPort : Int
  httpsCert : Str
  httpsKey : Str
  deriving DecidableEq

def readConf (c : ConfigFile) (fuel : Nat) : Starting FrameworkConf := do
  let logDir ← c.valueOf fuel "log" "logDir"
  let logFile ← c.valueOf fuel "log" "logFile"
  let logLevel ← c.valueOf fuel "log" "logLevel"
  let logToStderr ← c.bool fuel "log" "logToStderr"
  let httpPort ← c.int fuel "http" "port"
  let httpStaticDir ← c.valueOf fuel "http" "staticDir"
  let httpStaticPrefix ← c.valueOf fuel "http" "staticPrefix"
  let httpsPort ← c.int fuel "https" "port"
  let httpsCert ← c.valueOf fuel "https" "cert"
  let httpsKey ← c.valueOf fuel "https" "key"
  return ⟨logDir, logFile, logLevel, logToStderr, httpPort, httpStaticDir, httpStaticPrefix, httpsPort, httpsCert,
    httpsKey⟩

def loadConf (disk : Disk) (fuel : Nat) (confFile : Str) : Starting (ConfigFile × FrameworkConf) := do
  let configFile ← ExceptT.mk (some ((loadConfigFile disk confFile []).mapError .load))
  let conf ← readConf configFile fuel
  return (configFile, conf)

/-! ## The clients -/

def serverName (s : Str) : String := String.ofList (s.map Char.ofUInt8)

def serverList (values : Str) : List String := (values.splitOn 0x2c).map fun server => serverName (trimSpace server)

/-- The product is one of `int64`. -/
def milliseconds (n : Int) : Duration := (n * millisecond).bmod (2 ^ 64)

/-- A timeout that is no number is not looked at. -/
def timeout (keys : Str → Option Str) (key : String) (unset : Duration) : Duration :=
  match keys (text key) with
  | none => unset
  | some values =>
      match atoi values with
      | .error _ => unset
      | .ok n => milliseconds n

abbrev Clients (A : Type) := Str → Option (Client A)

section

variable {A : Type} (resolve : Str → String → Except String A)

def sectionClient (name : Str) (keys : Str → Option Str) (values : Str) : Client A :=
  let client := newClient (resolve name) (serverList values)
  { client with
    ConnectTimeout := timeout keys "connectTimeout" client.ConnectTimeout
    ReadTimeout := timeout keys "readTimeout" client.ReadTimeout
    WriteTimeout := timeout keys "writeTimeout" client.WriteTimeout }

def loadSections (c : ConfigFile) : List Str → Clients A → Clients A × Option InitError
  | [], clients => (clients, none)
  | name :: rest, clients =>
      if (text "xrpc.").isPrefixOf name then
        match c.getSection name with
        | .error err => (clients, some (.get err))
        | .ok keys =>
            match keys (text "server") with
            | none => (clients, some (.other (.text "no server field in config file")))
            | some values =>
                loadSections c rest (Function.update clients name (some (sectionClient resolve name keys values)))
      else loadSections c rest clients

def loadXrpc (c : ConfigFile) (clients : Clients A) : Clients A × Option InitError :=
  loadSections resolve c c.getSectionList clients

/-- With the clients that there are in the end. -/
def init (disk : Disk) (fuel : Nat) (confFile : Str) : Starting (FrameworkConf × Clients A) := do
  let (configFile, conf) ← loadConf disk fuel confFile
  match loadXrpc resolve configFile fun _ => none with
  | (clients, none) => return (conf, clients)
  | (_, some err) => throw err

def serviceClient (clients : Clients A) (serviceName : Str) : Option (Client A) :=
  clients (text "xrpc." ++ serviceName)

end

end Xrtc.Go
