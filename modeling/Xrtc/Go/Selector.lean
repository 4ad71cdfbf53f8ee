/-!
# The server selector of the xrpc client

`A` are the addresses. `net.ResolveTCPAddr` is the parameter `resolve`, which can answer differently
in each call.
-/

namespace Xrtc.Go

structure RoundRobinSelector (A : Type) where
  addrs : List A
  curIndex : Nat
  deriving DecidableEq

inductive Picked (A : Type)
  | addr (a : A)
  | err (text : String)
  | indexOutOfRange
  deriving DecidableEq

namespace RoundRobinSelector

variable {A : Type}

def new : RoundRobinSelector A := ⟨[], 0⟩

/-- The error is its text. -/
def setServer (resolve : String → Except String A) (servers : List String) :
    EStateM String (RoundRobinSelector A) Unit := do
  if servers.length = 0 then throw "servers is nil"
  match servers.mapM resolve with
  | .error err => throw err
  | .ok addrs => modify fun rrs => { rrs with addrs := addrs }

def pickLocked (rrs : RoundRobinSelector A) : RoundRobinSelector A × Nat :=
  let index := rrs.curIndex
  let curIndex := rrs.curIndex + 1
  let curIndex := if rrs.addrs.length ≤ curIndex then 0 else curIndex
  ({ rrs with curIndex := curIndex }, index)

def pickRLocked (rrs : RoundRobinSelector A) (index : Nat) : Picked A :=
  if rrs.addrs.length = 0 then .err "no server to pick"
  else
    match rrs.addrs[index]? with
    | none => .indexOutOfRange
    | some a => .addr a

end RoundRobinSelector

/-! ## Concurrent callers -/

/-- A call of `PickServer` that has left its first section: its `index` and, after the second
section, the list it found there and what it returned. -/
structure PickCall (A : Type) where
  index : Nat
  result : Option (List A × Picked A)
  deriving DecidableEq

structure Selecting (A : Type) where
  rrs : RoundRobinSelector A
  calls : List (PickCall A)
  deriving DecidableEq

/-- `SetServer` touches the selector in one section only. A panic ends its call and no other. -/
inductive SelectorLabel (A : Type)
  | setServer (resolve : String → Except String A) (servers : List String)
  | lock
  | rlock (call : Nat)

def Selecting.step {A : Type} (s : Selecting A) : SelectorLabel A → Option (Selecting A)
  | .setServer resolve servers =>
      match RoundRobinSelector.setServer resolve servers s.rrs with
      | .ok _ rrs => some { s with rrs := rrs }
      | .error _ rrs => some { s with rrs := rrs }
  | .lock =>
      let (rrs, index) := s.rrs.pickLocked
      some ⟨rrs, s.calls ++ [⟨index, none⟩]⟩
  | .rlock i =>
      match s.calls[i]? with
      | some ⟨index, none⟩ =>
          some { s with calls := s.calls.set i ⟨index, some (s.rrs.addrs, s.rrs.pickRLocked index)⟩ }
      | _ => none

end Xrtc.Go
