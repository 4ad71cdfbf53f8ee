import Xrtc.Lib.Machine
import Xrtc.Server.SignalingWorker

/-!
# The table of connections

What each operation of the worker does to `lookup`.
-/

namespace Xrtc.Proof.Table
open Server Base Lib

variable {conns : List (Option ConnPtr)} {fd fd' : Int} {c : ConnPtr}

theorem lookup_inRange (held : lookup conns fd = some c) : 0 ≤ fd ∧ fd.toNat < conns.length := by
  unfold lookup at held
  split at held
  · cases held
  · next nonneg =>
      refine ⟨Int.not_lt.1 nonneg, ?_⟩
      by_contra outside
      simp [List.getElem?_eq_none (Nat.not_lt.1 outside)] at held

theorem lookup_set_self (nonneg : 0 ≤ fd) (within : fd.toNat < conns.length) (entry : Option ConnPtr) :
    lookup (conns.set fd.toNat entry) fd = entry := by
  simp [lookup, Int.not_lt.2 nonneg, within]

theorem lookup_set_ne (nonneg : 0 ≤ fd) (other : fd' ≠ fd) (entry : Option ConnPtr) :
    lookup (conns.set fd.toNat entry) fd' = lookup conns fd' := by
  unfold lookup
  split
  · rfl
  · rw [List.getElem?_set_ne (by omega)]

theorem lookup_grow (n : Nat) : lookup (conns ++ List.replicate n none) fd = lookup conns fd := by
  unfold lookup
  split
  · rfl
  · rw [List.getElem?_append]
    split
    · rfl
    · next outside =>
        rw [List.getElem?_eq_none (Nat.not_lt.1 outside), List.getElem?_replicate]
        split <;> rfl

theorem lookup_set (held : lookup conns fd = some c) (entry : Option ConnPtr) :
    lookup (conns.set fd.toNat entry) = Function.update (lookup conns) fd entry := by
  obtain ⟨nonneg, within⟩ := lookup_inRange held
  funext fd'
  by_cases same : fd' = fd
  · subst same
    rw [Function.update_self]
    exact lookup_set_self nonneg within _
  · rw [Function.update_of_ne same]
    exact lookup_set_ne nonneg same _

theorem lookup_added (nonneg : 0 ≤ fd) (entry : ConnPtr) :
    lookup ((conns ++ List.replicate (fd.toNat + 1 - conns.length) none).set fd.toNat (some entry)) =
      Function.update (lookup conns) fd (some entry) := by
  funext fd'
  by_cases same : fd' = fd
  · subst same
    rw [Function.update_self]
    exact lookup_set_self nonneg (by simp; omega) _
  · rw [Function.update_of_ne same, lookup_set_ne nonneg same, lookup_grow]

theorem offerTarget_held {W : Type} {w : SignalingWorker} {msg : RtcMsg W}
    (target : w.offerTarget msg = some c) : lookup w.conns msg.fd = some c := by
  unfold SignalingWorker.offerTarget at target
  split at target
  · cases target
  · split at target
    · cases target
    · split at target
      · cases target
      · next held =>
          split at target
          · cases target
          · cases target
            exact held

theorem responseServerOffer_inv {V W : Type} {json : Json V} {w w' : SignalingWorker} {msg : RtcMsg W}
    {mem : Nat → UInt8} (offered : w.responseServerOffer json msg mem = .ok w') :
    (w.offerTarget msg = none ∧ w' = w) ∨
      ∃ c reply, w.offerTarget msg = some c ∧ w.addReply c reply = .ok w' := by
  unfold SignalingWorker.responseServerOffer at offered
  cases target : w.offerTarget msg with
  | none =>
      rw [target] at offered
      cases offered
      exact .inl ⟨rfl, rfl⟩
  | some c =>
      rw [target] at offered
      exact .inr ⟨c, _, rfl, offered⟩

theorem lookup_addReply {w w' : SignalingWorker} {reply : Slice} (held : lookup w.conns fd = some c)
    (cfd : c.obj.cfd = fd) (added : w.addReply c reply = .ok w') :
    lookup w'.conns = Function.update (lookup w.conns) fd
      (some { c with obj := { c.obj with replyList := c.obj.replyList ++ [reply] } }) := by
  rw [← lookup_set held, ← cfd]
  obtain ⟨el, -, added⟩ := bind_eq_ok added
  cases added
  rfl

end Xrtc.Proof.Table
