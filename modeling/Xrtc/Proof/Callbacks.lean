import Xrtc.Proof.Watchers
import Xrtc.Server.Pipeline

/-!
# What the callbacks do to the table

Only `new_conn` and `remove_conn` change which connection is in which slot; every other callback of a
signaling worker is `Still`.
-/

namespace Xrtc.Proof.Callbacks
open Server Base Lib Table Watchers

variable {V : Type} {n m : Nat}

structure Identity where
  addr : Nat
  origin : Nat
  cfd : Int
  deriving DecidableEq

def identity (c : ConnPtr) : Identity := ⟨c.addr, c.origin, c.obj.cfd⟩

def slot (w : SignalingWorker) (fd : Int) : Option Identity := (lookup w.conns fd).map identity

theorem slot_of_lookup {w : SignalingWorker} {fd : Int} {c : ConnPtr} (held : lookup w.conns fd = some c) :
    slot w fd = some (identity c) := by
  rw [slot, held, Option.map_some]

theorem slot_update {w w' : SignalingWorker} {fd : Int} {entry : Option ConnPtr}
    (updated : lookup w'.conns = Function.update (lookup w.conns) fd entry) :
    slot w' = Function.update (slot w) fd (entry.map identity) := by
  funext fd'
  by_cases same : fd' = fd
  · subst same
    simp [slot, updated]
  · simp [slot, updated, same]

theorem slot_kept {w w' : SignalingWorker} {fd : Int} {c c' : ConnPtr} (held : lookup w.conns fd = some c)
    (same : identity c' = identity c)
    (updated : lookup w'.conns = Function.update (lookup w.conns) fd (some c')) : slot w' = slot w := by
  rw [slot_update updated, Option.map_some, same, ← slot_of_lookup held, Function.update_eq_self]

theorem slot_store {w : SignalingWorker} {fd : Int} {c : ConnPtr} (held : lookup w.conns fd = some c)
    {obj : TcpConnection} (same : SameIds c.obj obj) :
    slot (w.store fd { c with obj := obj }) = slot w :=
  slot_kept held (by rw [identity, identity, same.cfd]) (lookup_set held _)

theorem newConn_nonneg {w w' : SignalingWorker} {cfd : Int} {addr origin now : Nat}
    (registered : w.newConn cfd addr origin now = .ok w') : 0 ≤ cfd := by
  by_contra negative
  have created : (w.el.createIoEvent IOWatcher.blank).2 = w.el.fresh := rfl
  simp [SignalingWorker.newConn, created, startIoEvent_created, Int.not_le.1 negative,
    bind, Except.bind, throw, throwThe, MonadExceptOf.throw] at registered

theorem lookup_of_slot {w : SignalingWorker} {fd : Int} (free : slot w fd = none) :
    lookup w.conns fd = none := Option.map_eq_none_iff.1 free

theorem slot_newConn {w w' : SignalingWorker} {cfd : Int} {addr origin now : Nat}
    (registered : w.newConn cfd addr origin now = .ok w') :
    slot w' = Function.update (slot w) cfd (some ⟨addr, origin, cfd⟩) := by
  have nonneg := newConn_nonneg registered
  rw [newConn_eq nonneg] at registered
  have updated : lookup w'.conns = Function.update (lookup w.conns) cfd
      (some ⟨addr, origin, TcpConnection.new cfd w.el.fresh (w.el.fresh + 1) now⟩) := by
    cases registered
    exact lookup_added nonneg _
  exact slot_update updated

theorem slot_removeConn {w w' : SignalingWorker} {fd : Int} {c : ConnPtr}
    (held : lookup w.conns fd = some c) (cfd : c.obj.cfd = fd) (removed : w.removeConn c = .ok w') :
    slot w' = Function.update (slot w) fd none := by
  have conns : w'.conns = w.conns.set fd.toNat none := by
    obtain ⟨el, -, removed⟩ := bind_eq_ok removed
    obtain ⟨el', -, removed⟩ := bind_eq_ok removed
    split at removed
    · cases removed
    · cases removed
      rw [cfd]
  have updated : lookup w'.conns = Function.update (lookup w.conns) fd none := by
    rw [conns]
    exact lookup_set held none
  exact slot_update updated

theorem slot_responseServerOffer {json : Json V} {W : Type} {w w' : SignalingWorker} {msg : RtcMsg W}
    {mem : Nat → UInt8} (cfd : ∀ fd c, lookup w.conns fd = some c → c.obj.cfd = fd)
    (offered : w.responseServerOffer json msg mem = .ok w') : slot w' = slot w := by
  obtain ⟨-, rfl⟩ | ⟨c, reply, target, added⟩ := responseServerOffer_inv offered
  · rfl
  · have held := offerTarget_held target
    apply slot_kept held _ (lookup_addReply held (cfd _ _ held) added)
    rfl

/-- The descriptor of the `c` that a callback works on. -/
def target : Pc → Option Int
  | .querying fd _ => some fd
  | .sending fd _ => some fd
  | .closing fd _ => some fd
  | .removing fd _ => some fd
  | _ => none

/-- The `c` of a callback is `conns_[fd]`. -/
def Attached (a : Agent) : Prop := ∀ fd, target a.pc = some fd → lookup a.worker.conns fd ≠ none

theorem attached_of_none {a : Agent} (nothing : target a.pc = none) : Attached a := by
  intro fd working
  rw [nothing] at working
  cases working

theorem attached_of_held {a : Agent} {fd : Int} {c : ConnPtr} (held : lookup a.worker.conns fd = some c)
    (working : target a.pc = some fd) : Attached a := by
  intro fd' working'
  rw [working, Option.some.injEq] at working'
  simp [← working', held]

theorem target_afterRead (fd : Int) (write : Bool) : target (Pc.afterRead fd write) = none := by
  cases write <;> rfl

/-- A callback that leaves every connection in its slot, with its watchers, and is not between `close` and
`remove_conn`. -/
structure Still (a a' : Agent) : Prop where
  slot_eq : slot a'.worker = slot a.worker
  before : ∀ fd write, a.pc ≠ .removing fd write
  after : ∀ fd write, a'.pc ≠ .removing fd write
  wired : Wired a.worker → Wired a'.worker
  attached : Attached a'

section Still

variable {a a' : Agent}

theorem afterRead_ne_removing (fd : Int) (write : Bool) (fd' : Int) (write' : Bool) :
    Pc.afterRead fd write ≠ .removing fd' write' := by
  cases write <;> simp [Pc.afterRead]

theorem store_still {fd : Int} {c : ConnPtr} {obj : TcpConnection} {pc : Pc}
    (held : lookup a.worker.conns fd = some c) (same : SameIds c.obj obj)
    (before : ∀ fd write, a.pc ≠ .removing fd write) (after : ∀ fd write, pc ≠ .removing fd write)
    (working : target pc = some fd) : Still a ⟨a.worker.store fd { c with obj := obj }, pc⟩ := by
  refine ⟨slot_store held same, before, after, fun wired => storeObj_wired wired _ held same, ?_⟩
  apply attached_of_held (c := { c with obj := obj }) _ working
  rw [SignalingWorker.store, lookup_set held, Function.update_self]

theorem move_still {pc : Pc} (before : ∀ fd write, a.pc ≠ .removing fd write)
    (after : ∀ fd write, pc ≠ .removing fd write) (attached : Attached { a with pc := pc }) :
    Still a { a with pc := pc } :=
  ⟨rfl, before, after, id, attached⟩

theorem afterRead_still (fd : Int) (write : Bool) (before : ∀ fd write, a.pc ≠ .removing fd write) :
    Still a { a with pc := .afterRead fd write } :=
  move_still before (afterRead_ne_removing fd write) (attached_of_none (target_afterRead fd write))

theorem afterFill_still {fd : Int} {write : Bool} {c : ConnPtr} {filled : Option (TcpConnection × Bool)}
    (held : lookup a.worker.conns fd = some c) (same : ∀ obj close, filled = some (obj, close) →
      SameIds c.obj obj) (before : ∀ fd write, a.pc ≠ .removing fd write)
    (ran : a.afterFill fd write c filled = .ok a') : Still a a' := by
  match filled with
  | none => cases ran
  | some (obj, close) =>
      cases ran
      apply store_still held (same obj close rfl) before
      · cases close <;> simp
      · cases close <;> rfl

theorem connIoCb_still {fd : Int} {read : Option ReadResult} {write : Bool} {now : Nat}
    (idle : a.pc = .loop) (ran : a.connIoCb fd read write now = .ok a') : Still a a' := by
  have before : ∀ fd write, a.pc ≠ .removing fd write := by simp [idle]
  have skipped := afterRead_still fd write before
  unfold Agent.connIoCb at ran
  cases read with
  | none =>
      cases ran
      exact skipped
  | some result =>
      cases held : lookup a.worker.conns fd with
      | none =>
          simp only [held, Except.ok.injEq] at ran
          rw [← ran]
          exact skipped
      | some c =>
          simp only [held] at ran
          exact afterFill_still held (fun obj close filled => fill_sameIds filled) before ran

theorem query_still {json : Json V} {i : Fin n} {asked : Option (RtcMsg (Fin n) × Nat)}
    (ran : a.query json i = some (a', asked)) : Still a a' := by
  unfold Agent.query at ran
  split at ran
  · next fd write at_pc =>
      have before : ∀ fd write, a.pc ≠ .removing fd write := by simp [at_pc]
      split at ran
      · cases ran
      · next c held =>
          split at ran
          · cases ran
            exact afterRead_still fd write before
          · cases ran
            exact move_still before (by simp) (attached_of_held held rfl)
          · next obj step =>
              cases ran
              exact store_still held (queryStep_sameIds step) before before (by rw [at_pc]; rfl)
          · split at ran
            · cases ran
              exact move_still before (by simp) (attached_of_held held rfl)
            · cases ran
              exact store_still held ⟨rfl, rfl, rfl⟩ before before (by rw [at_pc]; rfl)
            · cases ran
              exact move_still before (by simp) (attached_of_held held rfl)
  · cases ran

theorem sent_still {ok : Bool} (ran : a.sent ok = some a') : Still a a' := by
  unfold Agent.sent at ran
  split at ran
  · next fd write at_pc =>
      have before : ∀ fd write, a.pc ≠ .removing fd write := by simp [at_pc]
      split at ran
      · cases ran
      · next c held =>
          split at ran
          · cases ran
            exact store_still held ⟨rfl, rfl, rfl⟩ before (by simp) rfl
          · cases ran
            exact move_still before (by simp) (attached_of_held held rfl)
  · cases ran

theorem writeReply_still {results : List WriteResult} {now : Nat}
    (ran : a.writeReply results now = some (.ok a')) : Still a a' := by
  unfold Agent.writeReply at ran
  split at ran
  · next fd at_pc =>
      have before : ∀ fd write, a.pc ≠ .removing fd write := by simp [at_pc]
      split at ran
      · cases ran
        exact move_still before (by simp) (attached_of_none rfl)
      · split at ran
        · cases ran
          exact move_still before (by simp) (attached_of_none rfl)
        · next c held =>
            split at ran
            · cases ran
            · next obj wrote =>
                cases ran
                exact store_still held (writeLoop_sameIds wrote) before (by simp) rfl
            · next obj wrote =>
                have same := idle_sameIds wrote now
                -- whatever becomes of the watcher, the object is stored back
                have stored (el : EventLoop) (stopped : (if obj.replyList.isEmpty then
                      a.worker.el.stopIoEvent obj.ioWatcher obj.cfd Mask.WRITE else .ok a.worker.el) = .ok el)
                    (ends : a' = ⟨{ a.worker with el := el }.store fd
                      { c with obj := { obj with lastInteraction := now } }, .loop⟩) : Still a a' := by
                  rw [ends]
                  refine ⟨slot_store (w := { a.worker with el := el }) held same, before, by simp,
                    fun wired => ?_, attached_of_none rfl⟩
                  obtain ⟨el', stopped', wired'⟩ := idle_wired wired held same
                  cases stopped'.symm.trans stopped
                  exact wired'
                simp only [Option.some.injEq] at ran
                split at ran
                · next empty =>
                    obtain ⟨el, stopped, ran⟩ := bind_eq_ok ran
                    exact stored el (by rw [if_pos empty, stopped]) (Except.ok.inj ran).symm
                · next pending => exact stored a.worker.el (if_neg pending) (Except.ok.inj ran).symm
  · cases ran

theorem processTimeout_still {timeout : Int} {cfd : Int} {now : Nat} (idle : a.pc = .loop)
    (ran : a.processTimeout timeout cfd now = .ok a') : Still a a' := by
  have before : ∀ fd write, a.pc ≠ .removing fd write := by simp [idle]
  unfold Agent.processTimeout at ran
  split at ran
  · cases ran
  · next c held =>
      split at ran
      · cases ran
        exact move_still before (by simp) (attached_of_held held rfl)
      · cases ran
        exact ⟨rfl, before, before, id, attached_of_none (by rw [idle]; rfl)⟩

theorem query_asked {json : Json V} {i : Fin n} {msg : RtcMsg (Fin n)} {origin : Nat}
    (ran : a.query json i = some (a', some (msg, origin))) :
    ∃ fd c params header, lookup a.worker.conns fd = some c ∧
      msg = pushMsg params header i c.addr c.obj.cfd ∧ origin = c.origin := by
  unfold Agent.query at ran
  split at ran
  · next fd write _ =>
      split at ran
      · cases ran
      · next c held =>
          split at ran
          · cases ran
          · cases ran
          · cases ran
          · next header body _ =>
              split at ran
              · cases ran
              · cases ran
              · next params _ =>
                  cases ran
                  exact ⟨fd, c, params, header, held, rfl, rfl⟩
  · cases ran

theorem close_inv {c : ConnPtr} (ran : a.close = some (a', c)) :
    ∃ fd write, a.pc = .closing fd write ∧ lookup a.worker.conns fd = some c ∧
      a' = { a with pc := .removing fd write } := by
  unfold Agent.close at ran
  split at ran
  · next fd write at_pc =>
      split at ran
      · cases ran
      · next held =>
          cases ran
          exact ⟨fd, write, at_pc, held, rfl⟩
  · cases ran

theorem remove_inv (ran : a.remove = some (.ok a')) :
    ∃ fd write c worker, a.pc = .removing fd write ∧ lookup a.worker.conns fd = some c ∧
      a.worker.removeConn c = .ok worker ∧ a' = ⟨worker, .afterRead fd write⟩ := by
  unfold Agent.remove at ran
  split at ran
  · next fd write at_pc =>
      split at ran
      · cases ran
      · next c held =>
          obtain ⟨worker, removed, ran⟩ := bind_eq_ok (Option.some.inj ran)
          exact ⟨fd, write, c, worker, at_pc, held, removed, (Except.ok.inj ran).symm⟩
  · cases ran

/-! ## Messages in the hands of a worker -/

theorem connIoCb_quiet {fd : Int} {read : Option ReadResult} {write : Bool} {now : Nat}
    (ran : a.connIoCb fd read write now = .ok a') (fd' : Int) (write' : Bool) : a'.pc ≠ .sending fd' write' := by
  have skipped : Pc.afterRead fd write ≠ .sending fd' write' := by cases write <;> simp [Pc.afterRead]
  unfold Agent.connIoCb at ran
  split at ran
  · cases ran
    exact skipped
  · split at ran
    · cases ran
      exact skipped
    · next c _ =>
        cases filled : c.obj.fill _ now with
        | none =>
            rw [filled] at ran
            cases ran
        | some pair =>
            rw [filled] at ran
            cases ran
            dsimp only
            split <;> simp

theorem processTimeout_quiet {timeout cfd : Int} {now : Nat} (idle : a.pc = .loop)
    (ran : a.processTimeout timeout cfd now = .ok a') (fd : Int) (write : Bool) : a'.pc ≠ .sending fd write := by
  unfold Agent.processTimeout at ran
  split at ran
  · cases ran
  · split at ran
    · cases ran
      simp
    · cases ran
      simp [idle]

theorem writeReply_quiet {results : List WriteResult} {now : Nat}
    (ran : a.writeReply results now = some (.ok a')) :
    (∃ fd, a.pc = .replying fd) ∧ ∀ fd write, a'.pc ≠ .sending fd write := by
  unfold Agent.writeReply at ran
  split at ran
  · next fd at_pc =>
      refine ⟨⟨fd, at_pc⟩, ?_⟩
      split at ran
      · cases ran
        simp
      · split at ran
        · cases ran
          simp
        · split at ran
          · cases ran
          · cases ran
            simp
          · next obj _ =>
              simp only [Option.some.injEq] at ran
              split at ran
              · obtain ⟨el, -, ran⟩ := bind_eq_ok ran
                cases ran
                simp
              · simp [← Except.ok.inj ran]
  · cases ran

theorem sent_quiet {ok : Bool} (ran : a.sent ok = some a') (fd : Int) (write : Bool) :
    a'.pc ≠ .sending fd write := by
  unfold Agent.sent at ran
  split at ran
  · split at ran
    · cases ran
    · split at ran
      · cases ran
        simp
      · cases ran
        simp
  · cases ran

theorem query_quiet {json : Json V} {i : Fin n} (ran : a.query json i = some (a', none)) :
    (∃ fd write, a.pc = .querying fd write) ∧ ∀ fd write, a'.pc ≠ .sending fd write := by
  unfold Agent.query at ran
  split at ran
  · next fd write at_pc =>
      refine ⟨⟨fd, write, at_pc⟩, ?_⟩
      split at ran
      · cases ran
      · split at ran
        · cases ran
          cases write <;> simp [Pc.afterRead]
        · cases ran
          simp
        · cases ran
          simp [at_pc]
        · split at ran
          · cases ran
            simp
          · cases ran
            simp [at_pc]
          · cases ran
  · cases ran

theorem query_sending {json : Json V} {i : Fin n} {asked : RtcMsg (Fin n) × Nat}
    (ran : a.query json i = some (a', some asked)) : ∃ fd write, a'.pc = .sending fd write := by
  unfold Agent.query at ran
  split at ran
  · next fd write _ =>
      split at ran
      · cases ran
      · split at ran
        · cases ran
        · cases ran
        · cases ran
        · split at ran
          · cases ran
          · cases ran
          · cases ran
            exact ⟨fd, write, rfl⟩
  · cases ran

end Still

end Xrtc.Proof.Callbacks
