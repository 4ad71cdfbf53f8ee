import Xrtc.Proof.Changes

/-!
# The idle timeout

The loop's clock is the wall clock: the readings of a run come in any order.
-/

namespace Xrtc.Proof.Timeout
open Server Base Lib Table Watchers Changes

/-- A worker and, for each descriptor, the reading at the last `new_conn`, `read_query` or
`write_reply` for it. The readings are taken from the events, not from the connections. -/
structure Clocked where
  host : Host
  stored : Int → Nat

namespace Clocked

/-- `write_reply` returns at once for descriptor 0. -/
def stamp {W : Type} (s : Clocked) : WorkerEvent W → Int → Nat
  | .newConn cfd _ _ now => Function.update s.stored cfd now
  | .io watcher read write now =>
      match s.host.worker.el.io watcher with
      | none => s.stored
      | some w =>
          if read.isSome ∨ write.isSome ∧ 0 < w.fd then Function.update s.stored w.fd now else s.stored
  | _ => s.stored

def step {V W : Type} (json : Json V) (timeout : Int) (s : Clocked) (e : WorkerEvent W) : Option Clocked :=
  (s.host.step json timeout e).map fun host => ⟨host, s.stamp e⟩

end Clocked

def reading {W : Type} : WorkerEvent W → Option Nat
  | .newConn _ _ _ now => some now
  | .io _ _ _ now => some now
  | .timer _ now => some now
  | _ => none

/-- `EventLoop::now` returns an `unsigned long`. -/
def Admits {W : Type} (s : Clocked) (e : WorkerEvent W) : Prop :=
  Watchers.Admits s.host e ∧ ∀ now, reading e = some now → now < 2 ^ 64

def admitted {W : Type} (s : Clocked) (e : WorkerEvent W) : Bool :=
  Watchers.admitted s.host e && (reading e).all (· < 2 ^ 64)

theorem admits_of_admitted {W : Type} (s : Clocked) (e : WorkerEvent W) (passed : admitted s e = true) :
    Admits s e := by
  obtain ⟨host, bounded⟩ := Bool.and_eq_true_iff.1 passed
  refine ⟨Watchers.admits_of_admitted _ _ host, fun now isNow => ?_⟩
  rw [isNow] at bounded
  exact of_decide_eq_true bounded

/-! ## What the callbacks store -/

def lastOf (w : SignalingWorker) (fd : Int) : Option Nat :=
  (lookup w.conns fd).map (·.obj.lastInteraction)

theorem lastOf_update {w w' : SignalingWorker} {fd : Int} {entry : Option ConnPtr}
    (changed : lookup w'.conns = Function.update (lookup w.conns) fd entry) :
    lastOf w' = Function.update (lastOf w) fd (entry.map (·.obj.lastInteraction)) := by
  funext fd'
  unfold lastOf
  rw [changed]
  by_cases here : fd' = fd
  · rw [here, Function.update_self, Function.update_self]
  · rw [Function.update_of_ne here, Function.update_of_ne here]

def Touched (fd : Int) (now : Nat) (w w' : SignalingWorker) : Prop :=
  ∃ last, (last = none ∨ last = some now) ∧ lastOf w' = Function.update (lastOf w) fd last

theorem Touched.trans {fd : Int} {now : Nat} {w₁ w₂ w₃ : SignalingWorker} (first : Touched fd now w₁ w₂)
    (second : Touched fd now w₂ w₃) : Touched fd now w₁ w₃ := by
  obtain ⟨_, -, changed₁⟩ := first
  obtain ⟨last, isNow, changed₂⟩ := second
  exact ⟨last, isNow, by rw [changed₂, changed₁, Function.update_idem]⟩

theorem touched_empty {fd : Int} {now : Nat} {w : SignalingWorker} (empty : lookup w.conns fd = none) :
    Touched fd now w w := by
  have unused : lastOf w fd = none := by rw [lastOf, empty]; rfl
  exact ⟨lastOf w fd, .inl unused, (Function.update_eq_self fd _).symm⟩

theorem touched_set {fd : Int} {now : Nat} {w w' : SignalingWorker} {c : ConnPtr}
    (changed : lookup w'.conns = Function.update (lookup w.conns) fd (some c))
    (isNow : c.obj.lastInteraction = now) : Touched fd now w w' :=
  ⟨some now, .inr rfl, isNow ▸ lastOf_update changed⟩

theorem closeConn_lastOf {h h' : Host} {fd : Int} {c c' : ConnPtr} (wired : Wired h.worker)
    (held : lookup h.worker.conns fd = some c) (ids : SameIds c.obj c'.obj)
    (closed : h.closeConn c' = .ok h') : lastOf h'.worker = Function.update (lastOf h.worker) fd none := by
  obtain ⟨w', removed, -, emptied⟩ := removeConn_wired wired held ids
  obtain rfl := Except.ok.inj (removed.symm.trans (closeConn_inv closed))
  exact lastOf_update emptied

theorem touched_closed {h h' : Host} {fd : Int} {now : Nat} {c c' : ConnPtr} (wired : Wired h.worker)
    (held : lookup h.worker.conns fd = some c) (ids : SameIds c.obj c'.obj)
    (closed : h.closeConn c' = .ok h') : Touched fd now h.worker h'.worker :=
  ⟨none, .inl rfl, closeConn_lastOf wired held ids closed⟩

theorem readQuery_touched {h h' : Host} {fd : Int} {input : ReadInput} {now : Nat} (wired : Wired h.worker)
    (done : h.readQuery fd input now = some (.ok h')) : Touched fd now h.worker h'.worker := by
  cases readQuery_outcome done with
  | missing empty unchanged =>
      cases unchanged
      exact touched_empty empty
  | broken faults => cases faults
  | closed held same closes => exact touched_closed wired held same closes
  | @stored c obj obj' ret calls held filled processed stores =>
      cases stores
      have kept : obj'.lastInteraction = obj.lastInteraction := by
        have same : obj' = _ := process_same processed
        rw [same]
      have stored : obj.lastInteraction = now := by rw [Framing.fill_same filled]
      exact touched_set (lookup_set held _) (kept.trans stored)

theorem writeReply_touched {h h' : Host} {fd : Int} {results : List WriteResult} {now : Nat}
    (wired : Wired h.worker) (positive : 0 < fd) (done : h.writeReply fd results now = some (.ok h')) :
    Touched fd now h.worker h'.worker := by
  obtain ⟨missing, rfl⟩ | ⟨-, c, obj, held, loop, closed⟩ | ⟨-, c, obj, el, held, loop, -, rfl⟩ :=
    writeReply_outcome done
  · exact touched_empty (missing.resolve_left (Int.not_le.2 positive))
  · exact touched_closed wired held (writeLoop_sameIds loop) closed
  · exact touched_set (lookup_set held _) rfl

theorem connIoCb_touched {h h' : Host} {fd : Int} {read : Option ReadInput}
    {write : Option (List WriteResult)} {now : Nat} (consistent : Consistent h)
    (stores : read.isSome ∨ write.isSome ∧ 0 < fd) (done : h.connIoCb fd read write now = some (.ok h')) :
    Touched fd now h.worker h'.worker := by
  unfold Host.connIoCb at done
  split at done
  · next h₁ first =>
      have consistent₁ : Consistent h₁ := readable_safe consistent first
      cases read with
      | none =>
          cases first
          obtain ⟨some_write, positive⟩ := stores.resolve_left (by simp)
          obtain ⟨results, rfl⟩ := Option.isSome_iff_exists.1 some_write
          exact writeReply_touched consistent.toWired positive done
      | some input =>
          have touched := readQuery_touched consistent.toWired first
          cases write with
          | none =>
              cases done
              exact touched
          | some results =>
              -- the read may have closed the connection; `write_reply` then finds the slot empty
              by_cases positive : 0 < fd
              · exact touched.trans (writeReply_touched consistent₁.toWired positive done)
              · simp only [Host.writeReply, if_pos (Int.not_lt.1 positive)] at done
                cases done
                exact touched
  · next result failed => exact absurd done (failed h')

theorem connIoCb_idle {h h' : Host} {fd : Int} {read : Option ReadInput}
    {write : Option (List WriteResult)} {now : Nat} (idle : ¬ (read.isSome ∨ write.isSome ∧ 0 < fd))
    (done : h.connIoCb fd read write now = some (.ok h')) : h' = h := by
  obtain ⟨noRead, noWrite⟩ := not_or.1 idle
  obtain rfl := Option.not_isSome_iff_eq_none.1 noRead
  cases write with
  | none =>
      cases done
      rfl
  | some results =>
      have zero : fd ≤ 0 := Int.not_lt.1 fun positive => noWrite ⟨rfl, positive⟩
      simp only [Host.connIoCb, Host.readable, Host.writeReply, if_pos zero] at done
      cases done
      rfl

theorem offer_lastOf {V W : Type} {json : Json V} {w w' : SignalingWorker} {msg : RtcMsg W}
    {mem : Nat → UInt8} (wired : Wired w) (offered : w.responseServerOffer json msg mem = .ok w') :
    lastOf w' = lastOf w := by
  obtain ⟨-, rfl⟩ | ⟨c, reply, target, added⟩ := responseServerOffer_inv offered
  · rfl
  · have held := offerTarget_held target
    have here : lastOf w msg.fd = some c.obj.lastInteraction := by rw [lastOf, held]; rfl
    rw [lastOf_update (lookup_addReply held (wired.cfd _ c held) added), Option.map_some, ← here,
      Function.update_eq_self]

/-! ## Runs -/

theorem step_inv {V W : Type} {json : Json V} {timeout : Int} {s s' : Clocked} {e : WorkerEvent W}
    (taken : s.step json timeout e = some s') :
    s.host.event json timeout e = some (.ok s'.host) ∧ s'.stored = s.stamp e := by
  obtain ⟨host, stepped, rfl⟩ := Option.map_eq_some_iff.1 taken
  unfold Host.step at stepped
  split at stepped
  · next result =>
      obtain rfl := Option.some.inj stepped
      exact ⟨result, rfl⟩
  · cases stepped

def Stamped (s : Clocked) : Prop :=
  ∀ fd last, lastOf s.host.worker fd = some last → last = s.stored fd ∧ last < 2 ^ 64

theorem Stamped.touched {s s' : Clocked} {fd : Int} {now : Nat} (stamped : Stamped s) (bound : now < 2 ^ 64)
    (touched : Touched fd now s.host.worker s'.host.worker)
    (stored : s'.stored = Function.update s.stored fd now) : Stamped s' := by
  obtain ⟨entry, emptied | set, changed⟩ := touched
  all_goals
    intro fd' last held
    rw [changed] at held
    rw [stored]
    rcases update_cases held with ⟨rfl, new⟩ | ⟨other, held⟩
  · cases emptied.symm.trans new
  · rw [Function.update_of_ne other]
    exact stamped fd' last held
  · obtain rfl := Option.some.inj (set.symm.trans new)
    rw [Function.update_self]
    exact ⟨rfl, bound⟩
  · rw [Function.update_of_ne other]
    exact stamped fd' last held

theorem Stamped.closed {s s' : Clocked} {fd : Int} (stamped : Stamped s)
    (closed : lastOf s'.host.worker = Function.update (lastOf s.host.worker) fd none)
    (stored : s'.stored = s.stored) : Stamped s' := by
  intro fd' last held
  rw [closed] at held
  rw [stored]
  rcases update_cases held with ⟨_, new⟩ | ⟨_, held⟩
  · cases new
  · exact stamped fd' last held

theorem Stamped.same {s s' : Clocked} (stamped : Stamped s)
    (same : lastOf s'.host.worker = lastOf s.host.worker) (stored : s'.stored = s.stored) : Stamped s' := by
  intro fd last held
  rw [same] at held
  rw [stored]
  exact stamped fd last held

theorem newConn_touched {w w' : SignalingWorker} {cfd : Int} {addr origin now : Nat} (nonneg : 0 ≤ cfd)
    (made : w.newConn cfd addr origin now = .ok w') : Touched cfd now w w' := by
  rw [newConn_eq nonneg] at made
  obtain rfl := Except.ok.inj made
  exact touched_set (lookup_added nonneg _) rfl

theorem processTimeout_outcome {h h' : Host} {timeout fd : Int} {now : Nat}
    (done : h.processTimeout timeout fd now = .ok h') :
    ∃ c, lookup h.worker.conns fd = some c ∧
      ((SignalingWorker.expired timeout now c.obj = true ∧ h.closeConn c = .ok h') ∨
        (SignalingWorker.expired timeout now c.obj = false ∧ h' = h)) := by
  unfold Host.processTimeout at done
  split at done
  · cases done
  · next c held =>
      refine ⟨c, held, ?_⟩
      split at done
      · next expired => exact .inl ⟨expired, done⟩
      · next within =>
          cases done
          exact .inr ⟨Bool.not_eq_true _ ▸ within, rfl⟩

theorem Stamped.kept {V W : Type} {json : Json V} {timeout : Int} {s s' : Clocked} {e : WorkerEvent W}
    (consistent : Consistent s.host) (stamped : Stamped s) (admitted : Admits s e)
    (taken : s.step json timeout e = some s') : Stamped s' := by
  obtain ⟨done, stored⟩ := step_inv taken
  obtain ⟨admitted, bounded⟩ := admitted
  cases e with
  | newConn cfd addr origin now =>
      exact stamped.touched (bounded now rfl) (newConn_touched admitted.1 (newConn_made done)) stored
  | io watcher read write now =>
      simp only [Clocked.stamp] at stored
      simp only [Host.event] at done
      cases found : s.host.worker.el.io watcher with
      | none =>
          rw [found] at done
          cases done
      | some w =>
          simp only [found] at done stored
          split at done
          · by_cases stores : read.isSome ∨ write.isSome ∧ 0 < w.fd
            · rw [if_pos stores] at stored
              exact stamped.touched (bounded now rfl) (connIoCb_touched consistent stores done) stored
            · rw [if_neg stores] at stored
              have unchanged := connIoCb_idle stores done
              exact stamped.same (by rw [unchanged]) stored
          · cases done
  | timer watcher now =>
      simp only [Host.event] at done
      split at done
      · cases done
      · split at done
        · obtain ⟨c, held, ⟨-, closed⟩ | ⟨-, unchanged⟩⟩ := processTimeout_outcome (Option.some.inj done)
          · exact stamped.closed (closeConn_lastOf consistent.toWired held (SameIds.refl _) closed) stored
          · exact stamped.same (by rw [unchanged]) stored
        · cases done
  | offer msg mem => exact stamped.same (offer_lastOf consistent.toWired (offer_made done)) stored
  | close cfd =>
      simp only [Host.event] at done
      split at done
      · cases done
      · next c held =>
          exact stamped.closed
            (closeConn_lastOf consistent.toWired held (SameIds.refl _) (Option.some.inj done)) stored

def start (fds : Int → Option Nat) : Clocked := ⟨⟨SignalingWorker.empty, fds⟩, fun _ => 0⟩

section Runs

variable {V W : Type} {json : Json V} {timeout : Int} {fds : Int → Option Nat} {s : Clocked}

theorem reachable_host (reachable : Reachable (Clocked.step (W := W) json timeout) Admits (start fds) s) :
    Reachable (Host.step (W := W) json timeout) Watchers.Admits ⟨SignalingWorker.empty, fds⟩ s.host := by
  induction reachable with
  | start => exact .start
  | next _ admitted taken ih =>
      obtain ⟨host, stepped, rfl⟩ := Option.map_eq_some_iff.1 taken
      exact .next ih admitted.1 stepped

theorem reachable_stamped (reachable : Reachable (Clocked.step (W := W) json timeout) Admits (start fds) s) :
    Stamped s := by
  have known : ∀ s, Reachable (Clocked.step (W := W) json timeout) Admits (start fds) s → Consistent s.host :=
    fun s before => reachable_consistent (reachable_host before)
  refine reachable.invariant_with known ?_
    fun s s' e consistent stamped admitted taken => stamped.kept consistent admitted taken
  intro fd last held
  simp [lastOf, start, lookup, SignalingWorker.empty] at held

end Runs

/-- The test in whole numbers: a reading behind the stored one counts as far ahead of it. -/
theorem expired_iff {timeout : Int} {now : Nat} {c : TcpConnection} (nonneg : 0 ≤ timeout)
    (isInt : timeout < 2 ^ 31) (now_lt : now < 2 ^ 64) (last_lt : c.lastInteraction < 2 ^ 64) :
    SignalingWorker.expired timeout now c = true ↔
      (c.lastInteraction : Int) + timeout < now ∨
        now < c.lastInteraction ∧ (c.lastInteraction : Int) + timeout < now + 2 ^ 64 := by
  have converted := toSizeT_of_lt nonneg (by omega)
  unfold SignalingWorker.expired
  rw [decide_eq_true_eq]
  omega

/-- A tick of the timer for descriptor `t.cfd`, in any run: whatever it closes has been idle for more
than the timeout, exactly when the clock has not gone back behind the stored reading (or by so much
that the difference, taken modulo 2 ^ 64, is within the timeout). -/
theorem timeout_sound_iff {V W : Type} (json : Json V) (timeout : Int) (nonneg : 0 ≤ timeout)
    (isInt : timeout < 2 ^ 31) (fds : Int → Option Nat) (s s' : Clocked)
    (reachable : Reachable (Clocked.step (W := W) json timeout) Admits (start fds) s)
    (watcher now : Nat) (now_lt : now < 2 ^ 64) (t : TimerWatcher)
    (found : s.host.worker.el.timer watcher = some t)
    (ticked : s.step json timeout (.timer watcher now : WorkerEvent W) = some s') :
    (∀ fd, lookup s.host.worker.conns fd ≠ none → lookup s'.host.worker.conns fd = none →
      (s.stored fd : Int) + timeout < now) ↔
    ¬ (now < s.stored t.cfd ∧ (s.stored t.cfd : Int) + timeout < now + 2 ^ 64) := by
  have consistent := reachable_consistent (reachable_host reachable)
  obtain ⟨done, -⟩ := step_inv ticked
  simp only [Host.event, found, if_pos (consistent.ticks watcher t found), Option.some.injEq] at done
  obtain ⟨c, held, outcome⟩ := processTimeout_outcome done
  obtain ⟨last_eq, last_lt⟩ := reachable_stamped reachable t.cfd c.obj.lastInteraction (by simp [lastOf, held])
  have test := expired_iff nonneg isInt now_lt last_lt
  rw [last_eq] at test
  obtain ⟨expired, closed⟩ | ⟨within, unchanged⟩ := outcome
  · obtain ⟨w', removed, -, emptied⟩ := removeConn_wired consistent.toWired held (SameIds.refl _)
    obtain rfl := Except.ok.inj (removed.symm.trans (closeConn_inv closed))
    have late := test.1 expired
    constructor
    · intro sound
      have exceeded := sound t.cfd (by simp [held]) (by rw [emptied, Function.update_self])
      omega
    · intro forward fd used gone
      by_cases here : fd = t.cfd
      · rw [here]
        omega
      · rw [emptied, Function.update_of_ne here] at gone
        exact absurd gone used
  · have early : ¬ _ := fun late => Bool.false_ne_true (within.symm.trans (test.2 late))
    refine iff_of_true (fun fd used gone => ?_) fun behind => early (.inr behind)
    rw [unchanged] at gone
    exact absurd gone used

/-- One connection with descriptor 5 is accepted at 1 s, and the tick of its timer at `now` closes it. -/
theorem accepted_then_closed (now : Nat)
    (ends : (runLabels (guarded admitted (Clocked.step (W := Unit) Json.sample 5000000)) (start fun _ => none)
        [.newConn 5 100 0 1000000]).map (fun s => decide (s.host.worker.el.timer 1 = some ⟨5, true⟩) &&
          (decide (s.stored 5 = 1000000) && ((lookup s.host.worker.conns 5).isSome &&
            decide ((s.step Json.sample 5000000 (.timer 1 now : WorkerEvent Unit)).map
              (fun s' => (lookup s'.host.worker.conns 5).isNone) = some true)))) = some true) :
    ∃ s s', Reachable (Clocked.step (W := Unit) Json.sample 5000000) Admits (start fun _ => none) s ∧
      s.step Json.sample 5000000 (.timer 1 now : WorkerEvent Unit) = some s' ∧
      s.host.worker.el.timer 1 = some ⟨5, true⟩ ∧ s.stored 5 = 1000000 ∧
      lookup s.host.worker.conns 5 ≠ none ∧ lookup s'.host.worker.conns 5 = none := by
  obtain ⟨s, reachable, holds⟩ := exists_reachable_of_runLabels _ admits_of_admitted _ _ _ ends
  simp only [Bool.and_eq_true, decide_eq_true_eq] at holds
  obtain ⟨timer, stored, used, ticks⟩ := holds
  obtain ⟨s', ticked, gone⟩ := Option.map_eq_some_iff.1 ticks
  exact ⟨s, s', reachable, ticked, timer, stored, Option.isSome_iff_ne_none.1 used,
    Option.isNone_iff_eq_none.1 gone⟩

/-- The clock goes on, and the tick at 7 s closes the connection. -/
theorem timeout_sound_iff_late :
    ∃ s s', Reachable (Clocked.step (W := Unit) Json.sample 5000000) Admits (start fun _ => none) s ∧
      s.step Json.sample 5000000 (.timer 1 7000000 : WorkerEvent Unit) = some s' ∧
      lookup s.host.worker.conns 5 ≠ none ∧ lookup s'.host.worker.conns 5 = none ∧
      (s.stored 5 : Int) + 5000000 < (7000000 : Nat) := by
  obtain ⟨s, s', reachable, ticked, timer, stored, used, gone⟩ := accepted_then_closed 7000000 (by rfl)
  have sound := timeout_sound_iff Json.sample 5000000 (by decide) (by decide) _ s s' reachable 1 7000000
    (by decide) ⟨5, true⟩ timer ticked
  refine ⟨s, s', reachable, ticked, used, gone, sound.2 (fun behind => ?_) 5 used gone⟩
  rw [stored] at behind
  exact absurd behind.1 (by decide)

/-- The clock is set back by a millisecond, and the tick closes a connection that has just come. -/
theorem stepped_back_closes :
    ∃ s s', Reachable (Clocked.step (W := Unit) Json.sample 5000000) Admits (start fun _ => none) s ∧
      s.step Json.sample 5000000 (.timer 1 999000 : WorkerEvent Unit) = some s' ∧ s.stored 5 = 1000000 ∧
      lookup s.host.worker.conns 5 ≠ none ∧ lookup s'.host.worker.conns 5 = none := by
  obtain ⟨s, s', reachable, ticked, -, stored, used, gone⟩ := accepted_then_closed 999000 (by rfl)
  exact ⟨s, s', reachable, ticked, stored, used, gone⟩

end Xrtc.Proof.Timeout
