import Xrtc.Proof.Affinity
import Xrtc.Proof.Ownership

/-!
# Faults

Whatever the interleaving, the threads of the server meet no freed watcher, no empty slot and no index
out of range. What is left is the arithmetic of `sds` on oversized requests.
-/

namespace Xrtc.Proof.Safety
open Server Base Lib Lib.Mailbox Callbacks Table Watchers Steps Transit Ownership Affinity

variable {V : Type} {n m : Nat}

section Reached

variable {cfg : Config V m} {admits : System n m → Label n m → Prop} {s : System n m}

theorem wired_update {agent : Fin n → Agent} {i : Fin n} {a : Agent} (wired : ∀ k, Wired (agent k).worker)
    (new : Wired a.worker) : ∀ k, Wired (Function.update agent i a k).worker :=
  (Function.forall_update_iff agent fun _ a => Wired a.worker).2 ⟨new, fun k _ => wired k⟩

theorem reached_nonneg (reached : Reached cfg admits s) (fd : Int) (opened : s.loc.fds fd ≠ none) : 0 ≤ fd := by
  revert fd
  apply reached_invariant (fun s => ∀ fd, s.loc.fds fd ≠ none → 0 ≤ fd) _ (fun _ _ kept => kept) _ reached
  · exact fun fd opened => absurd rfl opened
  · intro s s' l move _ kept _ act _
    generalize s'.loc = loc at act ⊢
    cases act with
    | @accept fd nonneg closed =>
        intro fd' opened
        by_cases here : fd' = fd
        · rwa [here]
        · dsimp only at opened
          rw [Function.update_of_ne here] at opened
          exact kept fd' opened
    | close at_pc held =>
        intro fd' opened
        apply kept fd'
        rintro closed
        apply opened
        simp only [Local.record, Function.update_apply, closed, ite_self]
    | _ => exact kept

theorem register_free {i : Fin n} {fd : Int} {origin : Nat} (reached : Reached cfg admits s)
    (idle : (s.loc.agent i).pc = .loop) (holds : s.net.role (.signaling i) = .holding (.conn fd origin)) :
    0 ≤ fd ∧ lookup (s.loc.agent i).worker.conns fd = none := by
  obtain ⟨opened, -, free⟩ := register_empty (reached_owned reached) reached idle holds
  exact ⟨reached_nonneg reached fd (by simp [opened]), lookup_of_slot free⟩

theorem reached_wired (reached : Reached cfg admits s) : ∀ i, Wired (s.loc.agent i).worker := by
  apply reached_invariant (fun s => ∀ i, Wired (s.loc.agent i).worker) _ (fun _ _ kept => kept) _ reached
  · exact fun i => empty_wired
  · intro s s' l move before wired _ act _
    generalize s'.loc = loc at act ⊢
    cases act with
    | sent still => exact wired_update wired (still.wired (wired _))
    | turn still => exact wired_update wired (still.wired (wired _))
    | ask still _ => exact wired_update wired (still.wired (wired _))
    | close _ _ => exact wired_update wired (wired _)
    | register idle holds registered =>
        obtain ⟨nonneg, free⟩ := register_free before idle holds
        obtain ⟨w, c, made, new, -⟩ := newConn_wired (wired _) nonneg free _ _ _
        cases made.symm.trans registered
        exact wired_update wired new
    | offer idle holds offered =>
        obtain ⟨w, made, new, -⟩ := responseServerOffer_wired (wired _) _ _ _
        cases made.symm.trans offered
        exact wired_update wired new
    | remove at_pc held removed =>
        obtain ⟨w, made, new, -⟩ := removeConn_wired (wired _) held (SameIds.refl _)
        cases made.symm.trans removed
        exact wired_update wired new
    | _ => exact wired

theorem reached_attached (reached : Reached cfg admits s) : ∀ i, Attached (s.loc.agent i) := by
  apply reached_invariant (fun s => ∀ i, Attached (s.loc.agent i)) _ (fun _ _ kept => kept) _ reached
  · exact fun i => attached_of_none rfl
  · intro s s' l move _ attached _ act _
    have update {i : Fin n} {a : Agent} (new : Attached a) :
        ∀ k, Attached (Function.update s.loc.agent i a k) :=
      (Function.forall_update_iff s.loc.agent fun _ a => Attached a).2 ⟨new, fun k _ => attached k⟩
    generalize s'.loc = loc at act ⊢
    cases act with
    | sent still => exact update still.attached
    | turn still => exact update still.attached
    | ask still _ => exact update still.attached
    | close _ held => exact update (attached_of_held held rfl)
    | register _ _ _ => exact update (attached_of_none rfl)
    | offer _ _ _ => exact update (attached_of_none rfl)
    | remove _ _ _ => exact update (attached_of_none (target_afterRead _ _))
    | _ => exact attached

/-! ## The threads -/

theorem connIoCb_fault {a : Agent} {fd : Int} {read : Option ReadResult} {write : Bool} {now : Nat}
    {fault : Fault} (failed : a.connIoCb fd read write now = .error fault) : fault = .brokenSds := by
  unfold Agent.connIoCb at failed
  split at failed
  · cases failed
  · split at failed
    · cases failed
    · next c _ =>
        cases filled : c.obj.fill _ now with
        | none =>
            rw [filled] at failed
            cases failed
            rfl
        | some pair =>
            rw [filled] at failed
            cases failed

theorem processTimeout_fault {a : Agent} {timeout cfd : Int} {now : Nat} {fault : Fault}
    (inUse : lookup a.worker.conns cfd ≠ none) : a.processTimeout timeout cfd now ≠ .error fault := by
  obtain ⟨c, held⟩ := Option.ne_none_iff_exists'.1 inUse
  intro failed
  simp only [Agent.processTimeout, held] at failed
  split at failed <;> cases failed

theorem remove_fault {a : Agent} {fault : Fault} (wired : Wired a.worker) :
    a.remove ≠ some (.error fault) := by
  intro failed
  unfold Agent.remove at failed
  split at failed
  · split at failed
    · cases failed
    · next c held =>
        obtain ⟨w, removed, -⟩ := removeConn_wired wired held (SameIds.refl _)
        rw [removed] at failed
        cases failed
  · cases failed

theorem writeReply_fault {a : Agent} {results : List WriteResult} {now : Nat} {fault : Fault}
    (wired : Wired a.worker) : a.writeReply results now ≠ some (.error fault) := by
  intro failed
  unfold Agent.writeReply at failed
  split at failed
  · split at failed
    · cases failed
    · split at failed
      · cases failed
      · next c held =>
          split at failed
          · cases failed
          · cases failed
          · next obj wrote =>
              obtain ⟨el, stopped, -⟩ := idle_wired wired held (idle_sameIds wrote now)
              dsimp only at stopped
              split at stopped
              · next empty =>
                  rw [if_pos empty, stopped] at failed
                  cases failed
              · next pending =>
                  rw [if_neg pending] at failed
                  cases failed
  · cases failed

theorem getWorker_fault (cfg : Config V m) (name : List UInt8) (fault : Fault) :
    (RtcServer.init m).getWorker cfg.crc32 name ≠ .error fault := by
  rcases Nat.eq_zero_or_pos m with rfl | workers
  · simp [RtcServer.getWorker, init_eq]
  · rw [getWorker_init cfg workers]
    simp

theorem reached_index (workers : 1 ≤ n) (reached : Reached cfg admits s) : s.loc.nextWorkerIndex < n := by
  apply reached_invariant (fun s => s.loc.nextWorkerIndex < n) workers (fun _ _ kept => kept) _ reached
  intro s s' l move _ kept _ act _
  generalize s'.loc = loc at act ⊢
  cases act with
  | dispatch index =>
      dsimp only
      split
      · exact workers
      · next inside => exact Nat.not_le.1 inside
  | _ => exact kept

theorem turn_fault {i : Fin n} {result : Except Fault Agent} {fault : Fault}
    (failed : s.turn i result = .error fault) : result = .error fault := by
  cases result with
  | ok a => cases failed
  | error fault' => exact congrArg Except.error (Except.error.inj failed)

theorem plan_fault {l : Label n m} {fault : Fault} (workers : 1 ≤ n) (reached : Reached cfg admits s)
    (failed : s.plan cfg l = some (.error fault)) : fault = .brokenSds := by
  have wired := reached_wired reached
  cases l with
  | accept fd =>
      simp only [System.plan, System.accept] at failed
      split at failed <;> cases failed
  | dispatch =>
      simp only [System.plan, System.dispatchNewConn] at failed
      split at failed
      · rw [dif_pos (reached_index workers reached)] at failed
        cases failed
      · cases failed
  | notify t ok =>
      simp only [System.plan, System.notify] at failed
      split at failed
      · split at failed <;> cases failed
      · cases failed
  | wake p =>
      simp only [System.plan, System.wake] at failed
      split at failed
      · split at failed <;> cases failed
      · cases failed
  | pop t => cases failed
  | forward =>
      simp only [System.plan, System.forward, reached_server reached] at failed
      split at failed
      · next envelope _ =>
          cases chosen : (RtcServer.init m).getWorker cfg.crc32 envelope.msg.streamName with
          | error fault' => exact absurd chosen (getWorker_fault cfg _ fault')
          | ok worker =>
              rw [chosen] at failed
              cases worker <;> cases failed
      · cases failed
  | process j =>
      simp only [System.plan, System.process] at failed
      split at failed
      · split at failed <;> cases failed
      · cases failed
  | register i addr now =>
      simp only [System.plan, System.register] at failed
      split at failed
      · next fd origin idle holds =>
          obtain ⟨nonneg, free⟩ := register_free reached idle holds
          obtain ⟨w, c, made, -⟩ := newConn_wired (wired i) nonneg free addr origin now
          rw [made] at failed
          split at failed <;> cases failed
      · cases failed
  | handle i mem =>
      simp only [System.plan, System.handle] at failed
      split at failed
      · next envelope _ _ =>
          obtain ⟨w, made, -⟩ := responseServerOffer_wired (wired i) cfg.json envelope.msg mem
          rw [made] at failed
          split at failed <;> cases failed
      · cases failed
  | io i watcher read write now =>
      simp only [System.plan, System.io] at failed
      split at failed
      · cases failed
      · split at failed
        · exact connIoCb_fault (turn_fault (Option.some.inj failed))
        · cases failed
  | timer i watcher now =>
      simp only [System.plan, System.timer] at failed
      split at failed
      · cases failed
      · next t found =>
          split at failed
          · have inUse := (wired i).timer.held_of_live found
            exact absurd (turn_fault (Option.some.inj failed)) (processTimeout_fault inUse)
          · cases failed
  | query i =>
      simp only [System.plan, System.query] at failed
      split at failed <;> cases failed
  | send i =>
      simp only [System.plan, System.send] at failed
      split at failed <;> cases failed
  | close i =>
      simp only [System.plan, System.close] at failed
      split at failed <;> cases failed
  | remove i =>
      obtain ⟨result, ran, turned⟩ := Option.map_eq_some_iff.1 failed
      rw [turn_fault turned] at ran
      exact absurd ran (remove_fault (wired i))
  | reply i results now =>
      obtain ⟨result, ran, turned⟩ := Option.map_eq_some_iff.1 failed
      rw [turn_fault turned] at ran
      exact absurd ran (writeReply_fault (wired i))

/-- In every run, the process ends by itself at most in the arithmetic of `sds`, every worker's table matches
its watchers, and the connection of a callback stays in its slot until the callback is done with it. -/
theorem reached_safe (workers : 1 ≤ n) (reached : Reached cfg Always s) :
    (s.loc.crash = none ∨ s.loc.crash = some .brokenSds) ∧
      ∀ i, Wired (s.loc.agent i).worker ∧ Attached (s.loc.agent i) := by
  refine ⟨?_, fun i => ⟨reached_wired reached i, reached_attached reached i⟩⟩
  apply Reachable.invariant_with (fun _ before => before) (.inl rfl) _ reached
  intro s s' l before safe _ taken
  rcases step_cases taken with ⟨fault, failed, rfl⟩ | ⟨move, act, -⟩
  · exact .inr (congrArg some (plan_fault workers before failed))
  · generalize s'.loc = loc at act ⊢
    cases act <;> exact safe

end Reached

theorem exists_freeAddr (s : System n m) : ∃ addr, s.loc.freeAddr addr = true := by
  let used := (List.finRange n).flatMap fun i => (s.loc.agent i).worker.conns.filterMap (·.map ConnPtr.addr)
  obtain ⟨addr, unused⟩ := Infinite.exists_notMem_finset used.toFinset
  refine ⟨addr, ?_⟩
  simp only [Local.freeAddr, List.all_eq_true]
  intro i _ slot member
  cases slot with
  | none => rfl
  | some c =>
      simp only [Option.all_some, decide_eq_true_eq]
      rintro rfl
      apply unused
      simp only [used, List.mem_toFinset, List.mem_flatMap, List.mem_filterMap]
      exact ⟨i, List.mem_finRange i, some c, member, rfl⟩

end Xrtc.Proof.Safety
