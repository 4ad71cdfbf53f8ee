import Xrtc.Proof.Steps

/-!
# The callbacks behind the steps

`Act` says what a step changes; `Calls` keeps the callback of the signaling worker that was run.
-/

namespace Xrtc.Proof.Steps
open Server Base Lib Lib.Mailbox Callbacks

variable {V : Type} {n m : Nat} {cfg : Config V m} {admits : System n m → Label n m → Prop} {s s' : System n m}
  {l : Label n m}

theorem step_planned (taken : s.step cfg l = some s') :
    (∃ fault, s' = { s with loc := { s.loc with crash := some fault } }) ∨
      ∃ plan, s.plan cfg l = some (.ok plan) ∧ s'.loc = plan.loc ∧ Carried cfg s.net plan.move s'.net := by
  unfold System.step at taken
  split at taken
  · cases taken
  · split at taken
    · cases taken
    · cases taken
      exact .inl ⟨_, rfl⟩
    · next plan planned =>
        unfold System.carry at taken
        split at taken
        · next still =>
            cases taken
            exact .inr ⟨plan, planned, rfl, still ▸ rfl⟩
        · next move moves =>
            obtain ⟨net, stepped, rfl⟩ := Option.map_eq_some_iff.1 taken
            exact .inr ⟨plan, planned, rfl, by rw [moves]; exact stepped⟩

/-- The callback behind a step, its move of the queues and the workers after it. -/
inductive Calls (cfg : Config V m) (s : System n m) : Label n m → Option (QueueMove n m) → (Fin n → Agent) → Prop
  | still {l : Label n m} {move : Option (QueueMove n m)} (nothing : ∀ t e, move ≠ some (.create t (.msg e))) :
      Calls cfg s l move s.loc.agent
  | io {i : Fin n} {watcher : Nat} {read : Option ReadResult} {write : Bool} {now : Nat} {w : IOWatcher} {a : Agent}
      (free : s.net.role (.signaling i) = .free) (idle : (s.loc.agent i).pc = .loop)
      (found : (s.loc.agent i).worker.el.io watcher = some w)
      (ran : (s.loc.agent i).connIoCb w.fd read write now = .ok a) :
      Calls cfg s (.io i watcher read write now) none (Function.update s.loc.agent i a)
  | timer {i : Fin n} {watcher now : Nat} {cfd : Int} {a : Agent} (free : s.net.role (.signaling i) = .free)
      (idle : (s.loc.agent i).pc = .loop)
      (ran : (s.loc.agent i).processTimeout cfg.connectionTimeout cfd now = .ok a) :
      Calls cfg s (.timer i watcher now) none (Function.update s.loc.agent i a)
  | query {i : Fin n} {a : Agent} (ran : (s.loc.agent i).query cfg.json i = some (a, none)) :
      Calls cfg s (.query i) none (Function.update s.loc.agent i a)
  | ask {i : Fin n} {a : Agent} {msg : RtcMsg (Fin n)} {origin : Nat}
      (ran : (s.loc.agent i).query cfg.json i = some (a, some (msg, origin))) :
      Calls cfg s (.query i) (some (.create (.signaling i) (.msg ⟨msg, i, origin, s.loc.sent⟩)))
        (Function.update s.loc.agent i a)
  | sent {i : Fin n} {ok : Bool} {a : Agent} (ran : (s.loc.agent i).sent ok = some a) :
      Calls cfg s (.notify (.signaling i) ok)
        (some (if ok then .notify (.signaling i) else .abandon (.signaling i))) (Function.update s.loc.agent i a)
  | register {i : Fin n} {fd : Int} {origin addr now : Nat} {worker : SignalingWorker}
      (idle : (s.loc.agent i).pc = .loop) (holds : s.net.role (.signaling i) = .holding (.conn fd origin))
      (ran : (s.loc.agent i).worker.newConn fd addr origin now = .ok worker) :
      Calls cfg s (.register i addr now) (some (.consume (.signaling i)))
        (Function.update s.loc.agent i ⟨worker, .loop⟩)
  | offer {i : Fin n} {mem : Nat → UInt8} {e : Envelope n} {worker : SignalingWorker}
      (idle : (s.loc.agent i).pc = .loop) (holds : s.net.role (.signaling i) = .holding (.msg e))
      (ran : (s.loc.agent i).worker.responseServerOffer cfg.json e.msg mem = .ok worker) :
      Calls cfg s (.handle i mem) (some (.consume (.signaling i)))
        (Function.update s.loc.agent i ⟨worker, .loop⟩)
  | close {i : Fin n} {a : Agent} {c : ConnPtr} (ran : (s.loc.agent i).close = some (a, c)) :
      Calls cfg s (.close i) none (Function.update s.loc.agent i a)
  | remove {i : Fin n} {a : Agent} (ran : (s.loc.agent i).remove = some (.ok a)) :
      Calls cfg s (.remove i) none (Function.update s.loc.agent i a)
  | reply {i : Fin n} {results : List WriteResult} {now : Nat} {a : Agent}
      (ran : (s.loc.agent i).writeReply results now = some (.ok a)) :
      Calls cfg s (.reply i results now) none (Function.update s.loc.agent i a)

theorem plan_calls {plan : Plan n m} (planned : s.plan cfg l = some (.ok plan)) :
    Calls cfg s l plan.move plan.loc.agent := by
  cases l with
  | io i watcher read write now =>
      simp only [System.plan, System.io] at planned
      split at planned
      · cases planned
      · next w found =>
          split at planned
          · next passed =>
              obtain ⟨a, ran, rfl⟩ := turn_inv (Option.some.inj planned)
              obtain ⟨free, idle⟩ := waiting_idle passed.1
              exact .io free idle found ran
          · cases planned
  | timer i watcher now =>
      simp only [System.plan, System.timer] at planned
      split at planned
      · cases planned
      · split at planned
        · next passed =>
            obtain ⟨a, ran, rfl⟩ := turn_inv (Option.some.inj planned)
            obtain ⟨free, idle⟩ := waiting_idle passed.1
            exact .timer free idle ran
        · cases planned
  | query i =>
      simp only [System.plan, System.query] at planned
      split at planned
      · cases planned
      · next a ran =>
          cases planned
          exact .query ran
      · next a msg origin ran =>
          cases planned
          exact .ask ran
  | notify t ok =>
      simp only [System.plan, System.notify] at planned
      split at planned
      · next i =>
          split at planned
          · cases planned
          · next a ran =>
              cases planned
              exact .sent ran
      · cases planned
        exact .still fun _ _ => by split <;> simp
  | register i addr now =>
      simp only [System.plan, System.register] at planned
      split at planned
      · next fd origin idle holds =>
          split at planned
          · split at planned
            · cases planned
            · next worker ran =>
                cases planned
                rw [idle]
                exact .register idle holds ran
          · cases planned
      · cases planned
  | handle i mem =>
      simp only [System.plan, System.handle] at planned
      split at planned
      · next e idle holds =>
          split at planned
          · split at planned
            · cases planned
            · next worker ran =>
                cases planned
                rw [idle]
                exact .offer idle holds ran
          · cases planned
            exact .still (by simp)
      · cases planned
  | close i =>
      simp only [System.plan, System.close] at planned
      split at planned
      · cases planned
      · next a c ran =>
          cases planned
          exact .close ran
  | remove i =>
      obtain ⟨result, ran, turned⟩ := Option.map_eq_some_iff.1 planned
      obtain ⟨a, rfl, rfl⟩ := turn_inv turned
      exact .remove ran
  | reply i results now =>
      obtain ⟨result, ran, turned⟩ := Option.map_eq_some_iff.1 planned
      obtain ⟨a, rfl, rfl⟩ := turn_inv turned
      exact .reply ran
  | accept fd =>
      simp only [System.plan, System.accept] at planned
      split at planned <;> cases planned
      exact .still (by simp)
  | dispatch =>
      simp only [System.plan, System.dispatchNewConn] at planned
      split at planned
      · split at planned <;> cases planned
        exact .still (by simp)
      · cases planned
  | wake p =>
      simp only [System.plan, System.wake] at planned
      split at planned
      · split at planned <;> cases planned
        exact .still (by simp)
      · cases planned
        exact .still (by simp)
  | pop t =>
      cases planned
      exact .still (by simp)
  | forward =>
      simp only [System.plan, System.forward] at planned
      split at planned
      · split at planned <;> cases planned <;> exact .still (by simp)
      · cases planned
  | process j =>
      simp only [System.plan, System.process] at planned
      split at planned
      · split at planned <;> cases planned <;> exact .still (by simp)
      · cases planned
  | send i =>
      simp only [System.plan, System.send] at planned
      split at planned <;> cases planned
      exact .still (by simp)

theorem step_calls (taken : s.step cfg l = some s') :
    (∃ fault, s' = { s with loc := { s.loc with crash := some fault } }) ∨
      ∃ move, Calls cfg s l move s'.loc.agent ∧ Act cfg s l move s'.loc ∧ Carried cfg s.net move s'.net := by
  rcases step_planned taken with crashed | ⟨plan, planned, loc, carried⟩
  · exact .inl crashed
  · refine .inr ⟨plan.move, ?_, ?_, carried⟩
    · rw [loc]
      exact plan_calls planned
    · rw [loc]
      exact plan_act planned

theorem reached_calls (Inv : System n m → Prop) (initial : Inv (System.start n m))
    (crash : ∀ s fault, Inv s → Inv { s with loc := { s.loc with crash := some fault } })
    (act : ∀ s s' l move, Reached cfg admits s → Inv s → admits s l → Calls cfg s l move s'.loc.agent →
      Act cfg s l move s'.loc → Carried cfg s.net move s'.net → Inv s')
    (reached : Reached cfg admits s) : Inv s := by
  apply Reachable.invariant_with (fun _ before => before) initial _ reached
  intro s s' l before inv admitted taken
  rcases step_calls taken with ⟨fault, rfl⟩ | ⟨move, calls, acts, carried⟩
  · exact crash s fault inv
  · exact act s s' l move before inv admitted calls acts carried

end Xrtc.Proof.Steps
