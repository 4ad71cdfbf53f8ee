import Xrtc.Proof.Callbacks

/-!
# What each step of the system does

`Act` lists the steps with what they change. The invariants of the system are proved by cases on it.
-/

namespace Xrtc.Proof.Steps
open Server Base Lib Lib.Mailbox Callbacks

variable {V : Type} {n m : Nat}

/-- What a signaling worker has in its hands at each place of its code. -/
def Hands (role : Role (Box n m) (Item n)) : Pc → Prop
  | .loop => ∀ b, role ≠ .owes b
  | .sending _ _ => (∃ e, role = .holding (.msg e)) ∨ role = .owes .server
  | _ => role = .free

theorem hands_free {pc : Pc} (quiet : ∀ fd write, pc ≠ .sending fd write) :
    Hands (.free : Role (Box n m) (Item n)) pc := by
  cases pc with
  | loop => exact fun b => by simp
  | sending fd write => exact absurd rfl (quiet fd write)
  | _ => rfl

abbrev QueueMove (n m : Nat) := Move (Thread n m) (Box n m) (Pipe n m) (Item n)

inductive Act (cfg : Config V m) (s : System n m) : Label n m → Option (QueueMove n m) → Local n m → Prop
  | accept {fd : Int} (nonneg : 0 ≤ fd) (closed : s.loc.fds fd = none) :
      Act cfg s (.accept fd) (some (.create .acceptor (.conn fd s.loc.accepted)))
        { s.loc with
          fds := Function.update s.loc.fds fd (some s.loc.accepted)
          accepted := s.loc.accepted + 1 }
  | dispatch {i : Fin n} (index : i.val = s.loc.nextWorkerIndex) :
      Act cfg s .dispatch (some (.push .acceptor (.conns i) id))
        { s.loc with nextWorkerIndex := if n ≤ i.val + 1 then 0 else i.val + 1 }
  | notify {t : Thread n m} {ok : Bool} (other : ∀ i, t ≠ .signaling i) :
      Act cfg s (.notify t ok) (some (if ok then .notify t else .abandon t)) s.loc
  | sent {i : Fin n} {ok : Bool} {a : Agent} (still : Still (s.loc.agent i) a)
      (quiet : ∀ fd write, a.pc ≠ .sending fd write) :
      Act cfg s (.notify (.signaling i) ok)
        (some (if ok then .notify (.signaling i) else .abandon (.signaling i))) (s.loc.setAgent i a)
  | wake {p : Pipe n m} (idle : ∀ i, p = .signaling i → (s.loc.agent i).pc = .loop) :
      Act cfg s (.wake p) (some (.wake p)) s.loc
  | pop {t : Thread n m} : Act cfg s (.pop t) (some (.pop t)) s.loc
  | forward {e : Envelope n} {j : Fin m} (holds : s.net.role .rtcServer = .holding (.msg e))
      (worker : s.loc.server.getWorker cfg.crc32 e.msg.streamName = .ok (some j)) :
      Act cfg s .forward (some (.push .rtcServer (.worker j) id)) s.loc
  | homeless {e : Envelope n} (holds : s.net.role .rtcServer = .holding (.msg e))
      (nobody : s.loc.server.getWorker cfg.crc32 e.msg.streamName = .ok none) :
      Act cfg s .forward (some (.consume .rtcServer)) (s.loc.record (.dropped .rtcServer e))
  | process {j : Fin m} {e : Envelope n} {i : Fin n} {msg : RtcMsg (Fin n)}
      (holds : s.net.role (.rtcWorker j) = .holding (.msg e))
      (task : RtcWorker.processRtcMsg e.msg = .send i msg) :
      Act cfg s (.process j)
        (some (.push (.rtcWorker j) (.replies i) fun _ => .msg { e with msg := msg }))
        (s.loc.record (.process j e))
  | unknown {j : Fin m} {e : Envelope n} (holds : s.net.role (.rtcWorker j) = .holding (.msg e))
      (task : RtcWorker.processRtcMsg e.msg = .unknown) :
      Act cfg s (.process j) (some (.consume (.rtcWorker j)))
        ((s.loc.record (.process j e)).record (.unknown (.rtcWorker j) e))
  | orphan {j : Fin m} {e : Envelope n} (holds : s.net.role (.rtcWorker j) = .holding (.msg e))
      (task : RtcWorker.processRtcMsg e.msg = .drop) :
      Act cfg s (.process j) (some (.consume (.rtcWorker j)))
        ((s.loc.record (.process j e)).record (.dropped (.rtcWorker j) e))
  | register {i : Fin n} {fd : Int} {origin addr now : Nat} {worker : SignalingWorker}
      (idle : (s.loc.agent i).pc = .loop)
      (holds : s.net.role (.signaling i) = .holding (.conn fd origin))
      (registered : (s.loc.agent i).worker.newConn fd addr origin now = .ok worker) :
      Act cfg s (.register i addr now) (some (.consume (.signaling i)))
        ((s.loc.setAgent i ⟨worker, .loop⟩).record (.register i fd origin
          ((lookup (s.loc.agent i).worker.conns fd).map ConnPtr.origin)))
  | offer {i : Fin n} {mem : Nat → UInt8} {e : Envelope n} {worker : SignalingWorker}
      (idle : (s.loc.agent i).pc = .loop) (holds : s.net.role (.signaling i) = .holding (.msg e))
      (offered : (s.loc.agent i).worker.responseServerOffer cfg.json e.msg mem = .ok worker) :
      Act cfg s (.handle i mem) (some (.consume (.signaling i)))
        ((s.loc.setAgent i ⟨worker, .loop⟩).record (.offer i e
          (((s.loc.agent i).worker.offerTarget e.msg).map ConnPtr.origin)))
  | stranger {i : Fin n} {mem : Nat → UInt8} {e : Envelope n}
      (holds : s.net.role (.signaling i) = .holding (.msg e)) (other : e.msg.cmdno ≠ CMDNO_PUSH)
      (idle : (s.loc.agent i).pc = .loop) :
      Act cfg s (.handle i mem) (some (.consume (.signaling i)))
        (s.loc.record (.unknown (.signaling i) e))
  | turn {l : Label n m} {i : Fin n} {a : Agent} (still : Still (s.loc.agent i) a)
      (hands : Hands (s.net.role (.signaling i)) (s.loc.agent i).pc → Hands (s.net.role (.signaling i)) a.pc) :
      Act cfg s l none (s.loc.setAgent i a)
  | ask {i : Fin n} {a : Agent} {fd : Int} {c : ConnPtr} {params : PushParams} {header : List UInt8}
      (still : Still (s.loc.agent i) a) (held : lookup (s.loc.agent i).worker.conns fd = some c)
      (sends : ∃ fd write, a.pc = .sending fd write) :
      Act cfg s (.query i)
        (some (.create (.signaling i)
          (.msg ⟨pushMsg params header i c.addr c.obj.cfd, i, c.origin, s.loc.sent⟩)))
        { s.loc.setAgent i a with sent := s.loc.sent + 1 }
  | send {i : Fin n} {e : Envelope n} (holds : s.net.role (.signaling i) = .holding (.msg e))
      (sends : ∃ fd write, (s.loc.agent i).pc = .sending fd write) :
      Act cfg s (.send i) (some (.push (.signaling i) .server id)) s.loc
  | close {i : Fin n} {fd : Int} {write : Bool} {c : ConnPtr} (at_pc : (s.loc.agent i).pc = .closing fd write)
      (held : lookup (s.loc.agent i).worker.conns fd = some c) :
      Act cfg s (.close i) none
        (({ s.loc.setAgent i { s.loc.agent i with pc := .removing fd write } with
          fds := Function.update s.loc.fds c.obj.cfd none }).record
            (.close i c.obj.cfd c.origin (s.loc.fds c.obj.cfd)))
  | remove {i : Fin n} {fd : Int} {write : Bool} {c : ConnPtr} {worker : SignalingWorker}
      (at_pc : (s.loc.agent i).pc = .removing fd write)
      (held : lookup (s.loc.agent i).worker.conns fd = some c)
      (removed : (s.loc.agent i).worker.removeConn c = .ok worker) :
      Act cfg s (.remove i) none (s.loc.setAgent i ⟨worker, .afterRead fd write⟩)

section Plan

variable {cfg : Config V m} {s s' : System n m} {l : Label n m} {plan : Plan n m}

theorem waiting_idle {i : Fin n} (waiting : s.waiting i = true) :
    s.net.role (.signaling i) = .free ∧ (s.loc.agent i).pc = .loop := by
  unfold System.waiting at waiting
  split at waiting
  · next free idle => exact ⟨free, idle⟩
  · cases waiting

theorem turn_inv {i : Fin n} {result : Except Fault Agent} (planned : s.turn i result = .ok plan) :
    ∃ a, result = .ok a ∧ plan = ⟨none, s.loc.setAgent i a⟩ := by
  cases result with
  | error fault => cases planned
  | ok a =>
      cases planned
      exact ⟨a, rfl, rfl⟩

theorem accept_act {fd : Int} (planned : s.accept fd = some (.ok plan)) :
    Act cfg s (.accept fd) plan.move plan.loc := by
  unfold System.accept at planned
  split at planned
  · next passed =>
      cases planned
      exact .accept passed.1 passed.2
  · cases planned

theorem dispatch_act (planned : s.dispatchNewConn = some (.ok plan)) :
    Act cfg s .dispatch plan.move plan.loc := by
  unfold System.dispatchNewConn at planned
  split at planned
  · dsimp only at planned
    split at planned
    · next inside =>
        cases planned
        exact .dispatch (i := ⟨_, inside⟩) rfl
    · cases planned
  · cases planned

theorem notify_act {t : Thread n m} {ok : Bool} (planned : s.notify t ok = some (.ok plan)) :
    Act cfg s (.notify t ok) plan.move plan.loc := by
  unfold System.notify at planned
  dsimp only at planned
  split at planned
  · next i =>
      split at planned
      · cases planned
      · next a returned =>
          cases planned
          exact .sent (sent_still returned) (sent_quiet returned)
  · next other =>
      cases planned
      exact .notify other

theorem wake_act {p : Pipe n m} (planned : s.wake p = some (.ok plan)) :
    Act cfg s (.wake p) plan.move plan.loc := by
  unfold System.wake at planned
  split at planned
  · next i =>
      split at planned
      · next idle =>
          cases planned
          exact .wake fun k same => by cases same; exact idle
      · cases planned
  · next other =>
      cases planned
      exact .wake fun i same => absurd same (other i)

theorem forward_act (planned : s.forward cfg = some (.ok plan)) :
    Act cfg s .forward plan.move plan.loc := by
  unfold System.forward at planned
  split at planned
  · next e holds =>
      split at planned
      · cases planned
      · next nobody =>
          cases planned
          exact .homeless holds nobody
      · next j worker =>
          cases planned
          exact .forward holds worker
  · cases planned

theorem process_act {j : Fin m} (planned : s.process j = some (.ok plan)) :
    Act cfg s (.process j) plan.move plan.loc := by
  unfold System.process at planned
  split at planned
  · next e holds =>
      dsimp only at planned
      split at planned
      · next task =>
          cases planned
          exact .unknown holds task
      · next task =>
          cases planned
          exact .orphan holds task
      · next i msg task =>
          cases planned
          exact .process holds task
  · cases planned

theorem register_act {i : Fin n} {addr now : Nat} (planned : s.register i addr now = some (.ok plan)) :
    Act cfg s (.register i addr now) plan.move plan.loc := by
  unfold System.register at planned
  dsimp only at planned
  split at planned
  · next fd origin idle holds =>
      split at planned
      · split at planned
        · cases planned
        · next worker registered =>
            cases planned
            rw [idle]
            exact .register idle holds registered
      · cases planned
  · cases planned

theorem handle_act {i : Fin n} {mem : Nat → UInt8} (planned : s.handle cfg i mem = some (.ok plan)) :
    Act cfg s (.handle i mem) plan.move plan.loc := by
  unfold System.handle at planned
  dsimp only at planned
  split at planned
  · next e idle holds =>
      split at planned
      · split at planned
        · cases planned
        · next worker offered =>
            cases planned
            rw [idle]
            exact .offer idle holds offered
      · next other =>
          cases planned
          exact .stranger holds other idle
  · cases planned

theorem io_act {i : Fin n} {watcher : Nat} {read : Option ReadResult} {write : Bool} {now : Nat}
    (planned : s.io i watcher read write now = some (.ok plan)) :
    Act cfg s (.io i watcher read write now) plan.move plan.loc := by
  unfold System.io at planned
  dsimp only at planned
  split at planned
  · cases planned
  · split at planned
    · next passed =>
        obtain ⟨a, ran, rfl⟩ := turn_inv (Option.some.inj planned)
        obtain ⟨free, idle⟩ := waiting_idle passed.1
        exact .turn (connIoCb_still idle ran) fun _ => free ▸ hands_free (connIoCb_quiet ran)
    · cases planned

theorem timer_act {i : Fin n} {watcher now : Nat} (planned : s.timer cfg i watcher now = some (.ok plan)) :
    Act cfg s (.timer i watcher now) plan.move plan.loc := by
  unfold System.timer at planned
  dsimp only at planned
  split at planned
  · cases planned
  · split at planned
    · next passed =>
        obtain ⟨a, ran, rfl⟩ := turn_inv (Option.some.inj planned)
        obtain ⟨free, idle⟩ := waiting_idle passed.1
        exact .turn (processTimeout_still idle ran) fun _ => free ▸ hands_free (processTimeout_quiet idle ran)
    · cases planned

theorem query_act {i : Fin n} (planned : s.query cfg i = some (.ok plan)) :
    Act cfg s (.query i) plan.move plan.loc := by
  unfold System.query at planned
  split at planned
  · cases planned
  · next a ran =>
      cases planned
      refine .turn (query_still ran) fun hands => ?_
      obtain ⟨⟨fd, write, at_pc⟩, quiet⟩ := query_quiet ran
      rw [at_pc] at hands
      exact Eq.symm hands ▸ hands_free quiet
  · next a msg origin ran =>
      obtain ⟨fd, c, params, header, held, rfl, rfl⟩ := query_asked ran
      cases planned
      exact .ask (query_still ran) held (query_sending ran)

theorem send_act {i : Fin n} (planned : s.send i = some (.ok plan)) :
    Act cfg s (.send i) plan.move plan.loc := by
  unfold System.send at planned
  split at planned
  · next fd write e sends holds =>
      cases planned
      exact .send holds ⟨fd, write, sends⟩
  · cases planned

theorem close_act {i : Fin n} (planned : s.close i = some (.ok plan)) :
    Act cfg s (.close i) plan.move plan.loc := by
  unfold System.close at planned
  split at planned
  · cases planned
  · next a c ran =>
      obtain ⟨fd, write, at_pc, held, rfl⟩ := close_inv ran
      cases planned
      exact .close at_pc held

theorem remove_act {i : Fin n} (planned : s.remove i = some (.ok plan)) :
    Act cfg s (.remove i) plan.move plan.loc := by
  obtain ⟨result, ran, turned⟩ := Option.map_eq_some_iff.1 planned
  obtain ⟨a, rfl, rfl⟩ := turn_inv turned
  obtain ⟨fd, write, c, worker, at_pc, held, removed, rfl⟩ := remove_inv ran
  exact .remove at_pc held removed

theorem reply_act {i : Fin n} {results : List WriteResult} {now : Nat}
    (planned : s.reply i results now = some (.ok plan)) :
    Act cfg s (.reply i results now) plan.move plan.loc := by
  obtain ⟨result, ran, turned⟩ := Option.map_eq_some_iff.1 planned
  obtain ⟨a, rfl, rfl⟩ := turn_inv turned
  refine .turn (writeReply_still ran) fun hands => ?_
  obtain ⟨⟨fd, at_pc⟩, quiet⟩ := writeReply_quiet ran
  rw [at_pc] at hands
  exact Eq.symm hands ▸ hands_free quiet

theorem plan_act (planned : s.plan cfg l = some (.ok plan)) : Act cfg s l plan.move plan.loc := by
  cases l with
  | accept fd => exact accept_act planned
  | dispatch => exact dispatch_act planned
  | notify t ok => exact notify_act planned
  | wake p => exact wake_act planned
  | pop t =>
      cases planned
      exact .pop
  | forward => exact forward_act planned
  | process j => exact process_act planned
  | register i addr now => exact register_act planned
  | handle i mem => exact handle_act planned
  | io i watcher read write now => exact io_act planned
  | timer i watcher now => exact timer_act planned
  | query i => exact query_act planned
  | send i => exact send_act planned
  | close i => exact close_act planned
  | remove i => exact remove_act planned
  | reply i results now => exact reply_act planned

end Plan

theorem record_forall {P : Event n m → Prop} {loc : Local n m} {event : Event n m}
    (old : ∀ e ∈ loc.log, P e) (new : P event) : ∀ e ∈ (loc.record event).log, P e := by
  intro e member
  rcases List.mem_append.1 member with before | last
  · exact old e before
  · rw [List.mem_singleton.1 last]
    exact new

/-! ## Runs -/

def Carried (cfg : Config V m) (net : Queues n m) : Option (QueueMove n m) → Queues n m → Prop
  | none, net' => net' = net
  | some move, net' => net.step (wiring n m cfg.capacity) move = some net'

theorem step_cases {cfg : Config V m} {s s' : System n m} {l : Label n m}
    (taken : s.step cfg l = some s') :
    (∃ fault, s.plan cfg l = some (.error fault) ∧ s' = { s with loc := { s.loc with crash := some fault } }) ∨
      ∃ move, Act cfg s l move s'.loc ∧ Carried cfg s.net move s'.net := by
  unfold System.step at taken
  split at taken
  · cases taken
  · split at taken
    · cases taken
    · next fault failed =>
        cases taken
        exact .inl ⟨fault, failed, rfl⟩
    · next plan planned =>
        have act := plan_act planned
        right
        refine ⟨plan.move, ?_⟩
        unfold System.carry at taken
        split at taken
        · next still =>
            cases taken
            exact ⟨act, still ▸ rfl⟩
        · next move moves =>
            obtain ⟨net, stepped, rfl⟩ := Option.map_eq_some_iff.1 taken
            exact ⟨act, by rw [moves]; exact stepped⟩

section Taken

variable {cfg : Config V m} {s : System n m} {l : Label n m} {loc : Local n m}

theorem step_turn (running : s.loc.crash = none) (planned : s.plan cfg l = some (.ok ⟨none, loc⟩)) :
    s.step cfg l = some ⟨s.net, loc⟩ := by
  simp [System.step, System.carry, running, planned]

theorem step_move {move : QueueMove n m} {net : Queues n m} (running : s.loc.crash = none)
    (planned : s.plan cfg l = some (.ok ⟨some move, loc⟩))
    (stepped : s.net.step (wiring n m cfg.capacity) move = some net) : s.step cfg l = some ⟨net, loc⟩ := by
  simp [System.step, System.carry, running, planned, stepped]

end Taken

abbrev Reached (cfg : Config V m) (admits : System n m → Label n m → Prop) (s : System n m) : Prop :=
  Reachable (System.step cfg) admits (System.start n m) s

section Invariant

variable {cfg : Config V m} {admits : System n m → Label n m → Prop} {s : System n m}

theorem reached_invariant (Inv : System n m → Prop) (initial : Inv (System.start n m))
    (crash : ∀ s fault, Inv s → Inv { s with loc := { s.loc with crash := some fault } })
    (act : ∀ s s' l move, Reached cfg admits s → Inv s → admits s l → Act cfg s l move s'.loc →
      Carried cfg s.net move s'.net → Inv s')
    (reached : Reached cfg admits s) : Inv s := by
  apply Reachable.invariant_with (fun _ before => before) initial _ reached
  intro s s' l before inv admitted taken
  rcases step_cases taken with ⟨fault, -, rfl⟩ | ⟨move, acts, carried⟩
  · exact crash s fault inv
  · exact act s s' l move before inv admitted acts carried

theorem reached_net (Inv : Queues n m → Prop) (initial : Inv .empty)
    (act : ∀ s l move net loc, Reached cfg admits s → Inv s.net → admits s l →
      Act cfg s l (some move) loc → s.net.step (wiring n m cfg.capacity) move = some net → Inv net)
    (reached : Reached cfg admits s) : Inv s.net := by
  apply reached_invariant (fun s => Inv s.net) initial (fun _ _ inv => inv) _ reached
  intro s s' l move before inv admitted acts carried
  match move with
  | none => exact carried ▸ inv
  | some move => exact act s l move s'.net s'.loc before inv admitted acts carried

theorem reached_served (reached : Reached cfg admits s) : s.net.Served (wiring n m cfg.capacity) := by
  apply reached_net (Net.Served _) (Net.empty_served _) _ reached
  intro s l move net loc _ served _ _ stepped
  exact Net.step_served served stepped

end Invariant

end Xrtc.Proof.Steps
