import Xrtc.Proof.Deadlock
import Xrtc.Proof.Delivery
import Xrtc.Proof.Safety

/-!
# Progress

A thread that has work to do can go on by itself, unless it is blocked in the write of a notification.
So the server only comes to a halt in a cycle of blocked threads.
-/

namespace Xrtc.Proof.Progress
open Server Base Lib Lib.Mailbox Callbacks Table Watchers Steps Transit Ownership Safety Deadlock

variable {V : Type} {n m : Nat}

section Hands

variable {cfg : Config V m} {admits : System n m → Label n m → Prop} {s : System n m}

theorem hands_step {move : QueueMove n m} {net : Queues n m} {pc : Fin n → Pc} (pc' : Fin n → Pc)
    (hands : ∀ k, Hands (s.net.role (.signaling k)) (pc k))
    (stepped : s.net.step (wiring n m cfg.capacity) move = some net)
    (others : ∀ k t r, Shift (wiring n m cfg.capacity) s.net move t r → t ≠ .signaling k → pc' k = pc k)
    (own : ∀ k r, Shift (wiring n m cfg.capacity) s.net move (.signaling k) r → Hands r (pc' k)) :
    ∀ k, Hands (net.role (.signaling k)) (pc' k) := by
  intro k
  obtain ⟨t, r, shift, role⟩ := Net.step_shift stepped
  rw [role]
  by_cases mine : t = .signaling k
  · subst mine
    rw [Function.update_self]
    exact own k r shift
  · rw [Function.update_of_ne (Ne.symm mine), others k t r shift mine]
    exact hands k

theorem hands_woken {b : Box n m} {pc : Pc} (hands : Hands (.woken b : Role (Box n m) (Item n)) pc) :
    pc = .loop := by
  cases pc with
  | loop => rfl
  | sending fd write => rcases hands with ⟨e, holds⟩ | owes <;> simp_all
  | _ => cases hands

theorem reader_signaling {p : Pipe n m} {k : Fin n} (reads : p.reader = .signaling k) : p = .signaling k := by
  cases p with
  | signaling i =>
      cases reads
      rfl
  | _ => cases reads

theorem hands_moved {i : Fin n} {a : Agent} {move : QueueMove n m} {net : Queues n m}
    (hands : ∀ k, Hands (s.net.role (.signaling k)) (s.loc.agent k).pc)
    (stepped : s.net.step (wiring n m cfg.capacity) move = some net)
    (mine : ∀ t r, Shift (wiring n m cfg.capacity) s.net move t r → t = .signaling i ∧ Hands r a.pc) :
    ∀ k, Hands (net.role (.signaling k)) (Function.update s.loc.agent i a k).pc := by
  refine hands_step (fun k => (Function.update s.loc.agent i a k).pc) hands stepped ?_ ?_
  · intro k t r shift other
    have here : k ≠ i := by
      rintro rfl
      exact other (mine t r shift).1
    rw [Function.update_of_ne here]
  · intro k r shift
    obtain ⟨same, after⟩ := mine _ r shift
    cases same
    rwa [Function.update_self]

theorem hands_turned {i : Fin n} {a : Agent}
    (hands : ∀ k, Hands (s.net.role (.signaling k)) (s.loc.agent k).pc)
    (new : Hands (s.net.role (.signaling i)) a.pc) (k : Fin n) :
    Hands (s.net.role (.signaling k)) (Function.update s.loc.agent i a k).pc := by
  by_cases here : k = i
  · subst here
    rwa [Function.update_self]
  · rw [Function.update_of_ne here]
    exact hands k

theorem reached_hands (reached : Reached cfg admits s) :
    ∀ k, Hands (s.net.role (.signaling k)) (s.loc.agent k).pc := by
  apply reached_invariant (fun s => ∀ k, Hands (s.net.role (.signaling k)) (s.loc.agent k).pc) _
    (fun _ _ kept => kept) _ reached
  · exact fun k b => by simp [System.start, Net.empty]
  · intro s s' l move _ hands _ act carried
    obtain ⟨net, loc⟩ := s'
    dsimp only at act carried ⊢
    have stayed {move : QueueMove n m} (stepped : s.net.step (wiring n m cfg.capacity) move = some net)
        (own : ∀ k r, Shift (wiring n m cfg.capacity) s.net move (.signaling k) r →
          Hands r (s.loc.agent k).pc) (k : Fin n) : Hands (net.role (.signaling k)) (s.loc.agent k).pc :=
      hands_step _ hands stepped (fun _ _ _ _ _ => rfl) own k
    cases act with
    | sent _ quiet =>
        apply hands_moved hands carried
        intro t r shift
        split at shift <;> cases shift <;> exact ⟨rfl, hands_free quiet⟩
    | @wake p idle =>
        apply stayed carried
        intro k r shift
        generalize reads : Thread.signaling k = t at shift
        have at_pc : ∀ t, t = p.reader → Thread.signaling k = t → (s.loc.agent k).pc = .loop := by
          rintro t rfl reads
          exact idle k (reader_signaling reads.symm)
        cases shift with
        | wake _ _ =>
            rw [at_pc _ rfl reads]
            exact fun b => by simp
        | skip _ =>
            rw [at_pc _ rfl reads]
            exact fun b => by simp
    | pop =>
        apply stayed carried
        intro k r shift
        have before := hands k
        cases shift with
        | pop woken =>
            rw [woken] at before
            rw [hands_woken before]
            exact fun b => by simp
        | miss woken =>
            rw [woken] at before
            rw [hands_woken before]
            exact fun b => by simp
    | register idle _ _ =>
        apply hands_moved hands carried
        intro t r shift
        cases shift
        exact ⟨rfl, fun b => by simp⟩
    | offer idle _ _ =>
        apply hands_moved hands carried
        intro t r shift
        cases shift
        exact ⟨rfl, fun b => by simp⟩
    | stranger _ _ idle =>
        apply stayed carried
        intro k r shift
        cases shift
        rw [idle]
        exact fun b => by simp
    | turn _ new =>
        rw [show net = s.net from carried]
        exact hands_turned hands (new (hands _))
    | ask _ _ sends =>
        obtain ⟨fd, write, at_pc⟩ := sends
        apply hands_moved hands carried
        intro t r shift
        cases shift
        rw [at_pc]
        exact ⟨rfl, .inl ⟨_, rfl⟩⟩
    | send _ sends =>
        obtain ⟨fd, write, at_pc⟩ := sends
        apply stayed carried
        intro k r shift
        cases shift
        rw [at_pc]
        exact .inr rfl
    | @close i _ _ _ at_pc _ =>
        rw [show net = s.net from carried]
        apply hands_turned hands
        have before := hands i
        rw [at_pc] at before
        exact before
    | @remove i fd write _ _ at_pc _ _ =>
        rw [show net = s.net from carried]
        apply hands_turned hands
        have before := hands i
        rw [at_pc] at before
        rw [show s.net.role (.signaling i) = .free from before]
        exact hands_free (by cases write <;> simp [Pc.afterRead])
    | notify other =>
        apply stayed carried
        intro k r shift
        split at shift <;> cases shift <;> exact absurd rfl (other k)
    | _ =>
        apply stayed carried
        intro k r shift
        cases shift

end Hands

/-! ## Steps a thread can take -/

def thread : Label n m → Thread n m
  | .accept _ => .acceptor
  | .dispatch => .acceptor
  | .notify t _ => t
  | .wake p => p.reader
  | .pop t => t
  | .forward => .rtcServer
  | .process j => .rtcWorker j
  | .register i _ _ => .signaling i
  | .handle i _ => .signaling i
  | .io i _ _ _ _ => .signaling i
  | .timer i _ _ => .signaling i
  | .query i => .signaling i
  | .send i => .signaling i
  | .close i => .signaling i
  | .remove i => .signaling i
  | .reply i _ _ => .signaling i

/-- A step that needs neither a client nor a timer. -/
def internal : Label n m → Bool
  | .accept _ => false
  | .io _ _ _ _ _ => false
  | .timer _ _ _ => false
  | _ => true

def Busy (s : System n m) (t : Thread n m) : Prop :=
  s.net.role t ≠ .free ∨ ∃ i, t = .signaling i ∧ (s.loc.agent i).pc ≠ .loop

def CanStep (cfg : Config V m) (s : System n m) (t : Thread n m) : Prop :=
  ∃ l s', thread l = t ∧ internal l = true ∧ s.step cfg l = some s' ∧ s'.loc.crash = none

section CanStep

variable {cfg : Config V m} {admits : System n m → Label n m → Prop} {s : System n m} {t : Thread n m}

theorem canStep_local {l : Label n m} {loc : Local n m} (running : s.loc.crash = none) (mine : thread l = t)
    (inner : internal l = true) (planned : s.plan cfg l = some (.ok ⟨none, loc⟩))
    (sound : loc.crash = s.loc.crash) : CanStep cfg s t :=
  ⟨l, _, mine, inner, step_turn running planned, sound.trans running⟩

theorem canStep_move {l : Label n m} {move : QueueMove n m} {loc : Local n m} (running : s.loc.crash = none)
    (mine : thread l = t) (inner : internal l = true) (planned : s.plan cfg l = some (.ok ⟨some move, loc⟩))
    (sound : loc.crash = s.loc.crash)
    (enabled : ∃ net, s.net.step (wiring n m cfg.capacity) move = some net) : CanStep cfg s t := by
  obtain ⟨net, stepped⟩ := enabled
  exact ⟨l, _, mine, inner, step_move running planned stepped, sound.trans running⟩

theorem canStep_woken {b : Box n m} (running : s.loc.crash = none) (woken : s.net.role t = .woken b) :
    CanStep cfg s t :=
  canStep_move (l := .pop t) running rfl rfl rfl rfl (Net.pop_enabled woken)

theorem canStep_owes {b : Box n m} (reached : Reached cfg admits s) (running : s.loc.crash = none)
    (owes : s.net.role t = .owes b) : CanStep cfg s t ∨ ∃ t', BlockedOn cfg s t t' := by
  by_cases room : (s.net.pipe b.pipe).length < cfg.capacity
  · left
    have enabled : ∃ net, s.net.step (wiring n m cfg.capacity) (.notify t) = some net :=
      ⟨_, Net.notify_step owes room⟩
    cases t with
    | signaling i =>
        have hands := reached_hands reached i
        have attached := reached_attached reached i
        rw [owes] at hands
        cases at_pc : (s.loc.agent i).pc with
        | sending fd write =>
            obtain ⟨c, held⟩ := Option.ne_none_iff_exists'.1 (attached fd (by rw [at_pc]; rfl))
            have planned : s.plan cfg (.notify (.signaling i) true) = some (.ok ⟨some (.notify (.signaling i)),
                s.loc.setAgent i
                  ⟨(s.loc.agent i).worker.store fd { c with obj := c.obj.served }, .querying fd write⟩⟩) := by
              simp [System.plan, System.notify, Agent.sent, at_pc, held]
            exact canStep_move running rfl rfl planned rfl enabled
        | loop =>
            rw [at_pc] at hands
            exact absurd rfl (hands b)
        | _ =>
            rw [at_pc] at hands
            cases hands
    | _ => exact canStep_move (l := .notify _ true) running rfl rfl rfl rfl enabled
  · exact .inr ⟨_, b, owes, Nat.not_lt.1 room, rfl⟩

theorem canStep_holding {x : Item n} (workers : 1 ≤ n) (reached : Reached cfg admits s)
    (running : s.loc.crash = none) (holds : s.net.role t = .holding x) : CanStep cfg s t := by
  have fit := hand_fits reached holds
  cases t with
  | acceptor =>
      have planned : s.plan cfg .dispatch = some (.ok ⟨some (.push .acceptor
          (.conns ⟨s.loc.nextWorkerIndex, reached_index workers reached⟩) id), { s.loc with
            nextWorkerIndex := if n ≤ s.loc.nextWorkerIndex + 1 then 0 else s.loc.nextWorkerIndex + 1 }⟩) := by
        simp [System.plan, System.dispatchNewConn, holds, reached_index workers reached]
      exact canStep_move running rfl rfl planned rfl ⟨_, Net.push_step holds _ _⟩
  | rtcServer =>
      cases x with
      | conn fd origin => cases fit
      | msg e =>
          cases chosen : s.loc.server.getWorker cfg.crc32 e.msg.streamName with
          | error fault =>
              rw [Affinity.reached_server reached] at chosen
              exact absurd chosen (getWorker_fault cfg _ fault)
          | ok worker =>
              cases worker with
              | none =>
                  have planned : s.plan cfg .forward = some (.ok ⟨some (.consume .rtcServer),
                      s.loc.record (.dropped .rtcServer e)⟩) := by
                    simp [System.plan, System.forward, holds, chosen]
                  exact canStep_move running rfl rfl planned rfl ⟨_, Net.consume_step holds⟩
              | some j =>
                  have planned : s.plan cfg .forward =
                      some (.ok ⟨some (.push .rtcServer (.worker j) id), s.loc⟩) := by
                    simp [System.plan, System.forward, holds, chosen]
                  exact canStep_move running rfl rfl planned rfl ⟨_, Net.push_step holds _ _⟩
  | rtcWorker j =>
      cases x with
      | conn fd origin => cases fit
      | msg e =>
          obtain ⟨msg, task⟩ := Delivery.process_sends reached holds
          have planned : s.plan cfg (.process j) = some (.ok ⟨some (.push (.rtcWorker j) (.replies e.creator)
              fun _ => .msg { e with msg := msg }), s.loc.record (.process j e)⟩) := by
            simp [System.plan, System.process, holds, task]
          exact canStep_move running rfl rfl planned rfl ⟨_, Net.push_step holds _ _⟩
  | signaling i =>
      have hands := reached_hands reached i
      rw [holds] at hands
      cases at_pc : (s.loc.agent i).pc with
      | loop =>
          cases x with
          | conn fd origin =>
              obtain ⟨addr, free⟩ := exists_freeAddr s
              obtain ⟨nonneg, empty⟩ := register_free reached at_pc holds
              obtain ⟨w, c, made, -⟩ := newConn_wired (reached_wired reached i) nonneg empty addr origin 0
              have planned : s.plan cfg (.register i addr 0) = some (.ok ⟨some (.consume (.signaling i)),
                  (s.loc.setAgent i ⟨w, .loop⟩).record (.register i fd origin
                    ((lookup (s.loc.agent i).worker.conns fd).map ConnPtr.origin))⟩) := by
                simp [System.plan, System.register, at_pc, holds, free, made]
              exact canStep_move running rfl rfl planned rfl ⟨_, Net.consume_step holds⟩
          | msg e =>
              obtain ⟨w, made, -⟩ :=
                responseServerOffer_wired (reached_wired reached i) cfg.json e.msg fun _ => 0
              have planned : s.plan cfg (.handle i fun _ => 0) = some (.ok ⟨some (.consume (.signaling i)),
                  (s.loc.setAgent i ⟨w, .loop⟩).record (.offer i e
                    (((s.loc.agent i).worker.offerTarget e.msg).map ConnPtr.origin))⟩) := by
                simp [System.plan, System.handle, at_pc, holds, made, fit.1.cmdno]
              exact canStep_move running rfl rfl planned rfl ⟨_, Net.consume_step holds⟩
      | sending fd write =>
          rw [at_pc] at hands
          rcases hands with ⟨e, same⟩ | owes
          · cases same
            have planned : s.plan cfg (.send i) = some (.ok ⟨some (.push (.signaling i) .server id), s.loc⟩) := by
              simp [System.plan, System.send, at_pc, holds]
            exact canStep_move running rfl rfl planned rfl ⟨_, Net.push_step holds _ _⟩
          · cases owes
      | _ =>
          rw [at_pc] at hands
          cases hands

theorem query_answers (json : Json V) {i : Fin n} {a : Agent} {fd : Int} {write : Bool} {c : ConnPtr}
    (at_pc : a.pc = .querying fd write) (held : lookup a.worker.conns fd = some c) :
    ∃ a' asked, a.query json i = some (a', asked) := by
  simp only [Agent.query, at_pc, held]
  split
  · exact ⟨_, _, rfl⟩
  · exact ⟨_, _, rfl⟩
  · exact ⟨_, _, rfl⟩
  · split <;> exact ⟨_, _, rfl⟩

theorem writeReply_answers {a : Agent} {fd : Int} (wired : Wired a.worker) (at_pc : a.pc = .replying fd) :
    ∃ results a', a.writeReply results 0 = some (.ok a') := by
  -- the first write of the loop may fail
  refine ⟨[.failed], ?_⟩
  cases ran : a.writeReply [.failed] 0 with
  | some result =>
      cases result with
      | ok a' => exact ⟨a', rfl⟩
      | error fault => exact absurd ran (writeReply_fault wired)
  | none =>
      simp only [Agent.writeReply, at_pc] at ran
      split at ran
      · cases ran
      · split at ran
        · cases ran
        · split at ran
          · next c _ stuck =>
              unfold TcpConnection.writeLoop at stuck
              split at stuck <;> cases stuck
          · cases ran
          · cases ran

theorem canStep_callback {i : Fin n} (reached : Reached cfg admits s) (running : s.loc.crash = none)
    (free : s.net.role (.signaling i) = .free) (working : (s.loc.agent i).pc ≠ .loop) :
    CanStep cfg s (.signaling i) := by
  have attached := reached_attached reached i
  have wired := reached_wired reached i
  have hands := reached_hands reached i
  cases at_pc : (s.loc.agent i).pc with
  | loop => exact absurd at_pc working
  | sending fd write =>
      rw [at_pc, free] at hands
      rcases hands with ⟨e, holds⟩ | owes
      · cases holds
      · cases owes
  | querying fd write =>
      obtain ⟨c, held⟩ := Option.ne_none_iff_exists'.1 (attached fd (by rw [at_pc]; rfl))
      obtain ⟨a, asked, ran⟩ := query_answers cfg.json (i := i) at_pc held
      cases asked with
      | none =>
          have planned : s.plan cfg (.query i) = some (.ok ⟨none, s.loc.setAgent i a⟩) := by
            simp [System.plan, System.query, ran]
          exact canStep_local running rfl rfl planned rfl
      | some question =>
          have planned : s.plan cfg (.query i) = some (.ok
              ⟨some (.create (.signaling i) (.msg ⟨question.1, i, question.2, s.loc.sent⟩)),
                { s.loc.setAgent i a with sent := s.loc.sent + 1 }⟩) := by
            simp [System.plan, System.query, ran]
          exact canStep_move running rfl rfl planned rfl ⟨_, Net.create_step free _⟩
  | closing fd write =>
      obtain ⟨c, held⟩ := Option.ne_none_iff_exists'.1 (attached fd (by rw [at_pc]; rfl))
      have planned : s.plan cfg (.close i) = some (.ok ⟨none, ({ s.loc.setAgent i
          { s.loc.agent i with pc := .removing fd write } with
            fds := Function.update s.loc.fds c.obj.cfd none }).record
              (.close i c.obj.cfd c.origin (s.loc.fds c.obj.cfd))⟩) := by
        simp [System.plan, System.close, Agent.close, at_pc, held]
      exact canStep_local running rfl rfl planned rfl
  | removing fd write =>
      obtain ⟨c, held⟩ := Option.ne_none_iff_exists'.1 (attached fd (by rw [at_pc]; rfl))
      obtain ⟨w, removed, -⟩ := removeConn_wired wired held (SameIds.refl _)
      have planned : s.plan cfg (.remove i) =
          some (.ok ⟨none, s.loc.setAgent i ⟨w, .afterRead fd write⟩⟩) := by
        simp [System.plan, System.remove, Agent.remove, at_pc, held, removed, System.turn, Except.map, bind,
          Except.bind, pure, Except.pure]
      exact canStep_local running rfl rfl planned rfl
  | replying fd =>
      obtain ⟨results, a, ran⟩ := writeReply_answers wired at_pc
      have planned : s.plan cfg (.reply i results 0) = some (.ok ⟨none, s.loc.setAgent i a⟩) := by
        simp [System.plan, System.reply, ran, System.turn, Except.map]
      exact canStep_local running rfl rfl planned rfl

/-- A thread with work to do can go on by itself, unless it is blocked in the write of a notification. -/
theorem busy_steps (workers : 1 ≤ n) (reached : Reached cfg Always s) (running : s.loc.crash = none)
    (busy : Busy s t) : CanStep cfg s t ∨ ∃ t', BlockedOn cfg s t t' := by
  cases role : s.net.role t with
  | free =>
      rcases busy with hands | ⟨i, rfl, working⟩
      · exact absurd role hands
      · exact .inl (canStep_callback reached running role working)
  | woken b => exact .inl (canStep_woken running role)
  | holding x => exact .inl (canStep_holding workers reached running role)
  | owes b => exact canStep_owes reached running role

/-- The thread that another is blocked on has work to do or can take a notification. -/
theorem blocked_on_busy {t' : Thread n m} (room : 1 ≤ cfg.capacity) (running : s.loc.crash = none)
    (blocked : BlockedOn cfg s t t') : Busy s t' ∨ CanStep cfg s t' := by
  obtain ⟨b, -, full, rfl⟩ := blocked
  by_cases busy : Busy s b.pipe.reader
  · exact .inl busy
  · simp only [Busy, not_or, not_not, not_exists, not_and] at busy
    obtain ⟨free, idle⟩ := busy
    have waiting : s.net.pipe b.pipe ≠ [] := by
      intro empty
      rw [empty] at full
      exact Nat.not_succ_le_zero 0 (room.trans full)
    have planned : s.plan cfg (.wake b.pipe) = some (.ok ⟨some (.wake b.pipe), s.loc⟩) := by
      simp only [System.plan, System.wake]
      split
      · next i at_pipe =>
          have at_loop := idle i (by rw [at_pipe]; rfl)
          rw [if_pos at_loop, at_pipe]
      · rfl
    exact .inr (canStep_move running rfl rfl planned rfl
      (Net.wake_enabled (w := wiring n m cfg.capacity) free waiting))

/-- A server that has work to do and in which no thread can go on is in a cycle of blocked threads. -/
theorem stalled_cycle (workers : 1 ≤ n) (room : 1 ≤ cfg.capacity) (reached : Reached cfg Always s)
    (running : s.loc.crash = none) (busy : Busy s t) (stalled : ∀ t, ¬ CanStep cfg s t) : Cycle cfg s := by
  apply exists_cycle (Busy s) _ busy
  intro t busy
  rcases busy_steps workers reached running busy with steps | ⟨t', blocked⟩
  · exact absurd steps (stalled t)
  · rcases blocked_on_busy room running blocked with next | steps
    · exact ⟨t', blocked, next⟩
    · exact absurd steps (stalled t')

/-- While fewer than `3 * capacity + 3` items are queued, a server with work to do goes on. -/
theorem goes_on (workers : 1 ≤ n) (room : 1 ≤ cfg.capacity) (reached : Reached cfg Always s)
    (running : s.loc.crash = none) (few : ∑ b, (s.net.queue b).length < 3 * cfg.capacity + 3)
    (busy : Busy s t) : ∃ t', CanStep cfg s t' := by
  by_contra stalled
  have cycle := stalled_cycle workers room reached running busy (not_exists.1 stalled)
  obtain ⟨i, j, server, worker, signaling⟩ := cycle_queues reached cycle
  exact absurd (queues_le server worker signaling) (Nat.not_le.2 few)

end CanStep

end Xrtc.Proof.Progress
