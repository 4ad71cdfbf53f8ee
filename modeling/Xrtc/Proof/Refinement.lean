import Xrtc.Proof.Calls
import Xrtc.Proof.Connections

/-!
# The threads refine the runs of single connections

Whatever the interleaving, each connection of the server is in a state of `Parsing` that only its own
events lead to. A reply reaches a connection that has asked for it, since no descriptor and address are
used again under way.
-/

namespace Xrtc.Proof.Refinement
open Server Base Lib Lib.Mailbox Callbacks Steps Transit Ownership ReplyTarget Received
  Connections

variable {V : Type} {n m : Nat}

/-- The reads of the run give at most the bytes they are asked for. -/
def Offered (s : System n m) : Label n m → Prop
  | .io i watcher (some (.received bytes)) _ _ => ∀ w c, (s.loc.agent i).worker.el.io watcher = some w →
      lookup (s.loc.agent i).worker.conns w.fd = some c → bytes.length ≤ c.obj.readLen
  | _ => True

/-- The kernel keeps to what is asked, and no message finds its descriptor and address used again. -/
def Orderly (s : System n m) (l : Label n m) : Prop := NoReuse s l ∧ Offered s l

def Mail (s : System n m) (origin : Nat) (msg : RtcMsg (Fin n)) : Prop :=
  ∃ e, .msg e ∈ s.net.created ∧ e.origin = origin ∧ e.msg = msg

def success : ResRoot := ⟨0, "process success", utf8 "offer"⟩

section Runs

variable {cfg : Config V m} {admits : System n m → Label n m → Prop} {s s' : System n m} {l : Label n m}

/-! ## Messages -/

theorem act_log {move : Option (QueueMove n m)} {loc : Local n m} (act : Act cfg s l move loc) :
    s.loc.log <+: loc.log := by
  cases act with
  | homeless _ _ => exact List.prefix_append _ _
  | process _ _ => exact List.prefix_append _ _
  | unknown _ _ => exact (List.prefix_append _ _).trans (List.prefix_append _ _)
  | orphan _ _ => exact (List.prefix_append _ _).trans (List.prefix_append _ _)
  | register _ _ _ => exact List.prefix_append _ _
  | offer _ _ _ => exact List.prefix_append _ _
  | stranger _ _ _ => exact List.prefix_append _ _
  | close _ _ => exact List.prefix_append _ _
  | _ => exact List.prefix_rfl

theorem create_asks {t : Thread n m} {e : Envelope n} {loc : Local n m}
    (act : Act cfg s l (some (.create t (.msg e))) loc) :
    ∃ i fd c, lookup (s.loc.agent i).worker.conns fd = some c ∧ e.origin = c.origin := by
  generalize created : (some (.create t (.msg e)) : Option (QueueMove n m)) = move at act
  cases act with
  | ask _ held _ =>
      cases created
      exact ⟨_, _, _, held, rfl⟩
  | notify _ => split at created <;> cases created
  | sent _ _ => split at created <;> cases created
  | _ => cases created

def Registers (s : System n m) : Prop :=
  ∀ origin msg, Mail s origin msg → ∃ r ∈ registrations s, r.origin = origin

theorem reached_registers (reached : Reached cfg admits s) : Registers s := by
  apply reached_invariant Registers _ (fun _ _ kept => kept) _ reached
  · rintro origin msg ⟨e, member, -⟩
    cases member
  · rintro s s' l move before kept _ act carried origin msg ⟨e, member, rfl, -⟩
    have old {r : Registration n} (registered : r ∈ registrations s) : r ∈ registrations s' :=
      (List.IsPrefix.filterMap registration (act_log act)).subset registered
    have earlier (member : .msg e ∈ s.net.created) : ∃ r ∈ registrations s', r.origin = e.origin := by
      obtain ⟨r, registered, same⟩ := kept e.origin e.msg ⟨e, member, rfl, rfl⟩
      exact ⟨r, old registered, same⟩
    rcases carried_created carried with same | ⟨t, x, rfl, added⟩
    · exact earlier (same ▸ member)
    · rw [added, List.mem_append, List.mem_singleton] at member
      rcases member with before | rfl
      · exact earlier before
      · obtain ⟨i, fd, c, held, same⟩ := create_asks act
        exact ⟨_, old ((reached_owned before).registered _ _ _ (slot_of_lookup held)), same.symm⟩

theorem mail_of_held (reached : Reached cfg admits s) {t : Thread n m} {e : Envelope n}
    (holds : s.net.role t = .holding (.msg e)) : ∃ msg, Mail s e.origin msg := by
  have conserved := reached_content reached (content (.msg e))
  have some : 0 < s.net.tally content (content (.msg e)) := by
    have part := Finset.single_le_sum (f := fun place => ((s.net.contents place).map content).count (content (.msg e)))
      (fun _ _ => Nat.zero_le _) (Finset.mem_univ (.hand t))
    refine lt_of_lt_of_le ?_ part
    simp [Net.contents, holds, Role.held]
  rw [conserved, List.count_pos_iff, List.mem_map] at some
  obtain ⟨x, member, same⟩ := some
  cases x with
  | conn fd origin => cases same
  | msg e' =>
      refine ⟨e'.msg, e', member, ?_, rfl⟩
      have origins : (unanswered e').origin = (unanswered e).origin :=
        congrArg Envelope.origin (Item.msg.inj same)
      exact origins

/-- What a message says: no error, and the offer of the rtc worker once it is on its way back. -/
def Tells (agent : Fin n → Agent) (msg : RtcMsg (Fin n)) : Place (Thread n m) (Box n m) → Prop
  | .box (.conns _) => False
  | .box (.replies _) => msg.errNo = 0 ∧ msg.sdp = utf8 "offer"
  | .hand .acceptor => False
  | .hand (.signaling i) => msg.errNo = 0 ∧ (msg.sdp = utf8 "offer" ∨ ∃ fd, Sends fd (agent i).pc)
  | .done => True
  | _ => msg.errNo = 0

def Spoken (agent : Fin n → Agent) (place : Place (Thread n m) (Box n m)) (x : Item n) : Prop :=
  ∀ e, x = .msg e → Tells agent e.msg place

/-- A worker that has its message in its hands in the middle of `send_rtc_msg` stays there until it is pushed. -/
theorem sends_kept {move : Option (QueueMove n m)} {agent : Fin n → Agent} {net : Queues n m} {i : Fin n} {fd : Int}
    {x : Item n} (calls : Calls cfg s l move agent) (carried : Carried cfg s.net move net)
    (holds : s.net.role (.signaling i) = .holding x) (sends : Sends fd (s.loc.agent i).pc) :
    Sends fd (agent i).pc := by
  obtain ⟨write, at_pc⟩ := sends
  -- the worker that moves is at another place of its code, so it is not this one
  have other {k : Fin n} {a : Agent} (apart : k ≠ i) : Sends fd (Function.update s.loc.agent k a i).pc := by
    rw [Function.update_of_ne apart.symm]
    exact ⟨write, at_pc⟩
  cases calls with
  | still _ => exact ⟨write, at_pc⟩
  | io free _ _ _ => exact other fun same => by rw [← same, free] at holds; cases holds
  | timer free _ _ => exact other fun same => by rw [← same, free] at holds; cases holds
  | query ran =>
      obtain ⟨fd', write', querying⟩ := query_at ran
      exact other fun same => by rw [← same, querying] at at_pc; cases at_pc
  | ask ran =>
      obtain ⟨fd', write', querying⟩ := query_at ran
      exact other fun same => by rw [← same, querying] at at_pc; cases at_pc
  | @sent k ok a ran =>
      apply other
      rintro rfl
      obtain ⟨b, owes⟩ : ∃ b, s.net.role (.signaling k) = .owes b := by
        cases ok with
        | true =>
            obtain ⟨b, owes, -, -⟩ := Net.notify_inv carried
            exact ⟨b, owes⟩
        | false =>
            obtain ⟨b, owes, -⟩ := Net.abandon_inv carried
            exact ⟨b, owes⟩
      rw [owes] at holds
      cases holds
  | register idle _ _ => exact other fun same => by rw [← same, idle] at at_pc; cases at_pc
  | offer idle _ _ => exact other fun same => by rw [← same, idle] at at_pc; cases at_pc
  | close ran =>
      obtain ⟨fd', write', closing, -, -⟩ := close_inv ran
      exact other fun same => by rw [← same, closing] at at_pc; cases at_pc
  | remove ran =>
      obtain ⟨fd', write', c, worker, removing, -, -, -⟩ := remove_inv ran
      exact other fun same => by rw [← same, removing] at at_pc; cases at_pc
  | reply ran =>
      obtain ⟨⟨fd', replying⟩, -⟩ := writeReply_quiet ran
      exact other fun same => by rw [← same, replying] at at_pc; cases at_pc

theorem processRtcMsg_answer {msg msg' : RtcMsg (Fin n)} {i : Fin n}
    (task : RtcWorker.processRtcMsg msg = .send i msg') : msg'.errNo = msg.errNo ∧ msg'.sdp = utf8 "offer" := by
  unfold RtcWorker.processRtcMsg at task
  split at task
  · unfold RtcWorker.processPush at task
    dsimp only at task
    split at task
    · cases task
    · cases task
      exact ⟨rfl, rfl⟩
  · cases task

theorem tells_read {agent : Fin n → Agent} {b : Box n m} {msg : RtcMsg (Fin n)} (told : Tells agent msg (.box b)) :
    Tells agent msg (.hand b.pipe.reader : Place (Thread n m) (Box n m)) := by
  cases b with
  | conns i => cases told
  | replies i => exact ⟨told.1, .inl told.2⟩
  | server => exact told
  | worker j => exact told

theorem act_spoken {move : QueueMove n m} {loc : Local n m} (served : s.net.Served (wiring n m cfg.capacity))
    (act : Act cfg s l (some move) loc) : move.Fitting (Spoken loc.agent) s.net := by
  cases act with
  | accept _ _ => exact fun e same => by cases same
  | dispatch _ =>
      intro x _ spoken e same
      exact (spoken e same).elim
  | notify _ => split <;> trivial
  | sent _ _ => split <;> trivial
  | wake => trivial
  | pop =>
      intro b x woken spoken e same
      rw [served _ b woken]
      exact tells_read (spoken e same)
  | forward _ _ => exact fun x _ spoken => spoken
  | process holds task =>
      intro x held spoken e same
      rw [holds] at held
      cases held
      cases same
      obtain ⟨errNo, sdp⟩ := processRtcMsg_answer task
      exact ⟨errNo.trans (spoken _ rfl), sdp⟩
  | ask _ _ sends =>
      intro e same
      cases same
      obtain ⟨fd, write, at_pc⟩ := sends
      refine ⟨rfl, .inr ⟨fd, write, ?_⟩⟩
      rw [← at_pc]
      exact congrArg Agent.pc (Function.update_self _ _ _)
  | send _ _ => exact fun x _ spoken e same => (spoken e same).1
  | _ => exact fun x _ _ e same => trivial

theorem spoken_agents {move : Option (QueueMove n m)} {agent : Fin n → Agent} {net : Queues n m}
    (calls : Calls cfg s l move agent) (carried : Carried cfg s.net move net)
    (spoken : s.net.Fits (Spoken s.loc.agent)) : s.net.Fits (Spoken agent) := by
  intro place x member e same
  have before := spoken place x member e same
  cases place with
  | box b => cases b <;> exact before
  | done => trivial
  | hand t =>
      cases t with
      | signaling i =>
          refine ⟨before.1, before.2.imp id ?_⟩
          rintro ⟨fd, sends⟩
          cases role : s.net.role (.signaling i) with
          | holding y => exact ⟨fd, sends_kept calls carried role sends⟩
          | _ =>
              rw [Net.contents, role] at member
              cases member
      | _ => exact before

theorem reached_spoken (reached : Reached cfg admits s) : s.net.Fits (Spoken s.loc.agent) := by
  apply reached_calls (fun s => s.net.Fits (Spoken s.loc.agent)) (Net.empty_fits _) (fun _ _ spoken => spoken) _ reached
  intro s s' l move before spoken _ calls act carried
  have agents := spoken_agents calls carried spoken
  match move with
  | none =>
      rw [show s'.net = s.net from carried]
      exact agents
  | some move => exact Net.step_fits agents (act_spoken (reached_served before) act) carried

/-! ## The refinement -/

theorem mail_kept {move : Option (QueueMove n m)} (carried : Carried cfg s.net move s'.net)
    (nothing : ∀ t e, move ≠ some (.create t (.msg e))) {origin : Nat} {msg : RtcMsg (Fin n)}
    (mail : Mail s' origin msg) : Mail s origin msg := by
  obtain ⟨e, member, same⟩ := mail
  rcases carried_created carried with unchanged | ⟨t, x, rfl, added⟩
  · exact ⟨e, unchanged ▸ member, same⟩
  · rw [added, List.mem_append, List.mem_singleton] at member
    rcases member with earlier | rfl
    · exact ⟨e, earlier, same⟩
    · exact absurd rfl (nothing t e)

theorem mail_added {t : Thread n m} {e : Envelope n}
    (carried : Carried cfg s.net (some (.create t (.msg e))) s'.net) {origin : Nat} {msg : RtcMsg (Fin n)}
    (mail : Mail s' origin msg) : Mail s origin msg ∨ origin = e.origin ∧ msg = e.msg := by
  obtain ⟨e', member, same⟩ := mail
  rw [Net.step_created carried, List.mem_append] at member
  rcases member with earlier | new
  · exact .inl ⟨e', earlier, same⟩
  · cases List.mem_singleton.1 new
    exact .inr ⟨same.1.symm, same.2.symm⟩

def Followed (json : Json V) (s : System n m) : Prop :=
  ∀ i, Follows json success (Mail s) (s.loc.agent i)

theorem calls_followed {move : Option (QueueMove n m)} (reached : Reached cfg Orderly s)
    (followed : Followed cfg.json s) (orderly : Orderly s l) (calls : Calls cfg s l move s'.loc.agent)
    (carried : Carried cfg s.net move s'.net) : Followed cfg.json s' := by
  have owned := reached_owned reached
  have cfd (i : Fin n) (fd : Int) (c : ConnPtr)
      (held : lookup (s.loc.agent i).worker.conns fd = some c) : c.obj.cfd = fd :=
    owned.cfd i fd _ (slot_of_lookup held)
  -- a step that asks nothing, with the worker it is taken on followed behind it
  have update {i : Fin n} {a : Agent} (nothing : ∀ t e, move ≠ some (.create t (.msg e)))
      (agents : s'.loc.agent = Function.update s.loc.agent i a)
      (new : Follows cfg.json success (Mail s) a) : Followed cfg.json s' := by
    intro k
    apply Follows.mono _ fun _ _ _ _ mail => mail_kept carried nothing mail
    rw [agents]
    by_cases here : k = i
    · subst here
      rwa [Function.update_self]
    · rw [Function.update_of_ne here]
      exact followed k
  generalize agents : s'.loc.agent = agent at calls
  cases calls with
  | still nothing =>
      intro k
      rw [agents]
      exact (followed k).mono fun _ _ _ _ mail => mail_kept carried nothing mail
  | io free idle found ran =>
      refine update (by simp) agents (connIoCb_follows (followed _) idle ?_ ran)
      rintro c bytes held rfl
      exact orderly.2 _ c found held
  | timer free idle ran => exact update (by simp) agents (processTimeout_follows (followed _) idle ran)
  | query ran => exact update (by simp) agents (query_follows (followed _) ran)
  | sent ran => exact update (fun _ _ => by split <;> simp) agents (sent_follows (followed _) ran)
  | close ran => exact update (by simp) agents (close_follows (followed _) ran)
  | remove ran => exact update (by simp) agents (remove_follows (cfd _) (followed _) ran)
  | reply ran => exact update (by simp) agents (writeReply_follows (followed _) ran)
  | register idle holds ran =>
      refine update (by simp) agents (register_follows (followed _) idle (fun msg mail => ?_) ran)
      obtain ⟨r, registered, same⟩ := reached_registers reached _ msg mail
      exact (register_empty owned reached idle holds).2.1 r registered same.symm
  | @offer i mem e worker idle holds ran =>
      refine update (by simp) agents (offer_follows (followed _) idle (cfd _) ?_ (fun c found => ?_) ran)
      · have told : Tells s.loc.agent e.msg (.hand (.signaling i) : Place (Thread n m) (Box n m)) := by
          apply reached_spoken reached _ (.msg e) _ e rfl
          simp [Net.contents, holds, Role.held]
        have sdp : e.msg.sdp = utf8 "offer" := told.2.resolve_right fun sends => by
          rw [idle] at sends
          exact loop_quiet sends.choose_spec
        rw [RtcMsg.resRoot, told.1, sdp]
        rfl
      · have noReuse : Reached cfg NoReuse s := reached.mono fun _ _ orderly => orderly.1
        have origin : c.origin = e.origin := offer_origin noReuse holds (by rw [found]; rfl)
        rw [origin]
        exact mail_of_held reached holds
  | @ask i a msg origin ran =>
      obtain ⟨fd, c, params, header, held, -, rfl⟩ := query_asked ran
      have mine := slot_of_lookup held
      intro k
      rw [agents]
      by_cases here : k = i
      · subst here
        rw [Function.update_self]
        refine Follows.mono (query_sends (followed k) ?_ ran) fun _ _ _ _ mail => mail_added carried mail
        intro fd c fd' c' held held' same
        exact (owned.slot_unique (slot_of_lookup held) (slot_of_lookup held') same).2
      · rw [Function.update_of_ne here]
        refine (followed k).mono fun fd' c' msg held' mail => (mail_added carried mail).resolve_right fun new => ?_
        exact here (owned.slot_unique (slot_of_lookup held') mine new.1).1

theorem reached_followed (reached : Reached cfg Orderly s) : Followed cfg.json s := by
  apply reached_calls (Followed cfg.json) _ (fun _ _ followed => followed) _ reached
  · intro i fd c held
    simp [System.start, SignalingWorker.empty, lookup] at held
  · intro s s' l move before followed orderly calls _ carried
    exact calls_followed before followed orderly calls carried

/-- In every run of the threads, each registered connection is in a state of a run of its own events, and in
the place of its code that belongs to it; so its fields are in step and its accesses stay in the buffer. -/
theorem connection_refined (cfg : Config V m) (s : System n m) (reached : Reached cfg Orderly s) :
    ∀ i fd c, lookup (s.loc.agent i).worker.conns fd = some c →
      ∃ p, Run cfg.json success fd p ∧ p.obj = c.obj ∧ p.phase = phaseOf fd (s.loc.agent i).pc ∧
        (Parsing.Small p.received → Parsing.Framed p) := by
  intro i fd c held
  obtain ⟨p, traced⟩ := reached_followed reached i fd c held
  exact ⟨p, traced.run, traced.same, traced.phase, fun small => (run_kept traced.run small).toFramed⟩

end Runs

/-! ## A run with two connections -/

def offered (s : System n m) : Label n m → Bool
  | .io i watcher (some (.received bytes)) _ _ =>
      ((s.loc.agent i).worker.el.io watcher).all fun w =>
        (lookup (s.loc.agent i).worker.conns w.fd).all fun c => bytes.length ≤ c.obj.readLen
  | _ => true

theorem offered_sound (s : System n m) (l : Label n m) (passed : offered s l = true) : Offered s l := by
  cases l with
  | io i watcher read write now =>
      match read with
      | some (.received bytes) =>
          intro w c found held
          simpa [offered, found, held] using passed
      | some .again => trivial
      | some .failed => trivial
      | none => trivial
  | _ => trivial

def orderly (s : System n m) (l : Label n m) : Bool := noReuse s l && offered s l

theorem orderly_sound (s : System n m) (l : Label n m) (passed : orderly s l = true) : Orderly s l := by
  obtain ⟨unused, within⟩ := Bool.and_eq_true_iff.1 passed
  exact ⟨noReuse_sound s l unused, offered_sound s l within⟩

/-- The first of two connections has been answered. -/
theorem connection_refined_two : ∃ s : System 1 1, Reached (Notifications.small 1 1 (by decide)) Orderly s ∧
    ∃ c p, lookup (s.loc.agent 0).worker.conns 3 = some c ∧ c.obj.replyList.length = 1 ∧
      Run Json.sample success 3 p ∧ p.obj = c.obj ∧ p.phase = .waiting := by
  obtain ⟨s, reached, holds⟩ := exists_reachable_of_runLabels
    (System.step (Notifications.small 1 1 (by decide))) orderly_sound (System.start 1 1)
    (Notifications.connect 3 1 ++ Notifications.connect 4 2 ++ Notifications.ask 0 ++ Notifications.asked ++
      Notifications.answered)
    (fun s => decide ((s.loc.agent 0).pc = .loop) &&
      (lookup (s.loc.agent 0).worker.conns 3).any fun c => c.obj.replyList.length = 1) (by decide +kernel)
  rw [Bool.and_eq_true, decide_eq_true_eq, Option.any_eq_true] at holds
  obtain ⟨idle, c, held, one⟩ := holds
  obtain ⟨p, run, same, phase, -⟩ := connection_refined _ s reached 0 3 c held
  rw [idle] at phase
  exact ⟨s, reached, c, p, held, of_decide_eq_true one, run, same, phase⟩

end Xrtc.Proof.Refinement
