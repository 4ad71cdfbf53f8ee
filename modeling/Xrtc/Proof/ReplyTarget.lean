import Xrtc.Proof.Ownership

/-!
# Who gets a reply

`response_server_offer` finds the connection of a message by descriptor and address. Both can be used
again while the message is on its way; as long as they are not, the reply goes to the connection that
asked.
-/

namespace Xrtc.Proof.ReplyTarget
open Server Base Lib Lib.Mailbox Callbacks Table Steps Transit Ownership Notifications

variable {V : Type} {n m : Nat}

/-- A slot that would take the reply to `e` is the one `e` came from. -/
def Returns (agent : Fin n → Agent) (e : Envelope n) : Prop :=
  ∀ i c, e.msg.worker = some i → slot (agent i).worker e.msg.fd = some c → e.msg.conn = some c.addr →
    e.origin = c.origin

def Bound (agent : Fin n → Agent) (place : Place (Thread n m) (Box n m)) (x : Item n) : Prop :=
  place ≠ .done → ∀ e, x = .msg e → Returns agent e

/-- `new_conn` does not meet descriptor and address of a message on its way. -/
def NoReuse (s : System n m) : Label n m → Prop
  | .register i addr _ => ∀ fd origin, s.net.role (.signaling i) = .holding (.conn fd origin) →
      ∀ place ≠ .done, ∀ e, .msg e ∈ s.net.contents place →
        ¬ (e.msg.worker = some i ∧ e.msg.fd = fd ∧ e.msg.conn = some addr)
  | _ => True

section Returns

variable {agent : Fin n → Agent} {e : Envelope n}

theorem Returns.mono {agent' : Fin n → Agent} (returns : Returns agent e)
    (fewer : ∀ i fd c, slot (agent' i).worker fd = some c → slot (agent i).worker fd = some c) :
    Returns agent' e :=
  fun i c worker held conn => returns i c worker (fewer i _ c held) conn

theorem Returns.register {i : Fin n} {a : Agent} {fd : Int} {new : Identity} (returns : Returns agent e)
    (added : slot a.worker = Function.update (slot (agent i).worker) fd (some new))
    (unused : ¬ (e.msg.worker = some i ∧ e.msg.fd = fd ∧ e.msg.conn = some new.addr)) :
    Returns (Function.update agent i a) e := by
  intro k c worker held conn
  rcases slot_entry added held with ⟨rfl, this, new⟩ | ⟨-, old⟩
  · cases new
    exact absurd ⟨worker, this, conn⟩ unused
  · exact returns k c worker old conn

theorem Returns.still {i : Fin n} {a : Agent} (returns : Returns agent e)
    (same : slot a.worker = slot (agent i).worker) : Returns (Function.update agent i a) e := by
  apply returns.mono
  intro k fd c held
  rw [slots_update same] at held
  exact held

theorem Returns.remove {i : Fin n} {a : Agent} {fd : Int} (returns : Returns agent e)
    (removed : slot a.worker = Function.update (slot (agent i).worker) fd none) :
    Returns (Function.update agent i a) e := by
  apply returns.mono
  intro k fd' c held
  rcases slot_entry removed held with ⟨-, -, new⟩ | ⟨-, old⟩
  · cases new
  · exact old

end Returns

section Bound

variable {cfg : Config V m} {admits : System n m → Label n m → Prop} {s : System n m}

theorem bound_agents {agent agent' : Fin n → Agent} {net : Queues n m} (bound : net.Fits (Bound agent))
    (kept : ∀ place ≠ .done, ∀ e, .msg e ∈ net.contents place → Returns agent e → Returns agent' e) :
    net.Fits (Bound agent') := by
  intro place x member unfinished e same
  subst same
  exact kept place unfinished e member (bound place _ member unfinished e rfl)

theorem act_bound {l : Label n m} {move : Option (QueueMove n m)} {loc : Local n m} {net : Queues n m}
    {agent : Fin n → Agent} (act : Act cfg s l move loc) (carried : Carried cfg s.net move net)
    (bound : s.net.Fits (Bound agent))
    (asked : ∀ t e, move = some (.create t (.msg e)) → Returns agent e) : net.Fits (Bound agent) := by
  match move with
  | none =>
      rw [show net = s.net from carried]
      exact bound
  | some move =>
      refine Net.step_fits bound ?_ carried
      cases act with
      | accept _ _ => exact fun _ e same => by cases same
      | dispatch _ => exact fun x _ fit _ => fit (by simp)
      | notify _ => split <;> trivial
      | sent _ => split <;> trivial
      | wake => trivial
      | pop => exact fun b x _ fit _ => fit (by simp)
      | forward _ _ => exact fun x _ fit _ => fit (by simp)
      | send _ => exact fun x _ fit _ => fit (by simp)
      | process holds task =>
          intro x held fit _ e same
          rw [holds] at held
          cases held
          cases same
          have returns : Returns agent _ := fit (by simp) _ rfl
          obtain ⟨-, -, sdp_only⟩ := processRtcMsg_send task
          rw [sdp_only]
          exact returns
      | ask _ _ =>
          intro _ e same
          cases same
          exact asked _ _ rfl
      | _ => exact fun x _ _ finished => absurd rfl finished

theorem returns_asked {i : Fin n} {fd : Int} {c : ConnPtr} {params : PushParams} {header : List UInt8}
    {serial : Nat} (owned : Owned s) (held : lookup (s.loc.agent i).worker.conns fd = some c) :
    Returns s.loc.agent ⟨pushMsg params header i c.addr c.obj.cfd, i, c.origin, serial⟩ := by
  intro k d worker slot_eq _
  cases worker
  have mine := slot_of_lookup held
  have cfd : c.obj.cfd = fd := owned.cfd _ _ _ mine
  rw [show (pushMsg params header i c.addr c.obj.cfd).fd = fd from cfd, mine] at slot_eq
  cases slot_eq
  rfl

theorem act_agents {l : Label n m} {move : Option (QueueMove n m)} {loc : Local n m} (owned : Owned s)
    (admitted : NoReuse s l) (act : Act cfg s l move loc) (bound : s.net.Fits (Bound s.loc.agent)) :
    s.net.Fits (Bound loc.agent) := by
  cases act with
  | register idle holds registered =>
      apply bound_agents bound
      intro place unfinished e member returns
      exact returns.register (slot_newConn registered) (admitted _ _ holds place unfinished e member)
  | remove at_pc held removed =>
      apply bound_agents bound
      intro place _ e _ returns
      exact returns.remove (slot_removeConn held (owned.cfd _ _ _ (slot_of_lookup held)) removed)
  | offer idle holds offered =>
      apply bound_agents bound
      intro place _ e _ returns
      apply returns.still
      exact slot_responseServerOffer (fun fd c held => owned.cfd _ fd _ (slot_of_lookup held)) offered
  | turn still => exact bound_agents bound fun _ _ _ _ returns => returns.still still.slot_eq
  | sent still => exact bound_agents bound fun _ _ _ _ returns => returns.still still.slot_eq
  | ask still _ => exact bound_agents bound fun _ _ _ _ returns => returns.still still.slot_eq
  | close _ _ => exact bound_agents bound fun _ _ _ _ returns => returns.still rfl
  | _ => exact bound

theorem act_asked {l : Label n m} {t : Thread n m} {e : Envelope n} {loc : Local n m} (owned : Owned s)
    (act : Act cfg s l (some (.create t (.msg e))) loc) : Returns loc.agent e := by
  generalize created : (some (.create t (.msg e)) : Option (QueueMove n m)) = move at act
  cases act with
  | ask still held =>
      cases created
      exact (returns_asked owned held).still still.slot_eq
  | notify _ => split at created <;> cases created
  | sent _ => split at created <;> cases created
  | _ => cases created

theorem reached_bound (reached : Reached cfg NoReuse s) : s.net.Fits (Bound s.loc.agent) := by
  apply reached_invariant (fun s => s.net.Fits (Bound s.loc.agent)) (Net.empty_fits _) _ _ reached
  · exact fun s fault bound => bound
  · intro s s' l move before bound admitted act carried
    have owned := reached_owned before
    apply act_bound act carried (act_agents owned admitted act bound)
    rintro t e rfl
    exact act_asked owned act

theorem offerTarget_conn {w : SignalingWorker} {msg : RtcMsg (Fin n)} {c : ConnPtr}
    (target : w.offerTarget msg = some c) : msg.conn = some c.addr := by
  unfold SignalingWorker.offerTarget at target
  split at target
  · cases target
  · next addr conn =>
      split at target
      · cases target
      · split at target
        · cases target
        · split at target
          · cases target
          · next same =>
              cases target
              rw [conn, not_not.1 same]

theorem offer_origin {i : Fin n} {e : Envelope n} {origin : Nat} (reached : Reached cfg NoReuse s)
    (holds : s.net.role (.signaling i) = .holding (.msg e))
    (target : ((s.loc.agent i).worker.offerTarget e.msg).map ConnPtr.origin = some origin) :
    origin = e.origin := by
  obtain ⟨c, found, rfl⟩ := Option.map_eq_some_iff.1 target
  have returns : Returns s.loc.agent e := by
    apply reached_bound reached (.hand (.signaling i)) (.msg e) _ (by simp) e rfl
    rw [Net.contents, holds]
    exact List.mem_singleton_self _
  obtain ⟨proper, creator⟩ := hand_fits reached holds
  have worker : e.msg.worker = some i := by rw [proper.worker, creator]
  exact (returns i _ worker (slot_of_lookup (offerTarget_held found)) (offerTarget_conn found)).symm

def Answered : Event n m → Prop
  | .offer _ e (some origin) => origin = e.origin
  | _ => True

theorem act_answered {l : Label n m} {move : Option (QueueMove n m)} {loc : Local n m}
    (reached : Reached cfg NoReuse s) (act : Act cfg s l move loc)
    (answered : ∀ event ∈ s.loc.log, Answered event) : ∀ event ∈ loc.log, Answered event := by
  cases act with
  | @offer i _ e _ _ holds _ =>
      apply record_forall answered
      cases target : ((s.loc.agent i).worker.offerTarget e.msg).map ConnPtr.origin with
      | none => trivial
      | some origin => exact offer_origin reached holds target
  | homeless _ _ => exact record_forall answered trivial
  | process _ _ => exact record_forall answered trivial
  | unknown _ _ => exact record_forall (record_forall answered trivial) trivial
  | orphan _ _ => exact record_forall (record_forall answered trivial) trivial
  | register _ _ _ => exact record_forall answered trivial
  | stranger _ _ => exact record_forall answered trivial
  | close _ _ => exact record_forall answered trivial
  | _ => exact answered

theorem reply_to_asker (reached : Reached cfg NoReuse s) :
    ∀ i e origin, .offer i e (some origin) ∈ s.loc.log → origin = e.origin := by
  have answered : ∀ event ∈ s.loc.log, Answered event := by
    apply reached_invariant (fun s => ∀ event ∈ s.loc.log, Answered event) _ (fun _ _ kept => kept) _ reached
    · intro event member
      cases member
    · intro s s' l move before kept _ act _
      exact act_answered before act kept
  exact fun i e origin logged => answered _ logged

end Bound

/-! ## Two runs -/

def addressed (i : Fin n) (fd : Int) (addr : Nat) : Item n → Bool
  | .conn _ _ => false
  | .msg e => e.msg.worker = some i && e.msg.fd = fd && e.msg.conn = some addr

def noReuse (s : System n m) : Label n m → Bool
  | .register i addr _ =>
      match s.net.role (.signaling i) with
      | .holding (.conn fd _) =>
          decide (∀ place, place = .done ∨ (s.net.contents place).any (addressed i fd addr) = false)
      | _ => true
  | _ => true

theorem noReuse_sound (s : System n m) (l : Label n m) (passed : noReuse s l = true) : NoReuse s l := by
  cases l with
  | register i addr now =>
      intro fd origin holds place unfinished e member reused
      dsimp only [noReuse] at passed
      rw [holds] at passed
      have none := (of_decide_eq_true passed place).resolve_left unfinished
      have found : (s.net.contents place).any (addressed i fd addr) = true :=
        List.any_eq_true.2 ⟨_, member, by simp [addressed, reused]⟩
      rw [none] at found
      cases found
  | _ => trivial

def answeredBy (asker receiver : Nat) : Event n m → Bool
  | .offer _ e target => e.origin = asker && target = some receiver
  | _ => false

/-- A second connection is registered while the message of the first is on its way. -/
theorem reply_to_asker_two : ∃ s : System 1 1, Reached (small 1 1 (by decide)) NoReuse s ∧
    ∃ i e, .offer i e (some 0) ∈ s.loc.log ∧ e.origin = 0 := by
  obtain ⟨s, reached, holds⟩ := exists_reachable_of_runLabels (System.step (small 1 1 (by decide)))
    noReuse_sound (System.start 1 1) (connect 3 1 ++ ask 0 ++ asked ++ connect 4 2 ++ answered)
    (fun s => s.loc.log.any (answeredBy 0 0)) (by decide +kernel)
  obtain ⟨event, logged, offer⟩ := List.any_eq_true.1 holds
  cases event with
  | offer i e target =>
      simp only [answeredBy, Bool.and_eq_true, decide_eq_true_eq] at offer
      rw [offer.2] at logged
      exact ⟨s, reached, i, e, logged, (reply_to_asker reached i e 0 logged).symm⟩
  | _ => cases offer

/-- The asker goes away and the next connection gets its descriptor, its address and its reply. -/
theorem reply_to_stranger : ∃ s : System 1 1, Reached (small 1 1 (by decide)) Delivered s ∧
    ∃ i e, .offer i e (some 1) ∈ s.loc.log ∧ e.origin = 0 := by
  obtain ⟨s, reached, holds⟩ := exists_reachable_of_runLabels (System.step (small 1 1 (by decide)))
    delivered_sound (System.start 1 1)
    (connect 3 1 ++ ask 0 ++ asked ++ hangUp 0 ++ connect 3 1 ++ answered)
    (fun s => s.loc.log.any (answeredBy 0 1)) (by decide +kernel)
  obtain ⟨event, logged, offer⟩ := List.any_eq_true.1 holds
  cases event with
  | offer i e target =>
      simp only [answeredBy, Bool.and_eq_true, decide_eq_true_eq] at offer
      rw [offer.2] at logged
      exact ⟨s, reached, i, e, logged, offer.1⟩
  | _ => cases offer

end Xrtc.Proof.ReplyTarget
