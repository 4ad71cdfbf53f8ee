import Xrtc.Proof.Steps

/-!
# What is where

Connections and messages on their way through the queues: each is in one place, and only where the
code puts it.
-/

namespace Xrtc.Proof.Transit
open Server Base Lib Lib.Mailbox Callbacks Steps

variable {V : Type} {n m : Nat}

/-! ## Conservation -/

/-- A message without the field that the rtc worker sets. -/
def unanswered (e : Envelope n) : Envelope n := { e with msg := { e.msg with sdp := [] } }

def content : Item n → Item n
  | .conn fd origin => .conn fd origin
  | .msg e => .msg (unanswered e)

inductive Number
  | accept (origin : Nat)
  | message (serial : Nat)
  deriving DecidableEq

def stamp : Item n → Number
  | .conn _ origin => .accept origin
  | .msg e => .message e.serial

theorem stamp_content (x : Item n) : stamp (content x) = stamp x := by
  cases x <;> rfl

theorem processRtcMsg_send {msg msg' : RtcMsg (Fin n)} {i : Fin n}
    (task : RtcWorker.processRtcMsg msg = .send i msg') :
    msg.cmdno = CMDNO_PUSH ∧ msg.worker = some i ∧ msg' = { msg with sdp := msg'.sdp } := by
  unfold RtcWorker.processRtcMsg at task
  split at task
  · next push =>
      unfold RtcWorker.processPush at task
      dsimp only at task
      split at task
      · cases task
      · next worker named =>
          cases task
          exact ⟨push, named, rfl⟩
  · cases task

theorem unanswered_sent {e : Envelope n} {msg : RtcMsg (Fin n)} {i : Fin n}
    (task : RtcWorker.processRtcMsg e.msg = .send i msg) :
    unanswered { e with msg := msg } = unanswered e := by
  obtain ⟨-, -, same⟩ := processRtcMsg_send task
  rw [same]
  rfl

section Acts

variable {cfg : Config V m} {admits : System n m → Label n m → Prop} {s : System n m}

theorem act_keeps_content {l : Label n m} {move : QueueMove n m} {loc : Local n m}
    (act : Act cfg s l (some move) loc) : move.Keeps content s.net := by
  cases act with
  | process holds task =>
      intro x held
      rw [holds] at held
      cases held
      exact congrArg Item.msg (unanswered_sent task)
  | dispatch _ => exact fun _ _ => rfl
  | forward _ _ => exact fun _ _ => rfl
  | send _ => exact fun _ _ => rfl
  | notify _ => split <;> trivial
  | sent _ => split <;> trivial
  | _ => trivial

theorem reached_content (reached : Reached cfg admits s) : s.net.Conserved content := by
  apply reached_net (Net.Conserved content) (Net.empty_conserved _) _ reached
  intro s l move net loc _ conserved _ act stepped
  exact Net.step_conserved conserved (act_keeps_content act) stepped

theorem act_keeps_stamp {l : Label n m} {move : QueueMove n m} {loc : Local n m}
    (act : Act cfg s l (some move) loc) : move.Keeps stamp s.net := by
  have keeps := act_keeps_content act
  cases move with
  | push t b f =>
      intro x held
      rw [← stamp_content (f x), keeps x held, stamp_content]
  | _ => trivial

theorem reached_stamp (reached : Reached cfg admits s) : s.net.Conserved stamp := by
  apply reached_net (Net.Conserved stamp) (Net.empty_conserved _) _ reached
  intro s l move net loc _ conserved _ act stepped
  exact Net.step_conserved conserved (act_keeps_stamp act) stepped

/-! ## Numbers -/

def Numbered (loc : Local n m) : Number → Prop
  | .accept origin => origin < loc.accepted
  | .message serial => serial < loc.sent

theorem act_numbered {l : Label n m} {move : Option (QueueMove n m)} {loc : Local n m}
    (act : Act cfg s l move loc) (k : Number) (old : Numbered s.loc k) : Numbered loc k := by
  cases act with
  | accept _ _ =>
      cases k with
      | accept origin => exact Nat.lt_succ_of_lt old
      | message serial => exact old
  | ask _ _ =>
      cases k with
      | accept origin => exact old
      | message serial => exact Nat.lt_succ_of_lt old
  | _ => cases k <;> exact old

theorem act_creates {l : Label n m} {t : Thread n m} {x : Item n} {loc : Local n m}
    (act : Act cfg s l (some (.create t x)) loc) :
    ¬ Numbered s.loc (stamp x) ∧ Numbered loc (stamp x) := by
  generalize created : (some (.create t x) : Option (QueueMove n m)) = move at act
  cases act with
  | accept _ _ =>
      cases created
      exact ⟨Nat.lt_irrefl _, Nat.lt_succ_self _⟩
  | ask _ _ =>
      cases created
      exact ⟨Nat.lt_irrefl _, Nat.lt_succ_self _⟩
  | notify _ => split at created <;> cases created
  | sent _ => split at created <;> cases created
  | _ => cases created

structure Stamped (s : System n m) : Prop where
  numbered : ∀ x ∈ s.net.created, Numbered s.loc (stamp x)
  nodup : (s.net.created.map stamp).Nodup

theorem carried_created {move : Option (QueueMove n m)} {net net' : Queues n m}
    (carried : Carried cfg net move net') :
    net'.created = net.created ∨
      ∃ t x, move = some (.create t x) ∧ net'.created = net.created ++ [x] := by
  match move with
  | none => exact .inl (by rw [carried])
  | some move =>
      have created := Net.step_created carried
      cases move with
      | create t x => exact .inr ⟨t, x, rfl, created⟩
      | _ => exact .inl (created.trans (List.append_nil _))

theorem reached_stamped (reached : Reached cfg admits s) : Stamped s := by
  apply reached_invariant Stamped _ _ _ reached
  · exact ⟨fun _ member => (by cases member), List.nodup_nil⟩
  · intro s fault stamped
    refine ⟨fun x member => ?_, stamped.nodup⟩
    have old := stamped.numbered x member
    cases x <;> exact old
  · intro s s' l move _ stamped _ act carried
    have kept (x : Item n) (member : x ∈ s.net.created) : Numbered s'.loc (stamp x) :=
      act_numbered act _ (stamped.numbered x member)
    rcases carried_created carried with same | ⟨t, y, rfl, added⟩
    · exact ⟨same ▸ kept, same ▸ stamped.nodup⟩
    · obtain ⟨fresh, new⟩ := act_creates act
      constructor
      · intro x member
        rw [added, List.mem_append, List.mem_singleton] at member
        rcases member with old | rfl
        · exact kept x old
        · exact new
      · rw [added, List.map_append, List.map_singleton, ← List.concat_eq_append, List.nodup_concat]
        refine ⟨fun repeated => ?_, stamped.nodup⟩
        obtain ⟨x, member, same⟩ := List.mem_map.1 repeated
        exact fresh (same ▸ stamped.numbered x member)

def consumes (s : System n m) : Option (QueueMove n m) → List (Item n)
  | none => []
  | some move => move.consumes s.net

theorem carried_consumed {move : Option (QueueMove n m)} {net : Queues n m}
    (carried : Carried cfg s.net move net) : net.consumed = s.net.consumed ++ consumes s move := by
  match move with
  | none =>
      rw [show net = s.net from carried]
      exact (List.append_nil _).symm
  | some move => exact Net.step_consumed carried

theorem consumes_hand {t : Thread n m} {x : Item n} (holds : s.net.role t = .holding x) :
    consumes s (some (.consume t)) = [x] := by
  rw [consumes, Move.consumes, holds]
  rfl

end Acts

/-! ## Where items can be -/

structure Proper (e : Envelope n) : Prop where
  cmdno : e.msg.cmdno = CMDNO_PUSH
  worker : e.msg.worker = some e.creator

def Fit : Place (Thread n m) (Box n m) → Item n → Prop
  | .box (.conns _), .conn _ _ => True
  | .box (.replies i), .msg e => Proper e ∧ e.creator = i
  | .box .server, .msg e => Proper e
  | .box (.worker _), .msg e => Proper e
  | .hand .acceptor, .conn _ _ => True
  | .hand (.signaling _), .conn _ _ => True
  | .hand (.signaling i), .msg e => Proper e ∧ e.creator = i
  | .hand .rtcServer, .msg e => Proper e
  | .hand (.rtcWorker _), .msg e => Proper e
  | .done, .conn _ _ => True
  | .done, .msg e => Proper e
  | _, _ => False

theorem fit_read {b : Box n m} {x : Item n} (fit : Fit (.box b) x) : Fit (.hand b.pipe.reader) x := by
  cases b <;> cases x <;> first | exact fit | cases fit

theorem fit_done {t : Thread n m} {x : Item n} (fit : Fit (.hand t) x) :
    Fit (.done : Place (Thread n m) (Box n m)) x := by
  cases t <;> cases x <;> first | trivial | exact fit.1

section Fits

variable {cfg : Config V m} {admits : System n m → Label n m → Prop} {s : System n m}

theorem act_fitting {l : Label n m} {move : QueueMove n m} {loc : Local n m}
    (served : s.net.Served (wiring n m cfg.capacity)) (act : Act cfg s l (some move) loc) :
    move.Fitting Fit s.net := by
  cases act with
  | accept _ _ => trivial
  | dispatch _ =>
      intro x _ fit
      cases x with
      | conn fd origin => trivial
      | msg e => cases fit
  | notify _ => split <;> trivial
  | sent _ => split <;> trivial
  | wake => trivial
  | pop =>
      intro b x woken fit
      rw [served _ b woken]
      exact fit_read fit
  | forward holds _ =>
      intro x held fit
      rw [holds] at held
      cases held
      exact fit
  | process holds task =>
      intro x held fit
      rw [holds] at held
      cases held
      obtain ⟨push, named, same⟩ := processRtcMsg_send task
      have proper : Proper _ := fit
      rw [proper.worker, Option.some.injEq] at named
      rw [same]
      exact ⟨⟨push, proper.worker⟩, named⟩
  | ask _ _ => exact ⟨⟨rfl, rfl⟩, rfl⟩
  | send holds =>
      intro x held fit
      rw [holds] at held
      cases held
      exact fit.1
  | _ => exact fun x _ fit => fit_done fit

theorem reached_fits (reached : Reached cfg admits s) : s.net.Fits Fit := by
  apply reached_net (Net.Fits Fit) (Net.empty_fits _) _ reached
  intro s l move net loc before fits _ act stepped
  exact Net.step_fits fits (act_fitting (reached_served before) act) stepped

theorem hand_fits (reached : Reached cfg admits s) {t : Thread n m} {x : Item n}
    (held : s.net.role t = .holding x) : Fit (.hand t : Place (Thread n m) (Box n m)) x := by
  apply reached_fits reached
  rw [Net.contents, held]
  exact List.mem_singleton_self x

end Fits

end Xrtc.Proof.Transit
