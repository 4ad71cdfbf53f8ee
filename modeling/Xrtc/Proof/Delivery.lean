import Xrtc.Proof.Affinity

/-!
# Messages are answered once

A message is in exactly one place from `process_push` to `response_server_offer`, which is called for
it once, by the worker that made it.
-/

namespace Xrtc.Proof.Delivery
open Server Base Lib Lib.Mailbox Steps Transit Affinity Notifications

variable {V : Type} {n m : Nat}

/-- How often a message is at a place, whatever its `sdp`. -/
def copies (s : System n m) (e : Envelope n) (place : Place (Thread n m) (Box n m)) : Nat :=
  ((s.net.contents place).map content).count (.msg (unanswered e))

def offersOf (e : Envelope n) : Event n m → Option (Fin n)
  | .offer i e' _ => if unanswered e' = unanswered e then some i else none
  | _ => none

def OnTheWay (e : Envelope n) : Place (Thread n m) (Box n m) → Prop
  | .box .server => True
  | .box (.worker _) => True
  | .box (.replies i) => e.msg.worker = some i
  | .hand (.signaling i) => i = e.creator
  | .hand .rtcServer => True
  | .hand (.rtcWorker _) => True
  | _ => False

def Lost : Event n m → Prop
  | .unknown _ _ => True
  | .dropped _ _ => True
  | _ => False

section Reached

variable {cfg : Config V m} {admits : System n m → Label n m → Prop} {s : System n m}

/-! ## Nothing is dropped -/

theorem process_sends (reached : Reached cfg admits s) {j : Fin m} {e : Envelope n}
    (holds : s.net.role (.rtcWorker j) = .holding (.msg e)) :
    ∃ msg, RtcWorker.processRtcMsg e.msg = .send e.creator msg := by
  have proper : Proper e := hand_fits reached holds
  simp [RtcWorker.processRtcMsg, RtcWorker.processPush, proper.cmdno, proper.worker]

theorem reached_kept (workers : 1 ≤ m) (reached : Reached cfg admits s) :
    ∀ event ∈ s.loc.log, ¬ Lost event := by
  apply reached_invariant (fun s => ∀ event ∈ s.loc.log, ¬ Lost event)
    (fun _ member => by cases member) (fun _ _ kept => kept) _ reached
  intro s s' l move before kept _ act _
  generalize s'.loc = loc at act ⊢
  cases act with
  | homeless _ nobody =>
      rw [reached_server before, getWorker_init cfg workers] at nobody
      cases nobody
  | process _ _ => exact record_forall kept not_false
  | unknown holds task =>
      obtain ⟨msg, sends⟩ := process_sends before holds
      rw [sends] at task
      cases task
  | orphan holds task =>
      obtain ⟨msg, sends⟩ := process_sends before holds
      rw [sends] at task
      cases task
  | register _ _ _ => exact record_forall kept not_false
  | offer _ _ _ => exact record_forall kept not_false
  | stranger holds other => exact absurd (hand_fits before holds).1.cmdno other
  | close _ _ => exact record_forall kept not_false
  | _ => exact kept

/-! ## One offer for each message -/

theorem act_offers (workers : 1 ≤ m) (before : Reached cfg admits s) {l : Label n m}
    {move : Option (QueueMove n m)} {loc : Local n m} (act : Act cfg s l move loc) (e : Envelope n) :
    loc.log.filterMap (offersOf e) = s.loc.log.filterMap (offersOf e) ++
      List.replicate (((consumes s move).map content).count (.msg (unanswered e))) e.creator := by
  cases act with
  | homeless _ nobody =>
      rw [reached_server before, getWorker_init cfg workers] at nobody
      cases nobody
  | unknown holds task =>
      obtain ⟨msg, sends⟩ := process_sends before holds
      rw [sends] at task
      cases task
  | orphan holds task =>
      obtain ⟨msg, sends⟩ := process_sends before holds
      rw [sends] at task
      cases task
  | stranger holds other => exact absurd (hand_fits before holds).1.cmdno other
  | register _ holds _ =>
      rw [consumes_hand holds, Local.record, List.filterMap_append]
      rfl
  | @offer i _ e' _ _ holds _ =>
      rw [consumes_hand holds, Local.record, List.filterMap_append]
      by_cases same : unanswered e' = unanswered e
      · have made : i = e.creator := by
          rw [← (hand_fits before holds).2]
          exact congrArg (fun e => e.creator) same
        simp [content, offersOf, same, made, Local.setAgent]
      · simp [content, offersOf, same, Local.setAgent]
  | process _ _ =>
      rw [Local.record, List.filterMap_append]
      rfl
  | close _ _ =>
      rw [Local.record, List.filterMap_append]
      rfl
  | notify _ => split <;> exact (List.append_nil _).symm
  | sent _ => split <;> exact (List.append_nil _).symm
  | _ => exact (List.append_nil _).symm

theorem reached_offers (workers : 1 ≤ m) (reached : Reached cfg admits s) (e : Envelope n) :
    s.loc.log.filterMap (offersOf e) = List.replicate (copies s e .done) e.creator := by
  apply reached_invariant
    (fun s => s.loc.log.filterMap (offersOf e) = List.replicate (copies s e .done) e.creator) rfl
    (fun _ _ inv => inv) _ reached
  intro s s' l move before inv _ act carried
  rw [act_offers workers before act, inv, List.replicate_append_replicate]
  simp only [copies, Net.contents, carried_consumed carried, List.map_append, List.count_append]

/-! ## One place for each message -/

theorem content_eq_msg {x : Item n} {e : Envelope n} (same : content x = .msg (unanswered e)) :
    ∃ e', x = .msg e' ∧ unanswered e' = unanswered e := by
  cases x with
  | conn fd origin => cases same
  | msg e' => exact ⟨e', rfl, Item.msg.inj same⟩

theorem exists_copy {e : Envelope n} {place : Place (Thread n m) (Box n m)} (some : 0 < copies s e place) :
    ∃ e', .msg e' ∈ s.net.contents place ∧ unanswered e' = unanswered e := by
  obtain ⟨x, member, same⟩ := List.mem_map.1 (List.count_pos_iff.1 some)
  obtain ⟨e', rfl, same'⟩ := content_eq_msg same
  exact ⟨e', member, same'⟩

theorem created_once (reached : Reached cfg admits s) {e : Envelope n} (sent : .msg e ∈ s.net.created) :
    (s.net.created.map content).count (.msg (unanswered e)) = 1 := by
  have stamps : (s.net.created.map content).map stamp = s.net.created.map stamp := by
    rw [List.map_map]
    exact List.map_congr_left fun x _ => stamp_content x
  apply List.count_eq_one_of_mem
  · apply List.Nodup.of_map stamp
    rw [stamps]
    exact (reached_stamped reached).nodup
  · exact List.mem_map.2 ⟨.msg e, sent, rfl⟩

theorem onTheWay_of_fit {e e' : Envelope n} {place : Place (Thread n m) (Box n m)}
    (same : unanswered e' = unanswered e) (fit : Fit place (.msg e')) (unfinished : place ≠ .done) :
    OnTheWay e place := by
  have worker : e'.msg.worker = e.msg.worker := congrArg (fun e => e.msg.worker) same
  have creator : e'.creator = e.creator := congrArg (fun e => e.creator) same
  cases place with
  | done => exact absurd rfl unfinished
  | box b =>
      cases b with
      | conns i => cases fit
      | replies i =>
          obtain ⟨proper, rfl⟩ := fit
          exact worker.symm.trans proper.worker
      | server => trivial
      | worker j => trivial
  | hand t =>
      cases t with
      | acceptor => cases fit
      | signaling i => exact fit.2.symm.trans creator
      | rtcServer => trivial
      | rtcWorker j => trivial

/-- Every message that `process_push` sends is in one place, and there once, until the one call of
`response_server_offer` for it, on the worker that sent it and with all fields but `sdp` as they were. -/
theorem message_answered_once (workers : 1 ≤ m) (reached : Reached cfg Always s) :
    (∀ e, .msg e ∈ s.net.created → ∃ place,
        copies s e place = 1 ∧ (∀ other ≠ place, copies s e other = 0) ∧
        (OnTheWay e place ∧ s.loc.log.filterMap (offersOf e) = [] ∨
          place = .done ∧ s.loc.log.filterMap (offersOf e) = [e.creator])) ∧
      (∀ i e target, .offer i e target ∈ s.loc.log →
        ∃ sent, .msg sent ∈ s.net.created ∧ i = sent.creator ∧ unanswered e = unanswered sent) ∧
      ∀ t e, .unknown t e ∉ s.loc.log ∧ .dropped t e ∉ s.loc.log := by
  have conserved := reached_content reached
  have offers := reached_offers workers reached
  have kept := reached_kept workers reached
  refine ⟨fun e sent => ?_, fun i e target logged => ?_, fun t e => ?_⟩
  · obtain ⟨place, one, others⟩ := conserved.one_place (created_once reached sent)
    refine ⟨place, one, others, ?_⟩
    by_cases finished : place = .done
    · subst finished
      right
      refine ⟨rfl, ?_⟩
      rw [offers, show copies s e .done = 1 from one]
      rfl
    · left
      have present : 0 < copies s e place := by rw [copies, one]; decide
      obtain ⟨e', member, same⟩ := exists_copy present
      refine ⟨onTheWay_of_fit same (reached_fits reached _ _ member) finished, ?_⟩
      rw [offers, show copies s e .done = 0 from others .done (Ne.symm finished)]
      rfl
  · have member : i ∈ s.loc.log.filterMap (offersOf e) :=
      List.mem_filterMap.2 ⟨_, logged, by simp [offersOf]⟩
    rw [offers, List.mem_replicate] at member
    have total := conserved (.msg (unanswered e))
    have part := Finset.single_le_sum
      (f := fun place => ((s.net.contents place).map content).count (.msg (unanswered e)))
      (fun _ _ => Nat.zero_le _) (Finset.mem_univ .done)
    have created : 0 < (s.net.created.map content).count (.msg (unanswered e)) :=
      (Nat.pos_of_ne_zero member.1).trans_le (part.trans total.le)
    obtain ⟨x, sent, same⟩ := List.mem_map.1 (List.count_pos_iff.1 created)
    obtain ⟨e', rfl, same'⟩ := content_eq_msg same
    refine ⟨e', sent, member.2.trans ?_, same'.symm⟩
    exact congrArg (fun e => e.creator) same'.symm
  · exact ⟨fun logged => kept _ logged trivial, fun logged => kept _ logged trivial⟩

end Reached

def isOffer : Event n m → Bool
  | .offer _ _ _ => true
  | _ => false

theorem message_answered_once_roundtrip : ∃ s : System 1 1, Reached (small 1 1 (by decide)) Always s ∧
    ∃ e, .msg e ∈ s.net.created ∧ s.loc.log.filterMap (offersOf e) = [0] := by
  obtain ⟨s, reached, holds⟩ := exists_reachable_of_runLabels (System.step (small 1 1 (by decide)))
    always_sound (System.start 1 1)
    (connect 3 1 ++ ask 0 ++ asked ++ answered)
    (fun s => s.loc.log.any isOffer) (by decide +kernel)
  obtain ⟨event, logged, offer⟩ := List.any_eq_true.1 holds
  cases event with
  | offer i e target =>
      obtain ⟨places, offers, -⟩ := message_answered_once (by decide) reached
      obtain ⟨sent, created, made, same⟩ := offers i e target logged
      refine ⟨s, reached, sent, created, ?_⟩
      have member : i ∈ s.loc.log.filterMap (offersOf sent) :=
        List.mem_filterMap.2 ⟨_, logged, by simp [offersOf, same]⟩
      obtain ⟨place, -, -, ⟨-, none⟩ | ⟨-, once⟩⟩ := places sent created
      · rw [none] at member
        cases member
      · rw [once, ← made, Fin.fin_one_eq_zero i]
  | _ => cases offer

end Xrtc.Proof.Delivery
