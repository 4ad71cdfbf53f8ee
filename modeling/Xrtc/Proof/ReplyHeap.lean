import Xrtc.Server.ReplyHeap
import Xrtc.Proof.Interest

/-!
# Which reply buffers are freed

The ledger of a run agrees with the table of connections, and every buffer that `zmalloc` gave is
in one `reply_list` or was lost with a connection.
-/

namespace Xrtc.Proof.ReplyHeap
open Base Server Lib Table Watchers Changes

variable {h h' : Host} {l l' : Ledger} {fd : Int} {replies : Custody Int Nat}

def queued (h : Host) (fd : Int) : Nat :=
  match lookup h.worker.conns fd with
  | none => 0
  | some c => c.obj.replyList.length

theorem queued_of_held {c : ConnPtr} (held : lookup h.worker.conns fd = some c) :
    queued h fd = c.obj.replyList.length := by
  rw [queued, held]

structure Settled (l : Ledger) : Prop where
  wired : Wired l.host.worker
  sound : l.replies.Sound
  agrees : ∀ fd, (l.replies.held fd).length = queued l.host fd

/-! ## The loop of write_reply -/

theorem writeLoop_popped {results : List WriteResult} {c c' : TcpConnection} {close : Bool}
    (done : c.writeLoop results = some (c', close)) : c'.replyList = c.replyList.drop (c.popped results) := by
  have writes := Outgoing.writeLoop_writes done
  clear done
  induction writes with
  | finished empty => rw [empty, List.drop_nil]
  | closes head failed =>
      unfold TcpConnection.popped
      simp only [head, failed, List.drop_zero]
  | goesOn head wrote _ ih =>
      conv_rhs => unfold TcpConnection.popped
      simp only [head, wrote]
      rw [ih, Nat.add_comm, ← List.drop_drop, ← head, Outgoing.writeStep_drop head wrote]

/-! ## Slots -/

theorem removed_slot {w w' : SignalingWorker} {c c' : ConnPtr} (wired : Wired w)
    (held : lookup w.conns fd = some c) (ids : SameIds c.obj c'.obj) (made : w.removeConn c' = .ok w') :
    lookup w'.conns = Function.update (lookup w.conns) fd none := by
  rw [removeConn_eq wired held ids] at made
  cases made
  exact lookup_set held none

theorem quiet_slot {w w' : SignalingWorker} (wired : Wired w) (quiet : Quiet fd w w') :
    ∃ entry, lookup w'.conns = Function.update (lookup w.conns) fd entry ∧
      ∀ c', entry = some c' →
        ∃ c, lookup w.conns fd = some c ∧ c'.obj.replyList = c.obj.replyList := by
  cases quiet with
  | same =>
      refine ⟨lookup w.conns fd, (Function.update_eq_self _ _).symm, fun c' held => ⟨c', held, rfl⟩⟩
  | @read c obj held ids replies =>
      refine ⟨some { c with obj := obj }, lookup_set held _, fun c' stored => ?_⟩
      cases stored
      exact ⟨c, held, replies.replyList⟩
  | removed held ids made => exact ⟨none, removed_slot wired held ids made, nofun⟩

theorem slot_settled {entry : Option ConnPtr} {blocks : List Nat} (settled : Settled l)
    (wired : Wired h'.worker) (sound : replies.Sound)
    (slots : lookup h'.worker.conns = Function.update (lookup l.host.worker.conns) fd entry)
    (held : replies.held = Function.update l.replies.held fd blocks)
    (self : ∀ c, entry = some c → blocks.length = c.obj.replyList.length) :
    Settled ⟨h', Ledger.settle h' fd replies⟩ := by
  have others (fd' : Int) (other : fd' ≠ fd) : (replies.held fd').length = queued h' fd' := by
    rw [held, Function.update_of_ne other, settled.agrees, queued, queued, slots,
      Function.update_of_ne other]
  have slot : lookup h'.worker.conns fd = entry := by rw [slots, Function.update_self]
  unfold Ledger.settle
  rw [slot]
  cases entry with
  | none =>
      refine ⟨wired, sound.abandon fd, fun fd' => ?_⟩
      by_cases same : fd' = fd
      · subst same
        simp [Custody.abandon, queued, slot]
      · simpa [Custody.abandon, same] using others fd' same
  | some c =>
      refine ⟨wired, sound, fun fd' => ?_⟩
      by_cases same : fd' = fd
      · subst same
        simpa [held, queued_of_held slot] using self c rfl
      · exact others fd' same

theorem quiet_settled (settled : Settled l) (quiet : Quiet fd l.host.worker h'.worker) :
    Settled ⟨h', Ledger.settle h' fd l.replies⟩ := by
  obtain ⟨entry, slots, keeps⟩ := quiet_slot settled.wired quiet
  apply slot_settled settled (Interest.quiet_wired settled.wired quiet) settled.sound slots
    (Function.update_eq_self _ _).symm
  intro c' stored
  obtain ⟨c, held, same⟩ := keeps c' stored
  rw [settled.agrees, queued_of_held held, same]

/-! ## Events -/

theorem popped_eq {c : ConnPtr} (positive : 0 < fd) (held : lookup l.host.worker.conns fd = some c)
    (results : List WriteResult) : l.popped fd results = c.obj.popped results := by
  unfold Ledger.popped
  rw [if_neg (Int.not_le.2 positive), held]

theorem after_inv {result : Option (Except Fault Host)} (done : Ledger.after fd replies result = some (.ok l')) :
    ∃ h', result = some (.ok h') ∧ l' = ⟨h', Ledger.settle h' fd replies⟩ := by
  rcases result with _ | fault | h'
  · cases done
  · cases done
  · cases done
    exact ⟨h', rfl, rfl⟩

theorem writeReply_settled {results : List WriteResult} {now : Nat} (settled : Settled l)
    (done : l.writeReply fd results now = some (.ok l')) : Settled l' := by
  obtain ⟨heap, released, sound⟩ := settled.sound.release fd (l.popped fd results)
  rw [Ledger.writeReply, released] at done
  obtain ⟨h', wrote, rfl⟩ := after_inv done
  obtain ⟨none, rfl⟩ | ⟨positive, c, obj, held, loop, closed⟩ |
    ⟨positive, c, obj, el, held, loop, stopped, rfl⟩ := writeReply_outcome wrote
  · have nothing : l.popped fd results = 0 := by
      rcases none with low | empty
      · rw [Ledger.popped, if_pos low]
      · simp [Ledger.popped, empty]
    apply slot_settled settled settled.wired sound (Function.update_eq_self _ _).symm rfl
    intro c held
    rw [nothing, List.drop_zero, settled.agrees, queued_of_held held]
  · have removed := closeConn_inv closed
    have ids := writeLoop_sameIds loop
    exact slot_settled settled (Interest.quiet_wired settled.wired (.removed held ids removed)) sound
      (removed_slot settled.wired held ids removed) rfl nofun
  · apply slot_settled settled (Interest.change_wired settled.wired (.drained positive held loop stopped))
      sound (lookup_set held _) rfl
    intro c' stored
    cases stored
    rw [popped_eq positive held, List.length_drop, settled.agrees, queued_of_held held,
      writeLoop_popped loop, List.length_drop]

theorem connIoCb_settled {read : Option ReadInput} {write : Option (List WriteResult)} {now : Nat}
    (settled : Settled l) (done : l.connIoCb fd read write now = some (.ok l')) : Settled l' := by
  unfold Ledger.connIoCb at done
  split at done
  · next l₁ first =>
      obtain ⟨h₁, readDone, rfl⟩ := after_inv first
      have settled₁ := quiet_settled settled (readable_quiet readDone)
      cases write with
      | none =>
          cases done
          exact settled₁
      | some results => exact writeReply_settled settled₁ done
  · obtain ⟨h₁, readDone, rfl⟩ := after_inv done
    exact quiet_settled settled (readable_quiet readDone)

section Runs

variable {V W : Type} {json : Json V} {timeout : Int} {addr : Nat} {e : WorkerEvent W}

theorem newConn_settled {cfd : Int} {addr origin now : Nat} (settled : Settled l) (nonneg : 0 ≤ cfd)
    (empty : lookup l.host.worker.conns cfd = none)
    (made : l.host.worker.newConn cfd addr origin now = .ok h'.worker) :
    Settled ⟨h', Ledger.settle h' cfd l.replies⟩ := by
  have wired := Interest.change_wired settled.wired (.opened nonneg empty made)
  rw [newConn_eq nonneg] at made
  have slots := (congrArg (fun w => lookup w.conns) (Except.ok.inj made)).symm.trans (lookup_added nonneg _)
  apply slot_settled settled wired settled.sound slots (Function.update_eq_self _ _).symm
  intro c new
  cases new
  rw [settled.agrees, queued, empty]
  rfl

theorem offer_settled {msg : RtcMsg W} {mem : Nat → UInt8} (settled : Settled l)
    (fresh : addr ∉ l.replies.heap) (done : l.offer json msg mem addr = some (.ok l')) : Settled l' := by
  obtain ⟨h', offered, rfl⟩ := after_inv done
  have event : l.host.event json 0 (.offer msg mem) = some (.ok h') := offered
  obtain ⟨target, same⟩ | ⟨c, reply, target, made⟩ := responseServerOffer_inv (offer_made event)
  · rw [target, if_neg (by simp)]
    apply quiet_settled settled
    rw [same]
    exact .same
  · have held := offerTarget_held target
    have wired := Interest.change_wired settled.wired (.added (offerTarget_positive target) held made)
    rw [target, if_pos (by simp)]
    apply slot_settled settled wired (settled.sound.acquire msg.fd fresh)
      (lookup_addReply held (settled.wired.cfd _ _ held) made) rfl
    intro c' stored
    cases stored
    simp [settled.agrees, queued_of_held held]

theorem event_settled (settled : Settled l) (admitted : Watchers.Admits l.host e)
    (fresh : addr ∉ l.replies.heap) (done : l.event json timeout addr e = some (.ok l')) : Settled l' := by
  cases e with
  | newConn cfd addr origin now =>
      obtain ⟨h', made, rfl⟩ := after_inv done
      exact newConn_settled settled admitted.1 admitted.2 (newConn_made made)
  | io watcher read write now =>
      simp only [Ledger.event] at done
      split at done
      · cases done
      · split at done
        · exact connIoCb_settled settled done
        · cases done
  | timer watcher now =>
      simp only [Ledger.event] at done
      split at done
      · cases done
      · next t found =>
          obtain ⟨h', fired, rfl⟩ := after_inv done
          exact quiet_settled settled (timer_quiet found fired)
  | offer msg mem => exact offer_settled settled fresh done
  | close cfd =>
      obtain ⟨h', closed, rfl⟩ := after_inv done
      exact quiet_settled settled (close_quiet closed)

/-! ## The ledger and the worker -/

/-- The worker does the same with and without the ledger, and nothing is freed that is not allocated. -/
def Erases : Option (Except LedgerFault Ledger) → Option (Except Fault Host) → Prop
  | none, none => True
  | some (.ok l), some (.ok h) => l.host = h
  | some (.error (.worker fault)), some (.error fault') => fault = fault'
  | _, _ => False

theorem Erases.ok {result : Option (Except LedgerFault Ledger)} (erases : Erases result (some (.ok h))) :
    ∃ l, result = some (.ok l) ∧ l.host = h := by
  rcases result with _ | (_ | _) | l
  · cases erases
  · cases erases
  · cases erases
  · exact ⟨l, rfl, erases⟩

theorem after_erases (replies : Custody Int Nat) (result : Option (Except Fault Host)) :
    Erases (Ledger.after fd replies result) result := by
  rcases result with _ | fault | h'
  · trivial
  · rfl
  · rfl

theorem connIoCb_erases (settled : Settled l) (fd : Int) (read : Option ReadInput)
    (write : Option (List WriteResult)) (now : Nat) :
    Erases (l.connIoCb fd read write now) (l.host.connIoCb fd read write now) := by
  unfold Ledger.connIoCb Host.connIoCb
  rcases readDone : l.host.readable fd read now with _ | fault | h₁
  · trivial
  · rfl
  · cases write with
    | none => rfl
    | some results =>
        have settled₁ := quiet_settled settled (readable_quiet readDone)
        obtain ⟨heap, released, -⟩ := settled₁.sound.release fd
          (Ledger.popped ⟨h₁, Ledger.settle h₁ fd l.replies⟩ fd results)
        simp only [Ledger.after, Ledger.writeReply, released]
        exact after_erases _ _

theorem event_erases (json : Json V) (timeout : Int) (settled : Settled l) (addr : Nat) (e : WorkerEvent W) :
    Erases (l.event json timeout addr e) (l.host.event json timeout e) := by
  cases e with
  | newConn cfd addr origin now => exact after_erases _ _
  | io watcher read write now =>
      cases found : l.host.worker.el.io watcher with
      | none => simp [Ledger.event, Host.event, found, Erases]
      | some w =>
          simp only [Ledger.event, Host.event, found]
          split
          · exact connIoCb_erases settled _ read write now
          · trivial
  | timer watcher now =>
      cases found : l.host.worker.el.timer watcher with
      | none => simp [Ledger.event, Host.event, found, Erases]
      | some t =>
          simp only [Ledger.event, found]
          exact after_erases _ _
  | offer msg mem => exact after_erases _ _
  | close cfd => exact after_erases _ _

/-! ## Lost buffers -/

theorem settle_lost (h : Host) (fd : Int) (replies : Custody Int Nat) :
    (Ledger.settle h fd replies).lost = replies.lost ∨
      (replies.held fd ≠ [] ∧ lookup h.worker.conns fd = none) := by
  unfold Ledger.settle
  split
  · next gone =>
      by_cases none : replies.held fd = []
      · simp [Custody.abandon, none]
      · exact .inr ⟨none, Option.isNone_iff_eq_none.1 gone⟩
  · exact .inl rfl

theorem settle_held (some : (Ledger.settle h fd replies).held fd ≠ []) : replies.held fd ≠ [] := by
  unfold Ledger.settle at some
  split at some
  · simp [Custody.abandon] at some
  · exact some

def Loses (l l' : Ledger) : Prop :=
  ∃ fd, l.replies.held fd ≠ [] ∧ lookup l'.host.worker.conns fd = none

theorem writeReply_lost {results : List WriteResult} {now : Nat} (settled : Settled l)
    (done : l.writeReply fd results now = some (.ok l')) :
    l'.replies.lost = l.replies.lost ∨
      (l.replies.held fd ≠ [] ∧ lookup l'.host.worker.conns fd = none) := by
  obtain ⟨heap, released, -⟩ := settled.sound.release fd (l.popped fd results)
  rw [Ledger.writeReply, released] at done
  obtain ⟨h', wrote, rfl⟩ := after_inv done
  rcases settle_lost h' fd { l.replies with
    heap := heap
    held := Function.update l.replies.held fd ((l.replies.held fd).drop (l.popped fd results)) }
    with same | ⟨some, gone⟩
  · exact .inl same
  · refine .inr ⟨fun none => some ?_, gone⟩
    simp [none]

theorem writeReply_gone {results : List WriteResult} {now : Nat} (gone : lookup l.host.worker.conns fd = none)
    (settled : Settled l) (done : l.writeReply fd results now = some (.ok l')) :
    lookup l'.host.worker.conns fd = none := by
  obtain ⟨heap, released, -⟩ := settled.sound.release fd (l.popped fd results)
  rw [Ledger.writeReply, released] at done
  obtain ⟨h', wrote, rfl⟩ := after_inv done
  obtain ⟨-, rfl⟩ | ⟨-, c, obj, held, -⟩ | ⟨-, c, obj, el, held, -⟩ := writeReply_outcome wrote
  · exact gone
  · rw [gone] at held
    cases held
  · rw [gone] at held
    cases held

theorem connIoCb_lost {read : Option ReadInput} {write : Option (List WriteResult)} {now : Nat}
    (settled : Settled l) (done : l.connIoCb fd read write now = some (.ok l')) :
    l'.replies.lost = l.replies.lost ∨ Loses l l' := by
  unfold Ledger.connIoCb at done
  split at done
  · next l₁ first =>
      obtain ⟨h₁, readDone, rfl⟩ := after_inv first
      cases write with
      | none =>
          cases done
          exact (settle_lost h₁ fd l.replies).imp_right fun lost => ⟨fd, lost⟩
      | some results =>
          have settled₁ := quiet_settled settled (readable_quiet readDone)
          rcases settle_lost h₁ fd l.replies with same | ⟨some, gone⟩
          · rcases writeReply_lost settled₁ done with same' | ⟨some, gone⟩
            · exact .inl (same'.trans same)
            · exact .inr ⟨fd, settle_held some, gone⟩
          · exact .inr ⟨fd, some, writeReply_gone gone settled₁ done⟩
  · obtain ⟨h₁, readDone, rfl⟩ := after_inv done
    exact (settle_lost h₁ fd l.replies).imp_right fun lost => ⟨fd, lost⟩

theorem offer_lost {msg : RtcMsg W} {mem : Nat → UInt8} (settled : Settled l)
    (done : l.offer json msg mem addr = some (.ok l')) :
    l'.replies.lost = l.replies.lost ∨ Loses l l' := by
  obtain ⟨h', offered, rfl⟩ := after_inv done
  have event : l.host.event json 0 (.offer msg mem) = some (.ok h') := offered
  obtain ⟨target, -⟩ | ⟨c, reply, target, made⟩ := responseServerOffer_inv (offer_made event)
  · rw [target, if_neg (by simp)]
    exact (settle_lost h' msg.fd l.replies).imp_right fun lost => ⟨msg.fd, lost⟩
  · rw [target, if_pos (by simp)]
    have held := offerTarget_held target
    have slots := lookup_addReply held (settled.wired.cfd _ _ held) made
    refine .inl ((settle_lost h' msg.fd (l.replies.acquire msg.fd addr)).resolve_right ?_)
    rintro ⟨-, gone⟩
    rw [slots, Function.update_self] at gone
    cases gone

theorem event_lost (settled : Settled l) (done : l.event json timeout addr e = some (.ok l')) :
    l'.replies.lost = l.replies.lost ∨ Loses l l' := by
  have quiet {fd : Int} {result : Option (Except Fault Host)}
      (done : Ledger.after fd l.replies result = some (.ok l')) :
      l'.replies.lost = l.replies.lost ∨ Loses l l' := by
    obtain ⟨h', -, rfl⟩ := after_inv done
    exact (settle_lost h' fd l.replies).imp_right fun lost => ⟨fd, lost⟩
  cases e with
  | newConn cfd addr origin now => exact quiet done
  | io watcher read write now =>
      simp only [Ledger.event] at done
      split at done
      · cases done
      · split at done
        · exact connIoCb_lost settled done
        · cases done
  | timer watcher now =>
      simp only [Ledger.event] at done
      split at done
      · cases done
      · exact quiet done
  | offer msg mem => exact offer_lost settled done
  | close cfd => exact quiet done

/-! ## Runs -/

/-- `zmalloc` gives a block that is not allocated. -/
def Admits (l : Ledger) (label : Nat × WorkerEvent W) : Prop :=
  Watchers.Admits l.host label.2 ∧ label.1 ∉ l.replies.heap

def admitted (l : Ledger) (label : Nat × WorkerEvent W) : Bool :=
  Watchers.admitted l.host label.2 && decide (label.1 ∉ l.replies.heap)

theorem admits_of_admitted (l : Ledger) (label : Nat × WorkerEvent W) (passed : admitted l label = true) :
    Admits l label := by
  obtain ⟨event, fresh⟩ := Bool.and_eq_true_iff.1 passed
  exact ⟨Watchers.admits_of_admitted _ _ event, of_decide_eq_true fresh⟩

/-- No connection is closed that has a reply to send. -/
def Orderly (json : Json V) (timeout : Int) (l : Ledger) (label : Nat × WorkerEvent W) : Prop :=
  Admits l label ∧ ∀ l' fd c, l.step json timeout label = some l' →
    lookup l.host.worker.conns fd = some c → c.obj.replyList ≠ [] → lookup l'.host.worker.conns fd ≠ none

theorem step_inv {label : Nat × WorkerEvent W} (taken : l.step json timeout label = some l') :
    l.event json timeout label.1 label.2 = some (.ok l') := by
  unfold Ledger.step at taken
  split at taken
  · next done =>
      cases taken
      exact done
  · cases taken

theorem start_settled (fds : Int → Option Nat) : Settled (Ledger.start fds) := by
  refine ⟨empty_wired, Custody.empty_sound, fun fd => ?_⟩
  simp [Ledger.start, Custody.empty, queued, lookup, SignalingWorker.empty]

theorem reachable_settled {fds : Int → Option Nat}
    (reachable : Reachable (Ledger.step json timeout) (Admits (W := W)) (Ledger.start fds) l) :
    Settled l :=
  reachable.invariant (start_settled fds) fun _ _ _ settled admitted taken =>
    event_settled settled admitted.1 admitted.2 (step_inv taken)

theorem Settled.held_ne_nil (settled : Settled l) (holds : l.replies.held fd ≠ []) :
    ∃ c, lookup l.host.worker.conns fd = some c ∧ c.obj.replyList ≠ [] := by
  have counted := settled.agrees fd
  have positive := List.length_pos_iff.2 holds
  cases slot : lookup l.host.worker.conns fd with
  | none =>
      rw [counted, queued, slot] at positive
      cases positive
  | some c =>
      rw [queued_of_held slot] at counted
      exact ⟨c, rfl, List.length_pos_iff.1 (counted ▸ positive)⟩

theorem orderly_lost {fds : Int → Option Nat}
    (reachable : Reachable (Ledger.step json timeout) (Orderly (W := W) json timeout) (Ledger.start fds) l) :
    l.replies.lost = [] := by
  induction reachable with
  | start => rfl
  | @next l l' label before orderly taken none =>
      have settled := reachable_settled (before.mono fun _ _ orderly => orderly.1)
      rcases event_lost settled (step_inv taken) with same | ⟨fd, holds, gone⟩
      · exact same.trans none
      · obtain ⟨c, held, unsent⟩ := settled.held_ne_nil holds
        exact absurd gone (orderly.2 l' fd c taken held unsent)

theorem exists_ledger {fds : Int → Option Nat}
    (reachable : Reachable (Host.step (W := W) json timeout) Watchers.Admits ⟨SignalingWorker.empty, fds⟩ h) :
    ∃ l, Reachable (Ledger.step json timeout) (Admits (W := W)) (Ledger.start fds) l ∧ l.host = h := by
  induction reachable with
  | start => exact ⟨Ledger.start fds, .start, rfl⟩
  | @next h h' e _ admitted taken ih =>
      obtain ⟨l, reachable, rfl⟩ := ih
      obtain ⟨addr, fresh⟩ := Infinite.exists_notMem_finset l.replies.heap.toFinset
      have fresh : addr ∉ l.replies.heap := fun member => fresh (List.mem_toFinset.2 member)
      have erases := event_erases json timeout (reachable_settled reachable) addr e
      unfold Host.step at taken
      split at taken
      · next done =>
          cases taken
          rw [done] at erases
          obtain ⟨l', done', same⟩ := erases.ok
          have step : l.step json timeout (addr, e) = some l' := by rw [Ledger.step, done']
          exact ⟨l', .next reachable ⟨admitted, fresh⟩ step, same⟩
      · cases taken

/-- The buffers not freed are those in the lists of the connections, each once, exactly when no
connection was closed with a reply left to send; and no buffer is freed that is not allocated. -/
theorem reply_buffers (json : Json V) (timeout : Int) (fds : Int → Option Nat) (l : Ledger)
    (reachable : Reachable (Ledger.step json timeout) (Admits (W := W)) (Ledger.start fds) l) :
    l.replies.heap.Nodup ∧
    (∀ fd, (l.replies.held fd).length = queued l.host fd ∧ (l.replies.held fd).Nodup) ∧
    (∀ fd fd' a, a ∈ l.replies.held fd → a ∈ l.replies.held fd' → fd = fd') ∧
    (∀ addr (e : WorkerEvent W), l.event json timeout addr e ≠ some (.error .badFree)) ∧
    ((∀ a, a ∈ l.replies.heap ↔ ∃ fd, a ∈ l.replies.held fd) ↔ l.replies.lost = []) ∧
    (Reachable (Ledger.step json timeout) (Orderly (W := W) json timeout) (Ledger.start fds) l →
      ∀ a, a ∈ l.replies.heap ↔ ∃ fd, a ∈ l.replies.held fd) := by
  have settled := reachable_settled reachable
  refine ⟨settled.sound.nodup, fun fd => ⟨settled.agrees fd, settled.sound.once fd⟩, settled.sound.apart,
    fun addr e failed => ?_, settled.sound.covers_iff, fun orderly => ?_⟩
  · have erases := event_erases json timeout settled addr e
    rw [failed] at erases
    cases l.host.event json timeout e <;> exact erases
  · exact settled.sound.covers_iff.2 (orderly_lost orderly)

end Runs

theorem reply_buffers_pending : ∃ l, Reachable (Ledger.step Json.sample 1000) (Admits (W := Unit))
      (Ledger.start fun _ => none) l ∧
    l.replies.heap = [7] ∧ ∀ a, a ∈ l.replies.heap ↔ ∃ fd, a ∈ l.replies.held fd := by
  obtain ⟨l, reachable, holds⟩ := exists_reachable_of_runLabels
    (Ledger.step Json.sample 1000) admits_of_admitted (Ledger.start fun _ => none)
    (Outgoing.answered.map fun e => (7, e))
    (fun l => decide (l.replies.heap = [7] ∧ l.replies.lost = [])) rfl
  obtain ⟨heap, none⟩ := of_decide_eq_true holds
  have results := reply_buffers Json.sample 1000 _ l reachable
  exact ⟨l, reachable, heap, results.2.2.2.2.1.2 none⟩

/-- The client hangs up before its reply is out. -/
def hungUp : List (Nat × WorkerEvent Unit) :=
  (Outgoing.answered.map fun e => (7, e)) ++ [(8, .io 0 (some ⟨.received [], fun _ _ _ => 0, 3⟩) none 0)]

theorem reply_buffers_leak : ∃ l, Reachable (Ledger.step Json.sample 1000) (Admits (W := Unit))
      (Ledger.start fun _ => none) l ∧
    7 ∈ l.replies.heap ∧ ¬ ∃ fd, 7 ∈ l.replies.held fd := by
  obtain ⟨l, reachable, holds⟩ := exists_reachable_of_runLabels
    (Ledger.step Json.sample 1000) admits_of_admitted (Ledger.start fun _ => none)
    hungUp (fun l => decide (7 ∈ l.replies.lost)) rfl
  have lost : 7 ∈ l.replies.lost := of_decide_eq_true holds
  have sound := (reachable_settled reachable).sound
  refine ⟨l, reachable, (sound.covered 7).2 (.inr lost), ?_⟩
  rintro ⟨fd, held⟩
  exact sound.kept fd 7 held lost

end Xrtc.Proof.ReplyHeap
