import Xrtc.Proof.Changes

/-!
# Interest in writing, and which descriptors are answered
-/

namespace Xrtc.Proof.Interest
open Server Base Lib Table Watchers Changes

variable {w w' : SignalingWorker} {fd : Int} {c : ConnPtr}

/-! ## Watchers -/

theorem serves_eq {watcher : IOWatcher} (serves : Serves watcher fd) :
    ∃ write, watcher = ⟨fd, ⟨true, write⟩, true⟩ := by
  obtain ⟨at_fd, events, active⟩ := watcher
  obtain ⟨read, write⟩ := events
  obtain ⟨rfl, rfl, rfl⟩ : at_fd = fd ∧ active = true ∧ read = true :=
    ⟨serves.fd_eq, serves.active, serves.reads⟩
  exact ⟨write, rfl⟩

theorem start_write_events {watcher : IOWatcher} (serves : Serves watcher fd) :
    (watcher.start fd Mask.WRITE).events = ⟨true, true⟩ := by
  obtain ⟨write, rfl⟩ := serves_eq serves
  cases write <;> rfl

theorem stop_write_events {watcher : IOWatcher} (serves : Serves watcher fd) :
    (watcher.stop fd Mask.WRITE).events = ⟨true, false⟩ := by
  obtain ⟨write, rfl⟩ := serves_eq serves
  cases write <;> rfl

theorem watcher_of_held (wired : Wired w) (held : lookup w.conns fd = some c) :
    ∃ watcher, w.el.io c.obj.ioWatcher = some watcher ∧ Serves watcher fd := by
  obtain ⟨watcher, found, rfl⟩ := wired.io.owns fd c held
  exact ⟨watcher, found, wired.serves _ watcher found⟩

def rearm (w : SignalingWorker) (fd : Int) (c c' : ConnPtr) (watcher : IOWatcher) : SignalingWorker :=
  { w with el := { w.el with io := Function.update w.el.io c.obj.ioWatcher (some watcher) } }.store fd c'

theorem addReply_eq (wired : Wired w) (held : lookup w.conns fd = some c) (reply : Slice) :
    ∃ watcher, Serves watcher fd ∧ w.addReply c reply = .ok (rearm w fd c
      { c with obj := { c.obj with replyList := c.obj.replyList ++ [reply] } }
      (watcher.start fd Mask.WRITE)) := by
  obtain ⟨watcher, found, serves⟩ := watcher_of_held wired held
  refine ⟨watcher, serves, ?_⟩
  simp [SignalingWorker.addReply, EventLoop.startIoEvent, found, wired.cfd fd c held, rearm, bind,
    Except.bind, pure, Except.pure]

theorem stopWrite_eq {obj : TcpConnection} {el : EventLoop} (wired : Wired w)
    (held : lookup w.conns fd = some c) (ids : SameIds c.obj obj)
    (stopped : w.el.stopIoEvent obj.ioWatcher obj.cfd Mask.WRITE = .ok el) :
    ∃ watcher, Serves watcher fd ∧ el = { w.el with
      io := Function.update w.el.io c.obj.ioWatcher (some (watcher.stop fd Mask.WRITE)) } := by
  obtain ⟨watcher, found, serves⟩ := watcher_of_held wired held
  refine ⟨watcher, serves, ?_⟩
  have cfd : obj.cfd = fd := ids.cfd.trans (wired.cfd fd c held)
  simpa [EventLoop.stopIoEvent, ids.ioWatcher, found, cfd] using stopped.symm

/-! ## WRITE interest and pending replies -/

/-- The events a connection waits for: input always, output while it has replies. -/
def interest (obj : TcpConnection) : Mask := ⟨true, !obj.replyList.isEmpty⟩

def Armed (w : SignalingWorker) : Prop :=
  ∀ fd c, lookup w.conns fd = some c →
    ∃ watcher, w.el.io c.obj.ioWatcher = some watcher ∧ watcher.events = interest c.obj

theorem rearm_armed {c' : ConnPtr} {watcher : IOWatcher} (wired : Wired w) (armed : Armed w)
    (held : lookup w.conns fd = some c) (ids : SameIds c.obj c'.obj)
    (events : watcher.events = interest c'.obj) : Armed (rearm w fd c c' watcher) := by
  intro fd' c₁ held'
  simp only [rearm, SignalingWorker.store, lookup_set held] at held' ⊢
  rcases update_cases held' with ⟨rfl, new⟩ | ⟨other, held'⟩
  · cases new
    rw [ids.ioWatcher, Function.update_self]
    exact ⟨watcher, rfl, events⟩
  · have apart : c₁.obj.ioWatcher ≠ c.obj.ioWatcher :=
      fun same => other (wired.io.handle_inj held' held same)
    rw [Function.update_of_ne apart]
    exact armed fd' c₁ held'

theorem store_armed {c' : ConnPtr} (wired : Wired w) (armed : Armed w) (held : lookup w.conns fd = some c)
    (ids : SameIds c.obj c'.obj) (replies : c'.obj.replyList = c.obj.replyList) :
    Armed (w.store fd c') := by
  obtain ⟨watcher, found, events⟩ := armed fd c held
  have same : interest c'.obj = interest c.obj := by simp only [interest, replies]
  have stored := rearm_armed wired armed held ids (events.trans same.symm)
  rwa [rearm, ← found, Function.update_eq_self] at stored

theorem newConn_armed {cfd : Int} {addr origin now : Nat} (wired : Wired w) (armed : Armed w)
    (nonneg : 0 ≤ cfd) (made : w.newConn cfd addr origin now = .ok w') : Armed w' := by
  rw [newConn_eq nonneg] at made
  cases made
  intro fd c held
  simp only [lookup_added nonneg] at held ⊢
  rcases update_cases held with ⟨rfl, new⟩ | ⟨other, held⟩
  · cases new
    exact ⟨_, Function.update_self .., rfl⟩
  · obtain ⟨watcher, found, events⟩ := armed fd c held
    refine ⟨watcher, ?_, events⟩
    rw [Function.update_of_ne _, found]
    intro same
    rw [same, (wired.fresh _ (le_refl _)).1] at found
    cases found

theorem removeConn_armed {c' : ConnPtr} (wired : Wired w) (armed : Armed w)
    (held : lookup w.conns fd = some c) (ids : SameIds c.obj c'.obj) (made : w.removeConn c' = .ok w') :
    Armed w' := by
  rw [removeConn_eq wired held ids] at made
  cases made
  intro fd' c₁ held'
  simp only [lookup_set held] at held' ⊢
  rcases update_cases held' with ⟨_, new⟩ | ⟨other, held'⟩
  · cases new
  · have apart : c₁.obj.ioWatcher ≠ c.obj.ioWatcher :=
      fun same => other (wired.io.handle_inj held' held same)
    rw [Function.update_of_ne apart]
    exact armed fd' c₁ held'

theorem quiet_wired (wired : Wired w) (quiet : Quiet fd w w') : Wired w' := by
  cases quiet with
  | same => exact wired
  | read held ids _ => exact storeObj_wired wired _ held ids
  | removed held ids made =>
      obtain ⟨w₁, made', wired', -⟩ := removeConn_wired wired held ids
      cases made.symm.trans made'
      exact wired'

theorem change_wired (wired : Wired w) (change : Change w w') : Wired w' := by
  cases change with
  | quiet quiet => exact quiet_wired wired quiet
  | opened nonneg empty made =>
      obtain ⟨w₁, _, made', wired', -⟩ := newConn_wired wired nonneg empty _ _ _
      cases made.symm.trans made'
      exact wired'
  | @added fd c reply _ _ held made =>
      obtain ⟨watcher, serves, made'⟩ := addReply_eq wired held reply
      cases made.symm.trans made'
      exact store_wired wired _ held ⟨rfl, rfl, rfl⟩ (serves.start Mask.WRITE)
  | drained _ held loop stopped =>
      obtain ⟨watcher, serves, rfl⟩ := stopWrite_eq wired held (writeLoop_sameIds loop) stopped
      exact store_wired wired _ held (idle_sameIds loop _) serves.stopWrite

theorem change_armed (wired : Wired w) (armed : Armed w) (change : Change w w') : Armed w' := by
  cases change with
  | quiet quiet =>
      cases quiet with
      | same => exact armed
      | read held ids replies => exact store_armed wired armed held ids replies.replyList
      | removed held ids made => exact removeConn_armed wired armed held ids made
  | opened nonneg empty made => exact newConn_armed wired armed nonneg made
  | @added fd c reply _ _ held made =>
      obtain ⟨watcher, serves, made'⟩ := addReply_eq wired held reply
      cases made.symm.trans made'
      refine rearm_armed wired armed held ⟨rfl, rfl, rfl⟩ ?_
      simp [start_write_events serves, interest]
  | drained _ held loop stopped =>
      obtain ⟨watcher, serves, rfl⟩ := stopWrite_eq wired held (writeLoop_sameIds loop) stopped
      refine rearm_armed wired armed held (idle_sameIds loop _) ?_
      simp [stop_write_events serves, interest, Outgoing.writeLoop_finished loop]

section Runs

variable {V W : Type} {json : Json V} {timeout : Int} {fds : Int → Option Nat} {h : Host}

def Ready (h : Host) : Prop := Wired h.worker ∧ Armed h.worker

theorem reachable_ready
    (reachable : Reachable (Host.step (W := W) json timeout) Admits ⟨SignalingWorker.empty, fds⟩ h) :
    Ready h := by
  apply reachable.invariant
  · refine ⟨empty_wired, fun fd c held => ?_⟩
    simp [lookup, SignalingWorker.empty] at held
  · intro h h' e ready admitted taken
    unfold Host.step at taken
    split at taken
    · next done =>
        cases taken
        exact Chain.preserves (fun _ _ wired armed change =>
          ⟨change_wired wired change, change_armed wired armed change⟩) ready.1 ready.2
          (event_changes admitted done)
    · cases taken

end Runs

/-- Between the events of any run a connection's watcher waits for input on its descriptor, and for output
exactly while the connection has replies. -/
theorem write_interest {V W : Type} (json : Json V) (timeout : Int) (fds : Int → Option Nat) (h : Host)
    (reachable : Reachable (Host.step (W := W) json timeout) Admits ⟨SignalingWorker.empty, fds⟩ h)
    (fd : Int) (c : ConnPtr) (held : lookup h.worker.conns fd = some c) :
    c.obj.cfd = fd ∧ ∃ w, h.worker.el.io c.obj.ioWatcher = some w ∧ w.fd = fd ∧ w.active = true ∧
      w.events.read = true ∧ (w.events.write = true ↔ c.obj.replyList ≠ []) := by
  have consistent := reachable_consistent reachable
  obtain ⟨watcher, found, serves⟩ := watcher_of_held consistent.toWired held
  obtain ⟨watcher', found', events⟩ := (reachable_ready reachable).2 fd c held
  cases found.symm.trans found'
  refine ⟨consistent.cfd fd c held, watcher, found, serves.fd_eq, serves.active, serves.reads, ?_⟩
  simp [events, interest]

/-- While its reply is in the list, connection 5 is interested in writing. -/
theorem write_interest_answered : ∃ h c, Reachable (Host.step (W := Unit) Json.sample 1000) Admits
      ⟨SignalingWorker.empty, fun _ => none⟩ h ∧
    lookup h.worker.conns 5 = some c ∧ c.obj.replyList ≠ [] ∧
    ∃ w, h.worker.el.io c.obj.ioWatcher = some w ∧ w.fd = 5 ∧ w.events.write = true := by
  obtain ⟨h, c, reachable, held, -, reply, pending, -⟩ := Outgoing.answered_pending
  have nonempty : c.obj.replyList ≠ [] := by simp [pending]
  obtain ⟨-, w, found, at_fd, -, -, writes⟩ := write_interest _ _ _ h reachable 5 c held
  exact ⟨h, c, reachable, held, nonempty, w, found, at_fd, writes.2 nonempty⟩

/-! ## Which descriptors are answered -/

theorem writeReply_eq {h : Host} (positive : 0 < fd) (held : lookup h.worker.conns fd = some c)
    (results : List WriteResult) (now : Nat) :
    h.writeReply fd results now = (c.obj.writeLoop results).map (h.finishWrite fd c now) := by
  rw [Host.writeReply, if_neg (Int.not_le.2 positive), held]

/-- `response_server_offer` appends one reply to the list of connection `fd` and to no other, the watcher
waits for output, and `write_reply` sends from that list. -/
structure Answered {V W : Type} (json : Json V) (h : Host) (fd : Int) (c : ConnPtr) (msg : RtcMsg W)
    (mem : Nat → UInt8) (worker : SignalingWorker) (reply : Slice) : Prop where
  offered : h.worker.responseServerOffer json msg mem = .ok worker
  slots : lookup worker.conns = Function.update (lookup h.worker.conns) fd
    (some { c with obj := { c.obj with replyList := c.obj.replyList ++ [reply] } })
  armed : ∃ w, worker.el.io c.obj.ioWatcher = some w ∧ w.fd = fd ∧ w.active = true ∧ w.events.write = true
  sends : ∀ results now, { h with worker := worker }.writeReply fd results now =
    (({ c.obj with replyList := c.obj.replyList ++ [reply] } : TcpConnection).writeLoop results).map
      (Host.finishWrite { h with worker := worker } fd
        { c with obj := { c.obj with replyList := c.obj.replyList ++ [reply] } } now)

def pushReply {W : Type} (params : PushParams) (header : List UInt8) (worker : W) (c : ConnPtr)
    (sdp : List UInt8) (errNo : Int) : RtcMsg W :=
  { pushMsg params header worker c.addr c.obj.cfd with sdp := sdp, errNo := errNo }

/-- `read_query` serves every connection of the table; its requests are answered exactly if the
descriptor is not 0. -/
theorem push_answered_iff {V W : Type} (json : Json V) (timeout : Int) (fds : Int → Option Nat) (h : Host)
    (reachable : Reachable (Host.step (W := W) json timeout) Admits ⟨SignalingWorker.empty, fds⟩ h)
    (fd : Int) (c : ConnPtr) (held : lookup h.worker.conns fd = some c) (params : PushParams)
    (header : List UInt8) (worker : W) (sdp : List UInt8) (errNo : Int) (mem : Nat → UInt8) :
    (∀ input now, h.readQuery fd input now = h.afterFill fd c input (c.obj.fill input.result now)) ∧
    ((∃ w reply, Answered json h fd c (pushReply params header worker c sdp errNo) mem w reply) ↔
      fd ≠ 0) := by
  have wired := (reachable_consistent reachable).toWired
  have cfd := wired.cfd fd c held
  refine ⟨fun input now => by rw [Host.readQuery, held], ?_, fun nonzero => ?_⟩
  · rintro ⟨w, reply, answered⟩ rfl
    have refused : h.worker.offerTarget (pushReply params header worker c sdp errNo) = none := by
      simp [SignalingWorker.offerTarget, pushReply, pushMsg, cfd]
    have offered := answered.offered
    rw [SignalingWorker.responseServerOffer, refused] at offered
    cases offered
    have slot := congrFun answered.slots 0
    rw [held, Function.update_self] at slot
    have same : c.obj.replyList = c.obj.replyList ++ [reply] :=
      congrArg (fun c : ConnPtr => c.obj.replyList) (Option.some.inj slot)
    simp at same
  · have positive : 0 < fd := by
      have := (lookup_inRange held).1
      omega
    have target : h.worker.offerTarget (pushReply params header worker c sdp errNo) = some c := by
      simp [SignalingWorker.offerTarget, pushReply, pushMsg, cfd, Int.not_le.2 positive, held]
    let reply := SignalingWorker.encodeReply json c.obj.querybuf.buf
      (pushReply params header worker c sdp errNo).resRoot mem
    obtain ⟨watcher, serves, made⟩ := addReply_eq wired held reply
    have slots := lookup_addReply held cfd made
    refine ⟨_, reply, ⟨?_, slots, ⟨_, Function.update_self .., ?_⟩, fun results now => ?_⟩⟩
    · rw [SignalingWorker.responseServerOffer, target]
      exact made
    · have started := serves.start Mask.WRITE
      exact ⟨started.fd_eq, started.active, by rw [start_write_events serves]⟩
    · exact writeReply_eq positive (by rw [slots, Function.update_self]) results now

theorem requested_held (fd : Int) (run : (runLabels (guarded admitted (Host.step (W := Unit) Json.sample 1000))
      ⟨SignalingWorker.empty, fun _ => none⟩ (Outgoing.requested fd)).map
        (fun h => (lookup h.worker.conns fd).any fun c => c.obj.bytesProcessed == 65535) = some true) :
    ∃ h c, Reachable (Host.step (W := Unit) Json.sample 1000) Admits
      ⟨SignalingWorker.empty, fun _ => none⟩ h ∧
    lookup h.worker.conns fd = some c ∧ c.obj.bytesProcessed = 65535 := by
  obtain ⟨h, reachable, holds⟩ := exists_reachable_of_runLabels
    (Host.step (W := Unit) Json.sample 1000) admits_of_admitted _ (Outgoing.requested fd) _ run
  obtain ⟨c, held, served⟩ := (Option.any_eq_true _ _).1 holds
  exact ⟨h, c, reachable, held, eq_of_beq served⟩

theorem push_answered_iff_five : ∃ h c, Reachable (Host.step (W := Unit) Json.sample 1000) Admits
      ⟨SignalingWorker.empty, fun _ => none⟩ h ∧
    lookup h.worker.conns 5 = some c ∧ c.obj.bytesProcessed = 65535 ∧
    ∃ w reply, Answered Json.sample h 5 c (pushReply ⟨0, [], 0, 0⟩ [] () c (utf8 "offer") 0)
      (fun _ => 0) w reply := by
  obtain ⟨h, c, reachable, held, served⟩ := requested_held 5 rfl
  have answered := push_answered_iff _ _ _ h reachable 5 c held ⟨0, [], 0, 0⟩ [] () (utf8 "offer") 0
    fun _ => 0
  exact ⟨h, c, reachable, held, served, answered.2.2 (by decide)⟩

/-- The request of connection 0 is read and handed on, its answer is dropped, and `write_reply` would not
send it. -/
theorem push_dropped_zero : ∃ h c, Reachable (Host.step (W := Unit) Json.sample 1000) Admits
      ⟨SignalingWorker.empty, fun _ => none⟩ h ∧
    lookup h.worker.conns 0 = some c ∧ c.obj.bytesProcessed = 65535 ∧
    h.worker.responseServerOffer Json.sample (pushReply ⟨0, [], 0, 0⟩ [] () c (utf8 "offer") 0)
      (fun _ => 0) = .ok h.worker ∧
    ∀ results now, h.writeReply 0 results now = some (.ok h) := by
  obtain ⟨h, c, reachable, held, served⟩ := requested_held 0 rfl
  have cfd := (reachable_consistent reachable).cfd 0 c held
  refine ⟨h, c, reachable, held, served, ?_, fun _ _ => rfl⟩
  simp [SignalingWorker.responseServerOffer, SignalingWorker.offerTarget, pushReply, pushMsg, cfd]

end Xrtc.Proof.Interest
