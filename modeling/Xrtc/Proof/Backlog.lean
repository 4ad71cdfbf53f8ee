import Xrtc.Proof.Delivery
import Xrtc.Proof.Safety

/-!
# A backlog of any length

Clients that connect, ask and go away again, one after the other, fill the queues and the pipes of a server
with one worker of each kind, however much the pipes hold. Each short run below says what it changes; the
rest of the network is as it was.
-/

namespace Xrtc.Proof.Backlog
open Server Base Lib Lib.Mailbox Table Framing Watchers Callbacks Steps Notifications ShortConnection Transit
  Delivery Safety

/-- One worker of each kind, and pipes for `capacity` notifications. -/
abbrev piped (capacity : Nat) : Config Sample 1 := small 1 capacity (by decide)

abbrev Run (capacity : Nat) (s : System 1 1) : Prop := Reached (piped capacity) Delivered s

variable {capacity : Nat} {s : System 1 1}

section Steps

variable (reached : Run capacity s) (l : Label 1 1) (passed : delivered s l = true)
  (running : s.loc.crash = none) {loc : Local 1 1}
include reached passed running

theorem run_turn (planned : s.plan (piped capacity) l = some (.ok ⟨none, loc⟩)) : Run capacity ⟨s.net, loc⟩ :=
  reached.next (delivered_sound s l passed) (step_turn running planned)

theorem run_move {move : QueueMove 1 1} {net : Queues 1 1}
    (planned : s.plan (piped capacity) l = some (.ok ⟨some move, loc⟩))
    (stepped : s.net.step (wiring 1 1 capacity) move = some net) : Run capacity ⟨net, loc⟩ :=
  reached.next (delivered_sound s l passed) (step_move running planned stepped)

end Steps

/-! ## The acceptor -/

structure Announced (fd : Int) (s s' : System 1 1) : Prop where
  running : s'.loc.crash = none
  agent : s'.loc.agent = s.loc.agent
  fds : s'.loc.fds = Function.update s.loc.fds fd (some s.loc.accepted)
  role : s'.net.role = s.net.role
  queue : s'.net.queue = Function.update s.net.queue (.conns only)
    (s.net.queue (.conns only) ++ [.conn fd s.loc.accepted])
  pipe : s'.net.pipe = Function.update s.net.pipe (.signaling only)
    (s.net.pipe (.signaling only) ++ [SignalingWorker.NEW_CONN])

theorem dispatch_plan {x : Item 1} (index : s.loc.nextWorkerIndex = 0) (holds : s.net.role .acceptor = .holding x) :
    s.plan (piped capacity) .dispatch =
      some (.ok ⟨some (.push .acceptor (.conns only) id), { s.loc with nextWorkerIndex := 0 }⟩) := by
  simp [System.plan, System.dispatchNewConn, holds, index, only]

theorem announce_run {fd : Int} (reached : Run capacity s) (running : s.loc.crash = none)
    (free : s.net.role .acceptor = .free) (nonneg : 0 ≤ fd) (closed : s.loc.fds fd = none)
    (room : (s.net.pipe (.signaling only)).length < capacity) :
    ∃ s', Run capacity s' ∧ Announced fd s s' := by
  have index : s.loc.nextWorkerIndex = 0 := Nat.lt_one_iff.1 (reached_index (le_refl 1) reached)
  have accepted := run_move reached (.accept fd) rfl running (if_pos ⟨nonneg, closed⟩) (Net.create_step free _)
  have dispatched := run_move accepted .dispatch rfl running (dispatch_plan index rfl)
    (Net.push_step (x := .conn fd s.loc.accepted) rfl _ _)
  have notified := run_move dispatched (.notify .acceptor true) rfl running rfl
    (Net.notify_step (w := wiring 1 1 capacity) (b := .conns only) rfl room)
  refine ⟨_, notified, running, rfl, rfl, ?_, rfl, rfl⟩
  simp [← free]

/-! ## The signaling worker and its client -/

/-- The signaling worker is at `pc`; the connection 3 is in the state that its parser has after `buf`, and no
descriptor above it is open. -/
structure Serving (s : System 1 1) (pc : Pc) (buf : List UInt8) (state : ConnState) (processed expected : Nat) :
    Prop where
  running : s.loc.crash = none
  place : (s.loc.agent only).pc = pc
  held : ∃ c, lookup (s.loc.agent only).worker.conns 3 = some c ∧ Parser c.obj buf state processed expected
  closed : ∀ fd > 3, s.loc.fds fd = none

/-- No client is connected, and the signaling worker has nothing to do. -/
structure Idle (s : System 1 1) : Prop where
  running : s.loc.crash = none
  place : (s.loc.agent only).pc = .loop
  acceptor : s.net.role .acceptor = .free
  signaling : s.net.role (.signaling only) = .free
  conns : s.net.queue (.conns only) = []
  pipe : s.net.pipe (.signaling only) = []
  closed : ∀ fd ≥ 3, s.loc.fds fd = none

theorem register_step {origin : Nat} (reached : Run capacity s) (running : s.loc.crash = none)
    (place : (s.loc.agent only).pc = .loop) (holds : s.net.role (.signaling only) = .holding (.conn 3 origin))
    (closed : ∀ fd > 3, s.loc.fds fd = none) :
    ∃ s', Run capacity s' ∧ Serving s' .loop [] .head 0 xheadSize ∧
      s'.net.role = Function.update s.net.role (.signaling only) .free ∧ s'.net.queue = s.net.queue ∧
      s'.net.pipe = s.net.pipe := by
  obtain ⟨addr, unused⟩ := exists_freeAddr s
  obtain ⟨worker, c, made, slot, parser⟩ : ∃ worker c,
      (s.loc.agent only).worker.newConn 3 addr origin 0 = .ok worker ∧ lookup worker.conns 3 = some c ∧
      Parser c.obj [] .head 0 xheadSize :=
    ⟨_, _, newConn_eq (by decide) addr origin 0,
      (congrFun (lookup_added (by decide) _) 3).trans (Function.update_self ..), ⟨rfl, rfl, rfl, rfl⟩⟩
  have planned : ∃ event, s.plan (piped capacity) (.register only addr 0) =
      some (.ok ⟨some (.consume (.signaling only)), (s.loc.setAgent only ⟨worker, .loop⟩).record event⟩) := by
    simp only [System.plan, System.register, place, holds, unused, if_true, made]
    exact ⟨_, rfl⟩
  obtain ⟨event, planned⟩ := planned
  exact ⟨_, run_move reached _ rfl running planned (Net.consume_step holds),
    ⟨running, rfl, ⟨c, slot, parser⟩, closed⟩, rfl, rfl, rfl⟩

theorem register_run {origin : Nat} (reached : Run capacity s) (running : s.loc.crash = none)
    (place : (s.loc.agent only).pc = .loop) (free : s.net.role (.signaling only) = .free)
    (conns : s.net.queue (.conns only) = [.conn 3 origin])
    (pipe : s.net.pipe (.signaling only) = [SignalingWorker.NEW_CONN]) (closed : ∀ fd > 3, s.loc.fds fd = none) :
    ∃ s', Run capacity s' ∧ Serving s' .loop [] .head 0 xheadSize ∧ s'.net.role = s.net.role ∧
      s'.net.queue = Function.update s.net.queue (.conns only) [] ∧
      s'.net.pipe = Function.update s.net.pipe (.signaling only) [] := by
  have woken := run_move reached (.wake (.signaling only)) rfl running (if_pos place)
    (Net.wake_step (b := .conns only) free pipe rfl)
  have holding := run_move woken (.pop (.signaling only)) rfl running rfl (Net.pop_step (b := .conns only) rfl conns)
  obtain ⟨s', registered, serving, role, queue, pipe'⟩ := register_step holding running place rfl closed
  refine ⟨s', registered, serving, ?_, queue, pipe'⟩
  rw [role]
  simp [wiring, Pipe.reader, ← free]

section Callbacks

variable {pc pc' : Pc} {buf : List UInt8} {state : ConnState} {processed expected : Nat} {c : ConnPtr}

theorem Serving.moved (serving : Serving s pc buf state processed expected) (net : Queues 1 1) (pc' : Pc) :
    Serving ⟨net, s.loc.setAgent only { s.loc.agent only with pc := pc' }⟩ pc' buf state processed expected :=
  ⟨serving.running, rfl, serving.held, serving.closed⟩

theorem Serving.stored {obj : TcpConnection} (serving : Serving s pc buf state processed expected)
    (held : lookup (s.loc.agent only).worker.conns 3 = some c) (net : Queues 1 1) (pc' : Pc) {buf' : List UInt8}
    {state' : ConnState} {processed' expected' : Nat} (parser : Parser obj buf' state' processed' expected') :
    Serving ⟨net, s.loc.setAgent only ⟨(s.loc.agent only).worker.store 3 { c with obj := obj }, pc'⟩⟩ pc' buf'
      state' processed' expected' :=
  ⟨serving.running, rfl, ⟨_, (congrFun (lookup_set held _) 3).trans (Function.update_self ..), parser⟩,
    serving.closed⟩

theorem io_plan {result : ReadResult} {a : Agent} (reached : Run capacity s)
    (serving : Serving s .loop buf state processed expected) (free : s.net.role (.signaling only) = .free)
    (held : lookup (s.loc.agent only).worker.conns 3 = some c)
    (ran : (s.loc.agent only).afterFill 3 false c (c.obj.fill result 0) = .ok a) :
    s.plan (piped capacity) (.io only c.obj.ioWatcher (some result) false 0) =
      some (.ok ⟨none, s.loc.setAgent only a⟩) := by
  have wired := reached_wired reached only
  obtain ⟨w, found, fd⟩ := wired.io.owns 3 c held
  have active := (wired.serves _ w found).active
  have waiting : s.waiting only = true := by rw [System.waiting, free, serving.place]
  simp [System.plan, System.io, found, waiting, active, fd, Agent.connIoCb, held, ran, System.turn, Except.map]

theorem read_step (reached : Run capacity s) (serving : Serving s .loop buf state processed expected)
    (free : s.net.role (.signaling only) = .free) (data : List UInt8) (some : data ≠ []) (int : expected < 2 ^ 31)
    (short : buf.length + data.length < 2 ^ 31) :
    ∃ s', Run capacity s' ∧ Serving s' (.querying 3 false) (buf ++ data) state processed expected ∧
      s'.net = s.net := by
  obtain ⟨c, held, parser⟩ := serving.held
  have got : sockReadData (.received data) = .some data := by
    cases data with
    | nil => exact absurd rfl some
    | cons byte rest => rfl
  obtain ⟨obj, filled⟩ := fill_stored 0 (parser.expected ▸ int) got (parser.buf ▸ short)
  have planned := io_plan reached serving free held (a := ⟨_, .querying 3 false⟩) (by rw [filled]; rfl)
  refine ⟨_, run_turn reached _ rfl serving.running planned, serving.stored held s.net _ ?_, rfl⟩
  rw [fill_same filled]
  exact ⟨(fill_got filled got).trans (by rw [parser.buf]), parser.state, parser.processed, parser.expected⟩

theorem header_step (reached : Run capacity s) (serving : Serving s (.querying 3 false) buf .head processed expected)
    (enough : processed + expected ≤ buf.length) (magic : (Xhead.view buf).magicNum = xheadMagicNum) :
    ∃ s', Run capacity s' ∧ Serving s' (.querying 3 false) buf .body (processed + xheadSize) (bodyLen buf) ∧
      s'.net = s.net := by
  obtain ⟨c, held, parser⟩ := serving.held
  obtain ⟨obj, step, parser'⟩ := queryStep_header parser enough magic
  have planned : s.plan (piped capacity) (.query only) = some (.ok ⟨none, s.loc.setAgent only
      ⟨(s.loc.agent only).worker.store 3 { c with obj := obj }, .querying 3 false⟩⟩) := by
    simp only [System.plan, System.query, Agent.query, serving.place, held, step]
  exact ⟨_, run_turn reached _ rfl serving.running planned, serving.stored held s.net _ parser', rfl⟩

theorem done_step (reached : Run capacity s) (serving : Serving s (.querying 3 false) buf state processed expected)
    (short : buf.length < processed + expected) :
    ∃ s', Run capacity s' ∧ Serving s' .loop buf state processed expected ∧ s'.net = s.net := by
  obtain ⟨c, held, parser⟩ := serving.held
  have planned : s.plan (piped capacity) (.query only) = some (.ok ⟨none, s.loc.setAgent only
      { s.loc.agent only with pc := .loop }⟩) := by
    simp only [System.plan, System.query, Agent.query, serving.place, held, queryStep_done parser short]
    rfl
  exact ⟨_, run_turn reached _ rfl serving.running planned, serving.moved s.net .loop, rfl⟩

theorem send_run {params : PushParams} (reached : Run capacity s)
    (serving : Serving s (.querying 3 false) buf .body processed expected)
    (free : s.net.role (.signaling only) = .free) (enough : processed + expected ≤ buf.length)
    (decoded : decodeRequest Json.sample (requestOf buf).2 = .push params) :
    ∃ s' x, Run capacity s' ∧ Serving s' (.sending 3 false) buf .body processed expected ∧
      s'.net.role = Function.update s.net.role (.signaling only) (.owes .server) ∧
      s'.net.queue = Function.update s.net.queue .server (s.net.queue .server ++ [x]) ∧
      s'.net.pipe = s.net.pipe := by
  obtain ⟨c, held, parser⟩ := serving.held
  have planned : ∃ e, s.plan (piped capacity) (.query only) = some (.ok ⟨some (.create (.signaling only) (.msg e)),
      { s.loc.setAgent only { s.loc.agent only with pc := .sending 3 false } with sent := s.loc.sent + 1 }⟩) := by
    simp only [System.plan, System.query, Agent.query, serving.place, held, queryStep_request parser enough, small,
      decoded]
    exact ⟨_, rfl⟩
  obtain ⟨e, planned⟩ := planned
  have holding := run_move reached _ rfl serving.running planned (Net.create_step free _)
  have sends := run_move holding (.send only) rfl serving.running rfl (Net.push_step (x := .msg e) rfl _ _)
  exact ⟨_, .msg e, sends, ⟨serving.running, rfl, serving.held, serving.closed⟩, Function.update_idem .., rfl, rfl⟩

theorem sent_step (reached : Run capacity s) (serving : Serving s (.sending 3 false) buf state processed expected)
    (owes : s.net.role (.signaling only) = .owes .server) (room : (s.net.pipe .server).length < capacity) :
    ∃ s', Run capacity s' ∧ Serving s' (.querying 3 false) buf state 65535 expected ∧
      s'.net.role = Function.update s.net.role (.signaling only) .free ∧ s'.net.queue = s.net.queue ∧
      s'.net.pipe = Function.update s.net.pipe .server (s.net.pipe .server ++ [RtcServer.RTC_MSG]) := by
  obtain ⟨c, held, parser⟩ := serving.held
  have planned : s.plan (piped capacity) (.notify (.signaling only) true) =
      some (.ok ⟨some (.notify (.signaling only)), s.loc.setAgent only
        ⟨(s.loc.agent only).worker.store 3 { c with obj := c.obj.served }, .querying 3 false⟩⟩) := by
    simp only [System.plan, System.notify, Agent.sent, serving.place, held, if_true]
  exact ⟨_, run_move reached _ rfl serving.running planned (Net.notify_step (w := wiring 1 1 capacity) owes room),
    serving.stored held _ _ parser.afterRequest, rfl, rfl, rfl⟩

theorem close_run (reached : Run capacity s) (serving : Serving s (.closing 3 false) buf state processed expected) :
    ∃ s', Run capacity s' ∧ s'.loc.crash = none ∧ (s'.loc.agent only).pc = .loop ∧
      (∀ fd ≥ 3, s'.loc.fds fd = none) ∧ s'.net = s.net := by
  obtain ⟨c, held, -⟩ := serving.held
  have wired := reached_wired reached only
  obtain ⟨w, removed, -⟩ := removeConn_wired wired held (SameIds.refl _)
  have planned : ∃ event, s.plan (piped capacity) (.close only) = some (.ok ⟨none,
      ({ s.loc.setAgent only { s.loc.agent only with pc := .removing 3 false } with
        fds := Function.update s.loc.fds 3 none }).record event⟩) := by
    simp only [System.plan, System.close, Agent.close, serving.place, held, wired.cfd 3 c held]
    exact ⟨_, rfl⟩
  obtain ⟨event, planned⟩ := planned
  have removing := run_turn reached _ rfl serving.running planned
  have emptied := run_turn removing (.remove only) rfl serving.running (by
    simp [System.plan, System.remove, Agent.remove, Local.setAgent, Local.record, held, removed, System.turn,
      Except.map, bind, Except.bind, pure, Except.pure]
    rfl)
  refine ⟨_, emptied, serving.running, rfl, fun fd above => ?_, rfl⟩
  change Function.update s.loc.fds 3 none fd = none
  rw [Function.update_apply]
  split
  · rfl
  · exact serving.closed fd (by omega)

theorem hangUp_run (reached : Run capacity s) (serving : Serving s .loop buf state processed expected)
    (free : s.net.role (.signaling only) = .free) (int : expected < 2 ^ 31) (short : buf.length < 2 ^ 31) :
    ∃ s', Run capacity s' ∧ s'.loc.crash = none ∧ (s'.loc.agent only).pc = .loop ∧
      (∀ fd ≥ 3, s'.loc.fds fd = none) ∧ s'.net = s.net := by
  obtain ⟨c, held, parser⟩ := serving.held
  have asked : c.obj.readLen = expected := by rw [readLen_eq (parser.expected ▸ int), parser.expected]
  obtain ⟨room, made⟩ := sdsMakeRoomFor_some c.obj.querybuf c.obj.readLen (by
    rw [asked, sdslen, parser.buf]
    omega)
  obtain ⟨obj, filled⟩ := fill_stop (.received []) 0 made (by rw [sockReadData_sysRead (by omega)]; rfl)
  have planned := io_plan reached serving free held (a := ⟨_, .closing 3 false⟩) (by rw [filled]; rfl)
  have closing := run_turn reached _ rfl serving.running planned
  have parser' : Parser obj buf state processed expected := by
    rw [fill_same filled]
    exact ⟨(fill_close filled).trans parser.buf, parser.state, parser.processed, parser.expected⟩
  obtain ⟨s', closed, rest⟩ := close_run closing (serving.stored held s.net _ parser')
  exact ⟨s', closed, rest⟩

end Callbacks

/-! ## A client -/

theorem connect_run (reached : Run capacity s) (idle : Idle s) (room : 0 < capacity) :
    ∃ s', Run capacity s' ∧ Serving s' .loop [] .head 0 xheadSize ∧ s'.net.role = s.net.role ∧
      s'.net.queue = s.net.queue ∧ s'.net.pipe = s.net.pipe := by
  obtain ⟨s₁, accepted, told⟩ := announce_run reached idle.running idle.acceptor (show 0 ≤ 3 by decide)
    (idle.closed 3 (le_refl 3)) (by rwa [idle.pipe])
  have conns : s₁.net.queue (.conns only) = [.conn 3 s.loc.accepted] := by
    rw [told.queue, Function.update_self, idle.conns, List.nil_append]
  have pipe : s₁.net.pipe (.signaling only) = [SignalingWorker.NEW_CONN] := by
    rw [told.pipe, Function.update_self, idle.pipe, List.nil_append]
  have closed : ∀ fd > 3, s₁.loc.fds fd = none := fun fd above => by
    rw [told.fds, Function.update_of_ne (by omega)]
    exact idle.closed fd (by omega)
  obtain ⟨s₂, registered, serving, role, queue, pipe'⟩ := register_run accepted told.running
    (told.agent ▸ idle.place) (told.role ▸ idle.signaling) conns pipe closed
  refine ⟨s₂, registered, serving, role.trans told.role, ?_, ?_⟩
  · rw [queue, told.queue, Function.update_idem, Function.update_eq_self_iff, idle.conns]
  · rw [pipe', told.pipe, Function.update_idem, Function.update_eq_self_iff, idle.pipe]

theorem ask_run (reached : Run capacity s) (serving : Serving s .loop [] .head 0 xheadSize)
    (free : s.net.role (.signaling only) = .free) :
    ∃ s' x, Run capacity s' ∧ Serving s' (.sending 3 false) (clientHeader 11 ++ pushText) .body xheadSize 11 ∧
      s'.net.role = Function.update s.net.role (.signaling only) (.owes .server) ∧
      s'.net.queue = Function.update s.net.queue .server (s.net.queue .server ++ [x]) ∧
      s'.net.pipe = s.net.pipe := by
  obtain ⟨s₁, reached, serving, net₁⟩ := read_step reached serving free (clientHeader 11) (by decide)
    (by decide) (by decide)
  obtain ⟨s₂, reached, serving, net₂⟩ := header_step reached serving (by decide) (by decide)
  obtain ⟨s₃, reached, serving, net₃⟩ := done_step reached serving (by decide)
  have same : s₃.net = s.net := net₃.trans (net₂.trans net₁)
  obtain ⟨s₄, reached, serving, net₄⟩ := read_step reached serving (same ▸ free) pushText (by decide)
    (by decide) (by decide)
  obtain ⟨s₅, x, reached, serving, role, queue, pipe⟩ := send_run reached serving (net₄ ▸ same ▸ free) (by decide) rfl
  rw [net₄, same] at role queue pipe
  exact ⟨s₅, x, reached, serving, role, queue, pipe⟩

/-! ## The rtc server and the rtc worker -/

theorem take_run (reached : Run capacity s) (running : s.loc.crash = none) (b : Box 1 1)
    (alone : ∀ c : Box 1 1, c.pipe = b.pipe → c = b) (other : ∀ i, b.pipe ≠ .signaling i)
    (free : s.net.role b.pipe.reader = .free) (told : s.net.pipe b.pipe ≠ []) :
    ∃ s' x rest tag tags, Run capacity s' ∧ s'.loc = s.loc ∧
      s'.net.role = Function.update s.net.role b.pipe.reader (.holding x) ∧
      s.net.queue b = x :: rest ∧ s'.net.queue = Function.update s.net.queue b rest ∧
      s.net.pipe b.pipe = tag :: tags ∧ s'.net.pipe = Function.update s.net.pipe b.pipe tags := by
  obtain ⟨tag, tags, head⟩ := List.exists_cons_of_ne_nil told
  obtain ⟨c, named⟩ := reached_tagged reached b.pipe tag (by rw [head]; exact List.mem_cons_self ..)
  obtain rfl : c = b := alone c (((wiring 1 1 capacity).boxOf_iff _ _ _).1 named).1
  have planned : s.plan (piped capacity) (.wake c.pipe) = some (.ok ⟨some (.wake c.pipe), s.loc⟩) := by
    simp only [System.plan, System.wake]
  have woken := run_move reached _ rfl running planned (Net.wake_step free head named)
  obtain ⟨x, rest, first⟩ := List.exists_cons_of_ne_nil
    ((reached_covered woken).woken_nonempty (Function.update_self c.pipe.reader _ _))
  have taken := run_move woken (.pop c.pipe.reader) rfl running rfl
    (Net.pop_step (Function.update_self c.pipe.reader _ _) first)
  exact ⟨_, x, rest, tag, tags, taken, rfl, Function.update_idem .., first, rfl, head, rfl⟩

theorem forward_step {x : Item 1} (reached : Run capacity s) (running : s.loc.crash = none)
    (holds : s.net.role .rtcServer = .holding x) :
    ∃ s', Run capacity s' ∧ s'.loc = s.loc ∧
      s'.net.role = Function.update s.net.role .rtcServer (.owes (.worker only)) ∧
      s'.net.queue = Function.update s.net.queue (.worker only) (s.net.queue (.worker only) ++ [x]) ∧
      s'.net.pipe = s.net.pipe := by
  have fit := hand_fits reached holds
  cases x with
  | conn fd origin => cases fit
  | msg e =>
      have chosen : s.loc.server.getWorker (piped capacity).crc32 e.msg.streamName = .ok (some only) := by
        rw [Affinity.reached_server reached]
        rfl
      have planned : s.plan (piped capacity) .forward =
          some (.ok ⟨some (.push .rtcServer (.worker only) id), s.loc⟩) := by
        simp only [System.plan, System.forward, holds, chosen]
      exact ⟨_, run_move reached _ rfl running planned (Net.push_step holds _ _), rfl, rfl, rfl, rfl⟩

/-! ## Filling up -/

/-- No client is connected; `requests` messages are queued for the rtc server and announced to it, `tasks` for
the rtc worker, of which it has been told of `told`. -/
structure Loaded (s : System 1 1) (server worker : Role (Box 1 1) (Item 1)) (requests tasks told : Nat) : Prop
    extends Idle s where
  server : s.net.role .rtcServer = server
  worker : s.net.role (.rtcWorker only) = worker
  requests : (s.net.queue .server).length = requests ∧ (s.net.pipe .server).length = requests
  tasks : (s.net.queue (.worker only)).length = tasks ∧ (s.net.pipe (.worker only)).length = told
  replies : s.net.queue (.replies only) = []

section Filling

variable {server worker : Role (Box 1 1) (Item 1)} {requests tasks told : Nat}

theorem start_loaded : Loaded (System.start 1 1) .free .free 0 0 0 :=
  ⟨⟨rfl, rfl, rfl, rfl, rfl, rfl, fun _ _ => rfl⟩, rfl, rfl, ⟨rfl, rfl⟩, ⟨rfl, rfl⟩, rfl⟩

/-- A client connects, asks and goes away again. -/
theorem client_run (reached : Run capacity s) (loaded : Loaded s server worker requests tasks told)
    (room : requests < capacity) :
    ∃ s', Run capacity s' ∧ Loaded s' server worker (requests + 1) tasks told := by
  obtain ⟨s₁, reached, serving, role₁, queue₁, pipe₁⟩ := connect_run reached loaded.toIdle (by omega)
  obtain ⟨s₂, x, reached, serving, role₂, queue₂, pipe₂⟩ := ask_run reached serving (role₁ ▸ loaded.signaling)
  rw [role₁] at role₂
  rw [queue₁] at queue₂
  rw [pipe₁] at pipe₂
  obtain ⟨s₃, reached, serving, role₃, queue₃, pipe₃⟩ := sent_step reached serving
    (by rw [role₂, Function.update_self]) (by rwa [pipe₂, loaded.requests.2])
  rw [role₂, Function.update_idem, Function.update_eq_self_iff.2 loaded.signaling.symm] at role₃
  rw [queue₂] at queue₃
  rw [pipe₂] at pipe₃
  obtain ⟨s₄, reached, serving, net₄⟩ := done_step reached serving (by decide)
  obtain ⟨s₅, reached, running, place, closed, net₅⟩ := hangUp_run reached serving
    (by rw [net₄, role₃]; exact loaded.signaling) (by decide) (by decide)
  rw [← net₄, ← net₅] at role₃ queue₃ pipe₃
  refine ⟨s₅, reached, ⟨running, place, ?_, ?_, ?_, ?_, closed⟩, ?_, ?_, ⟨?_, ?_⟩, ⟨?_, ?_⟩, ?_⟩
  all_goals simp [role₃, queue₃, pipe₃, loaded.acceptor, loaded.signaling, loaded.conns, loaded.pipe, loaded.server,
    loaded.worker, loaded.requests, loaded.tasks, loaded.replies]

theorem forward_run (reached : Run capacity s) (loaded : Loaded s .free worker (requests + 1) tasks told) :
    ∃ s', Run capacity s' ∧ Loaded s' (.owes (.worker only)) worker requests (tasks + 1) told := by
  obtain ⟨s₁, x, rest, tag, tags, reached, loc, role, first, queue, head, pipe⟩ := take_run reached loaded.running
    .server (by decide) (by simp [Box.pipe]) loaded.server
    (by simp [← List.length_pos_iff, Box.pipe, loaded.requests])
  obtain ⟨s₂, reached, loc₂, role₂, queue₂, pipe₂⟩ := forward_step reached (loc ▸ loaded.running)
    (by rw [role]; exact Function.update_self ..)
  have queued : rest.length = requests := Nat.succ.inj ((congrArg List.length first).symm.trans loaded.requests.1)
  have announced : tags.length = requests := Nat.succ.inj ((congrArg List.length head).symm.trans loaded.requests.2)
  rw [loc] at loc₂
  rw [role] at role₂
  rw [queue] at queue₂
  rw [pipe] at pipe₂
  refine ⟨s₂, reached, ⟨loc₂ ▸ loaded.running, loc₂ ▸ loaded.place, ?_, ?_, ?_, ?_, loc₂ ▸ loaded.closed⟩, ?_, ?_,
    ⟨?_, ?_⟩, ⟨?_, ?_⟩, ?_⟩
  all_goals simp [role₂, queue₂, pipe₂, Box.pipe, Pipe.reader, queued, announced, loaded.acceptor, loaded.signaling,
    loaded.conns, loaded.pipe, loaded.worker, loaded.tasks, loaded.replies]

theorem told_run (reached : Run capacity s) (loaded : Loaded s (.owes (.worker only)) worker requests tasks told)
    (room : told < capacity) : ∃ s', Run capacity s' ∧ Loaded s' .free worker requests tasks (told + 1) := by
  have notified := run_move reached (.notify .rtcServer true) rfl loaded.running rfl
    (Net.notify_step (w := wiring 1 1 capacity) loaded.server (loaded.tasks.2.trans_lt room))
  refine ⟨_, notified, ⟨loaded.running, loaded.place, ?_, ?_, ?_, ?_, loaded.closed⟩, ?_, ?_, ⟨?_, ?_⟩, ⟨?_, ?_⟩, ?_⟩
  all_goals simp [wiring, Box.pipe, loaded.acceptor, loaded.signaling, loaded.conns, loaded.pipe, loaded.worker,
    loaded.requests, loaded.tasks, loaded.replies]

theorem working_run (room : 0 < capacity) : ∃ s x, Run capacity s ∧ Loaded s .free (.holding x) 0 0 0 := by
  obtain ⟨s₁, reached, loaded⟩ := client_run .start start_loaded room
  obtain ⟨s₂, reached, loaded⟩ := forward_run reached loaded
  obtain ⟨s₃, reached, loaded⟩ := told_run reached loaded room
  obtain ⟨s₄, x, rest, tag, tags, reached, loc, role, first, queue, head, pipe⟩ := take_run reached loaded.running
    (.worker only) (by decide) (by simp [Box.pipe]) loaded.worker
    (by simp [← List.length_pos_iff, Box.pipe, loaded.tasks])
  have queued : rest.length = 0 := Nat.succ.inj ((congrArg List.length first).symm.trans loaded.tasks.1)
  have announced : tags.length = 0 := Nat.succ.inj ((congrArg List.length head).symm.trans loaded.tasks.2)
  refine ⟨s₄, x, reached, ⟨loc ▸ loaded.running, loc ▸ loaded.place, ?_, ?_, ?_, ?_, loc ▸ loaded.closed⟩, ?_, ?_,
    ⟨?_, ?_⟩, ⟨?_, ?_⟩, ?_⟩
  all_goals simp_all [Box.pipe, Pipe.reader, loaded.acceptor, loaded.signaling, loaded.conns,
    loaded.pipe, loaded.server, loaded.requests, loaded.replies]

theorem tasks_run {x : Item 1} (reached : Run capacity s) (loaded : Loaded s .free (.holding x) 0 0 0) (k : Nat)
    (room : k ≤ capacity) (some : 0 < capacity) : ∃ s', Run capacity s' ∧ Loaded s' .free (.holding x) 0 k k := by
  induction k with
  | zero => exact ⟨s, reached, loaded⟩
  | succ k ih =>
      obtain ⟨s₁, reached, loaded⟩ := ih (by omega)
      obtain ⟨s₂, reached, loaded⟩ := client_run reached loaded some
      obtain ⟨s₃, reached, loaded⟩ := forward_run reached loaded
      exact told_run reached loaded (by omega)

theorem requests_run (reached : Run capacity s) (loaded : Loaded s server worker 0 tasks told) (k : Nat)
    (room : k ≤ capacity) : ∃ s', Run capacity s' ∧ Loaded s' server worker k tasks told := by
  induction k with
  | zero => exact ⟨s, reached, loaded⟩
  | succ k ih =>
      obtain ⟨s₁, reached, loaded⟩ := ih (by omega)
      exact client_run reached loaded (by omega)

end Filling

/-! ## All of them blocked -/

/-- The signaling worker and the rtc server wait for room in full pipes, the rtc worker has a message to answer,
and `waiting` connections wait for the signaling worker. -/
structure Crowded (s : System 1 1) (capacity : Nat) (x : Item 1) (waiting : Nat) : Prop where
  running : s.loc.crash = none
  acceptor : s.net.role .acceptor = .free
  signaling : s.net.role (.signaling only) = .owes .server
  server : s.net.role .rtcServer = .owes (.worker only)
  worker : s.net.role (.rtcWorker only) = .holding x
  requests : (s.net.queue .server).length = capacity + 1 ∧ (s.net.pipe .server).length = capacity
  tasks : (s.net.queue (.worker only)).length = capacity + 1 ∧ (s.net.pipe (.worker only)).length = capacity
  conns : (s.net.queue (.conns only)).length = waiting ∧ (s.net.pipe (.signaling only)).length = waiting
  replies : s.net.queue (.replies only) = []
  closed : ∀ fd > 3 + (waiting : Int), s.loc.fds fd = none

theorem last_client {x : Item 1} (reached : Run capacity s) (room : 0 < capacity)
    (loaded : Loaded s (.owes (.worker only)) (.holding x) capacity (capacity + 1) capacity) :
    ∃ s', Run capacity s' ∧ Crowded s' capacity x 0 := by
  obtain ⟨s₁, reached, serving, role₁, queue₁, pipe₁⟩ := connect_run reached loaded.toIdle room
  obtain ⟨s₂, y, reached, serving, role₂, queue₂, pipe₂⟩ := ask_run reached serving (role₁ ▸ loaded.signaling)
  rw [role₁] at role₂
  rw [queue₁] at queue₂
  rw [pipe₁] at pipe₂
  refine ⟨s₂, reached, serving.running, ?_, ?_, ?_, ?_, ⟨?_, ?_⟩, ⟨?_, ?_⟩, ⟨?_, ?_⟩, ?_, fun fd above =>
    serving.closed fd (by omega)⟩
  all_goals simp [role₂, queue₂, pipe₂, loaded.acceptor, loaded.conns, loaded.pipe, loaded.server, loaded.worker,
    loaded.requests, loaded.tasks, loaded.replies]

/-- The acceptor goes on, until the pipe of the signaling worker is full too. -/
theorem conns_run {x : Item 1} (reached : Run capacity s) (crowded : Crowded s capacity x 0) (k : Nat)
    (room : k ≤ capacity) : ∃ s', Run capacity s' ∧ Crowded s' capacity x k := by
  induction k with
  | zero => exact ⟨s, reached, crowded⟩
  | succ k ih =>
      obtain ⟨s₁, reached, crowded⟩ := ih (by omega)
      obtain ⟨s₂, reached, told⟩ := announce_run reached crowded.running crowded.acceptor
        (show 0 ≤ 4 + (k : Int) by omega) (crowded.closed _ (by omega)) (by rw [crowded.conns.2]; omega)
      have closed : ∀ fd > 3 + ((k + 1 : Nat) : Int), s₂.loc.fds fd = none := fun fd above => by
        rw [told.fds, Function.update_of_ne (by omega)]
        exact crowded.closed fd (by omega)
      refine ⟨s₂, reached, told.running, ?_, ?_, ?_, ?_, ⟨?_, ?_⟩, ⟨?_, ?_⟩, ⟨?_, ?_⟩, ?_, closed⟩
      all_goals simp [told.role, told.queue, told.pipe, crowded.acceptor, crowded.signaling, crowded.server,
        crowded.worker, crowded.requests, crowded.tasks, crowded.conns, crowded.replies]

theorem answer_step {x : Item 1} (reached : Run capacity s) (running : s.loc.crash = none)
    (holds : s.net.role (.rtcWorker only) = .holding x) :
    ∃ s' y, Run capacity s' ∧ s'.net.role = Function.update s.net.role (.rtcWorker only) (.owes (.replies only)) ∧
      s'.net.queue = Function.update s.net.queue (.replies only) (s.net.queue (.replies only) ++ [y]) ∧
      s'.net.pipe = s.net.pipe := by
  have fit := hand_fits reached holds
  cases x with
  | conn fd origin => cases fit
  | msg e =>
      obtain ⟨msg, sends⟩ := process_sends reached holds
      rw [Subsingleton.elim e.creator only] at sends
      have planned : s.plan (piped capacity) (.process only) = some (.ok ⟨some (.push (.rtcWorker only)
          (.replies only) fun _ => .msg { e with msg := msg }), s.loc.record (.process only e)⟩) := by
        simp only [System.plan, System.process, holds, sends]
      exact ⟨_, _, run_move reached _ rfl running planned (Net.push_step holds _ _), rfl, rfl, rfl⟩

/-- However much the pipes hold, all three threads can come to wait for room in the next one's pipe. -/
theorem backlog_run (room : 0 < capacity) : ∃ s : System 1 1, Run capacity s ∧
    s.net.role (.signaling only) = .owes .server ∧ (s.net.pipe .server).length = capacity ∧
    s.net.role .rtcServer = .owes (.worker only) ∧ (s.net.pipe (.worker only)).length = capacity ∧
    s.net.role (.rtcWorker only) = .owes (.replies only) ∧ (s.net.pipe (.signaling only)).length = capacity ∧
    ∑ b, (s.net.queue b).length = 3 * capacity + 3 := by
  obtain ⟨s₁, x, reached, loaded⟩ := working_run room
  obtain ⟨s₂, reached, loaded⟩ := tasks_run reached loaded capacity (le_refl _) room
  obtain ⟨s₃, reached, loaded⟩ := client_run reached loaded room
  obtain ⟨s₄, reached, loaded⟩ := forward_run reached loaded
  obtain ⟨s₅, reached, loaded⟩ := requests_run reached loaded capacity (le_refl _)
  obtain ⟨s₆, reached, crowded⟩ := last_client reached room loaded
  obtain ⟨s₇, reached, crowded⟩ := conns_run reached crowded capacity (le_refl _)
  obtain ⟨s₈, y, reached, role, queue, pipe⟩ := answer_step reached crowded.running crowded.worker
  have boxes : (Finset.univ : Finset (Box 1 1)) = {.server, .worker only, .conns only, .replies only} := by decide
  refine ⟨s₈, reached, ?_, ?_, ?_, ?_, ?_, ?_, ?_⟩
  · simp [role, crowded.signaling]
  · rw [pipe, crowded.requests.2]
  · simp [role, crowded.server]
  · rw [pipe, crowded.tasks.2]
  · simp [role]
  · rw [pipe, crowded.conns.2]
  · rw [boxes, Finset.sum_insert (by decide), Finset.sum_insert (by decide), Finset.sum_pair (by decide)]
    simp [queue, crowded.requests, crowded.tasks, crowded.conns, crowded.replies]
    omega

end Xrtc.Proof.Backlog
