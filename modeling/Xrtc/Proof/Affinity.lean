import Xrtc.Proof.Transit
import Xrtc.Proof.Notifications

/-!
# Streams and rtc workers

All messages of a stream go to one rtc worker, in the order in which they were pushed to the rtc
server.
-/

namespace Xrtc.Proof.Affinity
open Server Base Lib Lib.Mailbox Steps Transit Notifications

variable {V : Type} {n m : Nat}

/-! ## The choice of the worker -/

theorem foldl_createWorker {W : Type} (workers : List W) (server : RtcServer W) :
    workers.foldl RtcServer.createWorker server =
      { server with workers := server.workers ++ workers } := by
  induction workers generalizing server with
  | nil => simp
  | cons worker workers ih => simp [ih, RtcServer.createWorker]

theorem init_eq (m : Nat) : RtcServer.init m = ⟨List.finRange m, m⟩ := by
  simp [RtcServer.init, foldl_createWorker]

def workerOf (cfg : Config V m) (workers : 1 ≤ m) (name : List UInt8) : Fin m :=
  ⟨(cfg.crc32 name).toNat % m, Nat.mod_lt _ workers⟩

theorem getWorker_init (cfg : Config V m) (workers : 1 ≤ m) (name : List UInt8) :
    (RtcServer.init m).getWorker cfg.crc32 name = .ok (some (workerOf cfg workers name)) := by
  have small := cfg.workerNum_lt
  have size : toSizeT (m : Int) = m := by unfold toSizeT; omega
  have modulus : ((m : Int) % 4294967296).toNat = m := by omega
  have inside := Nat.mod_lt (cfg.crc32 name).toNat workers
  have nonempty : ¬ m = 0 := by omega
  simp [RtcServer.getWorker, init_eq, size, modulus, inside, nonempty, workerOf]

section Server

variable {cfg : Config V m} {admits : System n m → Label n m → Prop} {s : System n m}

theorem reached_server (reached : Reached cfg admits s) : s.loc.server = RtcServer.init m := by
  apply reached_invariant (fun s => s.loc.server = RtcServer.init m) rfl (fun _ _ same => same) _ reached
  intro s s' l move _ same _ act _
  generalize s'.loc = loc at act ⊢
  cases act <;> exact same

theorem reached_fifo (reached : Reached cfg admits s) : s.net.Fifo := by
  apply reached_net Net.Fifo Net.empty_fifo _ reached
  intro s l move net loc _ fifo _ _ stepped
  exact Net.step_fifo fifo stepped

/-! ## Through the rtc server -/

def ofStream (name : List UInt8) : Item n → Bool
  | .conn _ _ => false
  | .msg e => e.msg.streamName = name

theorem woken_server (served : s.net.Served (wiring n m cfg.capacity)) {t : Thread n m} {b : Box n m}
    (woken : s.net.role t = .woken b) : t = .rtcServer ↔ b = .server := by
  rw [served t b woken]
  cases b <;> simp [wiring, Box.pipe, Pipe.reader]

/-- What the rtc server holds and pops goes on to the worker of its stream or stays in its hands. -/
theorem act_relay (workers : 1 ≤ m) (server : s.loc.server = RtcServer.init m)
    (served : s.net.Served (wiring n m cfg.capacity)) {l : Label n m} {move : QueueMove n m}
    {loc : Local n m} (act : Act cfg s l (some move) loc) {net : Queues n m}
    (stepped : s.net.step (wiring n m cfg.capacity) move = some net) (name : List UInt8) :
    ((s.net.role .rtcServer).held ++ move.pops s.net .server).filter (ofStream name) =
      (move.pushes s.net (.worker (workerOf cfg workers name)) ++ move.hold s.net .rtcServer).filter
        (ofStream name) := by
  cases act with
  | @pop t =>
      obtain ⟨b, woken, -⟩ := Net.pop_inv stepped
      have reader := woken_server served woken
      by_cases same : b = .server
      · obtain rfl := reader.2 same
        simp [Move.pops, Move.pushes, Move.hold, woken, Role.held, Role.claim, same]
      · have other : t ≠ .rtcServer := fun same' => same (reader.1 same')
        simp [Move.pops, Move.pushes, Move.hold, woken, Role.claim, same, other]
  | @forward e j holds worker =>
      rw [server, getWorker_init cfg workers] at worker
      cases worker
      by_cases same : e.msg.streamName = name
      · simp [Move.pops, Move.pushes, Move.hold, holds, Role.held, same]
      · simp only [Move.pops, Move.pushes, Move.hold, holds, Role.held]
        split <;> simp [ofStream, same]
  | homeless holds nobody =>
      rw [server, getWorker_init cfg workers] at nobody
      cases nobody
  | notify _ => split <;> simp [Move.pops, Move.pushes, Move.hold]
  | sent _ => split <;> simp [Move.pops, Move.pushes, Move.hold]
  | _ => simp [Move.pops, Move.pushes, Move.hold]

theorem reached_relay (workers : 1 ≤ m) (reached : Reached cfg admits s) (name : List UInt8) :
    (s.net.popped .server).filter (ofStream name) =
      (s.net.pushed (.worker (workerOf cfg workers name))).filter (ofStream name) ++
        (s.net.role .rtcServer).held.filter (ofStream name) := by
  apply reached_net (fun net => (net.popped .server).filter (ofStream name) =
      (net.pushed (.worker (workerOf cfg workers name))).filter (ofStream name) ++
        (net.role .rtcServer).held.filter (ofStream name)) rfl _ reached
  intro s l move net loc before relay _ act stepped
  have moved := act_relay workers (reached_server before) (reached_served before) act stepped name
  simp only [List.filter_append] at moved
  rw [Net.step_popped stepped, Net.step_pushed stepped, Net.step_held stepped, List.filter_append,
    List.filter_append, relay, List.append_assoc, List.append_assoc, moved]

theorem reached_routed (workers : 1 ≤ m) (reached : Reached cfg admits s) (j : Fin m) (e : Envelope n)
    (pushed : .msg e ∈ s.net.pushed (.worker j)) : workerOf cfg workers e.msg.streamName = j := by
  revert e
  apply reached_net (fun net => ∀ e, Item.msg e ∈ net.pushed (.worker j) →
    workerOf cfg workers e.msg.streamName = j) (fun _ member => by cases member) _ reached
  intro s l move net loc before routed _ act stepped e member
  rw [Net.step_pushed stepped, List.mem_append] at member
  rcases member with old | new
  · exact routed e old
  · cases act with
    | forward holds worker =>
        rw [reached_server before, getWorker_init cfg workers] at worker
        cases worker
        simp only [Move.pushes, holds, Role.held] at new
        split at new
        · next same =>
            cases same
            simp only [List.map_id, List.mem_singleton, Item.msg.injEq] at new
            rw [new]
        · cases new
    | notify _ => split at new <;> simp [Move.pushes] at new
    | sent _ => split at new <;> simp [Move.pushes] at new
    | _ => simp [Move.pushes] at new

/-! ## In the rtc workers -/

def processedBy (j : Fin m) : Event n m → Option (Item n)
  | .process k e => if k = j then some (.msg e) else none
  | _ => none

theorem woken_worker (served : s.net.Served (wiring n m cfg.capacity)) {t : Thread n m} {b : Box n m}
    (woken : s.net.role t = .woken b) (j : Fin m) : t = .rtcWorker j ↔ b = .worker j := by
  rw [served t b woken]
  cases b <;> simp [wiring, Box.pipe, Pipe.reader]

theorem processed_release {k : Fin m} {e : Envelope n} (holds : s.net.role (.rtcWorker k) = .holding (.msg e))
    (j : Fin m) (log rest : List (Event n m)) (quiet : rest.filterMap (processedBy j) = []) :
    log.filterMap (processedBy j) ++ (s.net.role (.rtcWorker j)).held =
      (log ++ .process k e :: rest).filterMap (processedBy j) ++
        if (.rtcWorker k : Thread n m) = .rtcWorker j then [] else (s.net.role (.rtcWorker j)).held := by
  by_cases same : k = j
  · subst same
    simp [holds, Role.held, processedBy, quiet]
  · simp [processedBy, same, quiet]

theorem reached_processed (reached : Reached cfg admits s) (j : Fin m) :
    s.net.popped (.worker j) = s.loc.log.filterMap (processedBy j) ++ (s.net.role (.rtcWorker j)).held := by
  apply reached_invariant (fun s => s.net.popped (.worker j) =
    s.loc.log.filterMap (processedBy j) ++ (s.net.role (.rtcWorker j)).held) rfl (fun _ _ inv => inv) _
    reached
  intro s s' l move before inv _ act carried
  obtain ⟨net, loc⟩ := s'
  dsimp only at act carried ⊢
  cases act with
  | turn _ =>
      rw [show net = s.net from carried]
      exact inv
  | close _ _ =>
      rw [show net = s.net from carried, Local.record, List.filterMap_append]
      exact inv.trans (congrArg (· ++ _) (List.append_nil _).symm)
  | remove _ _ _ =>
      rw [show net = s.net from carried]
      exact inv
  | @pop t =>
      obtain ⟨b, woken, -⟩ := Net.pop_inv carried
      have reader := woken_worker (reached_served before) woken j
      rw [Net.step_popped carried, Net.step_held carried, inv]
      by_cases same : b = .worker j
      · obtain rfl := reader.2 same
        simp [Move.pops, Move.hold, woken, Role.held, Role.claim, same]
      · have other : t ≠ .rtcWorker j := fun same' => same (reader.1 same')
        simp [Move.pops, Move.hold, woken, Role.claim, same, other]
  | process holds _ =>
      rw [Net.step_popped carried, Net.step_held carried, inv]
      simp only [Move.pops, Move.hold, List.append_nil]
      exact processed_release holds j s.loc.log [] rfl
  | unknown holds _ =>
      rw [Net.step_popped carried, Net.step_held carried, inv]
      simp only [Move.pops, Move.hold, List.append_nil, Local.record, List.append_assoc]
      exact processed_release holds j s.loc.log [_] rfl
  | orphan holds _ =>
      rw [Net.step_popped carried, Net.step_held carried, inv]
      simp only [Move.pops, Move.hold, List.append_nil, Local.record, List.append_assoc]
      exact processed_release holds j s.loc.log [_] rfl
  | notify _ =>
      rw [Net.step_popped carried, Net.step_held carried, inv]
      split <;> simp [Move.pops, Move.hold]
  | sent _ =>
      rw [Net.step_popped carried, Net.step_held carried, inv]
      split <;> simp [Move.pops, Move.hold, Local.setAgent]
  | _ =>
      rw [Net.step_popped carried, Net.step_held carried, inv]
      simp [Move.pops, Move.hold, Local.record, Local.setAgent, processedBy]

/-! ## A whole stream -/

def processed : Event n m → Option (Item n)
  | .process _ e => some (.msg e)
  | _ => none

theorem process_worker (workers : 1 ≤ m) (reached : Reached cfg admits s) {j : Fin m} {e : Envelope n}
    (logged : .process j e ∈ s.loc.log) : workerOf cfg workers e.msg.streamName = j := by
  apply reached_routed workers reached j e
  have popped : .msg e ∈ s.net.popped (.worker j) := by
    rw [reached_processed reached j]
    apply List.mem_append_left
    exact List.mem_filterMap.2 ⟨_, logged, by simp [processedBy]⟩
  rw [reached_fifo reached]
  exact List.mem_append_left _ popped

theorem processed_stream (j : Fin m) (name : List UInt8) (log : List (Event n m))
    (own : ∀ k e, .process k e ∈ log → e.msg.streamName = name → k = j) :
    (log.filterMap processed).filter (ofStream name) =
      (log.filterMap (processedBy j)).filter (ofStream name) := by
  induction log with
  | nil => rfl
  | cons event log ih =>
      have rest := ih fun k e member => own k e (List.mem_cons_of_mem _ member)
      cases event with
      | process k e =>
          have first := own k e (List.mem_cons_self ..)
          by_cases same : e.msg.streamName = name
          · simp [processed, processedBy, ofStream, same, first same, rest]
          · by_cases here : k = j
            · simp [processed, processedBy, ofStream, same, here, rest]
            · simp [processed, processedBy, ofStream, same, here, rest]
      | _ => exact rest

/-- The messages of a stream are processed by the worker that its checksum names, in the order in which
they were pushed to the rtc server. -/
theorem stream_order (workers : 1 ≤ m) (reached : Reached cfg Always s) (name : List UInt8) :
    ((cfg.crc32 name).toNat % m < s.loc.server.workers.length ∧
        s.loc.server.getWorker cfg.crc32 name =
          .ok (s.loc.server.workers[(cfg.crc32 name).toNat % m]?)) ∧
      (∀ j e, .process j e ∈ s.loc.log → e.msg.streamName = name →
        j.val = (cfg.crc32 name).toNat % m) ∧
      (s.loc.log.filterMap processed).filter (ofStream name) <+:
        (s.net.pushed .server).filter (ofStream name) := by
  have server := reached_server reached
  have own (j : Fin m) (e : Envelope n) (logged : .process j e ∈ s.loc.log)
      (same : e.msg.streamName = name) : j = workerOf cfg workers name := by
    rw [← process_worker workers reached logged, same]
  refine ⟨⟨?_, ?_⟩, fun j e logged same => congrArg Fin.val (own j e logged same), ?_⟩
  · rw [server, init_eq, List.length_finRange]
    exact Nat.mod_lt _ workers
  · have inside := Nat.mod_lt (cfg.crc32 name).toNat workers
    rw [server, getWorker_init cfg workers, init_eq]
    simp [workerOf, inside]
  · rw [processed_stream (workerOf cfg workers name) name s.loc.log own]
    have fifo := reached_fifo reached
    have through := reached_relay workers reached name
    have done := reached_processed reached (workerOf cfg workers name)
    rw [fifo .server, List.filter_append, through, fifo (.worker _), done]
    simp only [List.filter_append, List.append_assoc]
    exact List.prefix_append _ _

end Server

/-- Two messages are pushed, and the first is processed by the first of two workers. -/
theorem stream_order_two : ∃ s : System 1 2, Reached (small 2 2 (by decide)) Always s ∧
    (s.loc.log.filterMap processed).length = 1 ∧ (s.net.pushed .server).length = 2 ∧
    (s.loc.log.filterMap processed).filter (ofStream []) <+: (s.net.pushed .server).filter (ofStream []) ∧
    ∀ e, .process 1 e ∈ s.loc.log → e.msg.streamName ≠ [] := by
  obtain ⟨s, reached, holds⟩ := exists_reachable_of_runLabels (System.step (small 2 2 (by decide)))
    always_sound (System.start 1 2)
    (connect 3 1 ++ connect 4 2 ++ ask 0 ++ asked ++ ask 2 ++ asked ++ forward ++
      [.notify .rtcServer true] ++ process 0)
    (fun s => (s.loc.log.filterMap processed).length = 1 ∧ (s.net.pushed .server).length = 2)
    (by decide +kernel)
  simp only [decide_eq_true_eq] at holds
  obtain ⟨-, worker, order⟩ := stream_order (by decide) reached []
  refine ⟨s, reached, holds.1, holds.2, order, fun e logged same => ?_⟩
  have other := worker 1 e logged same
  revert other
  decide

end Xrtc.Proof.Affinity
