import Xrtc.Lib.Machine
import Xrtc.Lib.RoundRobin
import Xrtc.Server.Pipeline
import Xrtc.Server.SignalingServer

/-!
# The dispatch of accepted connections
-/

namespace Xrtc.Proof.Dispatch
open Server Base Lib RoundRobin

variable {around : Surroundings} {s s' server : SignalingServer}

/-! ## What `init` leaves -/

theorem createWorker_ok {i : Nat} (created : (s.createWorker around i).1 = 0) :
    s.createWorker around i = (0, { s with workers := s.workers ++ [i] }) := by
  unfold SignalingServer.createWorker at created ⊢
  split
  · next failed => rw [if_pos failed] at created; cases created
  · next inited =>
      rw [if_neg inited] at created
      split
      · next failed => rw [if_pos failed] at created; cases created
      · rfl

theorem createWorkers_ok {ids : List Nat} (created : s.createWorkers around ids = (0, s')) :
    s' = { s with workers := s.workers ++ ids } := by
  induction ids generalizing s with
  | nil =>
      cases created
      rw [List.append_nil]
  | cons i rest ih =>
      unfold SignalingServer.createWorkers at created
      dsimp only at created
      split at created
      · cases created
      · next worked =>
          rw [createWorker_ok (not_not.1 worked)] at created
          have later := ih created
          rw [later, List.append_assoc]
          rfl

theorem listen_ok {options : SignalingServerOptions} (done : s.listen around options = .ok (0, s')) :
    s'.workers = s.workers ++ List.range options.workerNum.toNat ∧
      s'.nextWorkerIndex = s.nextWorkerIndex := by
  obtain ⟨⟨el, pipeWatcher⟩, -, done⟩ := bind_eq_ok done
  dsimp only at done
  split at done
  · cases done
  · obtain ⟨⟨el, ioWatcher⟩, -, done⟩ := bind_eq_ok done
    rw [createWorkers_ok (Except.ok.inj done)]
    exact ⟨rfl, rfl⟩

theorem init_ok {file : String} {options : SignalingServerOptions} (loaded : around.loadFile file = some options)
    (done : SignalingServer.new.init around (some file) = .ok (0, server)) :
    server.workers = List.range options.workerNum.toNat ∧ server.nextWorkerIndex = 0 := by
  unfold SignalingServer.init at done
  simp only [loaded] at done
  split at done
  · cases done
  · exact listen_ok done

/-! ## Runs of `dispatch_new_conn` -/

structure Turn (n k : Nat) (s : SignalingServer) : Prop where
  workers : s.workers = List.range n
  next : s.nextWorkerIndex = k % n

theorem dispatchNewConn_turn {n k : Nat} (positive : 0 < n) (turn : Turn n k s) (cfd : Int) :
    ∃ s', s.dispatchNewConn cfd = .ok (s', (k % n, cfd)) ∧ Turn n (k + 1) s' := by
  have index : s.workers[s.nextWorkerIndex]? = some (k % n) := by
    rw [turn.workers, turn.next, List.getElem?_range (Nat.mod_lt k positive)]
  refine ⟨{ s with nextWorkerIndex := advance s.workers.length s.nextWorkerIndex }, ?_, turn.workers, ?_⟩
  · unfold SignalingServer.dispatchNewConn
    simp only [index]
    rfl
  · dsimp only
    rw [turn.workers, List.length_range, turn.next, advance_mod positive]

theorem dispatchAll_turn {n k : Nat} (positive : 0 < n) (turn : Turn n k s) (cfds : List Int) :
    ∃ s' calls, s.dispatchAll cfds = .ok (s', calls) ∧ calls.map Prod.snd = cfds ∧
      calls.map Prod.fst = picks n k cfds.length := by
  induction cfds generalizing s k with
  | nil => exact ⟨s, [], rfl, rfl, rfl⟩
  | cons cfd cfds ih =>
      obtain ⟨s₁, first, turn₁⟩ := dispatchNewConn_turn positive turn cfd
      obtain ⟨s₂, calls, rest, all, places⟩ := ih turn₁
      refine ⟨s₂, (k % n, cfd) :: calls, ?_, ?_, ?_⟩
      · rw [SignalingServer.dispatchAll, first]
        simp only [bind, Except.bind, rest, pure, Except.pure]
      · rw [List.map_cons, all]
      · rw [List.map_cons, places, List.length_cons, picks_cons]

/-- Every accepted connection goes to a worker in the list, and after any number of them each worker
has had its share, exactly when `worker_num` is not 0 or negative; `init` does not look. -/
theorem dispatch_fair_iff (around : Surroundings) (file : String) (options : SignalingServerOptions)
    (server : SignalingServer) (loaded : around.loadFile file = some options)
    (initialised : SignalingServer.new.init around (some file) = .ok (0, server)) :
    (∀ cfds : List Int, ∃ server' calls, server.dispatchAll cfds = .ok (server', calls) ∧
      calls.map Prod.snd = cfds ∧
      ∀ worker ∈ server.workers,
        (calls.map Prod.fst).count worker = cfds.length / server.workers.length ∨
        (calls.map Prod.fst).count worker =
          (cfds.length + server.workers.length - 1) / server.workers.length) ↔
    1 ≤ options.workerNum := by
  obtain ⟨workers, first⟩ := init_ok loaded initialised
  constructor
  · intro fair
    by_contra none_wanted
    have empty : options.workerNum.toNat = 0 := by omega
    obtain ⟨server', calls, dispatched, -⟩ := fair [5]
    obtain ⟨pair, one, -⟩ := bind_eq_ok dispatched
    rw [empty, List.range_zero] at workers
    simp only [SignalingServer.dispatchNewConn, workers, List.getElem?_nil] at one
    cases one
  · intro wanted cfds
    have positive : 0 < options.workerNum.toNat := by omega
    have turn : Turn options.workerNum.toNat 0 server := ⟨workers, by rw [first, Nat.zero_mod]⟩
    obtain ⟨server', calls, dispatched, all, places⟩ := dispatchAll_turn positive turn cfds
    refine ⟨server', calls, dispatched, all, fun worker created => ?_⟩
    rw [workers, List.mem_range] at created
    rw [places, workers, List.length_range]
    exact count_picks_fair created cfds.length

/-- A machine on which everything works, with `worker_num` in the configuration file. -/
def working (workerNum : Int) : Surroundings where
  loadFile _ := some ⟨"0.0.0.0", 9000, workerNum, 5000000⟩
  pipe := some (3, 4)
  createTcpServer _ _ := 5
  workerInit _ := 0
  workerStart _ := true

theorem dispatch_fair_iff_three :
    ∃ server server' calls,
      SignalingServer.new.init (working 3) (some "./conf/signaling_server.yaml") = .ok (0, server) ∧
      server.dispatchAll [10, 11, 12, 13] = .ok (server', calls) ∧
      ∀ worker ∈ server.workers, (calls.map Prod.fst).count worker = 4 / server.workers.length ∨
        (calls.map Prod.fst).count worker = (4 + server.workers.length - 1) / server.workers.length := by
  obtain ⟨server, initialised⟩ : ∃ server,
      SignalingServer.new.init (working 3) (some "./conf/signaling_server.yaml") = .ok (0, server) := ⟨_, rfl⟩
  have fair := (dispatch_fair_iff (working 3) _ _ server rfl initialised).2 (by decide)
  obtain ⟨server', calls, dispatched, -, shares⟩ := fair [10, 11, 12, 13]
  exact ⟨server, server', calls, initialised, dispatched, shares⟩

theorem no_worker_out_of_range :
    ∃ server, SignalingServer.new.init (working 0) (some "./conf/signaling_server.yaml") = .ok (0, server) ∧
      server.workers.length = 0 ∧ server.dispatchNewConn 10 = .error .outOfRange :=
  ⟨_, rfl, rfl, rfl⟩

/-! ## The server in the pipeline -/

/-- The acceptor of the pipeline makes the choice of a server with its workers and its cursor. -/
theorem pipeline_dispatch {n m : Nat} {sys : System n m} {item : Item n}
    (holding : sys.net.role .acceptor = .holding item) (workers : s.workers = List.range n)
    (cursor : s.nextWorkerIndex = sys.loc.nextWorkerIndex) (cfd : Int) :
    (∃ s' i, s.dispatchNewConn cfd = .ok (s', (i.val, cfd)) ∧
      sys.dispatchNewConn = some (.ok ⟨some (.push .acceptor (.conns i) id),
        { sys.loc with nextWorkerIndex := s'.nextWorkerIndex }⟩)) ∨
    (s.dispatchNewConn cfd = .error .outOfRange ∧ sys.dispatchNewConn = some (.error .outOfRange)) := by
  unfold SignalingServer.dispatchNewConn System.dispatchNewConn
  simp only [holding, workers, cursor, List.length_range]
  by_cases inside : sys.loc.nextWorkerIndex < n
  · rw [List.getElem?_range inside, dif_pos inside]
    exact .inl ⟨_, ⟨_, inside⟩, rfl, rfl⟩
  · rw [List.getElem?_eq_none (by rw [List.length_range]; omega), dif_neg inside]
    exact .inr ⟨rfl, rfl⟩

end Xrtc.Proof.Dispatch
