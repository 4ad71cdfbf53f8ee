import Xrtc.Proof.Backlog

/-!
# Threads that wait for each other

The three pipes between the signaling workers, the rtc server and the rtc workers form a cycle of
blocking writes. It can close, but only over a backlog in all three places.
-/

namespace Xrtc.Proof.Deadlock
open Server Base Lib Lib.Mailbox Steps Notifications

variable {V : Type} {n m : Nat}

/-- `t` is in the write of a notification, and the pipe that `t'` reads is full. -/
def BlockedOn (cfg : Config V m) (s : System n m) (t t' : Thread n m) : Prop :=
  ∃ b, s.net.role t = .owes b ∧ cfg.capacity ≤ (s.net.pipe b.pipe).length ∧ t' = b.pipe.reader

def Cycle (cfg : Config V m) (s : System n m) : Prop := ∃ t, Relation.TransGen (BlockedOn cfg s) t t

section Cycle

variable {cfg : Config V m} {admits : System n m → Label n m → Prop} {s : System n m} {t : Thread n m}

theorem cycle_next (cycle : Relation.TransGen (BlockedOn cfg s) t t) :
    ∃ t', BlockedOn cfg s t t' ∧ Relation.TransGen (BlockedOn cfg s) t' t' := by
  obtain ⟨t', blocked, rest⟩ := Relation.TransGen.head'_iff.1 cycle
  exact ⟨t', blocked, .tail' rest blocked⟩

theorem blocked_signaling (reached : Reached cfg admits s) {i : Fin n} {t' : Thread n m}
    (blocked : BlockedOn cfg s (.signaling i) t') :
    t' = .rtcServer ∧ s.net.role (.signaling i) = .owes .server ∧
      cfg.capacity ≤ (s.net.pipe .server).length := by
  obtain ⟨b, owes, full, rfl⟩ := blocked
  have allowed := reached_sends reached _ _ owes
  cases b with
  | server => exact ⟨rfl, owes, full⟩
  | _ => cases allowed

theorem blocked_rtcServer (reached : Reached cfg admits s) {t' : Thread n m}
    (blocked : BlockedOn cfg s .rtcServer t') :
    ∃ j, t' = .rtcWorker j ∧ s.net.role .rtcServer = .owes (.worker j) ∧
      cfg.capacity ≤ (s.net.pipe (.worker j)).length := by
  obtain ⟨b, owes, full, rfl⟩ := blocked
  have allowed := reached_sends reached _ _ owes
  cases b with
  | worker j => exact ⟨j, rfl, owes, full⟩
  | _ => cases allowed

theorem blocked_rtcWorker (reached : Reached cfg admits s) {j : Fin m} {t' : Thread n m}
    (blocked : BlockedOn cfg s (.rtcWorker j) t') :
    ∃ i, t' = .signaling i ∧ s.net.role (.rtcWorker j) = .owes (.replies i) ∧
      cfg.capacity ≤ (s.net.pipe (.signaling i)).length := by
  obtain ⟨b, owes, full, rfl⟩ := blocked
  have allowed := reached_sends reached _ _ owes
  cases b with
  | replies i => exact ⟨i, rfl, owes, full⟩
  | _ => cases allowed

theorem blocked_acceptor (reached : Reached cfg admits s) {t' : Thread n m}
    (blocked : BlockedOn cfg s .acceptor t') : ∃ i, t' = .signaling i := by
  obtain ⟨b, owes, -, rfl⟩ := blocked
  have allowed := reached_sends reached _ _ owes
  cases b with
  | conns i => exact ⟨i, rfl⟩
  | _ => cases allowed

theorem cycle_rtcServer (reached : Reached cfg admits s) (cycle : Cycle cfg s) :
    Relation.TransGen (BlockedOn cfg s) .rtcServer .rtcServer := by
  have signaling {i : Fin n} (cycle : Relation.TransGen (BlockedOn cfg s) (.signaling i) (.signaling i)) :
      Relation.TransGen (BlockedOn cfg s) .rtcServer .rtcServer := by
    obtain ⟨t', blocked, cycle'⟩ := cycle_next cycle
    obtain ⟨rfl, -⟩ := blocked_signaling reached blocked
    exact cycle'
  obtain ⟨t, cycle⟩ := cycle
  cases t with
  | rtcServer => exact cycle
  | signaling i => exact signaling cycle
  | acceptor =>
      obtain ⟨t', blocked, cycle'⟩ := cycle_next cycle
      obtain ⟨i, rfl⟩ := blocked_acceptor reached blocked
      exact signaling cycle'
  | rtcWorker j =>
      obtain ⟨t', blocked, cycle'⟩ := cycle_next cycle
      obtain ⟨i, rfl, -⟩ := blocked_rtcWorker reached blocked
      exact signaling cycle'

theorem cycle_threads (reached : Reached cfg admits s) (cycle : Cycle cfg s) : ∃ i j,
    s.net.role (.signaling i) = .owes .server ∧ cfg.capacity ≤ (s.net.pipe .server).length ∧
    s.net.role .rtcServer = .owes (.worker j) ∧ cfg.capacity ≤ (s.net.pipe (.worker j)).length ∧
    s.net.role (.rtcWorker j) = .owes (.replies i) ∧ cfg.capacity ≤ (s.net.pipe (.signaling i)).length := by
  obtain ⟨t, blocked, cycle⟩ := cycle_next (cycle_rtcServer reached cycle)
  obtain ⟨j, rfl, server, fullWorker⟩ := blocked_rtcServer reached blocked
  obtain ⟨t, blocked, cycle⟩ := cycle_next cycle
  obtain ⟨i, rfl, worker, fullSignaling⟩ := blocked_rtcWorker reached blocked
  obtain ⟨t, blocked, -⟩ := cycle_next cycle
  obtain ⟨-, signaling, fullServer⟩ := blocked_signaling reached blocked
  exact ⟨i, j, signaling, fullServer, server, fullWorker, worker, fullSignaling⟩

theorem cycle_of_threads {i : Fin n} {j : Fin m} (signaling : s.net.role (.signaling i) = .owes .server)
    (fullServer : cfg.capacity ≤ (s.net.pipe .server).length)
    (server : s.net.role .rtcServer = .owes (.worker j))
    (fullWorker : cfg.capacity ≤ (s.net.pipe (.worker j)).length)
    (worker : s.net.role (.rtcWorker j) = .owes (.replies i))
    (fullSignaling : cfg.capacity ≤ (s.net.pipe (.signaling i)).length) : Cycle cfg s := by
  have first : BlockedOn cfg s (.signaling i) .rtcServer := ⟨.server, signaling, fullServer, rfl⟩
  have second : BlockedOn cfg s .rtcServer (.rtcWorker j) := ⟨.worker j, server, fullWorker, rfl⟩
  have third : BlockedOn cfg s (.rtcWorker j) (.signaling i) := ⟨.replies i, worker, fullSignaling, rfl⟩
  exact ⟨.signaling i, .tail (.tail (.single first) second) third⟩

theorem boxes_server : (Finset.univ.filter fun c : Box n m => c.pipe = .server) = {.server} := by
  ext c
  rw [Finset.mem_filter]
  cases c <;> simp [Box.pipe]

theorem boxes_worker (j : Fin m) :
    (Finset.univ.filter fun c : Box n m => c.pipe = .worker j) = {.worker j} := by
  ext c
  rw [Finset.mem_filter]
  cases c <;> simp [Box.pipe]

theorem boxes_signaling (i : Fin n) :
    (Finset.univ.filter fun c : Box n m => c.pipe = .signaling i) = {.conns i, .replies i} := by
  ext c
  rw [Finset.mem_filter]
  cases c <;> simp [Box.pipe]

theorem full_backlog {b : Box n m} (reached : Reached cfg admits s) (owes : s.net.role t = .owes b)
    (full : cfg.capacity ≤ (s.net.pipe b.pipe).length) :
    cfg.capacity < ∑ c with c.pipe = b.pipe, (s.net.queue c).length := by
  have backlog := (reached_covered reached).backlog (reached_tagged reached) owes
  exact full.trans_lt backlog

theorem cycle_queues (reached : Reached cfg admits s) (cycle : Cycle cfg s) :
    ∃ i j, cfg.capacity < (s.net.queue .server).length ∧ cfg.capacity < (s.net.queue (.worker j)).length ∧
      cfg.capacity < (s.net.queue (.conns i)).length + (s.net.queue (.replies i)).length := by
  obtain ⟨i, j, signaling, fullServer, server, fullWorker, worker, fullSignaling⟩ :=
    cycle_threads reached cycle
  have atServer := full_backlog reached signaling fullServer
  have atWorker := full_backlog reached server fullWorker
  have atSignaling := full_backlog reached worker fullSignaling
  rw [show (Box.server : Box n m).pipe = .server from rfl, boxes_server, Finset.sum_singleton] at atServer
  rw [show (Box.worker j : Box n m).pipe = .worker j from rfl, boxes_worker, Finset.sum_singleton] at atWorker
  rw [show (Box.replies i : Box n m).pipe = .signaling i from rfl, boxes_signaling,
    Finset.sum_pair (by simp)] at atSignaling
  exact ⟨i, j, atServer, atWorker, atSignaling⟩

theorem queues_le {i : Fin n} {j : Fin m} {capacity : Nat} (server : capacity < (s.net.queue .server).length)
    (worker : capacity < (s.net.queue (.worker j)).length)
    (signaling : capacity < (s.net.queue (.conns i)).length + (s.net.queue (.replies i)).length) :
    3 * capacity + 3 ≤ ∑ b, (s.net.queue b).length := by
  have four := Finset.sum_le_sum_of_subset (f := fun b => (s.net.queue b).length)
    (Finset.subset_univ {.server, .worker j, .conns i, .replies i})
  rw [Finset.sum_insert (by simp), Finset.sum_insert (by simp), Finset.sum_pair (by simp)] at four
  omega

/-- A cycle needs more than a full pipe of queued items at each of its three threads, so it cannot close
while fewer than `3 * capacity + 3` items are queued. -/
theorem cycle_backlog (reached : Reached cfg Always s) (cycle : Cycle cfg s) :
    (∃ i j, cfg.capacity < (s.net.queue .server).length ∧ cfg.capacity < (s.net.queue (.worker j)).length ∧
      cfg.capacity < (s.net.queue (.conns i)).length + (s.net.queue (.replies i)).length) ∧
      3 * cfg.capacity + 3 ≤ ∑ b, (s.net.queue b).length := by
  obtain ⟨i, j, server, worker, signaling⟩ := cycle_queues reached cycle
  exact ⟨⟨i, j, server, worker, signaling⟩, queues_le server worker signaling⟩

end Cycle

/-- However much the pipes hold, the three threads can come to wait for each other, with no more in the
queues than a cycle needs. -/
theorem jam_reached (capacity : Nat) : ∃ s : System 1 1, Backlog.Run (capacity + 1) s ∧
    Cycle (Backlog.piped (capacity + 1)) s ∧ ∑ b, (s.net.queue b).length = 3 * (capacity + 1) + 3 := by
  obtain ⟨s, reached, signaling, fullServer, server, fullWorker, worker, fullSignaling, queued⟩ :=
    Backlog.backlog_run (Nat.succ_pos capacity)
  exact ⟨s, reached, cycle_of_threads signaling fullServer.ge server fullWorker.ge worker fullSignaling.ge, queued⟩

/-- A pipe of 64 KiB holds 16384 notifications. -/
theorem jam_cycle : ∃ s : System 1 1, Reached (small 1 16384 (by decide)) Delivered s ∧
    Cycle (small 1 16384 (by decide)) s := by
  obtain ⟨s, reached, cycle, -⟩ := jam_reached 16383
  exact ⟨s, reached, cycle⟩

theorem cycle_backlog_jam : ∃ s : System 1 1, Reached (small 1 16384 (by decide)) Always s ∧
    Cycle (small 1 16384 (by decide)) s ∧ ∑ b, (s.net.queue b).length = 3 * 16384 + 3 ∧
    3 * 16384 + 3 ≤ ∑ b, (s.net.queue b).length := by
  obtain ⟨s, delivered, cycle, queued⟩ := jam_reached 16383
  have reached : Reached (small 1 16384 (by decide)) Always s := delivered.mono fun _ _ _ => trivial
  exact ⟨s, reached, cycle, queued, (cycle_backlog reached cycle).2⟩

end Xrtc.Proof.Deadlock
