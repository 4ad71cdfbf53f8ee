import Xrtc.Proof.ShortConnection
import Xrtc.Proof.Steps

/-!
# Notifications

While every write of a notification succeeds, each queued item is announced exactly once. A write
blocks on a full pipe, and nothing bounds the queues.
-/

namespace Xrtc.Proof.Notifications
open Server Base Lib Lib.Mailbox Steps ShortConnection

variable {V : Type} {n m : Nat}

/-- Every write of a notification succeeds. -/
def Delivered (_ : System n m) : Label n m → Prop
  | .notify _ ok => ok = true
  | _ => True

def delivered (_ : System n m) : Label n m → Bool
  | .notify _ ok => ok
  | _ => true

theorem delivered_sound (s : System n m) (l : Label n m) (passed : delivered s l = true) :
    Delivered s l := by
  cases l with
  | notify t ok => exact passed
  | _ => trivial

section Laws

variable {cfg : Config V m} {admits : System n m → Label n m → Prop} {s : System n m}

theorem act_no_abandon {l : Label n m} {move : QueueMove n m} {loc : Local n m}
    (act : Act cfg s l (some move) loc) (whole : Delivered s l) (t : Thread n m) : move ≠ .abandon t := by
  cases act with
  | notify _ => cases whole; simp
  | sent _ => cases whole; simp
  | _ => simp

theorem reached_balanced (reached : Reached cfg Delivered s) : s.net.Balanced (wiring n m cfg.capacity) := by
  apply reached_net (Net.Balanced _) (Net.empty_balanced _) _ reached
  intro s l move net loc _ balanced whole act stepped
  exact Net.step_balanced balanced (act_no_abandon act whole) stepped

theorem reached_covered (reached : Reached cfg admits s) : s.net.Covered (wiring n m cfg.capacity) := by
  apply reached_net (Net.Covered _) (Net.empty_balanced _).covered _ reached
  intro s l move net loc _ covered _ _ stepped
  exact Net.step_covered covered stepped

theorem reached_tagged (reached : Reached cfg admits s) : s.net.Tagged (wiring n m cfg.capacity) := by
  apply reached_net (Net.Tagged _) (Net.empty_tagged _) _ reached
  intro s l move net loc _ tagged _ _ stepped
  exact Net.step_tagged tagged stepped

def Allowed : Thread n m → Box n m → Prop
  | .acceptor, .conns _ => True
  | .signaling _, .server => True
  | .rtcServer, .worker _ => True
  | .rtcWorker _, .replies _ => True
  | _, _ => False

theorem reached_sends (reached : Reached cfg admits s) : s.net.Sends Allowed := by
  apply reached_net (Net.Sends Allowed) (Net.empty_sends _) _ reached
  intro s l move net loc _ sends _ act stepped
  refine Net.step_sends sends ?_ stepped
  intro t b f pushes
  cases act with
  | notify _ => split at pushes <;> cases pushes
  | sent _ => split at pushes <;> cases pushes
  | _ => cases pushes <;> trivial

end Laws

/-! ## A small server -/

/-- One signaling worker and `m` rtc workers. The requests below push the stream with the empty name,
whose checksum is 0. -/
def small (m capacity : Nat) (workerNum_lt : m < 2 ^ 31) : Config Sample m where
  json := Json.sample
  crc32 _ := 0
  capacity := capacity
  connectionTimeout := 1000
  workerNum_lt := workerNum_lt

def only : Fin 1 := 0

/-- A client connects and is accepted as `fd`, its connection object is at `addr`. -/
def connect (fd : Int) (addr : Nat) : List (Label 1 m) :=
  [.accept fd, .dispatch, .notify .acceptor true, .wake (.signaling only), .pop (.signaling only),
    .register only addr 0]

/-- The client whose connection has this watcher sends a push request, and the signaling worker pushes
the message. -/
def ask (watcher : Nat) : List (Label 1 m) :=
  [.io only watcher (some (.received (clientHeader 11))) false 0, .query only, .query only,
    .io only watcher (some (.received pushText)) false 0, .query only, .send only]

def asked : List (Label 1 m) := [.notify (.signaling only) true, .query only]

def hangUp (watcher : Nat) : List (Label 1 m) :=
  [.io only watcher (some (.received [])) false 0, .close only, .remove only]

def forward : List (Label 1 m) := [.wake .server, .pop .rtcServer, .forward]

def process (j : Fin m) : List (Label 1 m) := [.wake (.worker j), .pop (.rtcWorker j), .process j]

/-- The way of a message from the queue of the rtc server to `response_server_offer`. -/
def answered : List (Label 1 1) :=
  forward ++ [.notify .rtcServer true] ++ process only ++
    [.notify (.rtcWorker only) true, .wake (.signaling only), .pop (.signaling only),
      .handle only fun _ => 0]

/-! ## No notification is lost -/

section Laws

variable {cfg : Config V m} {s : System n m}

theorem sum_claim (reached : Reached cfg Delivered s) (b : Box n m) :
    ∑ t, (s.net.role t).claim b = if s.net.role b.pipe.reader = .woken b then 1 else 0 := by
  have served := reached_served reached
  rw [Finset.sum_eq_single b.pipe.reader]
  · cases s.net.role b.pipe.reader <;> simp [Role.claim]
  · intro t _ other
    cases taken : s.net.role t with
    | woken c =>
        rw [Role.claim, if_neg]
        rintro rfl
        exact other (served t c taken)
    | _ => rfl
  · intro absent
    exact absurd (Finset.mem_univ _) absent

/-- A queue is as long as its notifications in the pipe, its senders before their notification and its
reader behind one; so a reader finds an item, and a server at rest has none. -/
theorem queue_announced (reached : Reached cfg Delivered s) :
    (∀ b, (s.net.queue b).length = (s.net.pipe b.pipe).count b.tag +
        (Finset.univ.filter fun t => s.net.role t = .owes b).card +
        if s.net.role b.pipe.reader = .woken b then 1 else 0) ∧
      (∀ t b, s.net.role t = .woken b → s.net.queue b ≠ []) ∧
      ((∀ p, s.net.pipe p = []) → (∀ t, s.net.role t = .free) → ∀ b, s.net.queue b = []) := by
  have balanced := reached_balanced reached
  refine ⟨fun b => ?_, fun t b taken => balanced.covered.woken_nonempty taken, balanced.quiet⟩
  rw [balanced b, Net.due, s.net.sum_debt, sum_claim reached]
  rfl

end Laws

/-- The rtc server has read a notification, one more is in its pipe, and a third message is pushed. -/
theorem queue_announced_three : ∃ s : System 1 1, Reached (small 1 1 (by decide)) Delivered s ∧
    (s.net.queue .server).length = 3 ∧ (s.net.pipe .server).count RtcServer.RTC_MSG = 1 ∧
    (Finset.univ.filter fun t => s.net.role t = .owes .server).card = 1 ∧
    s.net.role .rtcServer = .woken .server := by
  obtain ⟨s, reached, holds⟩ := exists_reachable_of_runLabels (System.step (small 1 1 (by decide))) delivered_sound
    (System.start 1 1)
    (connect 3 1 ++ connect 4 2 ++ connect 5 3 ++ ask 0 ++ asked ++ [.wake .server] ++ ask 2 ++ asked ++
      ask 4)
    (fun s => (s.net.pipe .server).count RtcServer.RTC_MSG = 1 ∧ s.net.role .rtcServer = .woken .server ∧
      s.net.role (.signaling 0) = .owes .server ∧ s.net.role .acceptor ≠ .owes .server ∧
      s.net.role (.rtcWorker 0) ≠ .owes .server)
    (by decide +kernel)
  simp only [decide_eq_true_eq] at holds
  obtain ⟨tags, woken, owes, acceptor, worker⟩ := holds
  have senders : (Finset.univ.filter fun t => s.net.role t = .owes .server) = {.signaling 0} := by
    ext t
    simp only [Finset.mem_filter, Finset.mem_univ, true_and, Finset.mem_singleton]
    constructor
    · intro owes'
      cases t with
      | acceptor => exact absurd owes' acceptor
      | signaling i => rw [Fin.fin_one_eq_zero i]
      | rtcServer => rw [woken] at owes'; cases owes'
      | rtcWorker j => rw [Fin.fin_one_eq_zero j] at owes'; exact absurd owes' worker
    · rintro rfl
      exact owes
  have length : (s.net.queue .server).length = (s.net.pipe .server).count RtcServer.RTC_MSG +
      (Finset.univ.filter fun t => s.net.role t = .owes .server).card +
      if s.net.role .rtcServer = .woken .server then 1 else 0 := (queue_announced reached).1 .server
  have card : (Finset.univ.filter fun t => s.net.role t = .owes .server).card = 1 := by
    rw [senders, Finset.card_singleton]
  refine ⟨s, reached, ?_, tags, card, woken⟩
  rw [length, card, if_pos woken, tags]

end Xrtc.Proof.Notifications
