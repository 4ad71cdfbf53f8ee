import Xrtc.Proof.Notifications
import Xrtc.Server.Send

/-!
# Failed sends

`send_rtc_msg` pushes before it notifies and takes nothing back, so a send that fails shifts the
notifications against the messages.
-/

namespace Xrtc.Proof.Send
open Server Lib

/-! ## One call -/

section Calls

variable {R : Type}

theorem notify_result {M : Type} (c : Channel M) (msg : M) (ok : Bool) :
    ((c.notify msg ok).1 = -1 ↔ ok = false) ∧ (c.notify msg ok).2.queue = c.queue := by
  cases ok <;> simp [Channel.notify]

theorem post_effect (c : Channel (Option R)) (msg : Option R) (ok : Bool) :
    (((c.pushMsg msg).notify msg ok).1 = -1 → ((c.pushMsg msg).notify msg ok).2.queue = c.queue) ↔
      ok = true := by
  obtain ⟨result, queue⟩ := notify_result (c.pushMsg msg) msg ok
  rw [result, queue]
  cases ok <;> simp [Channel.pushMsg]

theorem guarded_effect (c : Channel (Option R)) (msg : Option R) (ok : Bool) :
    ((if msg.isNone then (-1, c) else (c.pushMsg msg).notify msg ok).1 = -1 →
      (if msg.isNone then (-1, c) else (c.pushMsg msg).notify msg ok).2.queue = c.queue) ↔
      ok = true ∨ msg = none := by
  cases msg with
  | none => simp
  | some r => simpa using post_effect c (some r) ok

end Calls

/-! ## Histories of calls -/

section Runs

variable {M : Type} [DecidableEq M]

/-- No call begins while another one is between `push_msg` and `write`. -/
def Alone (s : Traffic M) : TrafficEvent M → Prop
  | .push _ => s.pending = []
  | _ => True

structure Balanced (s : Traffic M) : Prop where
  queue : s.channel.queue.length = s.channel.pipe.length + s.pending.length + s.failed.length

structure Paired (s : Traffic M) : Prop extends Balanced s where
  alone : s.pending.length ≤ 1
  queue_eq : s.failed = [] → s.channel.queue = s.channel.pipe ++ s.pending
  reads_eq : s.failed = [] → ∀ read ∈ s.reads, read.2 = some read.1

variable {s s' : Traffic M} {e : TrafficEvent M} {msg : M} {ok : Bool}

theorem write_inv (taken : s.step (.write msg ok) = some s') : msg ∈ s.pending ∧ s' = { s with
    channel := (s.channel.notify msg ok).2
    pending := s.pending.erase msg
    failed := if ok then s.failed else s.failed ++ [msg] } := by
  simp only [Traffic.step] at taken
  split at taken
  · next member => exact ⟨member, (Option.some.inj taken).symm⟩
  · cases taken

theorem read_inv (balanced : Balanced s) (taken : s.step .read = some s') :
    ∃ author rest msg others, s.channel.pipe = author :: rest ∧ s.channel.queue = msg :: others ∧
      s' = { s with channel := ⟨others, rest⟩, reads := s.reads ++ [(author, some msg)] } := by
  have counted := balanced.queue
  simp only [Traffic.step] at taken
  cases pipe : s.channel.pipe with
  | nil =>
      rw [pipe] at taken
      cases taken
  | cons author rest =>
      cases queue : s.channel.queue with
      | nil =>
          rw [queue, pipe, List.length_nil, List.length_cons] at counted
          omega
      | cons msg others =>
          simp only [pipe, Channel.popMsg, queue, Option.some.injEq] at taken
          exact ⟨author, rest, msg, others, rfl, rfl, taken.symm⟩

theorem step_balanced (balanced : Balanced s) (taken : s.step e = some s') : Balanced s' := by
  have counted := balanced.queue
  constructor
  cases e with
  | push msg =>
      cases taken
      simp only [Channel.pushMsg, List.length_append, List.length_singleton]
      omega
  | write msg ok =>
      obtain ⟨member, rfl⟩ := write_inv taken
      have less := List.length_erase_of_mem member
      have some := List.length_pos_of_mem member
      cases ok <;> simp [Channel.notify] <;> omega
  | read =>
      obtain ⟨author, rest, msg, others, pipe, queue, rfl⟩ := read_inv balanced taken
      rw [pipe, queue, List.length_cons, List.length_cons] at counted
      dsimp only
      omega

omit [DecidableEq M] in
theorem eq_singleton_of_mem {pending : List M} (alone : pending.length ≤ 1) (member : msg ∈ pending) :
    pending = [msg] := by
  obtain ⟨first, rfl⟩ := List.length_eq_one_iff.1 (Nat.le_antisymm alone (List.length_pos_of_mem member))
  rw [List.mem_singleton.1 member]

theorem step_paired (paired : Paired s) (alone : Alone s e) (taken : s.step e = some s') : Paired s' := by
  have balanced := step_balanced paired.toBalanced taken
  cases e with
  | push msg =>
      cases taken
      have none : s.pending = [] := alone
      refine ⟨balanced, by simp [none], fun unfailed => ?_, paired.reads_eq⟩
      simp [Channel.pushMsg, none, paired.queue_eq unfailed]
  | write msg ok =>
      obtain ⟨member, rfl⟩ := write_inv taken
      have pending := eq_singleton_of_mem paired.alone member
      refine ⟨balanced, by simp [pending], ?_, ?_⟩
      · cases ok with
        | true =>
            intro unfailed
            simpa [Channel.notify, pending] using paired.queue_eq unfailed
        | false => simp
      · cases ok with
        | true => exact paired.reads_eq
        | false => simp
  | read =>
      obtain ⟨author, rest, msg, others, pipe, queue, rfl⟩ := read_inv paired.toBalanced taken
      have same (unfailed : s.failed = []) : msg = author ∧ others = rest ++ s.pending := by
        have both := paired.queue_eq unfailed
        rw [pipe, queue, List.cons_append] at both
        exact List.cons.inj both
      refine ⟨balanced, paired.alone, fun unfailed => (same unfailed).2, fun unfailed read member => ?_⟩
      rcases List.mem_append.1 member with old | new
      · exact paired.reads_eq unfailed read old
      · rw [List.mem_singleton.1 new, (same unfailed).1]

omit [DecidableEq M] in
theorem start_paired : Paired (Traffic.start : Traffic M) :=
  ⟨⟨rfl⟩, Nat.zero_le 1, fun _ => rfl, fun _ _ member => by cases member⟩

theorem reachable_paired (reachable : Reachable Traffic.step Alone (Traffic.start : Traffic M) s) : Paired s :=
  reachable.invariant start_paired fun _ _ _ paired alone taken => step_paired paired alone taken

theorem reachable_balanced (reachable : Reachable Traffic.step Always (Traffic.start : Traffic M) s) :
    Balanced s :=
  reachable.invariant start_paired.toBalanced fun _ _ _ balanced _ taken => step_balanced balanced taken

end Runs

/-! ## The channels of the server -/

section Network

open Mailbox

variable {T B P L I : Type} [Fintype T] [DecidableEq B] [DecidableEq L]
variable {w : Wiring T B P L} {net net' : Net T B P L I} {move : Move T B P I} {b : B} {s : Traffic I}

/-- The channel of box `b`; a notification that the reader has taken counts until it pops. -/
structure Follows (w : Wiring T B P L) (net : Net T B P L I) (b : B) (s : Traffic I) : Prop where
  queue : s.channel.queue = net.queue b
  pipe : s.channel.pipe.length =
    (net.pipe (w.pipeOf b)).count (w.tagOf b) + ∑ t, (net.role t).claim b
  pending : s.pending.length = ∑ t, (net.role t).debt b

theorem Follows.owed {t : T} (follows : Follows w net b s) (owes : net.role t = .owes b) :
    ∃ msg, msg ∈ s.pending := by
  have one : (net.role t).debt b ≤ ∑ t, (net.role t).debt b :=
    Finset.single_le_sum (f := fun t => (net.role t).debt b) (fun _ _ => Nat.zero_le _) (Finset.mem_univ t)
  rw [owes, Role.debt_owes, if_pos rfl, ← follows.pending] at one
  exact List.exists_mem_of_length_pos one

variable [DecidableEq T]

theorem Follows.turn (follows : Follows w net b s) {t : T} {r : Role B I} {consumed created : List I}
    {queue pushed popped : B → List I} (same : queue b = net.queue b) (debt : r.debt b = (net.role t).debt b)
    (claim : r.claim b = (net.role t).claim b) :
    Follows w ⟨Function.update net.role t r, queue, net.pipe, pushed, popped, created, consumed⟩ b s := by
  have debts := sum_update net.role (Role.debt b) t r
  have claims := sum_update net.role (Role.claim b) t r
  refine ⟨follows.queue.trans same.symm, ?_, ?_⟩
  · have pipe := follows.pipe
    dsimp only
    omega
  · have pending := follows.pending
    dsimp only
    omega

section

variable [DecidableEq I]

theorem push_follows {t : T} {c : B} {f : I → I} (follows : Follows w net b s)
    (pushed : net.push t c f = some net') :
    Follows w net' b s ∨ ∃ msg s', s.step (.push msg) = some s' ∧ Follows w net' b s' := by
  obtain ⟨x, held, rfl⟩ := Net.push_inv pushed
  by_cases same : c = b
  · subst same
    have debts := sum_update net.role (Role.debt c) t (.owes c)
    have claims := sum_update net.role (Role.claim c) t (.owes c)
    rw [held, Role.debt_holding, Role.debt_owes, if_pos rfl] at debts
    rw [held, Role.claim_holding, Role.claim_owes] at claims
    have pipe := follows.pipe
    have pending := follows.pending
    refine .inr ⟨f x, _, rfl, ?_, ?_, ?_⟩
    · simp [Channel.pushMsg, follows.queue]
    · dsimp only [Channel.pushMsg]
      omega
    · rw [List.length_append, List.length_singleton]
      dsimp only
      omega
  · refine .inl (follows.turn (Function.update_of_ne (Ne.symm same) _ _) ?_ ?_)
    · simp [held, same]
    · simp [held]

theorem abandon_follows {t : T} (follows : Follows w net b s) (abandoned : net.abandon t = some net') :
    Follows w net' b s ∨ ∃ msg s', s.step (.write msg false) = some s' ∧ Follows w net' b s' := by
  obtain ⟨c, owes, rfl⟩ := Net.abandon_inv abandoned
  by_cases same : c = b
  · subst same
    obtain ⟨msg, member⟩ := follows.owed owes
    have debts := sum_update net.role (Role.debt c) t .free
    have claims := sum_update net.role (Role.claim c) t .free
    have pipe := follows.pipe
    have pending := follows.pending
    rw [owes, Role.debt_owes, Role.debt_free, if_pos rfl] at debts
    rw [owes, Role.claim_owes, Role.claim_free] at claims
    refine .inr ⟨msg, _, if_pos member, follows.queue, ?_, ?_⟩
    · simp only [Channel.notify, Bool.false_eq_true, if_false]
      omega
    · rw [List.length_erase_of_mem member]
      dsimp only
      omega
  · refine .inl (follows.turn rfl ?_ ?_)
    · simp [owes, same]
    · simp [owes]

theorem pop_follows {t : T} (follows : Follows w net b s) (balanced : Balanced s)
    (popped : net.pop t = some net') :
    Follows w net' b s ∨ ∃ s', s.step .read = some s' ∧ Follows w net' b s' := by
  obtain ⟨c, woken, outcome⟩ := Net.pop_inv popped
  by_cases same : c = b
  · subst same
    have one : (net.role t).claim c ≤ ∑ t, (net.role t).claim c :=
      Finset.single_le_sum (f := fun t => (net.role t).claim c) (fun _ _ => Nat.zero_le _) (Finset.mem_univ t)
    rw [woken, Role.claim_woken, if_pos rfl] at one
    have pipe := follows.pipe
    cases notices : s.channel.pipe with
    | nil =>
        rw [notices, List.length_nil] at pipe
        omega
    | cons author rest =>
        obtain ⟨x, others, head, rfl⟩ | ⟨empty, -⟩ := outcome
        · have queue := follows.queue.trans head
          have read : s.step .read = some { s with
              channel := ⟨others, rest⟩, reads := s.reads ++ [(author, some x)] } := by
            simp [Traffic.step, notices, Channel.popMsg, queue]
          have debts := sum_update net.role (Role.debt c) t (.holding x)
          have claims := sum_update net.role (Role.claim c) t (.holding x)
          rw [woken, Role.debt_woken, Role.debt_holding] at debts
          rw [woken, Role.claim_woken, Role.claim_holding, if_pos rfl] at claims
          rw [notices, List.length_cons] at pipe
          refine .inr ⟨_, read, by simp, ?_, ?_⟩
          · dsimp only
            omega
          · exact follows.pending.trans debts.symm
        · have counted := balanced.queue
          rw [follows.queue, empty, notices, List.length_nil, List.length_cons] at counted
          omega
  · obtain ⟨x, others, -, rfl⟩ | ⟨-, rfl⟩ := outcome
    · refine .inl (follows.turn (Function.update_of_ne (Ne.symm same) _ _) ?_ ?_)
      · simp [woken]
      · simp [woken, same]
    · refine .inl (follows.turn rfl ?_ ?_)
      · simp [woken]
      · simp [woken, same]

end

variable [DecidableEq P]

theorem wake_follows {p : P} (follows : Follows w net b s) (woke : net.wake w p = some net') :
    Follows w net' b s := by
  obtain ⟨l, rest, free, head, rfl⟩ := Net.wake_inv woke
  have tags := net.count_cons_tag w b p l rest head
  have pipe := follows.pipe
  have pending := follows.pending
  cases named : w.boxOf p l with
  | none =>
      have debts := sum_update net.role (Role.debt b) (w.readerOf p) .free
      have claims := sum_update net.role (Role.claim b) (w.readerOf p) .free
      rw [free] at debts claims
      rw [named, if_neg nofun] at tags
      exact ⟨follows.queue, by dsimp only; omega, by dsimp only; omega⟩
  | some c =>
      have debts := sum_update net.role (Role.debt b) (w.readerOf p) (.woken c)
      have claims := sum_update net.role (Role.claim b) (w.readerOf p) (.woken c)
      rw [free, Role.debt_free, Role.debt_woken] at debts
      rw [free, Role.claim_free, Role.claim_woken] at claims
      simp only [named, Option.some.injEq] at tags
      exact ⟨follows.queue, by dsimp only; omega, by dsimp only; omega⟩

variable [DecidableEq I]

theorem notify_follows {t : T} (follows : Follows w net b s) (notified : net.notify w t = some net') :
    Follows w net' b s ∨ ∃ msg s', s.step (.write msg true) = some s' ∧ Follows w net' b s' := by
  obtain ⟨c, owes, -, rfl⟩ := Net.notify_inv notified
  have debts := sum_update net.role (Role.debt b) t .free
  have claims := sum_update net.role (Role.claim b) t .free
  have tags := net.count_append_tag w b c
  have pipe := follows.pipe
  have pending := follows.pending
  rw [owes, Role.debt_owes, Role.debt_free] at debts
  rw [owes, Role.claim_owes, Role.claim_free] at claims
  by_cases same : c = b
  · subst same
    rw [if_pos rfl] at debts tags
    obtain ⟨msg, member⟩ := follows.owed owes
    refine .inr ⟨msg, _, if_pos member, follows.queue, ?_, ?_⟩
    · simp only [Channel.notify, if_true, List.length_append, List.length_singleton]
      omega
    · rw [List.length_erase_of_mem member]
      dsimp only
      omega
  · rw [if_neg same] at debts tags
    exact .inl ⟨follows.queue, by dsimp only; omega, by dsimp only; omega⟩

theorem step_follows (follows : Follows w net b s) (balanced : Balanced s)
    (taken : net.step w move = some net') :
    Follows w net' b s ∨ ∃ e s', s.step e = some s' ∧ Follows w net' b s' := by
  cases move with
  | create t x =>
      obtain ⟨free, rfl⟩ := Net.create_inv taken
      exact .inl (follows.turn rfl (by simp [free]) (by simp [free]))
  | push t c f =>
      rcases push_follows follows taken with same | ⟨msg, step⟩
      · exact .inl same
      · exact .inr ⟨.push msg, step⟩
  | notify t =>
      rcases notify_follows follows taken with same | ⟨msg, step⟩
      · exact .inl same
      · exact .inr ⟨.write msg true, step⟩
  | abandon t =>
      rcases abandon_follows follows taken with same | ⟨msg, step⟩
      · exact .inl same
      · exact .inr ⟨.write msg false, step⟩
  | wake p => exact .inl (wake_follows follows taken)
  | pop t => exact (pop_follows follows balanced taken).imp_right fun step => ⟨.read, step⟩
  | consume t =>
      obtain ⟨x, held, rfl⟩ := Net.consume_inv taken
      exact .inl (follows.turn rfl (by simp [held]) (by simp [held]))

end Network

/-- Whatever the threads of the server do, each of its queues goes through a history of sends. -/
theorem reached_traffic {V : Type} {n m : Nat} {cfg : Config V m}
    {admits : System n m → Label n m → Prop} {system : System n m} (reached : Steps.Reached cfg admits system)
    (b : Box n m) : ∃ s, Reachable Traffic.step Always Traffic.start s ∧
      Follows (wiring n m cfg.capacity) system.net b s := by
  apply Steps.reached_net (fun net => ∃ s, Reachable Traffic.step Always Traffic.start s ∧
    Follows (wiring n m cfg.capacity) net b s) _ _ reached
  · refine ⟨Traffic.start, .start, rfl, ?_, ?_⟩ <;> simp [Traffic.start, Mailbox.Net.empty]
  · rintro system l move net loc - ⟨s, reachable, follows⟩ - - stepped
    rcases step_follows follows (reachable_balanced reachable) stepped with same | ⟨e, s', taken, follows'⟩
    · exact ⟨s, reachable, same⟩
    · exact ⟨s', .next reachable trivial taken, follows'⟩

section Statement

variable {M : Type} [DecidableEq M]

/-- A failed write is the only failure that changes the queue, and it always does. In a history of calls
that do not overlap, every message has a notification of its own, and every notification read gives
its own message, as long as no write has failed. -/
theorem send_effect_iff :
    (∀ {R : Type} (c : Channel (Option R)) (msg : Option R) (ok : Bool),
      (((RtcServer.sendRtcMsg c msg ok).1 = -1 → (RtcServer.sendRtcMsg c msg ok).2.queue = c.queue) ↔
        ok = true ∨ msg = none) ∧
      (((SignalingWorker.sendRtcMsg c msg ok).1 = -1 →
        (SignalingWorker.sendRtcMsg c msg ok).2.queue = c.queue) ↔ ok = true ∨ msg = none) ∧
      (((RtcWorker.sendRtcMsg c msg ok).1 = -1 → (RtcWorker.sendRtcMsg c msg ok).2.queue = c.queue) ↔
        ok = true)) ∧
    (∀ (s : Traffic M), Reachable Traffic.step Alone Traffic.start s →
      (s.channel.queue = s.channel.pipe ++ s.pending ↔ s.failed = []) ∧
      (s.failed = [] → ∀ read ∈ s.reads, read.2 = some read.1)) ∧
    ∀ (s : Traffic M), Reachable Traffic.step Always Traffic.start s →
      s.channel.queue.length = s.channel.pipe.length + s.pending.length + s.failed.length := by
  refine ⟨fun c msg ok => ⟨guarded_effect c msg ok, guarded_effect c msg ok, post_effect c msg ok⟩,
    fun s reachable => ?_, fun s reachable => (reachable_balanced reachable).queue⟩
  have paired := reachable_paired reachable
  refine ⟨⟨fun same => ?_, paired.queue_eq⟩, paired.reads_eq⟩
  have counted := paired.queue
  rw [same, List.length_append] at counted
  exact List.length_eq_zero_iff.1 (by omega)

end Statement

def aloneTest (s : Traffic Nat) : TrafficEvent Nat → Bool
  | .push _ => s.pending.isEmpty
  | _ => true

theorem alone_of_aloneTest (s : Traffic Nat) (e : TrafficEvent Nat) (passed : aloneTest s e = true) :
    Alone s e := by
  cases e with
  | push msg => exact List.isEmpty_iff.1 passed
  | _ => trivial

theorem send_effect_iff_two : ∃ s : Traffic Nat, Reachable Traffic.step Alone Traffic.start s ∧
    s.reads.length = 2 ∧ ∀ read ∈ s.reads, read.2 = some read.1 := by
  obtain ⟨s, reachable, holds⟩ := exists_reachable_of_runLabels Traffic.step alone_of_aloneTest
    Traffic.start [.push 1, .write 1 true, .push 2, .write 2 true, .read, .read]
    (fun s => decide (s.failed = [] ∧ s.reads.length = 2)) (by decide)
  obtain ⟨unfailed, two⟩ := of_decide_eq_true holds
  exact ⟨s, reachable, two, (send_effect_iff.2.1 s reachable).2 unfailed⟩

/-- The first send fails; the notification of the second gives the first message, and the second
message is left without one. -/
theorem send_leaves_message :
    RtcServer.sendRtcMsg ⟨[], []⟩ (some 1) false = (-1, ⟨[some 1], []⟩) ∧
    ∃ s : Traffic Nat, Reachable Traffic.step Alone Traffic.start s ∧
      s.reads = [(2, some 1)] ∧ s.channel = ⟨[2], []⟩ := by
  refine ⟨by decide, ?_⟩
  obtain ⟨s, reachable, holds⟩ := exists_reachable_of_runLabels Traffic.step alone_of_aloneTest
    Traffic.start [.push 1, .write 1 false, .push 2, .write 2 true, .read]
    (fun s => decide (s.reads = [(2, some 1)] ∧ s.channel = ⟨[2], []⟩)) (by decide)
  obtain ⟨reads, channel⟩ := of_decide_eq_true holds
  exact ⟨s, reachable, reads, channel⟩

end Xrtc.Proof.Send
