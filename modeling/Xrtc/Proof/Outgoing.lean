import Xrtc.Lib.Outbox
import Xrtc.Proof.Reply
import Xrtc.Proof.ShortConnection
import Xrtc.Server.Outgoing

/-!
# Replies on their way out

The reply list with `cur_resp_pos` is an outbox of byte strings: every write of `write_reply` moves it on
by the bytes the socket took.
-/

namespace Xrtc.Proof.Outgoing
open Server Base Lib
open Server.Outgoing (step start)
open ShortConnection (clientHeader)
open Reply (answer)

variable {c c' : TcpConnection} {reply : Slice} {rest : List Slice} {result : WriteResult}

def outbox (c : TcpConnection) : Outbox Slice := ⟨c.replyList, c.curRespPos⟩

theorem sockWriteData_eq_neg_one_or (result : WriteResult) :
    sockWriteData result = -1 ∨ sockWriteData result = WriteResult.taken result := by
  cases result with
  | wrote n => exact .inr rfl
  | again => exact .inr rfl
  | failed => exact .inl rfl

theorem writeStep_inv (stepped : c.writeStep reply rest result = some c') :
    (WriteResult.taken result = 0 ∧ c' = c) ∨
    (0 < WriteResult.taken result ∧ reply.size ≤ WriteResult.taken result + c.curRespPos ∧
      c' = { c with replyList := rest, curRespPos := 0 }) ∨
    (0 < WriteResult.taken result ∧ WriteResult.taken result + c.curRespPos < reply.size ∧
      c' = { c with curRespPos := c.curRespPos + WriteResult.taken result }) := by
  unfold TcpConnection.writeStep at stepped
  dsimp only at stepped
  rcases sockWriteData_eq_neg_one_or result with failed | wrote
  · rw [failed, if_pos (by decide)] at stepped
    cases stepped
  · rw [wrote, if_neg (by omega), Int.toNat_natCast] at stepped
    split_ifs at stepped with zero whole
    · exact .inl ⟨by omega, (Option.some.inj stepped).symm⟩
    · exact .inr (.inl ⟨by omega, whole, (Option.some.inj stepped).symm⟩)
    · exact .inr (.inr ⟨by omega, by omega, (Option.some.inj stepped).symm⟩)

theorem writeStep_drop (head : c.replyList = reply :: rest)
    (stepped : c.writeStep reply rest result = some c') :
    c.replyList.drop (c.replyList.length - c'.replyList.length) = c'.replyList := by
  obtain ⟨-, rfl⟩ | ⟨-, -, rfl⟩ | ⟨-, -, rfl⟩ := writeStep_inv stepped
  · simp
  · simp [head]
  · simp

theorem writeStep_advance (wf : (outbox c).Wf Slice.bytes) (head : c.replyList = reply :: rest)
    (stepped : c.writeStep reply rest result = some c') :
    outbox c' = (outbox c).advance Slice.bytes (WriteResult.taken result) := by
  obtain ⟨zero, rfl⟩ | ⟨-, whole, rfl⟩ | ⟨-, part, rfl⟩ := writeStep_inv stepped
  · rw [zero, wf.advance_zero]
  · simp only [outbox, Outbox.advance, head, Slice.bytes_length, if_pos whole]
  · simp only [outbox, Outbox.advance, head, Slice.bytes_length, if_neg (Nat.not_le.2 part)]

/-- A reply is not empty, and the socket takes at most the bytes it is offered. -/
def Sensible (s : Server.Outgoing) : OutgoingEvent → Prop
  | .addReply reply => 0 < reply.size
  | .write result => WriteResult.taken result ≤ ((outbox s.obj).offered Slice.bytes).length
  | _ => True

instance Sensible.decidable (s : Server.Outgoing) : (e : OutgoingEvent) → Decidable (Sensible s e)
  | .addReply reply => inferInstanceAs (Decidable (0 < reply.size))
  | .write _ => inferInstanceAs (Decidable (_ ≤ _))
  | .writable => .isTrue trivial
  | .leave _ => .isTrue trivial

def sensible (s : Server.Outgoing) (e : OutgoingEvent) : Bool := decide (Sensible s e)

structure Sound (s : Server.Outgoing) : Prop where
  wf : (outbox s.obj).Wf Slice.bytes
  accounts : ∃ done, s.added = done ++ s.obj.replyList ∧ (outbox s.obj).Accounts Slice.bytes done s.sent

theorem start_sound (fd : Int) (ioWatcher timerWatcher now : Nat) :
    Sound (start fd ioWatcher timerWatcher now) where
  wf := ⟨by simp [outbox, start, TcpConnection.new], by simp [outbox, start, TcpConnection.new],
    fun _ => rfl⟩
  accounts := ⟨[], rfl, rfl⟩

inductive Goes (s : Server.Outgoing) : OutgoingEvent → Server.Outgoing → Prop
  | addReply (reply : Slice) : Goes s (.addReply reply)
      { s with obj := { s.obj with replyList := s.obj.replyList ++ [reply] }, added := s.added ++ [reply] }
  | writable : Goes s .writable { s with phase := .inside }
  | leave (now : Nat) : Goes s (.leave now) { s with phase := .idle, obj := { s.obj with lastInteraction := now } }
  | closes (result : WriteResult) : Goes s (.write result) { s with phase := .closed }
  | writes {result : WriteResult} {reply : Slice} {rest : List Slice} {obj : TcpConnection}
      (head : s.obj.replyList = reply :: rest) (stepped : s.obj.writeStep reply rest result = some obj) :
      Goes s (.write result) { s with
        obj := obj
        sent := s.sent ++ (reply.bytes.drop s.obj.curRespPos).take (WriteResult.taken result) }

theorem step_goes {s s' : Server.Outgoing} {e : OutgoingEvent} (taken : step s e = some s') : Goes s e s' := by
  cases e with
  | addReply reply =>
      simp only [step] at taken
      split_ifs at taken
      cases taken
      exact .addReply reply
  | writable =>
      simp only [step] at taken
      split_ifs at taken
      cases taken
      exact .writable
  | leave now =>
      simp only [step] at taken
      split_ifs at taken
      cases taken
      exact .leave now
  | write result =>
      simp only [step] at taken
      split_ifs at taken
      unfold Server.Outgoing.write at taken
      split at taken
      · cases taken
      · next reply rest head =>
          split at taken
          · cases taken
            exact .closes result
          · next obj stepped =>
              cases taken
              exact .writes head stepped

theorem step_sound {s s' : Server.Outgoing} {e : OutgoingEvent} (sound : Sound s) (sensible : Sensible s e)
    (taken : step s e = some s') : Sound s' := by
  obtain ⟨wf, done, added, accounts⟩ := sound
  cases step_goes taken with
  | addReply reply =>
      have nonempty : reply.bytes ≠ [] := by
        rw [← List.length_pos_iff, Slice.bytes_length]
        exact sensible
      refine ⟨wf.add nonempty, done, ?_, accounts.add wf reply⟩
      simp [added]
  | writable => exact ⟨wf, done, added, accounts⟩
  | leave now => exact ⟨wf, done, added, accounts⟩
  | closes result => exact ⟨wf, done, added, accounts⟩
  | @writes result reply rest obj head stepped =>
      have moved := writeStep_advance wf head stepped
      have offered : (outbox s.obj).offered Slice.bytes = reply.bytes.drop s.obj.curRespPos := by
        simp [Outbox.offered, outbox, head]
      obtain ⟨done', whole, accounts'⟩ := accounts.advance wf sensible
      rw [← moved] at whole accounts'
      rw [offered] at accounts'
      exact ⟨moved ▸ wf.advance _, done', added.trans whole.symm, accounts'⟩

theorem reachable_sound {fd : Int} {ioWatcher timerWatcher now : Nat} {s : Server.Outgoing}
    (reachable : Reachable step Sensible (start fd ioWatcher timerWatcher now) s) : Sound s :=
  reachable.invariant (start_sound fd ioWatcher timerWatcher now)
    fun _ _ _ sound sensible taken => step_sound sound sensible taken

def NewFront (s s' : Server.Outgoing) : Prop :=
  s'.obj.replyList ≠ [] ∧ (s.obj.replyList = [] ∨ s'.obj.replyList = s.obj.replyList.tail)

theorem newFront_pos {s s' : Server.Outgoing} {e : OutgoingEvent} (sound : Sound s)
    (taken : step s e = some s') (fresh : NewFront s s') : s'.obj.curRespPos = 0 := by
  obtain ⟨pending, fresh⟩ := fresh
  have kept : s'.obj.curRespPos = s.obj.curRespPos → s.obj.replyList = [] → s'.obj.curRespPos = 0 :=
    fun same empty => same.trans (sound.wf.start empty)
  have shorter : s'.obj.replyList = s.obj.replyList → s.obj.replyList = [] := by
    intro same
    rcases fresh with empty | tail
    · exact empty
    · by_contra nonempty
      have lengths := congrArg List.length (same.symm.trans tail)
      rw [List.length_tail] at lengths
      have := List.length_pos_iff.2 nonempty
      omega
  cases step_goes taken with
  | addReply reply =>
      refine kept rfl ?_
      rcases fresh with empty | tail
      · exact empty
      · have lengths := congrArg List.length tail
        simp only [List.length_append, List.length_singleton, List.length_tail] at lengths
        omega
  | writable => exact kept rfl (shorter rfl)
  | leave now => exact kept rfl (shorter rfl)
  | closes result => exact kept rfl (shorter rfl)
  | writes head stepped =>
      dsimp only at shorter ⊢
      obtain ⟨-, rfl⟩ | ⟨-, -, rfl⟩ | ⟨-, -, rfl⟩ := writeStep_inv stepped
      · exact sound.wf.start (shorter rfl)
      · rfl
      · have empty := shorter rfl
        rw [head] at empty
        cases empty

/-- The bytes the socket has taken are the replies that are finished, in the order in which they were
added, and `cur_resp_pos` bytes of the first one that is not. -/
theorem replies_in_order (fd : Int) (ioWatcher timerWatcher now : Nat) (s : Server.Outgoing)
    (reachable : Reachable step Sensible (start fd ioWatcher timerWatcher now) s) :
    s.sent <+: s.added.flatMap Slice.bytes ∧
    (s.obj.replyList = [] → s.sent = s.added.flatMap Slice.bytes) ∧
    (∀ reply rest, s.obj.replyList = reply :: rest → s.obj.curRespPos < reply.size) ∧
    (∃ done, s.added = done ++ s.obj.replyList ∧ s.sent = done.flatMap Slice.bytes ++
      (s.obj.replyList.flatMap Slice.bytes).take s.obj.curRespPos) ∧
    (∀ e s', step s e = some s' → NewFront s s' → s'.obj.curRespPos = 0) := by
  have sound := reachable_sound reachable
  obtain ⟨done, added, accounts⟩ := sound.accounts
  refine ⟨?_, fun empty => ?_, fun reply rest head => ?_, ⟨done, added, accounts⟩,
    fun e s' taken fresh => newFront_pos sound taken fresh⟩
  · rw [added]
    exact accounts.isPrefix
  · rw [added]
    exact accounts.eq_of_empty empty
  · rw [← Slice.bytes_length reply]
    exact sound.wf.front reply rest head

/-- A reply of three bytes in two writes, and one byte of the next one. -/
def twoReplies : List OutgoingEvent :=
  [.addReply ⟨⟨3, fun k => UInt8.ofNat k⟩, 3⟩, .writable, .write (.wrote 2), .write .again,
    .write (.wrote 1), .leave 0, .addReply ⟨⟨2, fun k => UInt8.ofNat (k + 10)⟩, 2⟩, .writable,
    .write (.wrote 1)]

theorem replies_in_order_two : ∃ s : Server.Outgoing, Reachable step Sensible (start 5 0 1 0) s ∧
    s.sent = [0, 1, 2, 10] ∧ s.sent <+: s.added.flatMap Slice.bytes ∧ s.obj.replyList ≠ [] ∧
    ∀ reply rest, s.obj.replyList = reply :: rest → s.obj.curRespPos < reply.size := by
  obtain ⟨s, reachable, holds⟩ := exists_reachable_of_runLabels step
    (fun s e (passed : sensible s e = true) => of_decide_eq_true passed) (start 5 0 1 0) twoReplies
    (fun s => s.sent = [0, 1, 2, 10] ∧ s.obj.replyList.isEmpty = false) (by decide)
  simp only [decide_eq_true_eq, List.isEmpty_eq_false_iff] at holds
  obtain ⟨taken, -, inside, -⟩ := replies_in_order 5 0 1 0 s reachable
  exact ⟨s, reachable, holds.1, taken, holds.2, inside⟩

/-! ## The loop of write_reply -/

theorem writeLoop_empty (results : List WriteResult) (empty : c.replyList = []) :
    c.writeLoop results = some (c, false) := by
  unfold TcpConnection.writeLoop
  rw [empty]

theorem writeLoop_starved (head : c.replyList = reply :: rest) : c.writeLoop [] = none := by
  unfold TcpConnection.writeLoop
  rw [head]

theorem writeLoop_failed (head : c.replyList = reply :: rest) (failed : c.writeStep reply rest result = none)
    (results : List WriteResult) : c.writeLoop (result :: results) = some (c, true) := by
  unfold TcpConnection.writeLoop
  simp only [head, failed]

theorem writeLoop_wrote (head : c.replyList = reply :: rest) (wrote : c.writeStep reply rest result = some c')
    (results : List WriteResult) : c.writeLoop (result :: results) = c'.writeLoop results := by
  conv_lhs => unfold TcpConnection.writeLoop
  simp only [head, wrote]

inductive Writes : List WriteResult → TcpConnection → TcpConnection → Bool → Prop
  | finished {results : List WriteResult} {c : TcpConnection} (empty : c.replyList = []) :
      Writes results c c false
  | closes {result : WriteResult} {results : List WriteResult} {c : TcpConnection} {reply : Slice}
      {rest : List Slice} (head : c.replyList = reply :: rest)
      (failed : c.writeStep reply rest result = none) : Writes (result :: results) c c true
  | goesOn {result : WriteResult} {results : List WriteResult} {c c₁ c' : TcpConnection} {reply : Slice}
      {rest : List Slice} {close : Bool} (head : c.replyList = reply :: rest)
      (wrote : c.writeStep reply rest result = some c₁) (later : Writes results c₁ c' close) :
      Writes (result :: results) c c' close

theorem writeLoop_writes {results : List WriteResult} {close : Bool}
    (done : c.writeLoop results = some (c', close)) : Writes results c c' close := by
  induction results generalizing c with
  | nil =>
      cases head : c.replyList with
      | nil =>
          rw [writeLoop_empty _ head] at done
          cases done
          exact .finished head
      | cons reply rest =>
          rw [writeLoop_starved head] at done
          cases done
  | cons result results ih =>
      cases head : c.replyList with
      | nil =>
          rw [writeLoop_empty _ head] at done
          cases done
          exact .finished head
      | cons reply rest =>
          cases stepped : c.writeStep reply rest result with
          | none =>
              rw [writeLoop_failed head stepped] at done
              cases done
              exact .closes head stepped
          | some c₁ =>
              rw [writeLoop_wrote head stepped] at done
              exact .goesOn head stepped (ih done)

theorem writeLoop_run {s : Server.Outgoing} {results : List WriteResult} {obj : TcpConnection} {close : Bool}
    (inside : s.phase = .inside) (done : s.obj.writeLoop results = some (obj, close)) :
    ∃ used s', used <+: results ∧ runLabels step s (used.map .write) = some s' ∧ s'.obj = obj ∧
      s'.phase = (if close then .closed else .inside) ∧ (close = false → obj.replyList = []) := by
  have writes := writeLoop_writes done
  clear done
  generalize here : s.obj = c at writes
  induction writes generalizing s with
  | finished empty =>
      subst here
      exact ⟨[], s, List.nil_prefix, rfl, rfl, inside, fun _ => empty⟩
  | @closes result _ _ _ _ head failed =>
      subst here
      refine ⟨[result], { s with phase := .closed }, by simp, ?_, rfl, rfl, by simp⟩
      simp [runLabels, step, inside, Server.Outgoing.write, head, failed]
  | @goesOn result _ _ c₁ _ reply _ _ head wrote _ ih =>
      subst here
      obtain ⟨used, s', within, run, last⟩ := ih (s := { s with
        obj := c₁
        sent := s.sent ++ (reply.bytes.drop s.obj.curRespPos).take (WriteResult.taken result) })
        inside rfl
      refine ⟨result :: used, s', List.prefix_cons_inj result |>.2 within, ?_, last⟩
      simpa [runLabels, step, inside, Server.Outgoing.write, head, wrote] using run

/-! ## When write_reply returns -/

def firstResults (results : Nat → WriteResult) (k : Nat) : List WriteResult := (List.range k).map results

theorem firstResults_add (results : Nat → WriteResult) (k n : Nat) :
    firstResults results (k + n) = firstResults results k ++ firstResults (fun i => results (k + i)) n := by
  simp only [firstResults, List.range_add, List.map_append, List.map_map]
  rfl

/-- What the loop has to do still; a write that takes something makes it less. -/
def remaining (c : TcpConnection) : Nat :=
  match c.replyList with
  | [] => 0
  | reply :: rest => reply.size - c.curRespPos + 1 + (rest.map fun r => r.size + 1).sum

theorem writeStep_remaining (head : c.replyList = reply :: rest)
    (stepped : c.writeStep reply rest result = some c') (progress : sockWriteData result ≠ 0) :
    remaining c' < remaining c := by
  have before : remaining c = reply.size - c.curRespPos + 1 + (rest.map fun r => r.size + 1).sum := by
    rw [remaining, head]
  obtain ⟨zero, -⟩ | ⟨-, -, rfl⟩ | ⟨some, part, rfl⟩ := writeStep_inv stepped
  · rcases sockWriteData_eq_neg_one_or result with failed | wrote
    · simp [TcpConnection.writeStep, failed] at stepped
    · omega
  · rw [before]
    cases rest with
    | nil => simp [remaining]
    | cons next others =>
        simp only [remaining, List.map_cons, List.sum_cons]
        omega
  · rw [before]
    simp only [remaining, head]
    omega

theorem writeStep_zero (zero : sockWriteData result = 0) : c.writeStep reply rest result = some c := by
  simp [TcpConnection.writeStep, zero]

theorem writeLoop_skip {results : List WriteResult} (more : List WriteResult)
    (head : c.replyList = reply :: rest) (zero : ∀ result ∈ results, sockWriteData result = 0) :
    c.writeLoop (results ++ more) = c.writeLoop more := by
  induction results with
  | nil => rfl
  | cons result results ih =>
      rw [List.cons_append, writeLoop_wrote head (writeStep_zero (zero result (by simp)))]
      exact ih fun result member => zero result (List.mem_cons_of_mem _ member)

theorem writeLoop_append {results : List WriteResult} {out : TcpConnection × Bool} (more : List WriteResult)
    (done : c.writeLoop results = some out) : c.writeLoop (results ++ more) = some out := by
  obtain ⟨c', close⟩ := out
  have writes := writeLoop_writes done
  clear done
  induction writes with
  | finished empty => exact writeLoop_empty _ empty
  | closes head failed => exact writeLoop_failed head failed _
  | goesOn head wrote _ ih => exact (writeLoop_wrote head wrote _).trans ih

theorem writeLoop_silent {results more : List WriteResult} (running : c.writeLoop results = none)
    (zero : ∀ result ∈ more, sockWriteData result = 0) : c.writeLoop (results ++ more) = none := by
  induction results generalizing c with
  | nil =>
      cases head : c.replyList with
      | nil => rw [writeLoop_empty _ head] at running; cases running
      | cons reply rest =>
          have skipped := writeLoop_skip [] head zero
          rwa [List.append_nil, writeLoop_starved head] at skipped
  | cons result results ih =>
      cases head : c.replyList with
      | nil => rw [writeLoop_empty _ head] at running; cases running
      | cons reply rest =>
          cases stepped : c.writeStep reply rest result with
          | none => rw [writeLoop_failed head stepped] at running; cases running
          | some c' =>
              rw [writeLoop_wrote head stepped] at running
              exact (writeLoop_wrote head stepped _).trans (ih running)

/-- From the `k`th write on nothing is taken, and the loop still runs. -/
def Stuck (c : TcpConnection) (results : Nat → WriteResult) : Prop :=
  ∃ k, c.writeLoop (firstResults results k) = none ∧ ∀ i, k ≤ i → sockWriteData (results i) = 0

theorem writeLoop_returns (c : TcpConnection) (results : Nat → WriteResult) (free : ¬ Stuck c results) :
    ∃ k out, c.writeLoop (firstResults results k) = some out := by
  -- on what the loop has to do still; between two writes that take something nothing changes
  induction work : remaining c using Nat.strong_induction_on generalizing c results with
  | _ work ih =>
      cases head : c.replyList with
      | nil => exact ⟨0, (c, false), writeLoop_empty _ head⟩
      | cons reply rest =>
          have moves : ∃ k, sockWriteData (results k) ≠ 0 := by
            by_contra never
            exact free ⟨0, writeLoop_starved head, fun i _ => not_not.1 (not_exists.1 never i)⟩
          classical
          let k := Nat.find moves
          have before : ∀ result ∈ firstResults results k, sockWriteData result = 0 := by
            intro result member
            obtain ⟨i, inside, rfl⟩ := List.mem_map.1 member
            exact not_not.1 (Nat.find_min moves (List.mem_range.1 inside))
          have split (n : Nat) : c.writeLoop (firstResults results (k + (1 + n))) =
              c.writeLoop (results k :: firstResults (fun i => results (k + 1 + i)) n) := by
            rw [firstResults_add, writeLoop_skip _ head before, firstResults_add]
            simp [firstResults, Nat.add_assoc]
          cases stepped : c.writeStep reply rest (results k) with
          | none =>
              refine ⟨k + (1 + 0), (c, true), ?_⟩
              rw [split, writeLoop_failed head stepped]
          | some c' =>
              have less := writeStep_remaining head stepped (Nat.find_spec moves)
              have free' : ¬ Stuck c' fun i => results (k + 1 + i) := by
                rintro ⟨n, running, silent⟩
                refine free ⟨k + (1 + n), ?_, fun i late => ?_⟩
                · rw [split, writeLoop_wrote head stepped]
                  exact running
                · obtain ⟨j, rfl⟩ := Nat.exists_eq_add_of_le (show k + 1 ≤ i by omega)
                  exact silent j (by omega)
              obtain ⟨n, out, returned⟩ := ih _ (work ▸ less) c' _ free' rfl
              refine ⟨k + (1 + n), out, ?_⟩
              rw [split, writeLoop_wrote head stepped]
              exact returned

theorem Stuck.never {results : Nat → WriteResult} (stuck : Stuck c results) (k : Nat) :
    c.writeLoop (firstResults results k) = none := by
  obtain ⟨n, running, silent⟩ := stuck
  rcases Nat.le_total k n with early | late
  · cases done : c.writeLoop (firstResults results k) with
    | none => rfl
    | some out =>
        have longer := writeLoop_append (firstResults (fun i => results (k + i)) (n - k)) done
        rw [← firstResults_add, Nat.add_sub_cancel' early, running] at longer
        cases longer
  · obtain ⟨more, rfl⟩ := Nat.exists_eq_add_of_le late
    rw [firstResults_add]
    apply writeLoop_silent running
    intro result member
    obtain ⟨i, -, rfl⟩ := List.mem_map.1 member
    exact silent (n + i) (by omega)

theorem writeLoop_finished {results : List WriteResult} {obj : TcpConnection}
    (done : c.writeLoop results = some (obj, false)) : obj.replyList = [] := by
  obtain ⟨-, -, -, -, -, -, finished⟩ := writeLoop_run (s := ⟨c, .inside, [], []⟩) rfl done
  exact finished rfl

/-! ### How much is left -/

def totalSize (replies : List Slice) : Nat := (replies.map Slice.size).sum

def bytesLeft (c : TcpConnection) : Nat := totalSize c.replyList - c.curRespPos

def bytesTaken (results : List WriteResult) : Nat := (results.map WriteResult.taken).sum

/-- A write takes at most what it is offered, so none goes over the end of a reply. -/
def Granted (c : TcpConnection) (results : List WriteResult) : Prop :=
  ∀ used result, used ++ [result] <+: results → ∀ front, front <+: c.replyList →
    c.curRespPos + bytesTaken used < totalSize front →
      c.curRespPos + bytesTaken (used ++ [result]) ≤ totalSize front

theorem bytesLeft_pos_iff (wf : (outbox c).Wf Slice.bytes) : 0 < bytesLeft c ↔ c.replyList ≠ [] := by
  cases head : c.replyList with
  | nil => simp [bytesLeft, totalSize, head]
  | cons reply rest =>
      have inside := wf.front reply rest head
      rw [Slice.bytes_length] at inside
      change c.curRespPos < reply.size at inside
      simp only [bytesLeft, totalSize, head, List.map_cons, List.sum_cons, ne_eq, reduceCtorEq,
        not_false_eq_true, iff_true]
      omega

section

variable (wf : (outbox c).Wf Slice.bytes) (head : c.replyList = reply :: rest)
  (stepped : c.writeStep reply rest result = some c') {results : List WriteResult}
  (granted : Granted c (result :: results))
include wf head granted

theorem granted_taken_le : c.curRespPos + WriteResult.taken result ≤ reply.size := by
  have inside := wf.front reply rest head
  rw [Slice.bytes_length] at inside
  have first := granted [] result (List.prefix_append [result] results) [reply]
    (by rw [head]; exact List.prefix_append [reply] rest)
  simp only [totalSize, bytesTaken, List.map_nil, List.sum_nil, List.map_cons, List.sum_cons, Nat.add_zero,
    List.nil_append] at first
  exact first inside

include stepped

theorem writeStep_bytesLeft : bytesLeft c' + WriteResult.taken result = bytesLeft c := by
  have within := granted_taken_le wf head granted
  obtain ⟨zero, rfl⟩ | ⟨-, whole, rfl⟩ | ⟨-, part, rfl⟩ := writeStep_inv stepped
  · rw [zero]
    rfl
  · simp only [bytesLeft, totalSize, head, List.map_cons, List.sum_cons]
    omega
  · simp only [bytesLeft, totalSize, head, List.map_cons, List.sum_cons]
    omega

theorem writeStep_granted : Granted c' results := by
  intro used next early front shorter inside
  have within := granted_taken_le wf head granted
  have later := granted (result :: used) next ((List.prefix_cons_inj result).2 early)
  have taken (used : List WriteResult) :
      bytesTaken (result :: used) = WriteResult.taken result + bytesTaken used := by simp [bytesTaken]
  rw [List.cons_append, taken, taken] at later
  obtain ⟨zero, rfl⟩ | ⟨-, whole, rfl⟩ | ⟨-, part, rfl⟩ := writeStep_inv stepped
  · have := later front shorter (by omega)
    omega
  · have total : totalSize (reply :: front) = reply.size + totalSize front := by simp [totalSize]
    have reached := later (reply :: front) (by rw [head]; exact (List.prefix_cons_inj reply).2 shorter)
    dsimp only at inside ⊢
    rw [total] at reached
    omega
  · have reached := later front shorter
    dsimp only at inside ⊢
    omega

end

theorem writeLoop_none_iff {results : List WriteResult} (wf : (outbox c).Wf Slice.bytes)
    (granted : Granted c results) : c.writeLoop results = none ↔
      (∀ result ∈ results, 0 ≤ sockWriteData result) ∧ bytesTaken results < bytesLeft c := by
  induction results generalizing c with
  | nil =>
      have waits := bytesLeft_pos_iff wf
      cases head : c.replyList with
      | nil =>
          rw [writeLoop_empty _ head]
          simp_all [bytesTaken]
      | cons reply rest =>
          rw [writeLoop_starved head]
          simp_all [bytesTaken]
  | cons result results ih =>
      cases head : c.replyList with
      | nil =>
          have empty := (bytesLeft_pos_iff wf).not.2 (by simp [head])
          rw [writeLoop_empty _ head]
          refine iff_of_false (by simp) fun ⟨_, less⟩ => ?_
          omega
      | cons reply rest =>
          cases stepped : c.writeStep reply rest result with
          | none =>
              rw [writeLoop_failed head stepped]
              refine iff_of_false (by simp) fun ⟨nonneg, _⟩ => ?_
              have fine := nonneg result (by simp)
              simp only [TcpConnection.writeStep, if_neg (Int.not_lt.2 fine)] at stepped
              split_ifs at stepped
          | some c₁ =>
              have moved := writeStep_advance wf head stepped
              have left := writeStep_bytesLeft wf head stepped granted
              have nonneg : 0 ≤ sockWriteData result := by
                by_contra negative
                simp [TcpConnection.writeStep, Int.not_le.1 negative] at stepped
              rw [writeLoop_wrote head stepped, ih (moved ▸ wf.advance _) (writeStep_granted wf head stepped granted)]
              simp only [List.mem_cons, forall_eq_or_imp, nonneg, true_and, bytesTaken, List.map_cons,
                List.sum_cons]
              refine and_congr_right fun _ => ?_
              omega

theorem writeReply_none_iff {h : Host} {fd : Int} {results : List WriteResult} {now : Nat} :
    h.writeReply fd results now = none ↔
      0 < fd ∧ ∃ c, lookup h.worker.conns fd = some c ∧ c.obj.writeLoop results = none := by
  unfold Host.writeReply
  by_cases low : fd ≤ 0
  · simp [low]
  · rw [if_neg low]
    cases held : lookup h.worker.conns fd with
    | none => simp
    | some c =>
        cases loop : c.obj.writeLoop results with
        | none => simp [loop, Int.not_le.1 low]
        | some out =>
            obtain ⟨obj, close⟩ := out
            cases close <;> simp [loop]

theorem mem_firstResults {results : Nat → WriteResult} {k : Nat} {P : WriteResult → Prop} :
    (∀ result ∈ firstResults results k, P result) ↔ ∀ i < k, P (results i) := by
  simp [firstResults]

/-- `write_reply` returns unless, from some write on, the socket takes nothing, while it has taken fewer
bytes than there are and has not failed. If it returns without closing the connection, no reply is left. -/
theorem writeReply_returns_iff (h : Host) (fd : Int) (results : Nat → WriteResult) (now : Nat)
    (sending : ∀ c, lookup h.worker.conns fd = some c →
      (outbox c.obj).Wf Slice.bytes ∧ ∀ k, Granted c.obj (firstResults results k)) :
    ((∃ k out, h.writeReply fd (firstResults results k) now = some out) ↔
      ¬ ∃ c k, 0 < fd ∧ lookup h.worker.conns fd = some c ∧
        bytesTaken (firstResults results k) < bytesLeft c.obj ∧
        (∀ i < k, 0 ≤ sockWriteData (results i)) ∧ ∀ i, k ≤ i → sockWriteData (results i) = 0) ∧
    ∀ k c obj, lookup h.worker.conns fd = some c →
      c.obj.writeLoop (firstResults results k) = some (obj, false) → obj.replyList = [] := by
  have running_iff (c) (held : lookup h.worker.conns fd = some c) (k : Nat) :
      c.obj.writeLoop (firstResults results k) = none ↔ (∀ i < k, 0 ≤ sockWriteData (results i)) ∧
        bytesTaken (firstResults results k) < bytesLeft c.obj := by
    obtain ⟨wf, granted⟩ := sending c held
    rw [writeLoop_none_iff wf (granted k), mem_firstResults (P := fun result => 0 ≤ sockWriteData result)]
  refine ⟨⟨?_, ?_⟩, fun k c obj _ done => writeLoop_finished done⟩
  · rintro ⟨k, out, returned⟩ ⟨c, n, positive, held, left, fine, silent⟩
    have loop := (running_iff c held n).2 ⟨fine, left⟩
    have never : h.writeReply fd (firstResults results k) now = none :=
      writeReply_none_iff.2 ⟨positive, c, held, Stuck.never ⟨n, loop, silent⟩ k⟩
    rw [returned] at never
    cases never
  · intro free
    by_contra never
    have running (k : Nat) : h.writeReply fd (firstResults results k) now = none :=
      Option.eq_none_iff_forall_ne_some.2 fun out returned => never ⟨k, out, returned⟩
    obtain ⟨positive, c, held, -⟩ := writeReply_none_iff.1 (running 0)
    obtain ⟨k, out, returned⟩ := writeLoop_returns c.obj results fun ⟨k, loop, silent⟩ => by
      obtain ⟨fine, left⟩ := (running_iff c held k).1 loop
      exact free ⟨c, k, positive, held, left, fine, silent⟩
    obtain ⟨-, c', held', loop'⟩ := writeReply_none_iff.1 (running k)
    cases held.symm.trans held'
    rw [returned] at loop'
    cases loop'

def requested (fd : Int) : List (WorkerEvent Unit) :=
  [.newConn fd 100 0 0, .io 0 (some ⟨.received (clientHeader 11), fun _ _ _ => 0, 3⟩) none 0,
    .io 0 (some ⟨.received pushText, fun _ _ _ => 0, 3⟩) none 0]

def answered : List (WorkerEvent Unit) :=
  requested 5 ++ [.offer (answer (utf8 "offer")) fun _ => 0]

theorem answered_pending : ∃ h c, Reachable (Host.step (W := Unit) Json.sample 1000) Watchers.Admits
      ⟨SignalingWorker.empty, fun _ => none⟩ h ∧
    lookup h.worker.conns 5 = some c ∧ c.obj.curRespPos = 0 ∧
      ∃ reply, c.obj.replyList = [reply] ∧ 0 < reply.size := by
  obtain ⟨h, reachable, holds⟩ := exists_reachable_of_runLabels
    (Host.step (W := Unit) Json.sample 1000) Watchers.admits_of_admitted
    ⟨SignalingWorker.empty, fun _ => none⟩ answered
    (fun h => (lookup h.worker.conns 5).any fun c =>
      c.obj.replyList.length == 1 && c.obj.curRespPos == 0 && c.obj.replyList.all fun reply => 0 < reply.size)
    (by decide +kernel)
  obtain ⟨c, held, single⟩ := (Option.any_eq_true _ _).1 holds
  simp only [Bool.and_eq_true, beq_iff_eq, List.all_eq_true, decide_eq_true_eq] at single
  obtain ⟨⟨one, start⟩, sizes⟩ := single
  obtain ⟨reply, pending⟩ := List.length_eq_one_iff.1 one
  exact ⟨h, c, reachable, held, start, reply, pending, sizes reply (by simp [pending])⟩

theorem granted_bytewise (c : TcpConnection) (k : Nat) :
    Granted c (firstResults (fun _ => .wrote 1) k) := by
  intro used result early front _ inside
  have all : ∀ result ∈ firstResults (fun _ => .wrote 1) k, result = .wrote 1 :=
    mem_firstResults.2 fun _ _ => rfl
  have one : result = .wrote 1 := all result (early.subset (by simp))
  have taken : bytesTaken (used ++ [result]) = bytesTaken used + 1 := by
    simp [bytesTaken, one, WriteResult.taken]
  omega

/-- The socket takes one byte after the other. -/
theorem writeReply_returns_iff_bytewise : ∃ h c, Reachable (Host.step (W := Unit) Json.sample 1000)
      Watchers.Admits ⟨SignalingWorker.empty, fun _ => none⟩ h ∧
    lookup h.worker.conns 5 = some c ∧ c.obj.replyList ≠ [] ∧ (outbox c.obj).Wf Slice.bytes ∧
    ∃ k out, h.writeReply 5 (firstResults (fun _ => .wrote 1) k) 0 = some out := by
  obtain ⟨h, c, reachable, held, start, reply, pending, nonempty⟩ := answered_pending
  have wf : (outbox c.obj).Wf Slice.bytes := by
    rw [outbox, pending, start]
    refine ⟨fun m member => ?_, fun m rest first => ?_, by simp⟩
    · rw [List.mem_singleton.1 member, ← List.length_pos_iff, Slice.bytes_length]
      exact nonempty
    · rw [← (List.cons.inj first).1, Slice.bytes_length]
      exact nonempty
  refine ⟨h, c, reachable, held, by simp [pending], wf,
    (writeReply_returns_iff h 5 (fun _ => .wrote 1) 0 fun c' held' => ?_).1.2 ?_⟩
  · cases held.symm.trans held'
    exact ⟨wf, granted_bytewise c.obj⟩
  · rintro ⟨-, k, -, -, -, -, silent⟩
    exact absurd (silent k (le_refl k)) (by decide)

/-- A client that does not read keeps `write_reply` running for ever. -/
theorem writeReply_spins : ∃ h, Reachable (Host.step (W := Unit) Json.sample 1000) Watchers.Admits
      ⟨SignalingWorker.empty, fun _ => none⟩ h ∧
    ∀ k, h.writeReply 5 (firstResults (fun _ => .again) k) 0 = none := by
  obtain ⟨h, c, reachable, held, -, reply, pending, -⟩ := answered_pending
  refine ⟨h, reachable, fun k => writeReply_none_iff.2 ⟨by decide, c, held, ?_⟩⟩
  have stuck : Stuck c.obj fun _ => .again := ⟨0, writeLoop_starved pending, fun _ _ => rfl⟩
  exact stuck.never k

end Xrtc.Proof.Outgoing
