import Mathlib.Data.List.Nodup
import Xrtc.Proof.Log

/-!
# What the log has written when `stop` returns
-/

namespace Xrtc.Proof.LogStop
open Base Lib Log

variable {l l' : XrtcLog} {st : LogStream} {i : Nat} {fileThere : Bool}

/-- The writer, past its loop test, has still to empty the queue in this pass. -/
def WillDrain : WriterPc → LogStream → Prop
  | .stat _, _ => True
  | .lock .log, _ => True
  | .drain .log _, _ => True
  | .write .log, .wf => True
  | .flush .log, .wf => True
  | .clear .log, .wf => True
  | .lock .wf, .wf => True
  | .drain .wf _, .wf => True
  | _, _ => False

/-- What a step of the writer does to a queue: as long as `running_` is not set, the writer does not come
back to a queue that it has emptied or passed by. -/
theorem writer_passes (taken : l.writerStep fileThere = some l') (st : LogStream) :
    (WillDrain l'.pc st → WillDrain l.pc st ∨ l.running = true) ∧
    (¬ WillDrain l'.pc st → (WillDrain l.pc st ∧ l'.queue st = []) ∨
      (¬ WillDrain l.pc st ∧ l'.queue st = l.queue st)) := by
  cases writerStep_move taken with
  | test here =>
      cases running : l.running with
      | true => exact ⟨fun _ => .inr rfl, fun passed => absurd trivial passed⟩
      | false => exact ⟨fun impossible => impossible.elim, fun _ => .inr ⟨by simp [here, WillDrain], rfl⟩⟩
  | stat fileThere here goes =>
      refine ⟨fun _ => .inl (by rw [here]; trivial), fun passed => ?_⟩
      rcases goes with rfl | rfl
      · exact absurd trivial passed
      · exact absurd trivial passed
  | @lock at_st here _ =>
      rw [here]
      cases at_st <;> cases st <;> simp [WillDrain, XrtcLog.setMtx]
  | @unlock at_st writeLog here queue =>
      rw [here]
      cases at_st <;> cases st <;> cases writeLog <;> simp [WillDrain, XrtcLog.setMtx, queue]
  | @drain at_st _ _ _ here queue =>
      rw [here]
      cases at_st <;> cases st <;> simp [WillDrain, XrtcLog.setQueue]
  | @write at_st here =>
      rw [here]
      cases at_st <;> cases st <;> simp [WillDrain, XrtcLog.setOut]
  | @flush at_st here =>
      rw [here]
      cases at_st <;> cases st <;> simp [WillDrain, XrtcLog.setOut]
  | clear here goes =>
      rw [here]
      rcases goes with ⟨rfl, rfl⟩ | ⟨rfl, rfl⟩
      · cases st <;> simp [WillDrain]
      · simp [WillDrain]
  | sleep here => simp [here, WillDrain]
  | close here goes =>
      rw [here]
      rcases goes with rfl | rfl
      · simp [WillDrain, XrtcLog.setOut]
      · simp [WillDrain, XrtcLog.setOut]

/-- The pushes belong to different calls, namely those that are past their push. -/
structure Numbered (l : XrtcLog) : Prop where
  nodup : (l.pushes.map (·.2.call)).Nodup
  recorded : ∀ severity m, (severity, m) ∈ l.pushes →
    ∃ c, l.calls[m.call]? = some c ∧ c.severity = severity ∧ (c.phase = .pushed ∨ c.phase = .returned)
  pushed : ∀ i c, l.calls[i]? = some c → c.phase = .pushed ∨ c.phase = .returned →
    (c.severity, ⟨i, c.text⟩) ∈ l.pushes

theorem new_numbered : Numbered .new where
  nodup := List.nodup_nil
  recorded _ _ member := by cases member
  pushed _ _ found := by cases found

theorem Numbered.of_same (numbered : Numbered l) (calls : l'.calls = l.calls)
    (pushes : l'.pushes = l.pushes) : Numbered l' := by
  constructor
  case nodup => rw [pushes]; exact numbered.nodup
  case recorded => rw [pushes, calls]; exact numbered.recorded
  case pushed => rw [pushes, calls]; exact numbered.pushed

theorem Numbered.phase {c : LogCall} {phase : CallPhase} (numbered : Numbered l)
    (found : l.calls[i]? = some c) (calls : l'.calls = l.calls.set i { c with phase := phase })
    (pushes : l'.pushes = l.pushes)
    (same : phase = .pushed ∨ phase = .returned ↔ c.phase = .pushed ∨ c.phase = .returned) : Numbered l' := by
  have inside := (List.getElem?_eq_some_iff.1 found).1
  constructor
  case nodup => rw [pushes]; exact numbered.nodup
  case recorded =>
    intro severity m member
    rw [pushes] at member
    obtain ⟨c', found', isSeverity, past⟩ := numbered.recorded severity m member
    rw [calls]
    by_cases here : m.call = i
    · rw [here] at found' ⊢
      obtain rfl := Option.some.inj (found.symm.trans found')
      exact ⟨_, List.getElem?_set_self inside, isSeverity, same.2 past⟩
    · rw [List.getElem?_set_ne (Ne.symm here)]
      exact ⟨c', found', isSeverity, past⟩
  case pushed =>
    intro j c' found' past
    rw [calls] at found'
    rw [pushes]
    rcases getElem?_set_cases found' with ⟨rfl, rfl⟩ | other
    · exact numbered.pushed j c found (same.1 past)
    · exact numbered.pushed j c' other past

theorem Numbered.push {c : LogCall} (numbered : Numbered l) (found : l.calls[i]? = some c)
    (locked : c.phase = .locked) (calls : l'.calls = l.calls.set i { c with phase := .pushed })
    (pushes : l'.pushes = l.pushes ++ [(c.severity, ⟨i, c.text⟩)]) : Numbered l' := by
  have inside := (List.getElem?_eq_some_iff.1 found).1
  -- the calls with a push are past the phase in which this one is
  have unpushed : ∀ severity m, (severity, m) ∈ l.pushes → m.call ≠ i := by
    rintro severity m member rfl
    obtain ⟨c', found', -, past⟩ := numbered.recorded severity m member
    obtain rfl := Option.some.inj (found.symm.trans found')
    rw [locked] at past
    rcases past with impossible | impossible
    · cases impossible
    · cases impossible
  constructor
  case nodup =>
    rw [pushes, List.map_append, List.nodup_append]
    refine ⟨numbered.nodup, List.nodup_singleton _, ?_⟩
    rintro a member b new rfl
    obtain ⟨⟨severity, m⟩, earlier, rfl⟩ := List.mem_map.1 member
    exact unpushed severity m earlier (List.mem_singleton.1 new)
  case recorded =>
    intro severity m member
    rw [pushes] at member
    rw [calls]
    rcases List.mem_append.1 member with old | new
    · obtain ⟨c', found', isSeverity, past⟩ := numbered.recorded severity m old
      rw [List.getElem?_set_ne (Ne.symm (unpushed severity m old))]
      exact ⟨c', found', isSeverity, past⟩
    · cases List.mem_singleton.1 new
      exact ⟨_, List.getElem?_set_self inside, rfl, .inl rfl⟩
  case pushed =>
    intro j c' found' past
    rw [calls] at found'
    rw [pushes]
    rcases getElem?_set_cases found' with ⟨rfl, rfl⟩ | other
    · exact List.mem_append_right _ (List.mem_singleton_self _)
    · exact List.mem_append_left _ (numbered.pushed j c' other past)

theorem call_numbered (numbered : Numbered l) (taken : l.callStep i = some l') : Numbered l' := by
  obtain ⟨c, found, ⟨phase, rfl⟩ | ⟨phase, rfl⟩ | ⟨phase, rfl⟩⟩ := callStep_inv taken
  · exact numbered.phase found rfl rfl (by simp [phase])
  · exact numbered.push found phase rfl rfl
  · exact numbered.phase found rfl rfl (by simp [phase])

theorem writer_calls (taken : l.writerStep fileThere = some l') :
    l'.calls = l.calls ∧ l'.pushes = l.pushes ∧ l'.stopping = l.stopping ∧ l'.running = l.running := by
  cases writerStep_move taken with
  | stat fileThere here goes => cases fileThere <;> exact ⟨rfl, rfl, rfl, rfl⟩
  | _ => exact ⟨rfl, rfl, rfl, rfl⟩

theorem Numbered.kept {label : LogLabel} (numbered : Numbered l) (taken : l.step label = some l') :
    Numbered l' := by
  cases label with
  | start =>
      obtain ⟨-, -, rfl⟩ := start_inv taken
      exact numbered.of_same rfl rfl
  | onLogMessage text severity =>
      obtain rfl := Option.some.inj taken
      refine ⟨numbered.nodup, fun severity m member => ?_, fun j c found past => ?_⟩
      · obtain ⟨c, found, known⟩ := numbered.recorded severity m member
        exact ⟨c, (List.getElem?_append_left (List.getElem?_eq_some_iff.1 found).1).trans found, known⟩
      · rcases getElem?_concat_cases found with old | rfl
        · exact numbered.pushed j c old past
        · rcases past with impossible | impossible
          · cases impossible
          · cases impossible
  | call i => exact call_numbered numbered taken
  | writer fileThere =>
      obtain ⟨calls, pushes, -⟩ := writer_calls taken
      exact numbered.of_same calls pushes
  | stop =>
      obtain ⟨-, rfl⟩ := stop_inv taken
      exact numbered.of_same rfl rfl
  | store =>
      obtain ⟨before, -, rfl⟩ := store_inv taken
      exact numbered.of_same rfl rfl
  | join =>
      obtain ⟨before, pc, queue, -, -, rfl⟩ := join_inv taken
      exact numbered.of_same rfl rfl

theorem reachable_numbered (reachable : Reachable XrtcLog.step Always .new l) : Numbered l :=
  reachable.invariant new_numbered fun _ _ _ before _ taken => before.kept taken

def Returned (l : XrtcLog) (i : Nat) : Prop :=
  ∃ c, l.calls[i]? = some c ∧ c.phase = .returned

theorem mem_returnedCalls : i ∈ l.returnedCalls ↔ Returned l i := by
  rw [XrtcLog.returnedCalls, List.mem_filter, List.mem_range, Option.any_eq_true]
  constructor
  · rintro ⟨-, c, found, phase⟩
    exact ⟨c, found, of_decide_eq_true phase⟩
  · rintro ⟨c, found, phase⟩
    exact ⟨(List.getElem?_eq_some_iff.1 found).1, c, found, decide_eq_true phase⟩

def queued (queue : LogStream → List LogMessage) (st : LogStream) : List Nat :=
  (queue st).map (·.call)

theorem call_passes {j : Nat} (taken : l.callStep j = some l') (returned : Returned l i) :
    Returned l' i ∧ ∀ st, i ∈ queued l'.queue st ↔ i ∈ queued l.queue st := by
  obtain ⟨c, found, phase⟩ := returned
  have other : ∀ c', l.calls[j]? = some c' → c'.phase ≠ .returned → j ≠ i := by
    rintro c' found' moves rfl
    obtain rfl := Option.some.inj (found.symm.trans found')
    exact moves phase
  have kept : ∀ c', j ≠ i → Returned { l with calls := l.calls.set j c' } i := by
    intro c' apart
    exact ⟨c, (List.getElem?_set_ne apart).trans found, phase⟩
  obtain ⟨c', found', ⟨phase', rfl⟩ | ⟨phase', rfl⟩ | ⟨phase', rfl⟩⟩ := callStep_inv taken
  · exact ⟨kept _ (other c' found' (by simp [phase'])), fun _ => Iff.rfl⟩
  · have apart := other c' found' (by simp [phase'])
    refine ⟨kept _ apart, fun st => ?_⟩
    change i ∈ queued (Function.update l.queue _ _) st ↔ _
    by_cases here : st = c'.severity.stream
    · subst here
      simp [queued, apart.symm]
    · rw [queued, Function.update_of_ne here, queued]
  · exact ⟨kept _ (other c' found' (by simp [phase'])), fun _ => Iff.rfl⟩

theorem call_frame {j : Nat} (taken : l.callStep j = some l') :
    l'.pc = l.pc ∧ l'.running = l.running ∧ l'.stopping = l.stopping := by
  obtain ⟨c, -, ⟨-, rfl⟩ | ⟨-, rfl⟩ | ⟨-, rfl⟩⟩ := callStep_inv taken
  · exact ⟨rfl, rfl, rfl⟩
  · exact ⟨rfl, rfl, rfl⟩
  · exact ⟨rfl, rfl, rfl⟩

/-- Since the store to `running_`, made with the writer at `pc` and the queues as in `queue`: a queue that
the writer has behind it holds of the messages from before what it held then, unless the writer has come
by. -/
structure Stopped (l : XrtcLog) (before : List Nat) (pc : WriterPc) (queue : LogStream → List LogMessage) :
    Prop where
  halted : l.running = false
  earlier : ∀ i ∈ before, Returned l i
  ahead : ∀ st, WillDrain l.pc st → WillDrain pc st
  behind : ∀ st, ¬ WillDrain l.pc st → ∀ i ∈ before,
    (i ∈ queued l.queue st ↔ i ∈ queued queue st ∧ ¬ WillDrain pc st)

section
variable {before : List Nat} {pc : WriterPc} {queue : LogStream → List LogMessage}

theorem Stopped.call {j : Nat} (stopped : Stopped l before pc queue) (taken : l.callStep j = some l') :
    Stopped l' before pc queue := by
  obtain ⟨at_pc, running, -⟩ := call_frame taken
  refine ⟨running.trans stopped.halted, fun i member => (call_passes taken (stopped.earlier i member)).1, ?_, ?_⟩
  · rw [at_pc]
    exact stopped.ahead
  · intro st passed i member
    rw [at_pc] at passed
    exact ((call_passes taken (stopped.earlier i member)).2 st).trans (stopped.behind st passed i member)

theorem Stopped.writer (stopped : Stopped l before pc queue) (taken : l.writerStep fileThere = some l') :
    Stopped l' before pc queue := by
  obtain ⟨calls, -, -, running⟩ := writer_calls taken
  constructor
  case halted => exact running.trans stopped.halted
  case earlier =>
    intro i member
    rw [Returned, calls]
    exact stopped.earlier i member
  case ahead =>
    intro st ahead
    rcases (writer_passes taken st).1 ahead with still | running
    · exact stopped.ahead st still
    · rw [stopped.halted] at running
      cases running
  case behind =>
    intro st passed i member
    -- the writer leaves the queue behind in this step, or had it behind already
    rcases (writer_passes taken st).2 passed with ⟨drains, empty⟩ | ⟨behind, same⟩
    · have drained := stopped.ahead st drains
      simp [queued, empty, drained]
    · rw [queued, same]
      exact stopped.behind st behind i member

end

inductive StopOk (l : XrtcLog) : StopPc → Prop
  | notCalled : StopOk l .notCalled
  | called {before} (earlier : ∀ i ∈ before, Returned l i) : StopOk l (.called before)
  | joining {before pc queue} (stopped : Stopped l before pc queue) : StopOk l (.joining before pc queue)
  | returned {before pc queue} (stopped : Stopped l before pc queue) (ended : l.pc = .done ∨ l.pc = .idle) :
      StopOk l (.returned before pc queue)

theorem StopOk.carry {stopping : StopPc} (ok : StopOk l stopping) (earlier : ∀ i, Returned l i → Returned l' i)
    (carried : ∀ before pc queue, Stopped l before pc queue → Stopped l' before pc queue)
    (ends : l.pc = .done ∨ l.pc = .idle → l'.pc = .done ∨ l'.pc = .idle) : StopOk l' stopping := by
  cases ok with
  | notCalled => exact .notCalled
  | called returned => exact .called fun i member => earlier i (returned i member)
  | joining stopped => exact .joining (carried _ _ _ stopped)
  | returned stopped ended => exact .returned (carried _ _ _ stopped) (ends ended)

theorem onLogMessage_returned (text : List UInt8) (severity : LoggingSeverity) (returned : Returned l i) :
    Returned { l with calls := l.calls ++ [⟨text, severity, .called⟩] } i := by
  obtain ⟨c, found, phase⟩ := returned
  exact ⟨c, (List.getElem?_append_left (List.getElem?_eq_some_iff.1 found).1).trans found, phase⟩

theorem StopOk.kept {label : LogLabel} (ok : StopOk l l.stopping) (taken : l.step label = some l') :
    StopOk l' l'.stopping := by
  cases label with
  | start =>
      obtain ⟨-, notCalled, rfl⟩ := start_inv taken
      change StopOk _ l.stopping
      rw [notCalled]
      exact .notCalled
  | onLogMessage text severity =>
      obtain rfl := Option.some.inj taken
      have earlier : ∀ i, Returned l i → Returned _ i := fun i => onLogMessage_returned text severity
      refine ok.carry earlier (fun before pc queue stopped => ?_) id
      exact ⟨stopped.halted, fun i member => earlier i (stopped.earlier i member), stopped.ahead, stopped.behind⟩
  | call j =>
      obtain ⟨at_pc, -, stopping⟩ := call_frame taken
      rw [stopping]
      refine ok.carry (fun i returned => (call_passes taken returned).1) (fun _ _ _ => (·.call taken)) ?_
      rw [at_pc]
      exact id
  | writer fileThere =>
      obtain ⟨calls, -, stopping, -⟩ := writer_calls taken
      rw [stopping]
      refine ok.carry (fun i returned => by rw [Returned, calls]; exact returned)
        (fun _ _ _ => (·.writer taken)) (fun ended => ?_)
      have impossible : l.writerStep fileThere = none := by
        rcases ended with at_pc | at_pc
        · simp only [XrtcLog.writerStep, at_pc]
        · simp only [XrtcLog.writerStep, at_pc]
      cases impossible.symm.trans taken
  | stop =>
      obtain ⟨-, rfl⟩ := stop_inv taken
      exact .called fun i => mem_returnedCalls.1
  | store =>
      obtain ⟨before, called, rfl⟩ := store_inv taken
      rw [called] at ok
      cases ok with
      | called earlier =>
          refine .joining ⟨rfl, earlier, fun _ => id, fun st passed i _ => ?_⟩
          exact ⟨fun inside => ⟨inside, passed⟩, fun inside => inside.1⟩
  | join =>
      obtain ⟨before, pc, queue, joining, ended, rfl⟩ := join_inv taken
      rw [joining] at ok
      cases ok with
      | joining stopped =>
          exact .returned ⟨stopped.halted, stopped.earlier, stopped.ahead, stopped.behind⟩ ended

theorem reachable_stop (reachable : Reachable XrtcLog.step Always .new l) : StopOk l l.stopping := by
  induction reachable with
  | start => exact .notCalled
  | next _ _ taken ih => exact ih.kept taken

def Written (l : XrtcLog) (i : Nat) : Prop :=
  ∃ c, l.calls[i]? = some c ∧ ⟨i, c.text⟩ ∈ (l.out c.severity.stream).disk

theorem pushedTo_nodup (numbered : Numbered l) (st : LogStream) : ((pushedTo l st).map (·.call)).Nodup := by
  refine numbered.nodup.sublist ?_
  rw [pushedTo, List.map_map]
  exact List.filter_sublist.map _

theorem queued_severity {c : LogCall} (accounts : Accounts l) (numbered : Numbered l)
    (found : l.calls[i]? = some c) (inside : i ∈ queued l.queue st) : c.severity.stream = st := by
  obtain ⟨m, member, rfl⟩ := List.mem_map.1 inside
  have pushed : m ∈ pushedTo l st := by
    rw [← accounts.messages]
    exact List.mem_append_right _ member
  obtain ⟨⟨severity, m'⟩, kept, rfl⟩ := List.mem_map.1 pushed
  obtain ⟨recorded, isStream⟩ := List.mem_filter.1 kept
  obtain ⟨c', found', rfl, -⟩ := numbered.recorded severity m' recorded
  obtain rfl := Option.some.inj (found.symm.trans found')
  exact of_decide_eq_true isStream

theorem written_iff (accounts : Accounts l) (numbered : Numbered l) (ended : l.pc = .done ∨ l.pc = .idle)
    (returned : Returned l i) : Written l i ↔ ∀ st, i ∉ queued l.queue st := by
  obtain ⟨c, found, phase⟩ := returned
  have nothing : pending l c.severity.stream = [] := by
    rcases ended with at_pc | at_pc
    · rw [pending, at_pc]
    · rw [pending, at_pc]
  have synced : (l.out c.severity.stream).disk = (l.out c.severity.stream).text := by
    refine (accounts.files _).synced ?_
    rcases ended with at_pc | at_pc
    · simp [at_pc]
    · simp [at_pc]
  have messages := accounts.messages c.severity.stream
  rw [nothing, List.append_nil, ← synced] at messages
  constructor
  · -- a message in the file and in the queue would be the push of two calls
    rintro ⟨c', found', written⟩ st inside
    obtain rfl := Option.some.inj (found.symm.trans found')
    obtain rfl := queued_severity accounts numbered found inside
    have nodup := pushedTo_nodup numbered c.severity.stream
    rw [← messages, List.map_append, List.nodup_append] at nodup
    exact nodup.2.2 i (List.mem_map_of_mem written) i inside rfl
  · intro absent
    refine ⟨c, found, ?_⟩
    have pushed : ⟨i, c.text⟩ ∈ pushedTo l c.severity.stream :=
      List.mem_map_of_mem (List.mem_filter.2 ⟨numbered.pushed i c found (.inr phase), decide_eq_true rfl⟩)
    rw [← messages] at pushed
    rcases List.mem_append.1 pushed with written | waiting
    · exact written
    · exact absurd (List.mem_map_of_mem waiting) (absent _)

/-- When `stop` returns, a message from before its call is in its file exactly if it was in no queue at the
store to `running_` that the writer had behind it in its last pass. -/
theorem stop_flushes_iff (l : XrtcLog) (before : List Nat) (pc : WriterPc) (queue : LogStream → List LogMessage)
    (reachable : Reachable XrtcLog.step Always .new l) (returned : l.stopping = .returned before pc queue) :
    ∀ i ∈ before, Written l i ↔ ∀ st, i ∈ queued queue st → WillDrain pc st := by
  intro i member
  have ok := reachable_stop reachable
  rw [returned] at ok
  cases ok with
  | returned stopped ended =>
      rw [written_iff (reachable_accounts reachable) (reachable_numbered reachable) ended (stopped.earlier i member)]
      have passed : ∀ st, ¬ WillDrain l.pc st := by
        intro st
        rcases ended with at_pc | at_pc
        · simp [at_pc, WillDrain]
        · simp [at_pc, WillDrain]
      refine forall_congr' fun st => ?_
      rw [stopped.behind st (passed st) i member, not_and, Classical.not_not]

def returnedWith (l : XrtcLog) (before : List Nat) (pc : WriterPc) (waiting : List Nat) : Bool :=
  match l.stopping with
  | .returned before' pc' queue => before' = before && pc' = pc && queued queue .log = waiting
  | _ => false

theorem returnedWith_inv {before waiting : List Nat} {pc : WriterPc}
    (holds : returnedWith l before pc waiting = true) :
    ∃ queue, l.stopping = .returned before pc queue ∧ queued queue .log = waiting := by
  unfold returnedWith at holds
  split at holds
  · next before' pc' queue stopping =>
      simp only [Bool.and_eq_true, decide_eq_true_eq] at holds
      obtain ⟨⟨rfl, rfl⟩, isWaiting⟩ := holds
      exact ⟨queue, stopping, isWaiting⟩
  · cases holds

def writerSteps (n : Nat) (labels : List LogLabel) : List LogLabel :=
  List.replicate n (.writer true) ++ labels

/-- `stop` finds the message in the queue and the writer at the top of its pass. -/
theorem stop_flushes_iff_ahead :
    ∃ l queue, Reachable XrtcLog.step Always .new l ∧ l.stopping = .returned [0] (.stat .log) queue ∧
      queued queue .log = [0] ∧ Written l 0 := by
  obtain ⟨l, reachable, holds⟩ := exists_reachable_of_runLabels XrtcLog.step always_sound .new
    (.start :: .writer true :: .onLogMessage [104] .LS_INFO :: .call 0 :: .call 0 :: .call 0 :: .stop :: .store ::
      writerSteps 15 [.join])
    (fun l => returnedWith l [0] (.stat .log) [0]) (by decide)
  obtain ⟨queue, returned, waiting⟩ := returnedWith_inv holds
  have written := (stop_flushes_iff l [0] (.stat .log) queue reachable returned 0 (List.mem_singleton_self 0)).2
    fun _ _ => trivial
  exact ⟨l, queue, reachable, returned, waiting, written⟩

/-- The message is pushed while the writer sleeps; `stop` is called after that, and the writer ends without
another pass. -/
theorem sleeping_writer_loses :
    ∃ l queue, Reachable XrtcLog.step Always .new l ∧ l.stopping = .returned [0] .sleep queue ∧
      l.calls = [⟨[104], .LS_INFO, .returned⟩] ∧ (l.out .log).disk = [] ∧ ¬ Written l 0 := by
  obtain ⟨l, reachable, holds⟩ := exists_reachable_of_runLabels XrtcLog.step always_sound .new
    (.start :: writerSteps 9 (.onLogMessage [104] .LS_INFO :: .call 0 :: .call 0 :: .call 0 :: .stop :: .store ::
      writerSteps 4 [.join]))
    (fun l => returnedWith l [0] .sleep [0] ∧ l.calls = [⟨[104], .LS_INFO, .returned⟩] ∧ (l.out .log).disk = [])
    (by decide)
  obtain ⟨stopped, calls, empty⟩ := of_decide_eq_true holds
  obtain ⟨queue, returned, -⟩ := returnedWith_inv stopped
  refine ⟨l, queue, reachable, returned, calls, empty, ?_⟩
  rintro ⟨c, found, written⟩
  rw [calls] at found
  obtain rfl := Option.some.inj found
  change _ ∈ (l.out .log).disk at written
  rw [empty] at written
  cases written

end Xrtc.Proof.LogStop
