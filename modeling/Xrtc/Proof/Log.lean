import Xrtc.Base.Log
import Xrtc.Lib.Machine

/-!
# Where the messages of the log are
-/

namespace Xrtc.Proof.Log
open Base Lib

variable {l l' : XrtcLog} {st st' : LogStream} {i : Nat} {fileThere : Bool}

def pushedTo (l : XrtcLog) (st : LogStream) : List LogMessage :=
  (l.pushes.filter (·.1.stream = st)).map Prod.snd

/-- What is in the string stream for `st` and not yet in its file. -/
def pending (l : XrtcLog) (st : LogStream) : List LogMessage :=
  match l.pc with
  | .drain st' _ => if st' = st then l.ss else []
  | .write st' => if st' = st then l.ss else []
  | _ => []

def Fills : WriterPc → Prop
  | .drain _ true => True
  | .write _ => True
  | .flush _ => True
  | .clear _ => True
  | _ => False

/-- A file is open while the loop runs, and only a text that is about to be flushed is not on the disk. -/
structure FileOk (pc : WriterPc) (st : LogStream) (f : OutFile) : Prop where
  opened : pc ≠ .close .wf → pc ≠ .done → f.isOpen = true
  synced : pc ≠ .flush st → f.disk = f.text

structure Accounts (l : XrtcLog) : Prop where
  messages : ∀ st, (l.out st).text ++ pending l st ++ l.queue st = pushedTo l st
  clean : ¬ Fills l.pc → l.ss = []
  files : ∀ st, FileOk l.pc st (l.out st)

theorem new_accounts : Accounts .new where
  messages _ := rfl
  clean _ := rfl
  files _ := ⟨fun _ _ => rfl, fun _ => rfl⟩

theorem setOut_forall {P : LogStream → OutFile → Prop} (l : XrtcLog) (st : LogStream) (f : OutFile) (new : P st f)
    (old : ∀ st', st' ≠ st → P st' (l.out st')) (st' : LogStream) : P st' ((l.setOut st f).out st') := by
  change P st' (Function.update l.out st f st')
  by_cases here : st' = st
  · rw [here, Function.update_self]
    exact new
  · rw [Function.update_of_ne here]
    exact old st' here

theorem Accounts.moved (accounts : Accounts l) (before : ∀ st, pending l st = [])
    (after : ∀ st, pending l' st = []) (queue : l'.queue = l.queue) (pushes : l'.pushes = l.pushes)
    (clean : ¬ Fills l'.pc → l'.ss = [])
    (files : ∀ st, (l'.out st).text = (l.out st).text ∧ FileOk l'.pc st (l'.out st)) : Accounts l' := by
  refine ⟨fun st => ?_, clean, fun st => (files st).2⟩
  have same := accounts.messages st
  rw [before] at same
  rw [after, queue, (files st).1, pushedTo, pushes]
  exact same

/-! ## The writer -/

inductive WriterMove (l : XrtcLog) : XrtcLog → Prop
  | test (here : l.pc = .test) : WriterMove l { l with pc := if l.running then .stat .log else .close .log }
  | stat {st : LogStream} {next : WriterPc} (fileThere : Bool) (here : l.pc = .stat st)
      (goes : next = .stat .wf ∨ next = .lock .log) :
      WriterMove l { if fileThere then l else l.setOut st (l.out st).reopen with pc := next }
  | lock {st : LogStream} (here : l.pc = .lock st) (free : l.mtx st = none) :
      WriterMove l { l.setMtx st (some .writer) with pc := .drain st false }
  | unlock {st : LogStream} {writeLog : Bool} (here : l.pc = .drain st writeLog) (queue : l.queue st = []) :
      WriterMove l { l.setMtx st none with pc := if writeLog then .write st else .clear st }
  | drain {st : LogStream} {writeLog : Bool} {front : LogMessage} {rest : List LogMessage}
      (here : l.pc = .drain st writeLog) (queue : l.queue st = front :: rest) :
      WriterMove l { l.setQueue st rest with ss := l.ss ++ [front], pc := .drain st true }
  | write {st : LogStream} (here : l.pc = .write st) :
      WriterMove l { l.setOut st ((l.out st).put l.ss) with pc := .flush st }
  | flush {st : LogStream} (here : l.pc = .flush st) :
      WriterMove l { l.setOut st (l.out st).flush with pc := .clear st }
  | clear {st : LogStream} {next : WriterPc} (here : l.pc = .clear st)
      (goes : st = .log ∧ next = .lock .wf ∨ st = .wf ∧ next = .sleep) :
      WriterMove l { l with ss := [], pc := next }
  | sleep (here : l.pc = .sleep) : WriterMove l { l with pc := .test }
  | close {st : LogStream} {next : WriterPc} (here : l.pc = .close st)
      (goes : next = .close .wf ∨ next = .done) :
      WriterMove l { l.setOut st (l.out st).close with pc := next }

theorem writerStep_move (taken : l.writerStep fileThere = some l') : WriterMove l l' := by
  unfold XrtcLog.writerStep at taken
  split at taken
  case h_1 => cases taken
  case h_2 here => exact Option.some.inj taken ▸ .test here
  case h_3 here => exact Option.some.inj taken ▸ .stat fileThere here (.inl rfl)
  case h_4 here => exact Option.some.inj taken ▸ .stat fileThere here (.inr rfl)
  case h_5 st here =>
    split at taken
    · next free => exact Option.some.inj taken ▸ .lock here free
    · cases taken
  case h_6 st writeLog here =>
    split at taken
    · next queue => exact Option.some.inj taken ▸ .unlock here queue
    · next front rest queue => exact Option.some.inj taken ▸ .drain here queue
  case h_7 st here => exact Option.some.inj taken ▸ .write here
  case h_8 st here => exact Option.some.inj taken ▸ .flush here
  case h_9 here => exact Option.some.inj taken ▸ .clear here (.inl ⟨rfl, rfl⟩)
  case h_10 here => exact Option.some.inj taken ▸ .clear here (.inr ⟨rfl, rfl⟩)
  case h_11 here => exact Option.some.inj taken ▸ .sleep here
  case h_12 here => exact Option.some.inj taken ▸ .close here (.inl rfl)
  case h_13 here => exact Option.some.inj taken ▸ .close here (.inr rfl)
  case h_14 => cases taken

theorem test_accounts (accounts : Accounts l) (at_test : l.pc = .test) :
    Accounts { l with pc := if l.running then .stat .log else .close .log } := by
  have nothing : l.ss = [] := accounts.clean (by simp [at_test, Fills])
  refine accounts.moved (fun st => by simp [pending, at_test]) (fun st => ?_) rfl rfl (fun _ => nothing)
    fun st => ⟨rfl, ?_⟩
  · cases running : l.running <;> simp [pending]
  · have ok := accounts.files st
    rw [at_test] at ok
    exact ⟨fun _ _ => ok.opened (by simp) (by simp), fun _ => ok.synced (by simp)⟩

theorem stat_accounts {next : WriterPc} (accounts : Accounts l) (at_stat : l.pc = .stat st)
    (quiet : next = .stat .wf ∨ next = .lock .log) :
    Accounts { if fileThere then l else l.setOut st (l.out st).reopen with pc := next } := by
  have nothing : l.ss = [] := accounts.clean (by simp [at_stat, Fills])
  have nowhere : ∀ (m : XrtcLog) st', m.pc = next → pending m st' = [] := by
    rintro m st' rfl
    rcases quiet with here | here <;> simp [pending, here]
  have ok : ∀ st', FileOk next st' (l.out st') := by
    intro st'
    have ok := accounts.files st'
    rw [at_stat] at ok
    exact ⟨fun _ _ => ok.opened (by simp) (by simp), fun _ => ok.synced (by simp)⟩
  cases fileThere with
  | true =>
      exact accounts.moved (fun st => by simp [pending, at_stat]) (fun st' => nowhere _ st' rfl) rfl rfl
        (fun _ => nothing) fun st' => ⟨rfl, ok st'⟩
  | false =>
      refine accounts.moved (fun st => by simp [pending, at_stat]) (fun st' => nowhere _ st' rfl) rfl rfl
        (fun _ => nothing) ?_
      exact setOut_forall (P := fun st' f => f.text = (l.out st').text ∧ FileOk next st' f) l st
        (l.out st).reopen ⟨rfl, fun _ _ => rfl, fun _ => rfl⟩ fun st' _ => ⟨rfl, ok st'⟩

theorem lock_accounts (accounts : Accounts l) (at_lock : l.pc = .lock st) :
    Accounts { l.setMtx st (some .writer) with pc := .drain st false } := by
  have nothing : l.ss = [] := accounts.clean (by simp [at_lock, Fills])
  refine accounts.moved (fun st => by simp [pending, at_lock]) (fun st' => ?_) rfl rfl (fun _ => nothing)
    fun st' => ⟨rfl, ?_⟩
  · simp [pending, XrtcLog.setMtx, nothing]
  · have ok := accounts.files st'
    rw [at_lock] at ok
    exact ⟨fun _ _ => ok.opened (by simp) (by simp), fun _ => ok.synced (by simp)⟩

theorem unlock_accounts {writeLog : Bool} (accounts : Accounts l) (at_drain : l.pc = .drain st writeLog) :
    Accounts { l.setMtx st none with pc := if writeLog then .write st else .clear st } := by
  have ok : ∀ st', FileOk (if writeLog then .write st else .clear st) st' (l.out st') := by
    intro st'
    have ok := accounts.files st'
    rw [at_drain] at ok
    exact ⟨fun _ _ => ok.opened (by simp) (by simp), fun _ => ok.synced (by simp)⟩
  cases writeLog with
  | true =>
      refine ⟨fun st' => ?_, fun emptied => absurd trivial emptied, ok⟩
      have same := accounts.messages st'
      simp only [pending, at_drain] at same
      exact same
  | false =>
      have nothing : l.ss = [] := accounts.clean (by simp [at_drain, Fills])
      exact accounts.moved (fun st' => by simp [pending, at_drain, nothing]) (fun st' => rfl) rfl rfl
        (fun _ => nothing) fun st' => ⟨rfl, ok st'⟩

theorem drain_accounts {writeLog : Bool} {front : LogMessage} {rest : List LogMessage}
    (accounts : Accounts l) (at_drain : l.pc = .drain st writeLog) (queue : l.queue st = front :: rest) :
    Accounts { l.setQueue st rest with ss := l.ss ++ [front], pc := .drain st true } := by
  refine ⟨fun st' => ?_, fun emptied => absurd trivial emptied, fun st' => ?_⟩
  · have same := accounts.messages st'
    simp only [pending, at_drain] at same
    by_cases here : st = st'
    · subst here
      rw [queue, if_pos rfl] at same
      simp only [pending, XrtcLog.setQueue, Function.update_self, if_true]
      rw [← List.append_assoc, List.append_assoc _ [front]]
      exact same
    · rw [if_neg here] at same
      simp only [pending, XrtcLog.setQueue, Function.update_of_ne (Ne.symm here), if_neg here]
      exact same
  · have ok := accounts.files st'
    rw [at_drain] at ok
    exact ⟨fun _ _ => ok.opened (by simp) (by simp), fun _ => ok.synced (by simp)⟩

theorem write_accounts (accounts : Accounts l) (at_write : l.pc = .write st) :
    Accounts { l.setOut st ((l.out st).put l.ss) with pc := .flush st } := by
  have ok : ∀ st', FileOk (.write st) st' (l.out st') := at_write ▸ accounts.files
  have isOpen := (ok st).opened (by simp) (by simp)
  have put : (l.out st).put l.ss = { l.out st with text := (l.out st).text ++ l.ss } := if_pos isOpen
  refine ⟨fun st' => ?_, fun emptied => absurd trivial emptied, ?_⟩
  · have same := accounts.messages st'
    simp only [pending, at_write] at same
    by_cases here : st = st'
    · subst here
      rw [if_pos rfl] at same
      simp only [pending, XrtcLog.setOut, Function.update_self, put, List.append_nil]
      exact same
    · rw [if_neg here] at same
      simp only [pending, XrtcLog.setOut, Function.update_of_ne (Ne.symm here)]
      exact same
  · refine setOut_forall (P := fun st' f => FileOk (.flush st) st' f) l st _ ?_ fun st' other => ?_
    · rw [put]
      exact ⟨fun _ _ => isOpen, fun done => absurd rfl done⟩
    · exact ⟨fun _ _ => (ok st').opened (by simp) (by simp), fun _ => (ok st').synced (by simp)⟩

theorem flush_accounts (accounts : Accounts l) (at_flush : l.pc = .flush st) :
    Accounts { l.setOut st (l.out st).flush with pc := .clear st } := by
  have ok : ∀ st', FileOk (.flush st) st' (l.out st') := at_flush ▸ accounts.files
  refine accounts.moved (fun st => by simp [pending, at_flush]) (fun _ => rfl) rfl rfl
    (fun emptied => absurd trivial emptied) ?_
  refine setOut_forall (P := fun st' f => f.text = (l.out st').text ∧ FileOk (.clear st) st' f) l st
    (l.out st).flush ⟨rfl, fun _ _ => (ok st).opened (by simp) (by simp), fun _ => rfl⟩
    fun st' other => ⟨rfl, ?_⟩
  exact ⟨fun _ _ => (ok st').opened (by simp) (by simp), fun _ => (ok st').synced (by simpa using Ne.symm other)⟩

theorem clear_accounts {next : WriterPc} (accounts : Accounts l) (at_clear : l.pc = .clear st)
    (quiet : next = .lock .wf ∨ next = .sleep) : Accounts { l with ss := [], pc := next } := by
  have ok : ∀ st', FileOk (.clear st) st' (l.out st') := at_clear ▸ accounts.files
  refine accounts.moved (fun st => by simp [pending, at_clear]) (fun st' => ?_) rfl rfl (fun _ => rfl)
    fun st' => ⟨rfl, fun _ _ => (ok st').opened (by simp) (by simp), fun _ => (ok st').synced (by simp)⟩
  rcases quiet with rfl | rfl <;> rfl

theorem sleep_accounts (accounts : Accounts l) (at_sleep : l.pc = .sleep) :
    Accounts { l with pc := .test } := by
  have ok : ∀ st', FileOk .sleep st' (l.out st') := at_sleep ▸ accounts.files
  exact accounts.moved (fun st => by simp [pending, at_sleep]) (fun _ => rfl) rfl rfl
    (fun _ => accounts.clean (by simp [at_sleep, Fills]))
    fun st' => ⟨rfl, fun _ _ => (ok st').opened (by simp) (by simp), fun _ => (ok st').synced (by simp)⟩

theorem close_accounts {next : WriterPc} (accounts : Accounts l) (at_close : l.pc = .close st)
    (ends : next = .close .wf ∨ next = .done) :
    Accounts { l.setOut st (l.out st).close with pc := next } := by
  have ok : ∀ st', FileOk (.close st) st' (l.out st') := at_close ▸ accounts.files
  have closing : next ≠ .close .wf → next ≠ .done → False := fun first second => ends.elim first second
  refine accounts.moved (fun st => by simp [pending, at_close]) (fun st' => ?_) rfl rfl
    (fun _ => accounts.clean (by simp [at_close, Fills])) ?_
  · rcases ends with rfl | rfl <;> rfl
  · refine setOut_forall (P := fun st' f => f.text = (l.out st').text ∧ FileOk next st' f) l st
      (l.out st).close ⟨rfl, fun first second => (closing first second).elim, fun _ => rfl⟩
      fun st' other => ⟨rfl, ?_⟩
    exact ⟨fun first second => (closing first second).elim, fun _ => (ok st').synced (by simp)⟩

theorem writer_accounts (accounts : Accounts l) (taken : l.writerStep fileThere = some l') : Accounts l' := by
  cases writerStep_move taken with
  | test here => exact test_accounts accounts here
  | stat fileThere here goes => exact stat_accounts accounts here goes
  | lock here _ => exact lock_accounts accounts here
  | unlock here _ => exact unlock_accounts accounts here
  | drain here queue => exact drain_accounts accounts here queue
  | write here => exact write_accounts accounts here
  | flush here => exact flush_accounts accounts here
  | clear here goes => exact clear_accounts accounts here (goes.imp And.right And.right)
  | sleep here => exact sleep_accounts accounts here
  | close here goes => exact close_accounts accounts here goes

/-! ## The callers -/

theorem callStep_inv (taken : l.callStep i = some l') :
    ∃ c, l.calls[i]? = some c ∧
      ((c.phase = .called ∧ l' = (l.setMtx c.severity.stream (some (.call i))).setPhase i c .locked) ∨
        (c.phase = .locked ∧
          l' = { (l.setQueue c.severity.stream (l.queue c.severity.stream ++ [⟨i, c.text⟩])).setPhase i c
              .pushed with pushes := l.pushes ++ [(c.severity, ⟨i, c.text⟩)] }) ∨
        (c.phase = .pushed ∧ l' = (l.setMtx c.severity.stream none).setPhase i c .returned)) := by
  unfold XrtcLog.callStep at taken
  split at taken
  · cases taken
  · next c found =>
      refine ⟨c, found, ?_⟩
      dsimp only at taken
      split at taken
      · next phase =>
          split at taken
          · exact .inl ⟨phase, (Option.some.inj taken).symm⟩
          · cases taken
      · next phase => exact .inr (.inl ⟨phase, (Option.some.inj taken).symm⟩)
      · next phase => exact .inr (.inr ⟨phase, (Option.some.inj taken).symm⟩)
      · cases taken

theorem Accounts.of_same (accounts : Accounts l) (pc : l'.pc = l.pc) (ss : l'.ss = l.ss)
    (queue : l'.queue = l.queue) (out : l'.out = l.out) (pushes : l'.pushes = l.pushes) : Accounts l' := by
  have same : ∀ st, pending l' st = pending l st := fun st => by rw [pending, pending, pc, ss]
  refine ⟨fun st => ?_, by rw [pc, ss]; exact accounts.clean, by rw [pc, out]; exact accounts.files⟩
  rw [same, out, queue, pushedTo, pushes]
  exact accounts.messages st

theorem pushedTo_push (severity : LoggingSeverity) (message : LogMessage) (st : LogStream) :
    pushedTo { l with pushes := l.pushes ++ [(severity, message)] } st =
      pushedTo l st ++ if severity.stream = st then [message] else [] := by
  simp only [pushedTo, List.filter_append, List.map_append, List.filter_singleton]
  by_cases here : severity.stream = st
  · simp [here]
  · simp [here]

theorem call_accounts (accounts : Accounts l) (taken : l.callStep i = some l') : Accounts l' := by
  obtain ⟨c, -, ⟨-, rfl⟩ | ⟨-, rfl⟩ | ⟨-, rfl⟩⟩ := callStep_inv taken
  · exact accounts.of_same rfl rfl rfl rfl rfl
  · refine ⟨fun st => ?_, accounts.clean, accounts.files⟩
    have same := accounts.messages st
    have added := pushedTo_push (l := l) c.severity ⟨i, c.text⟩ st
    change (l.out st).text ++ pending l st ++
      Function.update l.queue c.severity.stream (l.queue c.severity.stream ++ [⟨i, c.text⟩]) st = _
    refine Eq.trans ?_ added.symm
    rw [← same]
    by_cases here : c.severity.stream = st
    · rw [if_pos here, here, Function.update_self, List.append_assoc _ (l.queue st)]
    · rw [if_neg here, Function.update_of_ne (Ne.symm here), List.append_nil]
  · exact accounts.of_same rfl rfl rfl rfl rfl

/-! ## Runs -/

theorem start_inv (taken : l.step .start = some l') :
    l.pc = .idle ∧ l.stopping = .notCalled ∧ l' = { l with running := true, pc := .test } := by
  simp only [XrtcLog.step] at taken
  split at taken
  · next idle fresh => exact ⟨idle, fresh, (Option.some.inj taken).symm⟩
  · cases taken

theorem stop_inv (taken : l.step .stop = some l') :
    l.stopping = .notCalled ∧ l' = { l with stopping := .called l.returnedCalls } := by
  simp only [XrtcLog.step] at taken
  split at taken
  · next fresh => exact ⟨fresh, (Option.some.inj taken).symm⟩
  · cases taken

theorem store_inv (taken : l.step .store = some l') :
    ∃ before, l.stopping = .called before ∧
      l' = { l with running := false, stopping := .joining before l.pc l.queue } := by
  simp only [XrtcLog.step] at taken
  split at taken
  · next before called => exact ⟨before, called, (Option.some.inj taken).symm⟩
  · cases taken

theorem join_inv (taken : l.step .join = some l') :
    ∃ before pc queue, l.stopping = .joining before pc queue ∧ (l.pc = .done ∨ l.pc = .idle) ∧
      l' = { l with stopping := .returned before pc queue } := by
  simp only [XrtcLog.step] at taken
  split at taken
  · next before pc queue joining =>
      split at taken
      · next ended => exact ⟨before, pc, queue, joining, ended, (Option.some.inj taken).symm⟩
      · cases taken
  · cases taken

theorem Accounts.kept {label : LogLabel} (accounts : Accounts l) (taken : l.step label = some l') :
    Accounts l' := by
  cases label with
  | start =>
      obtain ⟨idle, -, rfl⟩ := start_inv taken
      have ok : ∀ st', FileOk .idle st' (l.out st') := idle ▸ accounts.files
      exact accounts.moved (fun st => by simp [pending, idle]) (fun _ => rfl) rfl rfl
        (fun _ => accounts.clean (by simp [idle, Fills]))
        fun st' => ⟨rfl, fun _ _ => (ok st').opened (by simp) (by simp), fun _ => (ok st').synced (by simp)⟩
  | onLogMessage text severity =>
      obtain rfl := Option.some.inj taken
      exact accounts.of_same rfl rfl rfl rfl rfl
  | call i => exact call_accounts accounts taken
  | writer fileThere => exact writer_accounts accounts taken
  | stop =>
      obtain ⟨-, rfl⟩ := stop_inv taken
      exact accounts.of_same rfl rfl rfl rfl rfl
  | store =>
      obtain ⟨before, -, rfl⟩ := store_inv taken
      exact accounts.of_same rfl rfl rfl rfl rfl
  | join =>
      obtain ⟨before, pc, queue, -, -, rfl⟩ := join_inv taken
      exact accounts.of_same rfl rfl rfl rfl rfl

theorem reachable_accounts (reachable : Reachable XrtcLog.step Always .new l) : Accounts l :=
  reachable.invariant new_accounts fun _ _ _ before _ taken => before.kept taken

/-- At every moment: the text in a file, the text on its way to it and the texts in its queue are
together the messages for it, in the order of their pushes. -/
theorem log_exact (l : XrtcLog) (reachable : Reachable XrtcLog.step Always .new l) :
    render (l.out .log).text ++ render (pending l .log) ++ render (l.queue .log) =
      render ((l.pushes.filter (·.1.value < LoggingSeverity.LS_WARNING.value)).map Prod.snd) ∧
    render (l.out .wf).text ++ render (pending l .wf) ++ render (l.queue .wf) =
      render ((l.pushes.filter (LoggingSeverity.LS_WARNING.value ≤ ·.1.value)).map Prod.snd) := by
  have accounts := reachable_accounts reachable
  have below : ∀ severity : LoggingSeverity,
      (severity.stream = .log) ↔ severity.value < LoggingSeverity.LS_WARNING.value := by
    intro severity
    cases severity <;> decide
  have above : ∀ severity : LoggingSeverity,
      (severity.stream = .wf) ↔ LoggingSeverity.LS_WARNING.value ≤ severity.value := by
    intro severity
    cases severity <;> decide
  have texts : ∀ a b c : List LogMessage, render a ++ render b ++ render c = render (a ++ b ++ c) := by
    intro a b c
    rw [render, render, render, render, List.flatMap_append, List.flatMap_append]
  constructor
  · rw [texts, accounts.messages, pushedTo]
    simp only [below]
  · rw [texts, accounts.messages, pushedTo]
    simp only [above]

/-- The second message is pushed while the writer, which has drained the first, is at the write. -/
theorem log_exact_between :
    ∃ l, Reachable XrtcLog.step Always .new l ∧ pending l .log = [⟨0, [104]⟩] ∧
      l.queue .log = [⟨1, [105]⟩] ∧
      render (l.out .log).text ++ render (pending l .log) ++ render (l.queue .log) =
        render ((l.pushes.filter (·.1.value < LoggingSeverity.LS_WARNING.value)).map Prod.snd) := by
  obtain ⟨l, reachable, holds⟩ := exists_reachable_of_runLabels XrtcLog.step always_sound .new
    [.onLogMessage [104] .LS_INFO, .call 0, .call 0, .call 0, .start, .writer true, .writer false, .writer true,
      .writer true, .writer true, .writer true, .onLogMessage [105] .LS_VERBOSE, .call 1, .call 1]
    (fun l => pending l .log = [⟨0, [104]⟩] ∧ l.queue .log = [⟨1, [105]⟩]) (by decide)
  obtain ⟨drained, queued⟩ := of_decide_eq_true holds
  exact ⟨l, reachable, drained, queued, (log_exact l reachable).1⟩

end Xrtc.Proof.Log
