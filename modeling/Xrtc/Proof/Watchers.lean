import Xrtc.Lib.Machine
import Xrtc.Lib.Matching
import Xrtc.Proof.Framing
import Xrtc.Proof.Table

/-!
# The connection table and the watchers

`Consistent` ties the table, the watchers of the event loop and the descriptor table together. Every
event of the worker keeps it, and in a consistent state no event meets a freed watcher, a closed
descriptor or an empty slot.
-/

namespace Xrtc.Proof.Watchers
open Server Base Lib Table

structure Serves (w : IOWatcher) (fd : Int) : Prop where
  fd_eq : w.fd = fd
  active : w.active = true
  reads : w.events.read = true

theorem Serves.start {w : IOWatcher} {fd : Int} (serves : Serves w fd) (mask : Mask) :
    Serves (w.start fd mask) fd := by
  unfold IOWatcher.start
  rw [if_pos serves.active]
  dsimp only
  split
  · exact serves
  · exact ⟨rfl, rfl, by simp [Mask.union, serves.reads]⟩

theorem Serves.stopWrite {w : IOWatcher} {fd : Int} (serves : Serves w fd) :
    Serves (w.stop fd Mask.WRITE) fd := by
  have reads : (w.events.diff Mask.WRITE).read = true := by simp [Mask.diff, Mask.WRITE, serves.reads]
  unfold IOWatcher.stop
  dsimp only
  split
  · exact serves
  · split
    · next nothing =>
        rw [nothing] at reads
        cases reads
    · exact ⟨rfl, rfl, reads⟩

structure Wired (w : SignalingWorker) : Prop where
  cfd : ∀ fd c, lookup w.conns fd = some c → c.obj.cfd = fd
  io : Matched (lookup w.conns) (·.obj.ioWatcher) w.el.io IOWatcher.fd
  timer : Matched (lookup w.conns) (·.obj.timerWatcher) w.el.timer TimerWatcher.cfd
  serves : ∀ i watcher, w.el.io i = some watcher → Serves watcher watcher.fd
  ticks : ∀ i t, w.el.timer i = some t → t.active = true
  fresh : ∀ i, w.el.fresh ≤ i → w.el.io i = none ∧ w.el.timer i = none

structure Consistent (h : Host) : Prop extends Wired h.worker where
  opened : ∀ fd c, lookup h.worker.conns fd = some c → h.fds fd ≠ none

structure SameIds (obj obj' : TcpConnection) : Prop where
  cfd : obj'.cfd = obj.cfd
  ioWatcher : obj'.ioWatcher = obj.ioWatcher
  timerWatcher : obj'.timerWatcher = obj.timerWatcher

theorem SameIds.refl (obj : TcpConnection) : SameIds obj obj := ⟨rfl, rfl, rfl⟩

theorem SameIds.trans {a b c : TcpConnection} (first : SameIds a b) (second : SameIds b c) :
    SameIds a c :=
  ⟨second.cfd.trans first.cfd, second.ioWatcher.trans first.ioWatcher,
    second.timerWatcher.trans first.timerWatcher⟩

theorem empty_wired : Wired SignalingWorker.empty := by
  have none_held : lookup SignalingWorker.empty.conns = fun _ => none := by
    funext fd
    simp [lookup, SignalingWorker.empty]
  constructor
  case cfd => intro fd c held; rw [none_held] at held; cases held
  case io => rw [none_held]; exact Matched.empty
  case timer => rw [none_held]; exact Matched.empty
  case serves => intro i w found; cases found
  case ticks => intro i t found; cases found
  case fresh => intro i _; exact ⟨rfl, rfl⟩

theorem start_consistent (fds : Int → Option Nat) : Consistent ⟨SignalingWorker.empty, fds⟩ where
  toWired := empty_wired
  opened fd c held := by simp [lookup, SignalingWorker.empty] at held

theorem startIoEvent_created (el : EventLoop) (memory : IOWatcher) (fd : Int) (mask : Mask) :
    (el.createIoEvent memory).1.startIoEvent el.fresh fd mask = .ok
      { el with io := Function.update el.io el.fresh (some ⟨fd, mask, true⟩), fresh := el.fresh + 1 } := by
  simp [EventLoop.createIoEvent, EventLoop.startIoEvent, IOWatcher.start]

theorem newConn_eq {w : SignalingWorker} {cfd : Int} (nonneg : 0 ≤ cfd) (addr origin now : Nat) :
    w.newConn cfd addr origin now = .ok
      ⟨{ io := Function.update w.el.io w.el.fresh (some ⟨cfd, Mask.READ, true⟩)
         timer := Function.update w.el.timer (w.el.fresh + 1) (some ⟨cfd, true⟩)
         fresh := w.el.fresh + 2 },
        (w.conns ++ List.replicate (cfd.toNat + 1 - w.conns.length) none).set cfd.toNat
          (some ⟨addr, origin, TcpConnection.new cfd w.el.fresh (w.el.fresh + 1) now⟩)⟩ := by
  have created : (w.el.createIoEvent IOWatcher.blank).2 = w.el.fresh := rfl
  simp [SignalingWorker.newConn, created, startIoEvent_created, EventLoop.createTimer,
    EventLoop.startTimer, Int.not_lt.2 nonneg, bind, Except.bind, pure, Except.pure]

theorem newConn_wired {w : SignalingWorker} {cfd : Int} (wired : Wired w) (nonneg : 0 ≤ cfd)
    (empty : lookup w.conns cfd = none) (addr origin now : Nat) :
    ∃ w' c, w.newConn cfd addr origin now = .ok w' ∧ Wired w' ∧
      lookup w'.conns = Function.update (lookup w.conns) cfd (some c) := by
  let conn : ConnPtr := ⟨addr, origin, TcpConnection.new cfd w.el.fresh (w.el.fresh + 1) now⟩
  refine ⟨_, conn, newConn_eq nonneg addr origin now, ?_, lookup_added nonneg _⟩
  have unused := (wired.fresh _ (le_refl w.el.fresh)).1
  have unused' := (wired.fresh _ (Nat.le_succ w.el.fresh)).2
  constructor
  all_goals simp only [lookup_added nonneg]
  case cfd =>
    intro fd c held
    rcases update_cases held with ⟨rfl, new⟩ | ⟨_, held⟩
    · cases new
      rfl
    · exact wired.cfd fd c held
  case io => exact wired.io.add (c := conn) (w := ⟨cfd, _, _⟩) empty unused rfl
  case timer => exact wired.timer.add (c := conn) (w := ⟨cfd, _⟩) empty unused' rfl
  case serves =>
    intro i watcher found
    rcases update_cases found with ⟨_, new⟩ | ⟨_, found⟩
    · cases new
      exact ⟨rfl, rfl, rfl⟩
    · exact wired.serves i watcher found
  case ticks =>
    intro i t found
    rcases update_cases found with ⟨_, new⟩ | ⟨_, found⟩
    · cases new
      rfl
    · exact wired.ticks i t found
  case fresh =>
    intro i beyond
    rw [Function.update_of_ne (by omega), Function.update_of_ne (by omega)]
    exact wired.fresh i (by omega)

theorem newConn_consistent {h : Host} {cfd : Int} (consistent : Consistent h) (nonneg : 0 ≤ cfd)
    (empty : lookup h.worker.conns cfd = none) (addr origin now : Nat) :
    ∃ worker, h.worker.newConn cfd addr origin now = .ok worker ∧
      Consistent ⟨worker, Function.update h.fds cfd (some origin)⟩ := by
  obtain ⟨worker, c, made, wired, added⟩ := newConn_wired consistent.toWired nonneg empty addr origin now
  refine ⟨worker, made, ⟨wired, fun fd c held => ?_⟩⟩
  dsimp only at held
  rw [added] at held
  rcases update_cases held with ⟨rfl, _⟩ | ⟨other, held⟩
  · simp
  · dsimp only
    rw [Function.update_of_ne other]
    exact consistent.opened fd c held

theorem removeConn_eq {w : SignalingWorker} {fd : Int} {c c' : ConnPtr} (wired : Wired w)
    (held : lookup w.conns fd = some c) (same : SameIds c.obj c'.obj) :
    w.removeConn c' = .ok ⟨{ w.el with
      io := Function.update w.el.io c.obj.ioWatcher none
      timer := Function.update w.el.timer c.obj.timerWatcher none }, w.conns.set fd.toNat none⟩ := by
  have cfd : c'.obj.cfd = fd := same.cfd.trans (wired.cfd fd c held)
  obtain ⟨watcher, foundIo, -⟩ := wired.io.owns fd c held
  obtain ⟨t, foundTimer, -⟩ := wired.timer.owns fd c held
  obtain ⟨nonneg, within⟩ := lookup_inRange held
  have inRange : ¬ (fd < 0 ∨ w.conns.length ≤ fd.toNat) := by omega
  simp [cfd, SignalingWorker.removeConn, same.timerWatcher, same.ioWatcher, EventLoop.deleteTimer,
    EventLoop.deleteIoEvent, foundIo, foundTimer, inRange, bind, Except.bind, pure, Except.pure]

theorem removeConn_wired {w : SignalingWorker} {fd : Int} {c c' : ConnPtr} (wired : Wired w)
    (held : lookup w.conns fd = some c) (same : SameIds c.obj c'.obj) :
    ∃ w', w.removeConn c' = .ok w' ∧ Wired w' ∧
      lookup w'.conns = Function.update (lookup w.conns) fd none := by
  refine ⟨_, removeConn_eq wired held same, ?_, lookup_set held _⟩
  constructor
  all_goals simp only [lookup_set held]
  case cfd =>
    intro fd' c₁ held'
    rcases update_cases held' with ⟨_, new⟩ | ⟨_, held'⟩
    · cases new
    · exact wired.cfd fd' c₁ held'
  case io => exact wired.io.remove held
  case timer => exact wired.timer.remove held
  case serves =>
    intro i watcher found
    rcases update_cases found with ⟨_, new⟩ | ⟨_, found⟩
    · cases new
    · exact wired.serves i watcher found
  case ticks =>
    intro i t' found
    rcases update_cases found with ⟨_, new⟩ | ⟨_, found⟩
    · cases new
    · exact wired.ticks i t' found
  case fresh =>
    intro i beyond
    obtain ⟨noIo, noTimer⟩ := wired.fresh i beyond
    simp only [Function.update_apply, noIo, noTimer, ite_self, and_self]

theorem closeConn_consistent {h : Host} {fd : Int} {c c' : ConnPtr} (consistent : Consistent h)
    (held : lookup h.worker.conns fd = some c) (same : SameIds c.obj c'.obj) :
    ∃ h', h.closeConn c' = .ok h' ∧ Consistent h' := by
  have cfd : c'.obj.cfd = fd := same.cfd.trans (consistent.cfd fd c held)
  obtain ⟨origin, opened⟩ := Option.ne_none_iff_exists'.1 (consistent.opened fd c held)
  obtain ⟨worker, removed, wired, emptied⟩ := removeConn_wired consistent.toWired held same
  refine ⟨⟨worker, Function.update h.fds fd none⟩, ?_, ⟨wired, fun fd' c₁ held' => ?_⟩⟩
  · simp [Host.closeConn, closeFd, cfd, opened, removed, bind, Except.bind, pure, Except.pure]
  · dsimp only at held'
    rw [emptied] at held'
    rcases update_cases held' with ⟨_, new⟩ | ⟨other, held'⟩
    · cases new
    · dsimp only
      rw [Function.update_of_ne other]
      exact consistent.opened fd' c₁ held'

theorem store_wired {w : SignalingWorker} {fd : Int} {c : ConnPtr} {watcher : IOWatcher} (wired : Wired w)
    (c' : ConnPtr) (held : lookup w.conns fd = some c) (same : SameIds c.obj c'.obj)
    (serves : Serves watcher fd) :
    Wired ({ w with el := { w.el with
      io := Function.update w.el.io c.obj.ioWatcher (some watcher) } }.store fd c') := by
  obtain ⟨w₀, found₀, -⟩ := wired.io.owns fd c held
  constructor
  all_goals simp only [SignalingWorker.store, lookup_set held]
  case cfd =>
    intro fd' c₁ held'
    rcases update_cases held' with ⟨rfl, new⟩ | ⟨_, held'⟩
    · cases new
      exact same.cfd.trans (wired.cfd fd' c held)
    · exact wired.cfd fd' c₁ held'
  case io => exact wired.io.change held same.ioWatcher serves.fd_eq
  case timer => exact wired.timer.change_entry held same.timerWatcher
  case serves =>
    intro i w' found
    rcases update_cases found with ⟨_, new⟩ | ⟨_, found⟩
    · cases new
      exact serves.fd_eq ▸ serves
    · exact wired.serves i w' found
  case ticks => exact wired.ticks
  case fresh =>
    intro i beyond
    obtain ⟨noIo, noTimer⟩ := wired.fresh i beyond
    refine ⟨?_, noTimer⟩
    show Function.update w.el.io c.obj.ioWatcher (some watcher) i = none
    rwa [Function.update_of_ne]
    rintro rfl
    cases noIo.symm.trans found₀

theorem storeObj_wired {w : SignalingWorker} {fd : Int} {c : ConnPtr} (wired : Wired w) (c' : ConnPtr)
    (held : lookup w.conns fd = some c) (same : SameIds c.obj c'.obj) : Wired (w.store fd c') := by
  obtain ⟨watcher, found, rfl⟩ := wired.io.owns fd c held
  have stored := store_wired wired c' held same (wired.serves _ watcher found)
  rwa [← found, Function.update_eq_self] at stored

theorem Consistent.stored {h : Host} {el : EventLoop} {fd : Int} {c c' : ConnPtr} (consistent : Consistent h)
    (held : lookup h.worker.conns fd = some c)
    (wired : Wired ({ h.worker with el := el }.store fd c')) :
    Consistent { h with worker := { h.worker with el := el }.store fd c' } := by
  refine ⟨wired, fun fd' c₁ held' => ?_⟩
  simp only [SignalingWorker.store, lookup_set held] at held'
  rcases update_cases held' with ⟨rfl, _⟩ | ⟨_, held'⟩
  · exact consistent.opened fd' c held
  · exact consistent.opened fd' c₁ held'

/-! ## The callbacks -/

theorem fill_sameIds {c c' : TcpConnection} {result : ReadResult} {now : Nat} {close : Bool}
    (filled : c.fill result now = some (c', close)) : SameIds c c' := by
  rw [Framing.fill_same filled]
  exact ⟨rfl, rfl, rfl⟩

theorem queryStep_same {c c' : TcpConnection} (step : c.queryStep = .header c') :
    c' = { c with
      bytesExpected := c'.bytesExpected
      bytesProcessed := c'.bytesProcessed
      currentState := c'.currentState } := by
  unfold TcpConnection.queryStep at step
  split at step
  · cases step
  · dsimp only at step
    split at step
    · split at step
      · cases step
      · cases step
        rfl
    · cases step

theorem queryStep_sameIds {c c' : TcpConnection} (step : c.queryStep = .header c') : SameIds c c' := by
  rw [queryStep_same step]
  exact ⟨rfl, rfl, rfl⟩

theorem process_same {request : Nat → List UInt8 → List UInt8 → Int} {c : TcpConnection}
    {calls : List Call} {fuel : Nat} {result : Int × TcpConnection × List Call}
    (done : processQueryBuffer request fuel c calls = some result) :
    result.2.1 = { c with
      bytesExpected := result.2.1.bytesExpected
      bytesProcessed := result.2.1.bytesProcessed
      currentState := result.2.1.currentState } := by
  induction fuel generalizing c calls with
  | zero => cases done
  | succ fuel ih =>
      rw [processQueryBuffer] at done
      cases step : c.queryStep with
      | done =>
          rw [step] at done
          cases done
          rfl
      | badMagic =>
          rw [step] at done
          cases done
          rfl
      | header c' =>
          rw [step] at done
          have later := ih done
          rw [queryStep_same step] at later
          exact later
      | request header body =>
          simp only [step] at done
          split at done
          · cases done
            rfl
          · have later := ih done
            exact later

theorem process_sameIds {request : Nat → List UInt8 → List UInt8 → Int} {c : TcpConnection}
    {calls : List Call} {fuel : Nat} {result : Int × TcpConnection × List Call}
    (done : processQueryBuffer request fuel c calls = some result) : SameIds c result.2.1 := by
  rw [process_same done]
  exact ⟨rfl, rfl, rfl⟩

theorem writeStep_same {c c' : TcpConnection} {reply : Slice} {rest : List Slice} {result : WriteResult}
    (stepped : c.writeStep reply rest result = some c') :
    c' = { c with replyList := c'.replyList, curRespPos := c'.curRespPos } := by
  unfold TcpConnection.writeStep at stepped
  dsimp only at stepped
  split_ifs at stepped <;> cases stepped <;> rfl

theorem writeLoop_same {results : List WriteResult} {c c' : TcpConnection} {close : Bool}
    (done : c.writeLoop results = some (c', close)) :
    c' = { c with replyList := c'.replyList, curRespPos := c'.curRespPos } := by
  induction results generalizing c with
  | nil =>
      unfold TcpConnection.writeLoop at done
      split at done
      · cases done
        rfl
      · cases done
  | cons result results ih =>
      unfold TcpConnection.writeLoop at done
      split at done
      · cases done
        rfl
      · dsimp only at done
        split at done
        · cases done
          rfl
        · next stepped =>
            have later := ih done
            rw [writeStep_same stepped] at later
            exact later

theorem writeLoop_sameIds {results : List WriteResult} {c c' : TcpConnection} {close : Bool}
    (done : c.writeLoop results = some (c', close)) : SameIds c c' := by
  rw [writeLoop_same done]
  exact ⟨rfl, rfl, rfl⟩

theorem idle_sameIds {results : List WriteResult} {c c' : TcpConnection} {close : Bool}
    (done : c.writeLoop results = some (c', close)) (now : Nat) :
    SameIds c { c' with lastInteraction := now } := by
  have same := writeLoop_sameIds done
  exact ⟨same.cfd, same.ioWatcher, same.timerWatcher⟩

def Safe {α : Type} (good : α → Prop) : Except Fault α → Prop
  | .ok a => good a
  | .error fault => fault = .brokenSds

theorem closeConn_safe {h : Host} {fd : Int} {c c' : ConnPtr} (consistent : Consistent h)
    (held : lookup h.worker.conns fd = some c) (same : SameIds c.obj c'.obj) :
    Safe Consistent (h.closeConn c') := by
  obtain ⟨h', closed, consistent'⟩ := closeConn_consistent consistent held same
  rw [closed]
  exact consistent'

theorem idle_wired {w : SignalingWorker} {fd : Int} {c : ConnPtr} {obj : TcpConnection} (wired : Wired w)
    (held : lookup w.conns fd = some c) (same : SameIds c.obj obj) :
    ∃ el, (if obj.replyList.isEmpty then w.el.stopIoEvent obj.ioWatcher obj.cfd Mask.WRITE else .ok w.el) =
      .ok el ∧ Wired ({ w with el := el }.store fd { c with obj := obj }) := by
  obtain ⟨watcher, found, rfl⟩ := wired.io.owns fd c held
  cases empty : obj.replyList.isEmpty with
  | true =>
      have cfd := same.cfd.trans (wired.cfd _ c held)
      refine ⟨_, ?_, store_wired wired _ held same (wired.serves _ watcher found).stopWrite⟩
      simp [EventLoop.stopIoEvent, same.ioWatcher, found, cfd]
  | false => exact ⟨w.el, rfl, storeObj_wired wired _ held same⟩

inductive ReadOutcome (h : Host) (fd : Int) (input : ReadInput) (now : Nat) (result : Except Fault Host) : Prop
  | missing (empty : lookup h.worker.conns fd = none) (unchanged : result = .ok h)
  | broken (faults : result = .error .brokenSds)
  | closed {c : ConnPtr} {obj : TcpConnection} (held : lookup h.worker.conns fd = some c)
      (same : SameIds c.obj obj) (closes : h.closeConn { c with obj := obj } = result)
  | stored {c : ConnPtr} {obj obj' : TcpConnection} {ret : Int} {calls : List Call}
      (held : lookup h.worker.conns fd = some c) (filled : c.obj.fill input.result now = some (obj, false))
      (processed : processQueryBuffer input.request input.fuel obj [] = some (ret, obj', calls))
      (stores : result = .ok { h with worker := h.worker.store fd { c with obj := obj' } })

theorem readQuery_outcome {h : Host} {fd : Int} {input : ReadInput} {now : Nat} {result : Except Fault Host}
    (done : h.readQuery fd input now = some result) : ReadOutcome h fd input now result := by
  unfold Host.readQuery at done
  cases held : lookup h.worker.conns fd with
  | none =>
      rw [held] at done
      exact .missing held (Option.some.inj done).symm
  | some c =>
      rw [held] at done
      cases filled : c.obj.fill input.result now with
      | none =>
          simp only [filled] at done
          exact .broken (Option.some.inj done).symm
      | some pair =>
          obtain ⟨obj, close⟩ := pair
          simp only [filled] at done
          cases close with
          | true => exact .closed held (fill_sameIds filled) (Option.some.inj done)
          | false =>
              simp only [Host.afterFill] at done
              cases processed : processQueryBuffer input.request input.fuel obj [] with
              | none =>
                  rw [processed] at done
                  cases done
              | some triple =>
                  obtain ⟨ret, obj', calls⟩ := triple
                  have same := (fill_sameIds filled).trans (process_sameIds processed)
                  rw [processed] at done
                  dsimp only at done
                  split at done
                  · exact .closed held same (Option.some.inj done)
                  · exact .stored held filled processed (Option.some.inj done).symm

theorem readQuery_safe {h : Host} {fd : Int} {input : ReadInput} {now : Nat} {result : Except Fault Host}
    (consistent : Consistent h) (done : h.readQuery fd input now = some result) :
    Safe Consistent result := by
  cases readQuery_outcome done with
  | missing empty unchanged =>
      rw [unchanged]
      exact consistent
  | broken faults =>
      rw [faults]
      rfl
  | closed held same closes =>
      rw [← closes]
      exact closeConn_safe consistent held same
  | stored held filled processed stores =>
      rw [stores]
      exact consistent.stored held
        (storeObj_wired consistent.toWired _ held ((fill_sameIds filled).trans (process_sameIds processed)))

theorem writeReply_safe {h : Host} {fd : Int} {results : List WriteResult} {now : Nat}
    {result : Except Fault Host} (consistent : Consistent h)
    (done : h.writeReply fd results now = some result) : Safe Consistent result := by
  unfold Host.writeReply at done
  split at done
  · cases done
    exact consistent
  · cases held : lookup h.worker.conns fd with
    | none =>
        rw [held] at done
        cases done
        exact consistent
    | some c =>
        rw [held] at done
        dsimp only at done
        cases wrote : c.obj.writeLoop results with
        | none =>
            rw [wrote] at done
            cases done
        | some pair =>
            obtain ⟨obj, close⟩ := pair
            have same := writeLoop_sameIds wrote
            rw [wrote] at done
            cases close with
            | true =>
                cases done
                exact closeConn_safe consistent held same
            | false =>
                obtain ⟨el, stopped, wired⟩ := idle_wired consistent.toWired held (idle_sameIds wrote now)
                obtain rfl := Option.some.inj done
                have good := consistent.stored held wired
                unfold Host.finishWrite
                dsimp only at stopped ⊢
                split at stopped
                · next empty => rwa [if_pos empty, stopped]
                · next pending =>
                    cases stopped
                    rwa [if_neg pending]

theorem processTimeout_safe {h : Host} {fd : Int} {timeout : Int} {now : Nat} (consistent : Consistent h)
    (inUse : lookup h.worker.conns fd ≠ none) : Safe Consistent (h.processTimeout timeout fd now) := by
  obtain ⟨c, held⟩ := Option.ne_none_iff_exists'.1 inUse
  unfold Host.processTimeout
  rw [held]
  dsimp only
  split
  · exact closeConn_safe consistent held (SameIds.refl _)
  · exact consistent

theorem readable_safe {h : Host} {fd : Int} {read : Option ReadInput} {now : Nat}
    {result : Except Fault Host} (consistent : Consistent h)
    (done : h.readable fd read now = some result) : Safe Consistent result := by
  cases read with
  | none =>
      cases done
      exact consistent
  | some input => exact readQuery_safe consistent done

/-- The write half finds no slot when the read half has closed the connection. -/
theorem connIoCb_safe {h : Host} {fd : Int} {read : Option ReadInput}
    {write : Option (List WriteResult)} {now : Nat} {result : Except Fault Host}
    (consistent : Consistent h) (done : h.connIoCb fd read write now = some result) :
    Safe Consistent result := by
  unfold Host.connIoCb at done
  split at done
  · next h' first =>
      have consistent' : Consistent h' := readable_safe consistent first
      cases write with
      | none =>
          cases done
          exact consistent'
      | some results => exact writeReply_safe consistent' done
  · exact readable_safe consistent done

theorem responseServerOffer_wired {V W : Type} {w : SignalingWorker} (wired : Wired w) (json : Json V)
    (msg : RtcMsg W) (mem : Nat → UInt8) :
    ∃ w', w.responseServerOffer json msg mem = .ok w' ∧ Wired w' ∧
      ∀ fd, lookup w'.conns fd ≠ none → lookup w.conns fd ≠ none := by
  unfold SignalingWorker.responseServerOffer
  cases target : w.offerTarget msg with
  | none => exact ⟨_, rfl, wired, fun _ => id⟩
  | some c =>
      have held := offerTarget_held target
      obtain ⟨watcher, found, at_fd⟩ := wired.io.owns _ c held
      have serves := at_fd ▸ wired.serves _ watcher found
      have cfd := wired.cfd _ c held
      let obj := { c.obj with replyList := c.obj.replyList ++
        [SignalingWorker.encodeReply json c.obj.querybuf.buf msg.resRoot mem] }
      have stored := store_wired wired { c with obj := obj } held ⟨rfl, rfl, rfl⟩ (serves.start Mask.WRITE)
      refine ⟨_, ?_, stored, fun fd inUse => ?_⟩
      · simp [SignalingWorker.addReply, EventLoop.startIoEvent, found, cfd, obj, bind, Except.bind, pure,
          Except.pure]
      · simp only [SignalingWorker.store, lookup_set held] at inUse
        by_cases here : fd = msg.fd
        · rw [here, held]
          simp
        · rwa [Function.update_of_ne here] at inUse

theorem responseServerOffer_safe {V W : Type} {h : Host} (consistent : Consistent h) (json : Json V)
    (msg : RtcMsg W) (mem : Nat → UInt8) :
    ∃ worker, h.worker.responseServerOffer json msg mem = .ok worker ∧
      Consistent { h with worker := worker } := by
  obtain ⟨worker, offered, wired, slots⟩ := responseServerOffer_wired consistent.toWired json msg mem
  refine ⟨worker, offered, ⟨wired, fun fd c held => ?_⟩⟩
  obtain ⟨c', held'⟩ := Option.ne_none_iff_exists'.1 (slots fd (by simp [held]))
  exact consistent.opened fd c' held'

/-! ## Runs of the worker -/

/-- `new_conn` is called with a descriptor that was just accepted and that the worker does not hold. -/
def Admits {W : Type} (h : Host) : WorkerEvent W → Prop
  | .newConn cfd _ _ _ => 0 ≤ cfd ∧ lookup h.worker.conns cfd = none
  | _ => True

def admitted {W : Type} (h : Host) : WorkerEvent W → Bool
  | .newConn cfd _ _ _ => decide (0 ≤ cfd) && (lookup h.worker.conns cfd).isNone
  | _ => true

theorem admits_of_admitted {W : Type} (h : Host) (e : WorkerEvent W) (passed : admitted h e = true) :
    Admits h e := by
  cases e with
  | newConn => simpa [admitted, Admits] using passed
  | _ => trivial

theorem event_safe {V W : Type} {json : Json V} {timeout : Int} {h : Host} {e : WorkerEvent W}
    {result : Except Fault Host} (consistent : Consistent h) (admitted : Admits h e)
    (done : h.event json timeout e = some result) : Safe Consistent result := by
  cases e with
  | newConn cfd addr origin now =>
      obtain ⟨worker, made, consistent'⟩ :=
        newConn_consistent consistent admitted.1 admitted.2 addr origin now
      simp only [Host.event, made] at done
      obtain rfl := Option.some.inj done
      exact consistent'
  | io watcher read write now =>
      simp only [Host.event] at done
      split at done
      · cases done
      · split at done
        · exact connIoCb_safe consistent done
        · cases done
  | timer watcher now =>
      simp only [Host.event] at done
      split at done
      · cases done
      · next t found =>
          split at done
          · obtain rfl := Option.some.inj done
            exact processTimeout_safe consistent (consistent.timer.held_of_live found)
          · cases done
  | offer msg mem =>
      obtain ⟨worker, made, consistent'⟩ :=
        responseServerOffer_safe consistent json msg mem
      simp only [Host.event, made] at done
      obtain rfl := Option.some.inj done
      exact consistent'
  | close cfd =>
      simp only [Host.event] at done
      split at done
      · cases done
      · next c held =>
          obtain rfl := Option.some.inj done
          exact closeConn_safe consistent held (SameIds.refl _)

theorem reachable_consistent {V W : Type} {json : Json V} {timeout : Int} {fds : Int → Option Nat}
    {h : Host} (reachable : Reachable (Host.step (W := W) json timeout) Admits ⟨SignalingWorker.empty, fds⟩ h) :
    Consistent h := by
  refine reachable.invariant (start_consistent fds) fun h h' e consistent admitted taken => ?_
  unfold Host.step at taken
  split at taken
  · next result =>
      obtain rfl := Option.some.inj taken
      exact event_safe consistent admitted result
  · cases taken

/-- Between the events of any run, a slot is in use exactly when one io watcher and one timer wait
for its descriptor; and no event of the run meets an empty slot, a freed watcher or a closed
descriptor. -/
theorem table_matches_watchers {V W : Type} (json : Json V) (timeout : Int) (fds : Int → Option Nat)
    (h : Host)
    (reachable : Reachable (Host.step (W := W) json timeout) Admits ⟨SignalingWorker.empty, fds⟩ h) :
    (∀ fd, (lookup h.worker.conns fd ≠ none ↔
        (∃! i, ∃ w, h.worker.el.io i = some w ∧ w.fd = fd) ∧
          ∃! i, ∃ t, h.worker.el.timer i = some t ∧ t.cfd = fd) ∧
      ∀ c, lookup h.worker.conns fd = some c →
        c.obj.cfd = fd ∧ h.fds fd ≠ none ∧
        (∃ w, h.worker.el.io c.obj.ioWatcher = some w ∧ Serves w fd) ∧
        ∃ t, h.worker.el.timer c.obj.timerWatcher = some t ∧ t.cfd = fd ∧ t.active = true) ∧
    (∀ (e : WorkerEvent W) fault, Admits h e → h.event json timeout e = some (.error fault) →
      fault = .brokenSds) := by
  have consistent := reachable_consistent reachable
  refine ⟨fun fd => ⟨⟨fun inUse => ?_, fun live => ?_⟩, fun c held => ?_⟩, fun e fault admitted done => ?_⟩
  · exact ⟨consistent.io.held_iff_existsUnique.1 inUse, consistent.timer.held_iff_existsUnique.1 inUse⟩
  · exact consistent.io.held_iff_existsUnique.2 live.1
  · obtain ⟨w, foundIo, rfl⟩ := consistent.io.owns fd c held
    obtain ⟨t, foundTimer, at_fd⟩ := consistent.timer.owns _ c held
    exact ⟨consistent.cfd _ c held, consistent.opened _ c held,
      ⟨w, foundIo, consistent.serves _ w foundIo⟩, t, foundTimer, at_fd, consistent.ticks _ t foundTimer⟩
  · exact event_safe consistent admitted done

/-- Two clients connect, and the first one, which has sent a request, gets its reply into the list. -/
def repliedTo : List (WorkerEvent Unit) :=
  [.newConn 5 100 0 0, .newConn 6 101 1 0,
    .io 0 (some ⟨.received (List.replicate 24 0 ++ leBytes 4 xheadMagicNum.toNat ++ List.replicate 4 0 ++ leBytes 4 11),
      fun _ _ _ => 0, 3⟩) none 0,
    .io 0 (some ⟨.received pushText, fun _ _ _ => 0, 3⟩) none 0,
    .offer { conn := some 100, fd := 5 } fun _ => 0]

/-- It goes away, and the callback for input and output closes its connection before it comes to `write_reply`. -/
def departs : WorkerEvent Unit := .io 0 (some ⟨.received [], fun _ _ _ => 0, 3⟩) (some [.wrote 1]) 0

theorem table_matches_watchers_departed : ∃ (h h' : Host) (w : IOWatcher),
    Reachable (Host.step (W := Unit) Json.sample 1000) Admits ⟨SignalingWorker.empty, fun _ => none⟩ h' ∧
    h.worker.el.io 0 = some w ∧ w.monitored = ⟨true, true⟩ ∧ h.step Json.sample 1000 departs = some h' ∧
    lookup h.worker.conns 5 ≠ none ∧ lookup h'.worker.conns 5 = none ∧ lookup h'.worker.conns 6 ≠ none ∧
    (∃! i, ∃ w, h'.worker.el.io i = some w ∧ w.fd = 6) ∧
    ¬ ((∃! i, ∃ w, h'.worker.el.io i = some w ∧ w.fd = 5) ∧ ∃! i, ∃ t, h'.worker.el.timer i = some t ∧ t.cfd = 5) := by
  obtain ⟨h, reachable, holds⟩ := exists_reachable_of_runLabels
    (Host.step (W := Unit) Json.sample 1000) admits_of_admitted
    ⟨SignalingWorker.empty, fun _ => none⟩ repliedTo
    (fun h => (h.worker.el.io 0).any (fun w => w.monitored = ⟨true, true⟩) && (lookup h.worker.conns 5).isSome &&
      (h.step Json.sample 1000 departs).any fun h' =>
        (lookup h'.worker.conns 5).isNone && (lookup h'.worker.conns 6).isSome)
    (by decide +kernel)
  simp only [Bool.and_eq_true, Option.any_eq_true, decide_eq_true_eq, Option.isNone_iff_eq_none,
    Option.isSome_iff_ne_none] at holds
  obtain ⟨⟨⟨w, found, both⟩, before⟩, h', taken, gone, stays⟩ := holds
  have reachable' := Reachable.next reachable (l := departs) trivial taken
  have results := table_matches_watchers (W := Unit) _ _ _ h' reachable'
  exact ⟨h, h', w, reachable', found, both, taken, before, gone, stays, ((results.1 6).1.1 stays).1,
    fun live => (results.1 5).1.2 live gone⟩

end Xrtc.Proof.Watchers
