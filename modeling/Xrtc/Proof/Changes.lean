import Xrtc.Proof.Outgoing
import Xrtc.Proof.Watchers

/-!
# What an event does to the connections

Every event of a worker is a sequence of the changes listed in `Change`.
-/

namespace Xrtc.Proof.Changes
open Server Base Lib Table Watchers

structure SameReplies (obj obj' : TcpConnection) : Prop where
  replyList : obj'.replyList = obj.replyList
  curRespPos : obj'.curRespPos = obj.curRespPos

theorem fill_sameReplies {c c' : TcpConnection} {result : ReadResult} {now : Nat} {close : Bool}
    (filled : c.fill result now = some (c', close)) : SameReplies c c' := by
  rw [Framing.fill_same filled]
  exact ⟨rfl, rfl⟩

theorem process_sameReplies {request : Nat → List UInt8 → List UInt8 → Int} {c : TcpConnection}
    {calls : List Call} {fuel : Nat} {result : Int × TcpConnection × List Call}
    (done : processQueryBuffer request fuel c calls = some result) : SameReplies c result.2.1 := by
  rw [process_same done]
  exact ⟨rfl, rfl⟩

theorem SameReplies.trans {a b c : TcpConnection} (first : SameReplies a b) (second : SameReplies b c) :
    SameReplies a c :=
  ⟨second.replyList.trans first.replyList, second.curRespPos.trans first.curRespPos⟩

/-- Slot `fd` changes without a reply being added or finished. -/
inductive Quiet (fd : Int) (w : SignalingWorker) : SignalingWorker → Prop
  | same : Quiet fd w w
  | read {c : ConnPtr} {obj : TcpConnection} (held : lookup w.conns fd = some c) (ids : SameIds c.obj obj)
      (replies : SameReplies c.obj obj) : Quiet fd w (w.store fd { c with obj := obj })
  | removed {c c' : ConnPtr} {w' : SignalingWorker} (held : lookup w.conns fd = some c)
      (ids : SameIds c.obj c'.obj) (made : w.removeConn c' = .ok w') : Quiet fd w w'

inductive Change (w : SignalingWorker) : SignalingWorker → Prop
  | quiet {fd : Int} {w' : SignalingWorker} (quiet : Quiet fd w w') : Change w w'
  | opened {cfd : Int} {addr origin now : Nat} {w' : SignalingWorker} (nonneg : 0 ≤ cfd)
      (empty : lookup w.conns cfd = none) (made : w.newConn cfd addr origin now = .ok w') : Change w w'
  | added {fd : Int} {c : ConnPtr} {reply : Slice} {w' : SignalingWorker} (positive : 0 < fd)
      (held : lookup w.conns fd = some c) (made : w.addReply c reply = .ok w') : Change w w'
  | drained {fd : Int} {c : ConnPtr} {results : List WriteResult} {obj : TcpConnection} {now : Nat}
      {el : EventLoop} (positive : 0 < fd) (held : lookup w.conns fd = some c)
      (loop : c.obj.writeLoop results = some (obj, false))
      (stopped : w.el.stopIoEvent obj.ioWatcher obj.cfd Mask.WRITE = .ok el) :
      Change w ({ w with el := el }.store fd { c with obj := { obj with lastInteraction := now } })

abbrev Chain : SignalingWorker → SignalingWorker → Prop := Relation.ReflTransGen Change

theorem closeConn_inv {h h' : Host} {c : ConnPtr} (closed : h.closeConn c = .ok h') :
    h.worker.removeConn c = .ok h'.worker := by
  obtain ⟨fds, -, closed⟩ := bind_eq_ok closed
  obtain ⟨worker, removed, closed⟩ := bind_eq_ok closed
  cases closed
  exact removed

theorem closeConn_quiet {h h' : Host} {fd : Int} {c c' : ConnPtr} (held : lookup h.worker.conns fd = some c)
    (ids : SameIds c.obj c'.obj) (closed : h.closeConn c' = .ok h') : Quiet fd h.worker h'.worker :=
  .removed held ids (closeConn_inv closed)

theorem readQuery_quiet {h h' : Host} {fd : Int} {input : ReadInput} {now : Nat}
    (done : h.readQuery fd input now = some (.ok h')) : Quiet fd h.worker h'.worker := by
  cases readQuery_outcome done with
  | missing empty unchanged =>
      cases unchanged
      exact .same
  | broken faults => cases faults
  | closed held same closes => exact closeConn_quiet held same closes
  | stored held filled processed stores =>
      cases stores
      exact .read held ((fill_sameIds filled).trans (process_sameIds processed))
        ((fill_sameReplies filled).trans (process_sameReplies processed))

theorem writeReply_outcome {h h' : Host} {fd : Int} {results : List WriteResult} {now : Nat}
    (done : h.writeReply fd results now = some (.ok h')) :
    ((fd ≤ 0 ∨ lookup h.worker.conns fd = none) ∧ h' = h) ∨
    (0 < fd ∧ ∃ c obj, lookup h.worker.conns fd = some c ∧ c.obj.writeLoop results = some (obj, true) ∧
      h.closeConn { c with obj := obj } = .ok h') ∨
    (0 < fd ∧ ∃ c obj el, lookup h.worker.conns fd = some c ∧
      c.obj.writeLoop results = some (obj, false) ∧
      h.worker.el.stopIoEvent obj.ioWatcher obj.cfd Mask.WRITE = .ok el ∧
      h' = { h with
        worker := { h.worker with el := el }.store fd
          { c with obj := { obj with lastInteraction := now } } }) := by
  unfold Host.writeReply at done
  split at done
  · next low =>
      cases done
      exact .inl ⟨.inl low, rfl⟩
  · next positive =>
      cases held : lookup h.worker.conns fd with
      | none =>
          rw [held] at done
          cases done
          exact .inl ⟨.inr rfl, rfl⟩
      | some c =>
          refine .inr ?_
          simp only [held] at done
          cases loop : c.obj.writeLoop results with
          | none =>
              rw [loop] at done
              cases done
          | some pair =>
              obtain ⟨obj, close⟩ := pair
              rw [loop] at done
              cases close with
              | true => exact .inl ⟨Int.not_le.1 positive, c, obj, rfl, loop, Option.some.inj done⟩
              | false =>
                  have finished : obj.replyList = [] := Outgoing.writeLoop_finished loop
                  have returned : h.finishWrite fd c now (obj, false) = .ok h' := Option.some.inj done
                  unfold Host.finishWrite at returned
                  dsimp only at returned
                  rw [if_pos (by simp [finished])] at returned
                  obtain ⟨el, stopped, done⟩ := bind_eq_ok returned
                  exact .inr ⟨Int.not_le.1 positive, c, obj, el, rfl, loop, stopped, (Except.ok.inj done).symm⟩

theorem writeReply_changes {h h' : Host} {fd : Int} {results : List WriteResult} {now : Nat}
    (done : h.writeReply fd results now = some (.ok h')) : Change h.worker h'.worker := by
  obtain ⟨-, rfl⟩ | ⟨-, c, obj, held, loop, closed⟩ | ⟨positive, c, obj, el, held, loop, stopped, rfl⟩ :=
    writeReply_outcome done
  · exact .quiet ((.same : Quiet fd _ _))
  · exact .quiet (closeConn_quiet held (writeLoop_sameIds loop) closed)
  · exact .drained positive held loop stopped

theorem readable_quiet {h h' : Host} {fd : Int} {read : Option ReadInput} {now : Nat}
    (done : h.readable fd read now = some (.ok h')) : Quiet fd h.worker h'.worker := by
  cases read with
  | none =>
      cases done
      exact .same
  | some input => exact readQuery_quiet done

theorem connIoCb_changes {h h' : Host} {fd : Int} {read : Option ReadInput}
    {write : Option (List WriteResult)} {now : Nat} (done : h.connIoCb fd read write now = some (.ok h')) :
    Chain h.worker h'.worker := by
  unfold Host.connIoCb at done
  split at done
  · next h₁ first =>
      have reads := Relation.ReflTransGen.single (Change.quiet (readable_quiet first))
      cases write with
      | none =>
          cases done
          exact reads
      | some results => exact reads.tail (writeReply_changes done)
  · exact .single (.quiet (readable_quiet done))

theorem processTimeout_quiet {h h' : Host} {timeout cfd : Int} {now : Nat}
    (done : h.processTimeout timeout cfd now = .ok h') : Quiet cfd h.worker h'.worker := by
  unfold Host.processTimeout at done
  split at done
  · cases done
  · next c held =>
      split at done
      · exact closeConn_quiet held (SameIds.refl _) done
      · cases done
        exact .same

theorem offerTarget_positive {W : Type} {w : SignalingWorker} {msg : RtcMsg W} {c : ConnPtr}
    (target : w.offerTarget msg = some c) : 0 < msg.fd := by
  unfold SignalingWorker.offerTarget at target
  split at target
  · cases target
  · split at target
    · cases target
    · next positive => exact Int.not_le.1 positive

theorem offer_changes {V W : Type} {json : Json V} {w w' : SignalingWorker} {msg : RtcMsg W}
    {mem : Nat → UInt8} (offered : w.responseServerOffer json msg mem = .ok w') : Chain w w' := by
  obtain ⟨-, rfl⟩ | ⟨c, reply, target, added⟩ := responseServerOffer_inv offered
  · exact .refl
  · exact .single (.added (offerTarget_positive target) (offerTarget_held target) added)

section Events

variable {V W : Type} {json : Json V} {timeout : Int} {h h' : Host}

theorem newConn_made {cfd : Int} {addr origin now : Nat}
    (done : h.event json timeout (.newConn cfd addr origin now : WorkerEvent W) = some (.ok h')) :
    h.worker.newConn cfd addr origin now = .ok h'.worker := by
  obtain ⟨worker, made, done⟩ := bind_eq_ok (Option.some.inj done)
  cases done
  exact made

theorem offer_made {msg : RtcMsg W} {mem : Nat → UInt8}
    (done : h.event json timeout (.offer msg mem) = some (.ok h')) :
    h.worker.responseServerOffer json msg mem = .ok h'.worker := by
  obtain ⟨worker, made, done⟩ := bind_eq_ok (Option.some.inj done)
  cases done
  exact made

theorem timer_quiet {watcher now : Nat} {t : TimerWatcher} (found : h.worker.el.timer watcher = some t)
    (done : h.event json timeout (.timer watcher now : WorkerEvent W) = some (.ok h')) :
    Quiet t.cfd h.worker h'.worker := by
  simp only [Host.event, found] at done
  split at done
  · exact processTimeout_quiet (Option.some.inj done)
  · cases done

theorem close_quiet {cfd : Int} (done : h.event json timeout (.close cfd : WorkerEvent W) = some (.ok h')) :
    Quiet cfd h.worker h'.worker := by
  simp only [Host.event] at done
  split at done
  · cases done
  · next c held => exact closeConn_quiet held (SameIds.refl _) (Option.some.inj done)

theorem event_changes {e : WorkerEvent W} (admitted : Admits h e)
    (done : h.event json timeout e = some (.ok h')) : Chain h.worker h'.worker := by
  cases e with
  | newConn cfd addr origin now => exact .single (.opened admitted.1 admitted.2 (newConn_made done))
  | io watcher read write now =>
      simp only [Host.event] at done
      split at done
      · cases done
      · split at done
        · exact connIoCb_changes done
        · cases done
  | timer watcher now =>
      cases found : h.worker.el.timer watcher with
      | none => simp [Host.event, found] at done
      | some t => exact .single (.quiet (timer_quiet found done))
  | offer msg mem => exact offer_changes (offer_made done)
  | close cfd => exact .single (.quiet (close_quiet done))

end Events

/-- An invariant of wired workers that every change keeps holds after an event. -/
theorem Chain.preserves {Inv : SignalingWorker → Prop} {w w' : SignalingWorker}
    (kept : ∀ w w', Wired w → Inv w → Change w w' → Wired w' ∧ Inv w') (wired : Wired w) (holds : Inv w)
    (chain : Chain w w') : Wired w' ∧ Inv w' := by
  induction chain with
  | refl => exact ⟨wired, holds⟩
  | tail _ change ih => exact kept _ _ ih.1 ih.2 change

end Xrtc.Proof.Changes
