import Xrtc.Proof.Outgoing
import Xrtc.Proof.Parsing
import Xrtc.Proof.Reply

/-!
# What the stream of one connection determines

The buffer of a connection only grows, and what was read from its front stays as it was: the request
that was dispatched, and the header of every reply. Nothing here bounds `body_len`; a run that leaves
the model ends there.
-/

namespace Xrtc.Proof.Received
open Server Base Lib Parsing Framing

variable {V : Type} {json : Json V} {root : ResRoot} {p p' : Parsing} {e : ParsingEvent}

theorem fill_grows {c c' : TcpConnection} {result : ReadResult} {now : Nat} {close : Bool}
    (filled : c.fill result now = some (c', close)) : c.querybuf.buf <+: c'.querybuf.buf := by
  cases close with
  | false =>
      obtain ⟨-, data, -, -, buf, -⟩ := fill_read filled
      exact ⟨data, buf.symm⟩
  | true => rw [fill_close filled]

theorem encodeReply_grows {buf buf' : List UInt8} (header : HasHeader buf) (grows : buf <+: buf')
    (mem : Nat → UInt8) :
    SignalingWorker.encodeReply json buf' root mem = SignalingWorker.encodeReply json buf root mem := by
  obtain ⟨more, rfl⟩ := grows
  rw [SignalingWorker.encodeReply, SignalingWorker.encodeReply, slice_append_left (by exact header.1)]

/-- The fields of the parser, for a stream of any length. -/
structure Placed (p : Parsing) : Prop where
  head : p.obj.currentState = .head →
    p.obj.bytesProcessed = 0 ∧ p.obj.bytesExpected = xheadSize ∧ p.dispatched = 0
  body : p.obj.currentState = .body → HasHeader p.obj.querybuf.buf ∧
    p.obj.bytesExpected = bodyLen p.obj.querybuf.buf ∧ xheadSize ≤ p.obj.bytesProcessed

/-- Every reply that waits was made from the header of the stream and from `root`. -/
def Answers (json : Json V) (root : ResRoot) (p : Parsing) : Prop :=
  ∀ reply ∈ p.obj.replyList, HasHeader p.obj.querybuf.buf ∧
    ∃ mem, reply = SignalingWorker.encodeReply json p.obj.querybuf.buf root mem

theorem Placed.grown (placed : Placed p) (grows : p.obj.querybuf.buf <+: p'.obj.querybuf.buf)
    (state : p'.obj.currentState = p.obj.currentState) (processed : p'.obj.bytesProcessed = p.obj.bytesProcessed)
    (expected : p'.obj.bytesExpected = p.obj.bytesExpected) (dispatched : p'.dispatched = p.dispatched) :
    Placed p' where
  head here := by
    rw [processed, expected, dispatched]
    exact placed.head (state.symm.trans here)
  body here := by
    obtain ⟨header, asks, behind⟩ := placed.body (state.symm.trans here)
    obtain ⟨more, buf⟩ := grows
    rw [← buf, bodyLen_append header.1, processed, expected]
    exact ⟨hasHeader_append header, asks, behind⟩

theorem Answers.grown (answers : Answers json root p) (grows : p.obj.querybuf.buf <+: p'.obj.querybuf.buf)
    (fewer : p'.obj.replyList <:+ p.obj.replyList) : Answers json root p' := by
  intro reply member
  obtain ⟨header, mem, made⟩ := answers reply (fewer.subset member)
  obtain ⟨more, buf⟩ := grows
  refine ⟨buf ▸ hasHeader_append header, mem, ?_⟩
  rw [made, ← buf, encodeReply_grows header ⟨more, rfl⟩]

theorem queryStep_header_inv {c c' : TcpConnection} (step : c.queryStep = .header c') :
    c.currentState = .head ∧ c.bytesProcessed + c.bytesExpected ≤ c.querybuf.buf.length ∧
      xheadMagicNum = (Xhead.view c.querybuf.buf).magicNum ∧ c' = { c with
        currentState := .body
        bytesProcessed := c.bytesProcessed + xheadSize
        bytesExpected := bodyLen c.querybuf.buf } := by
  unfold TcpConnection.queryStep at step
  split at step
  · cases step
  · next enough =>
      dsimp only at step
      split at step
      · next state =>
          split at step
          · cases step
          · next magic =>
              cases step
              exact ⟨state, Nat.not_lt.1 enough, not_not.1 magic, rfl⟩
      · cases step

theorem queryStep_request_inv {c : TcpConnection} {header body : List UInt8}
    (step : c.queryStep = .request header body) :
    c.currentState = .body ∧ c.bytesProcessed + c.bytesExpected ≤ c.querybuf.buf.length ∧
      (header, body) = requestOf c.querybuf.buf := by
  unfold TcpConnection.queryStep at step
  split at step
  · cases step
  · next enough =>
      dsimp only at step
      split at step
      · split at step <;> cases step
      · next state =>
          cases step
          exact ⟨state, Nat.not_lt.1 enough, rfl⟩

theorem writeLoop_fewer {results : List WriteResult} {c c' : TcpConnection} {close : Bool}
    (done : c.writeLoop results = some (c', close)) : c'.replyList <:+ c.replyList := by
  have writes := Outgoing.writeLoop_writes done
  clear done
  induction writes with
  | finished _ => exact List.suffix_rfl
  | closes _ _ => exact List.suffix_rfl
  | @goesOn _ _ c _ _ reply rest _ head wrote _ ih =>
      refine ih.trans ?_
      unfold TcpConnection.writeStep at wrote
      dsimp only at wrote
      split at wrote
      · cases wrote
      · split at wrote
        · cases wrote
          exact List.suffix_rfl
        · split at wrote
          · cases wrote
            rw [head]
            exact List.suffix_cons reply rest
          · cases wrote
            exact List.suffix_rfl

/-! ## The steps -/

theorem readQuery_grows (p : Parsing) (result : ReadResult) (now : Nat) :
    p.obj.querybuf.buf <+: (p.readQuery result now).obj.querybuf.buf ∧
      (p.readQuery result now).obj = { p.obj with
        querybuf := (p.readQuery result now).obj.querybuf
        lastInteraction := (p.readQuery result now).obj.lastInteraction } ∧
      (p.readQuery result now).dispatched = p.dispatched := by
  unfold Server.Parsing.readQuery
  cases filled : p.obj.fill result now with
  | none => exact ⟨List.prefix_rfl, rfl, rfl⟩
  | some pair =>
      obtain ⟨obj, close⟩ := pair
      have grows := fill_grows filled
      have same := fill_same filled
      cases close <;> exact ⟨grows, by rw [same]; rfl, rfl⟩

theorem iterate_cases (p : Parsing) (ret : Int) :
    ((p.iterate ret).obj = p.obj ∧ (p.iterate ret).dispatched = p.dispatched) ∨
      (∃ obj, p.obj.queryStep = .header obj ∧ (p.iterate ret).obj = obj ∧
        (p.iterate ret).dispatched = p.dispatched) ∨
      ∃ header body, p.obj.queryStep = .request header body ∧
        ((p.iterate ret).obj = p.obj ∨ (p.iterate ret).obj = p.obj.served) ∧
        (p.iterate ret).dispatched = p.dispatched + 1 := by
  cases step : p.obj.queryStep with
  | done => exact .inl (by rw [Server.Parsing.iterate, step]; exact ⟨rfl, rfl⟩)
  | badMagic => exact .inl (by rw [Server.Parsing.iterate, step]; exact ⟨rfl, rfl⟩)
  | header obj => exact .inr (.inl ⟨obj, rfl, by rw [Server.Parsing.iterate, step]; exact ⟨rfl, rfl⟩⟩)
  | request header body =>
      refine .inr (.inr ⟨header, body, rfl, ?_⟩)
      rw [Server.Parsing.iterate, step]
      refine ⟨?_, rfl⟩
      by_cases failed : ret ≠ 0
      · exact .inl (if_pos failed)
      · exact .inr (if_neg failed)

theorem iterate_grows (p : Parsing) (ret : Int) :
    (p.iterate ret).obj.querybuf = p.obj.querybuf ∧ (p.iterate ret).obj.replyList = p.obj.replyList := by
  rcases iterate_cases p ret with ⟨same, -⟩ | ⟨obj, step, same, -⟩ | ⟨header, body, -, same | same, -⟩
  · rw [same]
    exact ⟨rfl, rfl⟩
  · rw [same, (queryStep_header_inv step).2.2.2]
    exact ⟨rfl, rfl⟩
  · rw [same]
    exact ⟨rfl, rfl⟩
  · rw [same]
    exact ⟨rfl, rfl⟩

theorem iterate_placed (placed : Placed p) (ret : Int) : Placed (p.iterate ret) := by
  rcases iterate_cases p ret with ⟨same, dispatched⟩ | ⟨obj, step, same, -⟩ | ⟨header, body, step, same, -⟩
  · apply placed.grown <;> simp only [same, dispatched, List.prefix_rfl]
  · obtain ⟨head, enough, magic, rfl⟩ := queryStep_header_inv step
    obtain ⟨processed, expected, -⟩ := placed.head head
    rw [processed, expected, Nat.zero_add] at enough
    refine ⟨fun here => ?_, fun _ => ?_⟩
    · rw [same] at here
      cases here
    · rw [same]
      exact ⟨⟨enough, magic.symm⟩, rfl, Nat.le_add_left _ _⟩
  · have state := (queryStep_request_inv step).1
    obtain ⟨header, asks, behind⟩ := placed.body state
    rcases same with same | same
    · refine ⟨fun here => ?_, fun _ => ?_⟩
      · rw [same, state] at here
        cases here
      · rw [same]
        exact ⟨header, asks, behind⟩
    · refine ⟨fun here => ?_, fun _ => ?_⟩
      · rw [same] at here
        cases state.symm.trans here
      · rw [same]
        exact ⟨header, asks, show xheadSize ≤ 65535 by decide⟩

theorem step_grows (stepped : step json p e = some p') : p.obj.querybuf.buf <+: p'.obj.querybuf.buf := by
  cases step_goes stepped with
  | read => exact (readQuery_grows p _ _).1
  | iterate => rw [(iterate_grows p _).1]
  | offer => exact List.prefix_rfl
  | @write _ _ obj close wrote =>
      have same := (writeLoop_extends wrote).2
      cases close <;> exact same ▸ List.prefix_rfl
  | close => exact List.prefix_rfl

theorem step_placed (placed : Placed p) (stepped : step json p e = some p') : Placed p' := by
  have grows := step_grows stepped
  cases step_goes stepped with
  | read =>
      obtain ⟨-, same, dispatched⟩ := readQuery_grows p _ _
      exact placed.grown grows (by rw [same]) (by rw [same]) (by rw [same]) dispatched
  | iterate => exact iterate_placed placed _
  | offer => exact placed.grown grows rfl rfl rfl rfl
  | @write _ _ obj close wrote =>
      have same := (writeLoop_extends wrote).1
      cases close <;> exact placed.grown grows same.state same.processed same.expected rfl
  | close => exact placed.grown grows rfl rfl rfl rfl

theorem Placed.header (placed : Placed p) (dispatched : 0 < p.dispatched) : HasHeader p.obj.querybuf.buf := by
  cases state : p.obj.currentState with
  | head =>
      have none := (placed.head state).2.2
      omega
  | body => exact (placed.body state).1

theorem step_answers (placed : Placed p) (answers : Answers json root p) (stepped : step json p e = some p')
    (told : ∀ answer mem, e = .offer answer mem → answer = root) : Answers json root p' := by
  have grows := step_grows stepped
  cases step_goes stepped with
  | read =>
      obtain ⟨-, same, -⟩ := readQuery_grows p _ _
      exact answers.grown grows (by rw [same])
  | iterate => exact answers.grown grows (by rw [(iterate_grows p _).2])
  | @offer answer mem _ dispatched =>
      obtain rfl := told answer mem rfl
      intro reply member
      rcases List.mem_append.1 member with before | new
      · exact answers reply before
      · rw [List.mem_singleton.1 new]
        exact ⟨placed.header dispatched, mem, rfl⟩
  | @write _ _ obj close wrote =>
      have fewer := writeLoop_fewer wrote
      cases close <;> exact answers.grown grows fewer
  | close => exact answers.grown grows List.suffix_rfl

/-! ## Runs -/

/-- A read gives at most the bytes it is asked for, and every message for the connection carries `root`. -/
def Admits (root : ResRoot) (p : Parsing) : ParsingEvent → Prop
  | .offer answer _ => answer = root
  | e => Offers p e

abbrev Run (json : Json V) (root : ResRoot) (fd : Int) (p : Parsing) : Prop :=
  ∃ ioWatcher timerWatcher now, Reachable (step json) (Admits root) (start fd ioWatcher timerWatcher now) p

theorem admits_offers (p : Parsing) (e : ParsingEvent) (admits : Admits root p e) : Offers p e := by
  cases e with
  | offer answer mem => trivial
  | _ => exact admits

section Run

variable {fd : Int}

theorem Run.next (run : Run json root fd p) (admits : Admits root p e) (stepped : step json p e = some p') :
    Run json root fd p' := by
  obtain ⟨ioWatcher, timerWatcher, now, reachable⟩ := run
  exact ⟨ioWatcher, timerWatcher, now, .next reachable admits stepped⟩

theorem run_kept (run : Run json root fd p) (small : Small p.received) : Kept p := by
  obtain ⟨ioWatcher, timerWatcher, now, reachable⟩ := run
  exact reachable_kept (reachable.mono admits_offers) small

theorem run_placed (run : Run json root fd p) : Placed p := by
  obtain ⟨ioWatcher, timerWatcher, now, reachable⟩ := run
  apply Reachable.invariant _ (fun p p' e placed _ stepped => step_placed placed stepped) reachable
  exact ⟨fun _ => ⟨rfl, rfl, rfl⟩, fun here => by cases here⟩

theorem run_answers (run : Run json root fd p) : Answers json root p := by
  obtain ⟨ioWatcher, timerWatcher, now, reachable⟩ := run
  induction reachable with
  | start =>
      intro reply member
      cases member
  | next before admits stepped ih =>
      refine step_answers (run_placed ⟨_, _, _, before⟩) ih stepped ?_
      rintro answer mem rfl
      exact admits

end Run

/-! ## The message of a request -/

/-- The request at the start of the stream is whole, and the message was made from it. -/
def Carries {W : Type} (json : Json V) (buf : List UInt8) (msg : RtcMsg W) : Prop :=
  xheadSize + bodyLen buf ≤ buf.length ∧ ∃ params worker conn fd,
    decodeRequest json (requestOf buf).2 = .push params ∧ msg = pushMsg params (requestOf buf).1 worker conn fd

theorem Carries.grown {W : Type} {buf buf' : List UInt8} {msg : RtcMsg W} (carries : Carries json buf msg)
    (grows : buf <+: buf') : Carries json buf' msg := by
  obtain ⟨whole, pushed⟩ := carries
  obtain ⟨more, rfl⟩ := grows
  have long : xheadSize ≤ buf.length := by omega
  refine ⟨?_, ?_⟩
  · rw [bodyLen_append long, List.length_append]
    omega
  · rw [requestOf_append whole]
    exact pushed

theorem carries_request {W : Type} {c : TcpConnection} {header body : List UInt8} {params : PushParams}
    (placed : Placed p) (same : p.obj = c) (step : c.queryStep = .request header body)
    (decoded : decodeRequest json body = .push params) (worker : W) (conn : Nat) (fd : Int) :
    Carries json c.querybuf.buf (pushMsg params header worker conn fd) := by
  subst same
  obtain ⟨state, enough, slices⟩ := queryStep_request_inv step
  obtain ⟨-, asks, behind⟩ := placed.body state
  refine ⟨by omega, params, worker, conn, fd, ?_, ?_⟩
  · rw [← slices]
    exact decoded
  · rw [← slices]

end Xrtc.Proof.Received
