import Xrtc.Proof.Watchers
import Xrtc.Proof.Xrpc
import Xrtc.Server.Parsing

/-!
# The parser's invariant

`Framed` is what the fields of the parser are worth: between two callbacks and at every turn of the
loop of `process_query_buffer` they describe the bytes that are buffered, so the buffer is never
looked at beyond its length. The invariant behind it, `Kept`, adds that the buffer is the stream
received so far; the bound on `body_len` keeps its length an `int`.
-/

namespace Xrtc.Proof.Parsing
open Server Base Lib Framing
open Server.Parsing (start step Offers)

variable {p p' : Parsing} {result : ReadResult} {data : List UInt8} {now : Nat}

structure AtHead (p : Parsing) : Prop where
  state : p.obj.currentState = .head
  processed : p.obj.bytesProcessed = 0
  expected : p.obj.bytesExpected = xheadSize
  dispatched : p.dispatched = 0

structure AtBody (p : Parsing) : Prop where
  state : p.obj.currentState = .body
  header : HasHeader p.obj.querybuf.buf
  expected : p.obj.bytesExpected = bodyLen p.obj.querybuf.buf
  processed : p.obj.bytesProcessed = if p.dispatched = 0 then xheadSize else 65535

/-- Behind the buffered bytes there is still the nul that ends a C string. -/
def Within (a : Access) : Prop :=
  a.offset + a.size ≤ if a.view = .text then a.buffered + 1 else a.buffered

structure Framed (p : Parsing) : Prop where
  intact : p.phase ≠ .broken
  fields : p.phase ≠ .closed → AtHead p ∨ AtBody p
  consumed : p.phase = .waiting → sdslen p.obj.querybuf < p.obj.bytesProcessed + p.obj.bytesExpected
  within : ∀ a ∈ p.accesses, Within a

structure Kept (p : Parsing) : Prop extends Framed p where
  stored : p.obj.querybuf.buf = p.received

def Small (s : List UInt8) : Prop := xheadSize ≤ s.length → bodyLen s ≤ 2 ^ 29

theorem small_earlier {s t : List UInt8} (earlier : s <+: t) (small : Small t) : Small s := by
  intro long
  obtain ⟨more, rfl⟩ := earlier
  have bound := small (by rw [List.length_append]; omega)
  rwa [bodyLen_append long] at bound

theorem start_kept (fd : Int) (ioWatcher timerWatcher now : Nat) :
    Kept (start fd ioWatcher timerWatcher now) where
  intact := by simp [start]
  fields _ := .inl ⟨rfl, rfl, rfl, rfl⟩
  consumed _ := show 0 < 0 + xheadSize by decide
  within := by simp [start]
  stored := rfl

/-! ## Changes that leave the parser alone -/

/-- The fields of the parser stay as they are, while more bytes may arrive. -/
structure Extends (c c' : TcpConnection) : Prop where
  buf : c.querybuf.buf <+: c'.querybuf.buf
  state : c'.currentState = c.currentState
  processed : c'.bytesProcessed = c.bytesProcessed
  expected : c'.bytesExpected = c.bytesExpected

theorem AtHead.extended (head : AtHead p) (longer : Extends p.obj p'.obj)
    (dispatched : p'.dispatched = p.dispatched) : AtHead p' :=
  ⟨longer.state.trans head.state, longer.processed.trans head.processed,
    longer.expected.trans head.expected, dispatched.trans head.dispatched⟩

theorem AtBody.extended (body : AtBody p) (longer : Extends p.obj p'.obj)
    (dispatched : p'.dispatched = p.dispatched) : AtBody p' := by
  obtain ⟨more, buf⟩ := longer.buf
  refine ⟨longer.state.trans body.state, ?_, ?_, ?_⟩
  · rw [← buf]
    exact hasHeader_append body.header
  · rw [← buf, bodyLen_append body.header.1]
    exact longer.expected.trans body.expected
  · rw [dispatched]
    exact longer.processed.trans body.processed

theorem fields_extended (fields : AtHead p ∨ AtBody p) (longer : Extends p.obj p'.obj)
    (dispatched : p'.dispatched = p.dispatched) : AtHead p' ∨ AtBody p' := by
  rcases fields with head | body
  · exact .inl (head.extended longer dispatched)
  · exact .inr (body.extended longer dispatched)

theorem within_append {before more : List Access} (within : ∀ a ∈ before, Within a)
    (new : ∀ a ∈ more, Within a) : ∀ a ∈ before ++ more, Within a := by
  intro a member
  rcases List.mem_append.1 member with old | added
  · exact within a old
  · exact new a added

theorem Kept.moved (kept : Kept p) (same : Extends p.obj p'.obj)
    (querybuf : p'.obj.querybuf = p.obj.querybuf) (phase : p'.phase = p.phase ∨ p'.phase = .closed)
    (received : p'.received = p.received) (dispatched : p'.dispatched = p.dispatched)
    {more : List Access} (accesses : p'.accesses = p.accesses ++ more) (new : ∀ a ∈ more, Within a) :
    Kept p' := by
  have opened (notClosed : p'.phase ≠ .closed) : p'.phase = p.phase := phase.resolve_right notClosed
  refine ⟨⟨?_, ?_, ?_, ?_⟩, ?_⟩
  · rcases phase with unchanged | closed
    · rw [unchanged]
      exact kept.intact
    · simp [closed]
  · intro notClosed
    exact fields_extended (kept.fields (opened notClosed ▸ notClosed)) same dispatched
  · intro waiting
    rw [querybuf, same.processed, same.expected]
    exact kept.consumed (opened (by simp [waiting]) ▸ waiting)
  · rw [accesses]
    exact within_append kept.within new
  · rw [querybuf, received]
    exact kept.stored

/-! ## The read in front of the loop -/

theorem afterFill_received (p : Parsing) (filled : Option (TcpConnection × Bool)) :
    (p.afterFill filled).received = p.received := by
  match filled with
  | none => rfl
  | some (_, true) => rfl
  | some (_, false) => rfl

theorem readQuery_received (p : Parsing) (result : ReadResult) (now : Nat) :
    p.received <+: (p.readQuery result now).received := by
  rw [Server.Parsing.readQuery, afterFill_received]
  exact List.prefix_append _ _

theorem offers_length (offers : Offers p (.read result now)) (got : sockReadData result = some data) :
    data.length ≤ p.obj.readLen := by
  cases result with
  | received bytes =>
      cases bytes with
      | nil => cases got
      | cons byte rest =>
          cases got
          exact offers
  | again =>
      cases got
      exact Nat.zero_le _
  | failed => cases got

theorem asks_little (kept : Kept p) (waiting : p.phase = .waiting) (small : Small p.received) :
    p.obj.bytesExpected ≤ 2 ^ 29 ∧ sdslen p.obj.querybuf < 2 ^ 29 + 65535 := by
  have short := kept.consumed waiting
  rcases kept.fields (by simp [waiting]) with head | body
  · rw [head.processed, head.expected] at short
    rw [head.expected]
    unfold xheadSize at *
    omega
  · have bound : p.obj.bytesExpected ≤ 2 ^ 29 := by
      rw [body.expected, kept.stored]
      exact small (kept.stored ▸ body.header.1)
    have processed : p.obj.bytesProcessed ≤ 65535 := by
      rw [body.processed]
      unfold xheadSize
      split <;> omega
    omega

theorem fill_extends {c c' : TcpConnection} (filled : c.fill result now = some (c', false)) :
    Extends c c' := by
  obtain ⟨-, data, -, -, buf, -⟩ := fill_read filled
  have same := fill_same filled
  exact ⟨⟨data, buf.symm⟩, by rw [same], by rw [same], by rw [same]⟩

theorem readQuery_kept (kept : Kept p) (waiting : p.phase = .waiting)
    (offers : Offers p (.read result now)) (small : Small (p.readQuery result now).received) :
    Kept (p.readQuery result now) := by
  have fields := kept.fields (by simp [waiting])
  have earlier : p.received <+: (p.readQuery result now).received := readQuery_received p result now
  obtain ⟨little, short⟩ := asks_little kept waiting (small_earlier earlier small)
  have asked := readLen_eq (c := p.obj) (by omega)
  have sysRead_eq := sockReadData_sysRead (by omega : p.obj.readLen < 2 ^ 63) result
  cases got : sockReadData result with
  | none =>
      obtain ⟨room, made⟩ := sdsMakeRoomFor_some p.obj.querybuf p.obj.readLen (by omega)
      obtain ⟨obj, filled⟩ := fill_stop result now made (sysRead_eq.trans got)
      rw [Server.Parsing.readQuery, sysRead_eq, got, filled]
      refine ⟨⟨by simp [Server.Parsing.afterFill], by simp [Server.Parsing.afterFill],
        by simp [Server.Parsing.afterFill], kept.within⟩, ?_⟩
      exact ((fill_close filled).trans kept.stored).trans (List.append_nil _).symm
  | some data =>
      have given := offers_length offers got
      obtain ⟨obj, filled⟩ := fill_stored now (c := p.obj) (by omega) got (by unfold sdslen at short; omega)
      have buf := fill_got filled got
      rw [Server.Parsing.readQuery, sysRead_eq, got, filled]
      refine ⟨⟨by simp [Server.Parsing.afterFill], ?_, by simp [Server.Parsing.afterFill], kept.within⟩, ?_⟩
      · intro _
        exact fields_extended fields (fill_extends filled) rfl
      · exact buf.trans (congrArg (· ++ data) kept.stored)

/-! ## One turn of the loop -/

theorem headAccess_within (long : xheadSize ≤ p.obj.querybuf.buf.length) : Within p.headAccess := by
  change 0 + xheadSize ≤ p.obj.querybuf.buf.length
  omega

theorem heads_within (long : xheadSize ≤ p.obj.querybuf.buf.length) : ∀ a ∈ [p.headAccess], Within a := by
  intro a member
  rw [List.mem_singleton.1 member]
  exact headAccess_within long

theorem cString_length_le (s : List UInt8) : (cString s).length ≤ s.length :=
  List.Sublist.length_le (List.takeWhile_sublist _)

theorem text_within (long : xheadSize ≤ p.obj.querybuf.buf.length) :
    Within (p.access .text xheadSize ((cString (p.obj.querybuf.buf.drop xheadSize)).length + 1)) := by
  have size := cString_length_le (p.obj.querybuf.buf.drop xheadSize)
  rw [List.length_drop] at size
  change xheadSize + ((cString (p.obj.querybuf.buf.drop xheadSize)).length + 1) ≤
    p.obj.querybuf.buf.length + 1
  omega

theorem requestAccesses_within
    (whole : xheadSize + bodyLen p.obj.querybuf.buf ≤ p.obj.querybuf.buf.length) :
    ∀ a ∈ p.requestAccesses, Within a := by
  have long : xheadSize ≤ p.obj.querybuf.buf.length := by omega
  intro a member
  simp only [Server.Parsing.requestAccesses, List.mem_cons, List.not_mem_nil, or_false] at member
  rcases member with rfl | rfl | rfl
  · exact headAccess_within long
  · exact text_within long
  · exact whole

theorem AtHead.parser (head : AtHead p) : Parser p.obj p.obj.querybuf.buf .head 0 xheadSize :=
  ⟨rfl, head.state, head.processed, head.expected⟩

theorem Kept.returns (kept : Kept p) (inside : p.phase = .inside)
    (short : sdslen p.obj.querybuf < p.obj.bytesProcessed + p.obj.bytesExpected) :
    Kept { p with phase := .waiting } where
  intact := by simp
  fields _ := fields_extended (kept.fields (by simp [inside])) ⟨List.prefix_rfl, rfl, rfl, rfl⟩ rfl
  consumed _ := short
  within := kept.within
  stored := kept.stored

theorem head_iterate {ret : Int} (kept : Kept p) (inside : p.phase = .inside) (head : AtHead p) :
    Kept (p.iterate ret) := by
  unfold Server.Parsing.iterate
  by_cases short : p.obj.querybuf.buf.length < xheadSize
  · rw [queryStep_done head.parser (by omega)]
    refine kept.returns inside ?_
    rw [head.processed, head.expected]
    exact Nat.zero_add xheadSize ▸ short
  have long := Nat.not_lt.1 short
  by_cases magic : (Xhead.view p.obj.querybuf.buf).magicNum = xheadMagicNum
  · obtain ⟨obj, header, fields⟩ := queryStep_header head.parser (by omega) magic
    rw [header]
    have body : AtBody { p with obj := obj, accesses := p.accesses ++ [p.headAccess] } := by
      refine ⟨fields.state, ?_, ?_, ?_⟩
      · dsimp only
        rw [fields.buf]
        exact ⟨long, magic⟩
      · dsimp only
        rw [fields.expected, fields.buf]
      · dsimp only
        rw [fields.processed, if_pos head.dispatched, Nat.zero_add]
    refine ⟨⟨kept.intact, fun _ => .inr body, by simp [inside], ?_⟩, ?_⟩
    · exact within_append kept.within (heads_within long)
    · exact fields.buf.trans kept.stored
  · rw [queryStep_badMagic head.parser (by omega) magic]
    exact kept.moved ⟨List.prefix_rfl, rfl, rfl, rfl⟩ rfl (.inr rfl) rfl rfl rfl (heads_within long)

theorem body_iterate {ret : Int} (kept : Kept p) (inside : p.phase = .inside) (body : AtBody p) :
    Kept (p.iterate ret) := by
  unfold Server.Parsing.iterate
  by_cases short : sdslen p.obj.querybuf < p.obj.bytesProcessed + p.obj.bytesExpected
  · rw [queryStep_done ⟨rfl, body.state, rfl, rfl⟩ short]
    exact kept.returns inside short
  · have enough := Nat.not_lt.1 short
    rw [queryStep_request ⟨rfl, body.state, rfl, rfl⟩ enough]
    have whole : xheadSize + bodyLen p.obj.querybuf.buf ≤ p.obj.querybuf.buf.length := by
      rw [body.processed, body.expected, sdslen] at enough
      unfold xheadSize at *
      split at enough <;> omega
    have accesses := within_append kept.within (requestAccesses_within whole)
    by_cases refused : ret ≠ 0
    · simp only [if_pos refused]
      exact ⟨⟨by simp, by simp, by simp, accesses⟩, kept.stored⟩
    · simp only [if_neg refused]
      refine ⟨⟨by simp, fun _ => .inr ?_, by simp, accesses⟩, kept.stored⟩
      exact ⟨body.state, body.header, body.expected, rfl⟩

theorem iterate_kept {ret : Int} (kept : Kept p) (inside : p.phase = .inside) : Kept (p.iterate ret) := by
  rcases kept.fields (by simp [inside]) with head | body
  · exact head_iterate kept inside head
  · exact body_iterate kept inside body

/-! ## The replies and the writes -/

theorem writeLoop_extends {results : List WriteResult} {c c' : TcpConnection} {close : Bool}
    (wrote : c.writeLoop results = some (c', close)) : Extends c c' ∧ c'.querybuf = c.querybuf := by
  rw [Watchers.writeLoop_same wrote]
  exact ⟨⟨List.prefix_rfl, rfl, rfl, rfl⟩, rfl⟩

theorem afterWrite_kept {results : List WriteResult} {obj : TcpConnection} {close : Bool} (kept : Kept p)
    (wrote : p.obj.writeLoop results = some (obj, close)) : Kept (p.afterWrite now (obj, close)) := by
  obtain ⟨same, querybuf⟩ := writeLoop_extends wrote
  cases close with
  | true => exact kept.moved same querybuf (.inr rfl) rfl rfl (List.append_nil _).symm (by simp)
  | false =>
      exact kept.moved ⟨same.buf, same.state, same.processed, same.expected⟩ querybuf (.inl rfl) rfl rfl
        (List.append_nil _).symm (by simp)

theorem offer_kept {V : Type} (json : Json V) {root : ResRoot} {mem : Nat → UInt8} (kept : Kept p)
    (waiting : p.phase = .waiting) (dispatched : 0 < p.dispatched) :
    Kept (p.responseServerOffer json root mem) := by
  have long : xheadSize ≤ p.obj.querybuf.buf.length := by
    rcases kept.fields (by simp [waiting]) with head | body
    · have := head.dispatched
      omega
    · exact body.header.1
  exact kept.moved ⟨List.prefix_rfl, rfl, rfl, rfl⟩ rfl (.inl rfl) rfl rfl rfl (heads_within long)

/-! ## Whole runs -/

section

variable {V : Type} {json : Json V} {e : ParsingEvent}

inductive Goes (json : Json V) (p : Parsing) : ParsingEvent → Parsing → Prop
  | read {result : ReadResult} {now : Nat} (waiting : p.phase = .waiting) :
      Goes json p (.read result now) (p.readQuery result now)
  | iterate {ret : Int} (inside : p.phase = .inside) : Goes json p (.iterate ret) (p.iterate ret)
  | offer {root : ResRoot} {mem : Nat → UInt8} (waiting : p.phase = .waiting)
      (dispatched : 0 < p.dispatched) : Goes json p (.offer root mem) (p.responseServerOffer json root mem)
  | write {results : List WriteResult} {now : Nat} {obj : TcpConnection} {close : Bool}
      (wrote : p.obj.writeLoop results = some (obj, close)) :
      Goes json p (.write results now) (p.afterWrite now (obj, close))
  | close : Goes json p .close { p with phase := .closed }

theorem step_goes (stepped : step json p e = some p') : Goes json p e p' := by
  cases e with
  | read result now =>
      obtain ⟨waiting, moved⟩ := Option.ite_none_right_eq_some.1 stepped
      obtain rfl := Option.some.inj moved
      exact .read waiting
  | iterate ret =>
      obtain ⟨inside, moved⟩ := Option.ite_none_right_eq_some.1 stepped
      obtain rfl := Option.some.inj moved
      exact .iterate inside
  | offer root mem =>
      obtain ⟨⟨waiting, dispatched⟩, moved⟩ := Option.ite_none_right_eq_some.1 stepped
      obtain rfl := Option.some.inj moved
      exact .offer waiting dispatched
  | write results now =>
      obtain ⟨-, moved⟩ := Option.ite_none_right_eq_some.1 stepped
      obtain ⟨⟨obj, close⟩, wrote, rfl⟩ := Option.map_eq_some_iff.1 moved
      exact .write wrote
  | close =>
      obtain ⟨-, moved⟩ := Option.ite_none_right_eq_some.1 stepped
      obtain rfl := Option.some.inj moved
      exact .close

theorem step_received (stepped : step json p e = some p') : p.received <+: p'.received := by
  cases step_goes stepped with
  | read => exact readQuery_received p _ _
  | iterate =>
      unfold Server.Parsing.iterate
      split <;> exact List.prefix_rfl
  | offer => exact List.prefix_rfl
  | @write _ _ _ close => cases close <;> exact List.prefix_rfl
  | close => exact List.prefix_rfl

theorem step_kept (kept : Kept p) (offers : Offers p e) (small : Small p'.received)
    (stepped : step json p e = some p') : Kept p' := by
  cases step_goes stepped with
  | read waiting => exact readQuery_kept kept waiting offers small
  | iterate inside => exact iterate_kept kept inside
  | offer waiting dispatched => exact offer_kept json kept waiting dispatched
  | write wrote => exact afterWrite_kept kept wrote
  | close =>
      exact kept.moved ⟨List.prefix_rfl, rfl, rfl, rfl⟩ rfl (.inr rfl) rfl rfl (List.append_nil _).symm
        (by simp)

theorem step_iterate (inside : p.phase = .inside) (ret : Int) :
    step json p (.iterate ret) = some (p.iterate ret) := if_pos inside

theorem process_iterates (json : Json V) {request : Nat → List UInt8 → List UInt8 → Int} {fuel : Nat}
    {calls calls' : List Call} {ret : Int} {obj : TcpConnection} (inside : p.phase = .inside)
    (done : processQueryBuffer request fuel p.obj calls = some (ret, obj, calls')) :
    ∃ (rets : List Int) (p' : Parsing), runLabels (step json) p (rets.map .iterate) = some p' ∧ p'.obj = obj ∧
      p'.phase = (if ret = 0 then .waiting else .closed) ∧
      p'.dispatched + calls.length = p.dispatched + calls'.length := by
  induction fuel generalizing p calls with
  | zero => cases done
  | succ fuel ih =>
      -- the turn taken now, with what its call of `process_request` returns, and the turns behind it
      have turn {rets : List Int} {p' : Parsing} (now : Int)
          (later : runLabels (step json) (p.iterate now) (rets.map .iterate) = some p') :
          runLabels (step json) p ((now :: rets).map .iterate) = some p' := by
        rw [List.map_cons, runLabels, step_iterate inside]
        exact later
      rw [processQueryBuffer] at done
      cases found : p.obj.queryStep with
      | done =>
          rw [found] at done
          cases done
          refine ⟨[0], p.iterate 0, turn 0 rfl, ?_⟩
          rw [Server.Parsing.iterate, found]
          exact ⟨rfl, rfl, rfl⟩
      | badMagic =>
          rw [found] at done
          cases done
          refine ⟨[0], p.iterate 0, turn 0 rfl, ?_⟩
          rw [Server.Parsing.iterate, found]
          exact ⟨rfl, rfl, rfl⟩
      | header next =>
          rw [found] at done
          have moved : p.iterate 0 =
              { p with obj := next, accesses := p.accesses ++ [p.headAccess] } := by
            rw [Server.Parsing.iterate, found]
          obtain ⟨rets, p', run, ends⟩ := ih (p := p.iterate 0) (by rw [moved]; exact inside)
            (by rw [moved]; exact done)
          rw [moved] at ends
          exact ⟨0 :: rets, p', turn 0 run, ends⟩
      | request header body =>
          rw [found] at done
          dsimp only at done
          by_cases refused : request calls.length header body ≠ 0
          · rw [if_pos refused] at done
            cases done
            refine ⟨[1], p.iterate 1, turn 1 rfl, ?_⟩
            rw [Server.Parsing.iterate, found]
            refine ⟨rfl, rfl, ?_⟩
            simp only [List.length_append, List.length_singleton]
            omega
          · rw [if_neg refused] at done
            obtain ⟨rets, p', run, sameObj, phase, count⟩ := ih (p := p.iterate 0)
              (by rw [Server.Parsing.iterate, found]; rfl)
              (by rw [Server.Parsing.iterate, found]; exact done)
            refine ⟨0 :: rets, p', turn 0 run, sameObj, phase, ?_⟩
            rw [Server.Parsing.iterate, found] at count
            simp only [List.length_append, List.length_singleton] at count
            omega

theorem run_received (run : Reachable (step json) Offers p p') : p.received <+: p'.received := by
  induction run with
  | start => exact List.prefix_rfl
  | next _ _ stepped ih => exact ih.trans (step_received stepped)

theorem reachable_kept {fd : Int} {ioWatcher timerWatcher now : Nat}
    (reachable : Reachable (step json) Offers (start fd ioWatcher timerWatcher now) p)
    (small : Small p.received) : Kept p := by
  induction reachable with
  | start => exact start_kept fd ioWatcher timerWatcher now
  | next _ offers stepped ih =>
      -- what has arrived earlier is a part of the stream, so it is small as well
      exact step_kept (ih (small_earlier (step_received stepped) small)) offers small stepped

end

/-- As long as the stream's `body_len` is small, the fields of the parser describe the buffered bytes
in every state of every run, and no buffered byte changes later. -/
theorem parser_framed {V : Type} (json : Json V) (fd : Int) (ioWatcher timerWatcher now : Nat) (p : Parsing)
    (reachable : Reachable (step json) Offers (start fd ioWatcher timerWatcher now) p)
    (small : Small p.received) :
    Framed p ∧ ∀ earlier, Reachable (step json) Offers (start fd ioWatcher timerWatcher now) earlier →
      Reachable (step json) Offers earlier p →
      earlier.obj.querybuf.buf <+: p.obj.querybuf.buf := by
  have kept := reachable_kept reachable small
  refine ⟨kept.toFramed, fun earlier before run => ?_⟩
  have received := run_received run
  rw [kept.stored, (reachable_kept before (small_earlier received small)).stored]
  exact received

/-- A header in two parts, its body of one byte, and the reply. -/
def shortRequest : List ParsingEvent :=
  .read (.received ((Xrpc.image { magicNum := xheadMagicNum, bodyLen := 1 }).take 20)) 0 :: .iterate 0 ::
    .read (.received ((Xrpc.image { magicNum := xheadMagicNum, bodyLen := 1 }).drop 20)) 0 ::
    .iterate 0 :: .iterate 0 :: .read (.received [0x7b]) 0 :: .iterate 0 :: .iterate 0 ::
    .offer ⟨0, "process success", []⟩ (fun _ => 0) :: []

theorem parser_framed_short : ∃ p : Parsing, Reachable (step Json.sample) Offers (start 5 0 1 0) p ∧
    p.phase = .waiting ∧ p.dispatched = 1 ∧ p.accesses.length = 5 ∧ Framed p := by
  obtain ⟨p, reachable, holds⟩ := exists_reachable_of_runLabels (step Json.sample)
    (fun p e (passed : decide (Offers p e) = true) => of_decide_eq_true passed) (start 5 0 1 0) shortRequest
    (fun p => p.phase = .waiting ∧ p.dispatched = 1 ∧ p.accesses.length = 5 ∧ bodyLen p.received = 1)
    (by decide +kernel)
  simp only [decide_eq_true_eq] at holds
  obtain ⟨waiting, dispatched, accesses, len⟩ := holds
  have small : Small p.received := by
    intro _
    rw [len]
    decide
  exact ⟨p, reachable, waiting, dispatched, accesses,
    (parser_framed Json.sample 5 0 1 0 p reachable small).1⟩

end Xrtc.Proof.Parsing
