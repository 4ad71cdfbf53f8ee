import Xrtc.Server.Session

/-!
# Framing of requests

`Tracks request s session`: what the session is after the bytes `s` have arrived, with the parser's
fields on an open connection. A readable event keeps this relation whatever part of the stream it
brings, so the outcome depends on the bytes alone.
-/

namespace Xrtc.Proof.Framing
open Server Base Lib

variable {request : Nat → List UInt8 → List UInt8 → Int}

/-! ## More bytes behind a header -/

theorem bodyLen_append {s t : List UInt8} (long : xheadSize ≤ s.length) : bodyLen (s ++ t) = bodyLen s := by
  rw [bodyLen, bodyLen, Xhead.view_append long]

theorem requestOf_append {s t : List UInt8} (whole : xheadSize + bodyLen s ≤ s.length) :
    requestOf (s ++ t) = requestOf s := by
  have long : xheadSize ≤ s.length := by omega
  rw [requestOf, requestOf, bodyLen_append long, slice_append_left (by omega),
    slice_append_left (by omega)]

/-! ## The read before the loop -/

theorem takeRead_same {c c' : TcpConnection} {read : Option (List UInt8)} {close : Bool}
    (taken : c.takeRead read = some (c', close)) : c' = { c with querybuf := c'.querybuf } := by
  match read with
  | none => exact (Prod.mk.inj (Option.some.inj taken)).1 ▸ rfl
  | some [] => exact (Prod.mk.inj (Option.some.inj taken)).1 ▸ rfl
  | some (byte :: rest) =>
      obtain ⟨querybuf, -, pair⟩ := Option.map_eq_some_iff.1 taken
      exact (Prod.mk.inj pair).1 ▸ rfl

theorem takeRead_read {c c' : TcpConnection} {read : Option (List UInt8)}
    (taken : c.takeRead read = some (c', false)) :
    ∃ data, read = some data ∧ c'.querybuf.buf = c.querybuf.buf ++ data ∧
      (data = [] ∧ c'.querybuf = c.querybuf ∨ sdsIncrLen c.querybuf data = some c'.querybuf) := by
  match read with
  | none => cases (Prod.mk.inj (Option.some.inj taken)).2
  | some [] =>
      rw [← (Prod.mk.inj (Option.some.inj taken)).1]
      exact ⟨[], rfl, by simp, .inl ⟨rfl, rfl⟩⟩
  | some (byte :: rest) =>
      obtain ⟨querybuf, grown, pair⟩ := Option.map_eq_some_iff.1 taken
      rw [← (Prod.mk.inj pair).1]
      exact ⟨byte :: rest, rfl, (sdsIncrLen_inv grown).1, .inr grown⟩

theorem takeRead_close {c c' : TcpConnection} {read : Option (List UInt8)}
    (taken : c.takeRead read = some (c', true)) : c' = c := by
  match read with
  | none => exact (Prod.mk.inj (Option.some.inj taken)).1.symm
  | some [] => cases (Prod.mk.inj (Option.some.inj taken)).2
  | some (byte :: rest) =>
      obtain ⟨querybuf, -, pair⟩ := Option.map_eq_some_iff.1 taken
      cases (Prod.mk.inj pair).2

theorem fill_same {c c' : TcpConnection} {result : ReadResult} {now : Nat} {close : Bool}
    (filled : c.fill result now = some (c', close)) :
    c' = { c with querybuf := c'.querybuf, lastInteraction := now } := by
  obtain ⟨room, -, taken⟩ := Option.bind_eq_some_iff.1 filled
  exact takeRead_same taken

theorem sockReadData_sysRead {count : Nat} (small : count < 2 ^ 63) (result : ReadResult) :
    sockReadData (sysRead count result) = sockReadData result := by
  rw [sysRead, if_neg (Nat.not_le.2 small)]

theorem sysRead_got {count : Nat} {result : ReadResult} {data : List UInt8}
    (got : sockReadData (sysRead count result) = some data) : sockReadData result = some data := by
  unfold sysRead at got
  split at got
  · cases got
  · exact got

theorem fill_read {c c' : TcpConnection} {result : ReadResult} {now : Nat}
    (filled : c.fill result now = some (c', false)) :
    ∃ room data, sdsMakeRoomFor c.querybuf c.readLen = some room ∧ sockReadData result = some data ∧
      c'.querybuf.buf = c.querybuf.buf ++ data ∧
      (data = [] ∧ c'.querybuf = room ∨ sdsIncrLen room data = some c'.querybuf) := by
  obtain ⟨room, made, taken⟩ := Option.bind_eq_some_iff.1 filled
  obtain ⟨data, got, buf, grown⟩ := takeRead_read taken
  refine ⟨room, data, made, sysRead_got got, ?_, grown⟩
  rw [buf, sdsMakeRoomFor_buf made]

theorem fill_close {c c' : TcpConnection} {result : ReadResult} {now : Nat}
    (filled : c.fill result now = some (c', true)) : c'.querybuf.buf = c.querybuf.buf := by
  obtain ⟨room, made, taken⟩ := Option.bind_eq_some_iff.1 filled
  rw [takeRead_close taken, sdsMakeRoomFor_buf made]

theorem fill_got {c c' : TcpConnection} {result : ReadResult} {now : Nat} {data : List UInt8}
    (filled : c.fill result now = some (c', false)) (got : sockReadData result = some data) :
    c'.querybuf.buf = c.querybuf.buf ++ data := by
  obtain ⟨room, data', -, got', buf, -⟩ := fill_read filled
  cases got.symm.trans got'
  exact buf

theorem readLen_eq {c : TcpConnection} (small : c.bytesExpected < 2 ^ 31) : c.readLen = c.bytesExpected :=
  toSizeT_toInt small

section

variable {c : TcpConnection} {result : ReadResult} {now : Nat} {data : List UInt8}

theorem fill_stored (now : Nat) (small : c.bytesExpected < 2 ^ 31) (got : sockReadData result = some data)
    (short : c.querybuf.buf.length + data.length < 2 ^ 31) :
    ∃ c', c.fill result now = some (c', false) := by
  have asked := readLen_eq small
  obtain ⟨room, made⟩ := sdsMakeRoomFor_some c.querybuf c.readLen (by
    rw [asked, sdslen]
    omega)
  rw [← sdsMakeRoomFor_buf made] at short
  rw [TcpConnection.fill, made, sockReadData_sysRead (by omega), got]
  match data with
  | [] => exact ⟨_, rfl⟩
  | byte :: rest => exact ⟨_, congrArg (Option.map _) (sdsIncrLen_of_lt short)⟩

theorem fill_overflows (got : sockReadData result = some data) (before : c.querybuf.buf.length < 2 ^ 31)
    (long : 2 ^ 31 ≤ c.querybuf.buf.length + data.length) (asked : c.readLen < 2 ^ 63) :
    c.fill result now = none := by
  rw [TcpConnection.fill]
  cases made : sdsMakeRoomFor c.querybuf c.readLen with
  | none => rfl
  | some room =>
      rw [← sdsMakeRoomFor_buf made] at before long
      rw [Option.bind_some, sockReadData_sysRead asked, got]
      match data with
      | [] => exact absurd long (Nat.not_le.2 before)
      | byte :: rest => exact congrArg (Option.map _) (sdsIncrLen_of_le long)

theorem fill_stop (result : ReadResult) (now : Nat) {room : Sds}
    (made : sdsMakeRoomFor c.querybuf c.readLen = some room)
    (stop : sockReadData (sysRead c.readLen result) = none) :
    ∃ c', c.fill result now = some (c', true) := by
  rw [TcpConnection.fill, made, stop]
  exact ⟨_, rfl⟩

end

/-! ## The loop of `process_query_buffer` -/

structure Parser (c : TcpConnection) (s : List UInt8) (state : ConnState) (processed expected : Nat) :
    Prop where
  buf : c.querybuf.buf = s
  state : c.currentState = state
  processed : c.bytesProcessed = processed
  expected : c.bytesExpected = expected

section

variable {c : TcpConnection} {s : List UInt8} {state : ConnState} {processed expected : Nat}

theorem Parser.afterRequest (fields : Parser c s state processed expected) :
    Parser c.served s state 65535 expected :=
  ⟨fields.buf, fields.state, rfl, fields.expected⟩

theorem queryStep_done (fields : Parser c s state processed expected)
    (short : s.length < processed + expected) : c.queryStep = .done := by
  obtain ⟨rfl, -, rfl, rfl⟩ := fields
  exact if_pos short

theorem queryStep_badMagic (fields : Parser c s .head processed expected)
    (enough : processed + expected ≤ s.length) (bad : (Xhead.view s).magicNum ≠ xheadMagicNum) :
    c.queryStep = .badMagic := by
  obtain ⟨rfl, state, rfl, rfl⟩ := fields
  rw [TcpConnection.queryStep, sdslen, if_neg (Nat.not_lt.2 enough)]
  simp only [state]
  exact if_pos (Ne.symm bad)

theorem queryStep_header (fields : Parser c s .head processed expected)
    (enough : processed + expected ≤ s.length) (magic : (Xhead.view s).magicNum = xheadMagicNum) :
    ∃ c', c.queryStep = .header c' ∧ Parser c' s .body (processed + xheadSize) (bodyLen s) := by
  obtain ⟨rfl, state, rfl, rfl⟩ := fields
  rw [TcpConnection.queryStep, sdslen, if_neg (Nat.not_lt.2 enough)]
  simp only [state]
  exact ⟨_, if_neg (not_not.2 magic.symm), ⟨rfl, rfl, rfl, rfl⟩⟩

theorem queryStep_request (fields : Parser c s .body processed expected)
    (enough : processed + expected ≤ s.length) :
    c.queryStep = .request (requestOf s).1 (requestOf s).2 := by
  obtain ⟨rfl, state, rfl, rfl⟩ := fields
  rw [TcpConnection.queryStep, sdslen, if_neg (Nat.not_lt.2 enough)]
  simp only [state]
  rfl

end

/-- The first request of the connection was accepted, and the guard of the loop holds once more. -/
def Overruns (request : Nat → List UInt8 → List UInt8 → Int) (s : List UInt8) : Prop :=
  HasHeader s ∧ request 0 (requestOf s).1 (requestOf s).2 = 0 ∧ 65535 + bodyLen s ≤ s.length

/-- The session after the bytes `s`. -/
inductive Tracks (request : Nat → List UInt8 → List UInt8 → Int) (s : List UInt8) : Session → Prop
  | head {c} (short : s.length < xheadSize) (fields : Parser c s .head 0 xheadSize) :
      Tracks request s ⟨.opened c, []⟩
  | badMagic (long : xheadSize ≤ s.length) (bad : (Xhead.view s).magicNum ≠ xheadMagicNum) :
      Tracks request s ⟨.closed, []⟩
  | body {c} (header : HasHeader s) (short : s.length < xheadSize + bodyLen s)
      (fields : Parser c s .body xheadSize (bodyLen s)) : Tracks request s ⟨.opened c, []⟩
  | refused (header : HasHeader s) (whole : xheadSize + bodyLen s ≤ s.length)
      (refused : request 0 (requestOf s).1 (requestOf s).2 ≠ 0) :
      Tracks request s ⟨.closed, [requestOf s]⟩
  | served {c} (header : HasHeader s) (whole : xheadSize + bodyLen s ≤ s.length)
      (accepted : request 0 (requestOf s).1 (requestOf s).2 = 0) (short : s.length < 65535 + bodyLen s)
      (fields : Parser c s .body 65535 (bodyLen s)) : Tracks request s ⟨.opened c, [requestOf s]⟩

/-- What one call of `process_query_buffer` has to give at `s`. -/
def Processed (request : Nat → List UInt8 → List UInt8 → Int) (s : List UInt8) :
    Option (Int × TcpConnection × List Call) → Prop
  | none => False
  | some result => Tracks request s (Session.after result)

theorem process_served {c : TcpConnection} {s : List UInt8} {calls : List Call} {fuel : Nat}
    (fields : Parser c s .body 65535 (bodyLen s)) (short : s.length < 65535 + bodyLen s) :
    processQueryBuffer request (fuel + 1) c calls = some (0, c, calls) := by
  rw [processQueryBuffer, queryStep_done fields short]

theorem process_body {c : TcpConnection} {s : List UInt8} {fuel : Nat} (header : HasHeader s)
    (fields : Parser c s .body xheadSize (bodyLen s)) (within : ¬ Overruns request s) :
    Processed request s (processQueryBuffer request (fuel + 2) c []) := by
  rw [processQueryBuffer]
  by_cases short : s.length < xheadSize + bodyLen s
  · rw [queryStep_done fields short]
    exact .body header short fields
  · have whole := Nat.not_lt.1 short
    rw [queryStep_request fields whole]
    by_cases accepted : request 0 (requestOf s).1 (requestOf s).2 = 0
    · have room : s.length < 65535 + bodyLen s := by
        by_contra beyond
        exact within ⟨header, accepted, Nat.not_lt.1 beyond⟩
      have served := fields.afterRequest
      simp only [List.length_nil, accepted, ne_eq, not_true_eq_false, if_false,
        process_served served room]
      exact .served header whole accepted room served
    · simp only [List.length_nil, ne_eq, accepted, not_false_eq_true, if_true]
      exact .refused header whole accepted

theorem process_head {c : TcpConnection} {s : List UInt8} {fuel : Nat}
    (fields : Parser c s .head 0 xheadSize) (within : ¬ Overruns request s) :
    Processed request s (processQueryBuffer request (fuel + 3) c []) := by
  rw [processQueryBuffer]
  by_cases short : s.length < xheadSize
  · rw [queryStep_done fields (by omega)]
    exact .head short fields
  · have long := Nat.not_lt.1 short
    by_cases magic : (Xhead.view s).magicNum = xheadMagicNum
    · obtain ⟨c', step, inBody⟩ := queryStep_header fields (by omega) magic
      rw [step]
      exact process_body ⟨long, magic⟩ (Nat.zero_add xheadSize ▸ inBody) within
    · rw [queryStep_badMagic fields (by omega) magic]
      exact .badMagic long magic

/-! ## One readable event -/

theorem expected_of_lt {s : List UInt8} (short : s.length < xheadSize) : expected s = xheadSize :=
  if_pos short

theorem expected_of_le {s : List UInt8} (long : xheadSize ≤ s.length) : expected s = bodyLen s :=
  if_neg (Nat.not_lt.2 long)

theorem expected_append {s t : List UInt8} (long : xheadSize ≤ s.length) :
    expected (s ++ t) = expected s := by
  rw [expected_of_le long, expected_of_le (by rw [List.length_append]; omega), bodyLen_append long]

theorem expected_lt (s : List UInt8) : expected s < 2 ^ 32 := by
  unfold expected
  split
  · decide
  · exact UInt32.toNat_lt _

def Reading (request : Nat → List UInt8 → List UInt8 → Int) (s : List UInt8) : Prop :=
  s.length < xheadSize ∨
    HasHeader s ∧ (s.length < xheadSize + bodyLen s ∨ request 0 (requestOf s).1 (requestOf s).2 = 0)

structure Follows (request : Nat → List UInt8 → List UInt8 → Int) (s : List UInt8) (session : Session) :
    Prop where
  tracks : Tracks request s session
  short : ∀ c, session.life = .opened c → s.length < 2 ^ 31

theorem Tracks.reading {s : List UInt8} {c : TcpConnection} {calls : List Call}
    (tracks : Tracks request s ⟨.opened c, calls⟩) : Reading request s := by
  cases tracks with
  | head short => exact .inl short
  | body header short => exact .inr ⟨header, .inl short⟩
  | served header _ accepted => exact .inr ⟨header, .inr accepted⟩

theorem Tracks.opened {s : List UInt8} {session : Session} (tracks : Tracks request s session)
    (reading : Reading request s) : ∃ c, session.life = .opened c := by
  cases tracks with
  | head => exact ⟨_, rfl⟩
  | body => exact ⟨_, rfl⟩
  | served => exact ⟨_, rfl⟩
  | badMagic long bad =>
      rcases reading with short | ⟨header, -⟩
      · omega
      · exact absurd header.2 bad
  | refused header whole refused =>
      rcases reading with short | ⟨-, short | accepted⟩
      · have := header.1
        omega
      · omega
      · exact absurd accepted refused

theorem Tracks.buf {s : List UInt8} {c : TcpConnection} {calls : List Call}
    (tracks : Tracks request s ⟨.opened c, calls⟩) : c.querybuf.buf = s := by
  cases tracks with
  | head _ fields => exact fields.buf
  | body _ _ fields => exact fields.buf
  | served _ _ _ _ fields => exact fields.buf

theorem Tracks.expected {s : List UInt8} {c : TcpConnection} {calls : List Call}
    (tracks : Tracks request s ⟨.opened c, calls⟩) : c.bytesExpected = expected s := by
  cases tracks with
  | head short fields => rw [fields.expected, expected_of_lt short]
  | body header _ fields => rw [fields.expected, expected_of_le header.1]
  | served header _ _ _ fields => rw [fields.expected, expected_of_le header.1]

theorem Tracks.within {s : List UInt8} {session : Session} (tracks : Tracks request s session) :
    ¬ Overruns request s := by
  rintro ⟨header, accepted, beyond⟩
  cases tracks with
  | head short _ => exact absurd header.1 (Nat.not_le.2 short)
  | badMagic _ bad => exact bad header.2
  | body _ short _ =>
      unfold xheadSize at short
      omega
  | refused _ _ refused => exact refused accepted
  | served _ _ _ short _ => omega

theorem Tracks.waiting {s : List UInt8} {session : Session} (tracks : Tracks request s session)
    (short : s.length < xheadSize ∨ HasHeader s ∧ s.length < xheadSize + bodyLen s) :
    session.calls = [] ∧ ∃ c, session.life = .opened c := by
  cases tracks with
  | head => exact ⟨rfl, _, rfl⟩
  | body => exact ⟨rfl, _, rfl⟩
  | badMagic long bad =>
      rcases short with short | ⟨header, -⟩
      · omega
      · exact absurd header.2 bad
  | refused header whole => have := header.1; omega
  | served header whole => have := header.1; omega

theorem Tracks.rejected {s : List UInt8} {session : Session} (tracks : Tracks request s session)
    (long : xheadSize ≤ s.length) (bad : (Xhead.view s).magicNum ≠ xheadMagicNum) :
    session.calls = [] ∧ session.life = .closed := by
  cases tracks with
  | head short => omega
  | badMagic => exact ⟨rfl, rfl⟩
  | body header => exact absurd header.2 bad
  | refused header => exact absurd header.2 bad
  | served header => exact absurd header.2 bad

theorem Tracks.delivered {s : List UInt8} {session : Session} (tracks : Tracks request s session)
    (header : HasHeader s) (whole : xheadSize + bodyLen s ≤ s.length) :
    session.calls = [requestOf s] := by
  cases tracks with
  | head short => exact absurd header.1 (Nat.not_le.2 short)
  | badMagic _ bad => exact absurd header.2 bad
  | body _ short => omega
  | refused => rfl
  | served => rfl

theorem hasHeader_append {s t : List UInt8} (header : HasHeader s) : HasHeader (s ++ t) := by
  refine ⟨by rw [List.length_append]; exact Nat.le_add_right_of_le header.1, ?_⟩
  rw [Xhead.view_append header.1]
  exact header.2

theorem overruns_append {s t : List UInt8} (beyond : Overruns request s) : Overruns request (s ++ t) := by
  obtain ⟨header, accepted, long⟩ := beyond
  refine ⟨hasHeader_append header, ?_, ?_⟩
  · rwa [requestOf_append (by unfold xheadSize; omega)]
  · rw [bodyLen_append header.1, List.length_append]
    omega

theorem Tracks.closed_append {s t : List UInt8} {session : Session} (tracks : Tracks request s session)
    (closed : session.life = .closed) : Tracks request (s ++ t) session := by
  cases tracks with
  | head => cases closed
  | body => cases closed
  | served => cases closed
  | badMagic long bad =>
      refine .badMagic (by rw [List.length_append]; omega) ?_
      rwa [Xhead.view_append long]
  | refused header whole refused =>
      rw [← requestOf_append (t := t) whole] at refused ⊢
      refine .refused (hasHeader_append header) ?_ refused
      rw [bodyLen_append header.1, List.length_append]
      omega

theorem Parser.moved {c c' : TcpConnection} {s t : List UInt8} {state : ConnState}
    {processed expected : Nat} (fields : Parser c s state processed expected)
    (same : c' = { c with querybuf := c'.querybuf, lastInteraction := c'.lastInteraction })
    (buf : c'.querybuf.buf = t) : Parser c' t state processed expected := by
  rw [same]
  exact ⟨buf, fields.state, fields.processed, fields.expected⟩

theorem process_more {s data : List UInt8} {c c' : TcpConnection} {calls : List Call} (fuel : Nat)
    (tracks : Tracks request s ⟨.opened c, calls⟩)
    (same : c' = { c with querybuf := c'.querybuf, lastInteraction := c'.lastInteraction })
    (buf : c'.querybuf.buf = s ++ data) (within : ¬ Overruns request (s ++ data)) :
    Processed request (s ++ data) (processQueryBuffer request (fuel + 3) c' calls) := by
  cases tracks with
  | head short fields => exact process_head (fields.moved same buf) within
  | body header short fields =>
      rw [← bodyLen_append header.1] at fields
      exact process_body (hasHeader_append header) (fields.moved same buf) within
  | served header whole accepted short fields =>
      rw [← bodyLen_append (t := data) header.1] at fields
      have accepted' : request 0 (requestOf (s ++ data)).1 (requestOf (s ++ data)).2 = 0 := by
        rwa [requestOf_append whole]
      have room : (s ++ data).length < 65535 + bodyLen (s ++ data) := by
        by_contra beyond
        exact within ⟨(hasHeader_append header), accepted', Nat.not_lt.1 beyond⟩
      rw [process_served (fields.moved same buf) room, ← requestOf_append whole]
      refine .served (hasHeader_append header) ?_ accepted' room (fields.moved same buf)
      rw [bodyLen_append header.1, List.length_append]
      omega

theorem after_opened {result : Int × TcpConnection × List Call} {c : TcpConnection}
    (opened : (Session.after result).life = .opened c) : result.2.1 = c := by
  simp only [Session.after] at opened
  split at opened
  · cases opened
  · exact Life.opened.inj opened

theorem afterFill_read {fuel : Nat} {c : TcpConnection} {session : Session} :
    session.afterFill request fuel (some (c, false)) =
      (processQueryBuffer request fuel c session.calls).map Session.after := rfl

section

variable {s data : List UInt8} {c : TcpConnection} {calls : List Call} {e : ReadEvent} {fuel : Nat}

theorem readQuery_opened :
    Session.readQuery request fuel ⟨.opened c, calls⟩ e =
      if (sdsMakeRoomFor c.querybuf c.readLen).isNone then some ⟨.aborted, calls⟩
      else Session.afterFill request fuel ⟨.opened c, calls⟩ (c.fill e.result e.now) := by
  rw [Session.readQuery]

theorem readQuery_made (request : Nat → List UInt8 → List UInt8 → Int) (calls : List Call) (e : ReadEvent)
    (fuel : Nat) {room : Sds} (made : sdsMakeRoomFor c.querybuf c.readLen = some room) :
    Session.readQuery request fuel ⟨.opened c, calls⟩ e =
      Session.afterFill request fuel ⟨.opened c, calls⟩ (c.fill e.result e.now) := by
  rw [readQuery_opened, made]
  exact if_neg Bool.false_ne_true

theorem readQuery_aborts (full : sdsMakeRoomFor c.querybuf c.readLen = none) :
    Session.readQuery request fuel ⟨.opened c, calls⟩ e = some ⟨.aborted, calls⟩ := by
  rw [readQuery_opened, full]
  exact if_pos rfl

theorem readQuery_inv {session session' : Session}
    (read : session.readQuery request fuel e = some session') :
    ((∀ fuel, session.readQuery request fuel e = some session') ∧ session'.calls = session.calls ∧
      ∀ c, session'.life ≠ .opened c) ∨
    ∃ c c' result, session.life = .opened c ∧ c.fill e.result e.now = some (c', false) ∧
      processQueryBuffer request fuel c' session.calls = some result ∧ session' = Session.after result ∧
      ∀ fuel, session.readQuery request fuel e =
        (processQueryBuffer request fuel c' session.calls).map Session.after := by
  obtain ⟨life, calls⟩ := session
  cases life with
  | closed =>
      cases read
      exact .inl ⟨fun _ => rfl, rfl, by simp⟩
  | aborted =>
      cases read
      exact .inl ⟨fun _ => rfl, rfl, by simp⟩
  | broken =>
      cases read
      exact .inl ⟨fun _ => rfl, rfl, by simp⟩
  | opened c =>
      cases made : sdsMakeRoomFor c.querybuf c.readLen with
      | none =>
          rw [readQuery_aborts made] at read
          cases read
          exact .inl ⟨fun _ => readQuery_aborts made, rfl, by simp⟩
      | some room =>
          have reads := fun fuel => readQuery_made request calls e fuel made
          rw [reads] at read
          rcases filled : c.fill e.result e.now with _ | ⟨c', close⟩
          · rw [filled] at read reads
            cases read
            exact .inl ⟨reads, rfl, by simp⟩
          · rw [filled] at read reads
            cases close with
            | true =>
                cases read
                exact .inl ⟨reads, rfl, by simp⟩
            | false =>
                obtain ⟨result, done, rfl⟩ := Option.map_eq_some_iff.1 read
                exact .inr ⟨c, c', result, rfl, filled, done, rfl, reads⟩

/-- An event that does not get to the loop: the length of the buffer overflows, or `body_len` is so
large that `read` fails, if there is a block at all. -/
inductive Stops (request : Nat → List UInt8 → List UInt8 → Int) (s data : List UInt8) (calls : List Call) :
    Session → Prop
  | overflows (reading : Reading request s) (small : expected s < 2 ^ 31)
      (long : 2 ^ 31 ≤ (s ++ data).length) : Stops request s data calls ⟨.broken, calls⟩
  | closes (large : 2 ^ 31 ≤ expected s) : Stops request s data calls ⟨.closed, calls⟩
  | aborts (large : 2 ^ 31 ≤ expected s) : Stops request s data calls ⟨.aborted, calls⟩

theorem Stops.broken {session : Session} (stops : Stops request s data calls session)
    (small : expected s < 2 ^ 31) : session.life = .broken ∧ 2 ^ 31 ≤ (s ++ data).length := by
  cases stops with
  | overflows _ _ long => exact ⟨rfl, long⟩
  | closes large => omega
  | aborts large => omega

/-- An event that gets to the loop with the bytes `s ++ data`. -/
structure Enters (s data : List UInt8) (e : ReadEvent) (c c' : TcpConnection) : Prop where
  small : expected s < 2 ^ 31
  short : (s ++ data).length < 2 ^ 31
  filled : c.fill e.result e.now = some (c', false)
  buf : c'.querybuf.buf = s ++ data

theorem Enters.same {c' : TcpConnection} (enters : Enters s data e c c') :
    c' = { c with querybuf := c'.querybuf, lastInteraction := c'.lastInteraction } :=
  fill_same enters.filled ▸ rfl

theorem readQuery_cases (fuel : Nat) (follows : Follows request s ⟨.opened c, calls⟩)
    (got : sockReadData e.result = some data) :
    (∃ session, Session.readQuery request fuel ⟨.opened c, calls⟩ e = some session ∧
      Stops request s data calls session) ∨
    ∃ c', Enters s data e c c' ∧ Session.readQuery request fuel ⟨.opened c, calls⟩ e =
      (processQueryBuffer request fuel c' calls).map Session.after := by
  have buf := follows.tracks.buf
  have asks := follows.tracks.expected
  have before := follows.short c rfl
  by_cases large : 2 ^ 31 ≤ expected s
  · left
    cases made : sdsMakeRoomFor c.querybuf c.readLen with
    | none => exact ⟨_, readQuery_aborts made, .aborts large⟩
    | some room =>
        have huge : 2 ^ 63 ≤ c.readLen := by
          rw [TcpConnection.readLen, asks]
          exact toSizeT_toInt_huge large (expected_lt s)
        obtain ⟨c', filled⟩ := fill_stop e.result e.now made (by
          rw [sysRead, if_pos huge]
          rfl)
        refine ⟨⟨.closed, calls⟩, ?_, .closes large⟩
        rw [readQuery_made _ _ _ _ made, filled]
        rfl
  · have small : c.bytesExpected < 2 ^ 31 := by omega
    have asked := readLen_eq small
    have len : c.querybuf.buf.length = s.length := by rw [buf]
    obtain ⟨room, made⟩ := sdsMakeRoomFor_some c.querybuf c.readLen (by
      rw [asked, sdslen]
      omega)
    rw [readQuery_made _ _ _ _ made]
    by_cases long : 2 ^ 31 ≤ (s ++ data).length
    · left
      rw [fill_overflows got (by omega) (by rwa [len, ← List.length_append]) (by omega)]
      exact ⟨_, rfl, .overflows follows.tracks.reading (Nat.not_le.1 large) long⟩
    · right
      obtain ⟨c', filled⟩ := fill_stored e.now small got (by
        rw [len, ← List.length_append]
        omega)
      refine ⟨c', ⟨Nat.not_le.1 large, Nat.not_le.1 long, filled, ?_⟩, ?_⟩
      · rw [fill_got filled got, buf]
      · rw [filled, afterFill_read]

end

theorem readQuery_follows {s data : List UInt8} {session : Session} {e : ReadEvent} (fuel : Nat)
    (follows : Follows request s session) (got : sockReadData e.result = some data)
    (within : ¬ Overruns request (s ++ data)) :
    ∃ session', session.readQuery request (fuel + 3) e = some session' ∧
      (Follows request (s ++ data) session' ∨ Stops request s data session.calls session') := by
  obtain ⟨life, calls⟩ := session
  cases life with
  | closed => exact ⟨_, rfl, .inl ⟨follows.tracks.closed_append rfl, fun _ opened => by cases opened⟩⟩
  | aborted => cases follows.tracks
  | broken => cases follows.tracks
  | opened c =>
      rcases readQuery_cases (fuel + 3) follows got with ⟨session', read, stops⟩ | ⟨c', enters, read⟩
      · exact ⟨session', read, .inr stops⟩
      · have processed := process_more fuel follows.tracks enters.same enters.buf within
        rw [read]
        cases done : processQueryBuffer request (fuel + 3) c' calls with
        | none =>
            rw [done] at processed
            exact processed.elim
        | some result =>
            rw [done] at processed
            exact ⟨Session.after result, rfl, .inl ⟨processed, fun _ _ => enters.short⟩⟩

end Xrtc.Proof.Framing
