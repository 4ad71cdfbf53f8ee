import Xrtc.Proof.Framing
import Xrtc.Proof.Xrpc

/-!
# Whole connections

Runs of `read_query` over all the reads of one connection: which bytes are delivered to
`process_request`, and how often it is called.
-/

namespace Xrtc.Proof.ShortConnection
open Server Base Lib Framing

variable {request : Nat → List UInt8 → List UInt8 → Int}

/-! ## A session is what the worker does with one connection -/

theorem process_shift (request : Nat → List UInt8 → List UInt8 → Int) (before calls : List Call) (fuel : Nat)
    (c : TcpConnection) :
    processQueryBuffer request fuel c (before ++ calls) =
      (processQueryBuffer (fun k => request (before.length + k)) fuel c calls).map
        fun (ret, c, calls) => (ret, c, before ++ calls) := by
  induction fuel generalizing c calls with
  | zero => rfl
  | succ fuel ih =>
      rw [processQueryBuffer, processQueryBuffer]
      cases c.queryStep with
      | done => rfl
      | badMagic => rfl
      | header c' => exact ih calls c'
      | request header body =>
          simp only [List.length_append, List.append_assoc]
          split
          · simp
          · exact ih _ _

/-- A worker keeps a connection, closes it or faults as its session says. -/
def Agrees (h : Host) (fd : Int) (c : ConnPtr) : Option Session → Option (Except Fault Host) → Prop
  | none, result => result = none
  | some ⟨.opened obj, _⟩, result =>
      result = some (.ok { h with worker := h.worker.store fd { c with obj := obj } })
  | some ⟨.closed, _⟩, result => ∃ obj, result = some (h.closeConn { c with obj := obj })
  | some ⟨.aborted, _⟩, result => result = some (.error .brokenSds)
  | some ⟨.broken, _⟩, result => result = some (.error .brokenSds)

theorem afterFill_host (h : Host) (fd : Int) (c : ConnPtr) (session : Session) (result : ReadResult)
    (fuel : Nat) (filled : Option (TcpConnection × Bool)) :
    Agrees h fd c (session.afterFill request fuel filled)
      (h.afterFill fd c ⟨result, fun k => request (session.calls.length + k), fuel⟩ filled) := by
  match filled with
  | none => rfl
  | some (obj, true) => exact ⟨obj, rfl⟩
  | some (obj, false) =>
      have shifted := process_shift request session.calls [] fuel obj
      rw [List.append_nil] at shifted
      rw [afterFill_read, shifted, Host.afterFill]
      match processQueryBuffer (fun k => request (session.calls.length + k)) fuel obj [] with
      | none => rfl
      | some (ret, obj', calls) =>
          by_cases accepted : ret = 0
          · simp [Session.after, Agrees, accepted]
          · simp only [Option.map_some, Session.after, ne_eq, accepted, not_false_eq_true, if_true]
            exact ⟨obj', rfl⟩

theorem readQuery_host {h : Host} {fd : Int} {c : ConnPtr} (held : lookup h.worker.conns fd = some c)
    (calls : List Call) (e : ReadEvent) (fuel : Nat) :
    Agrees h fd c (Session.readQuery request fuel ⟨.opened c.obj, calls⟩ e)
      (h.readQuery fd ⟨e.result, fun k => request (calls.length + k), fuel⟩ e.now) := by
  have opened : h.readQuery fd ⟨e.result, fun k => request (calls.length + k), fuel⟩ e.now =
      h.afterFill fd c ⟨e.result, fun k => request (calls.length + k), fuel⟩
        (c.obj.fill e.result e.now) := by
    rw [Host.readQuery, held]
  rw [opened]
  cases made : sdsMakeRoomFor c.obj.querybuf c.obj.readLen with
  | none =>
      rw [readQuery_aborts made, TcpConnection.fill, made]
      rfl
  | some room =>
      rw [readQuery_made _ _ _ _ made]
      exact afterFill_host h fd c ⟨.opened c.obj, calls⟩ e.result fuel _

/-! ## The reads of a connection -/

theorem received_cons {e : ReadEvent} {reads : List ReadEvent} {data : List UInt8}
    (got : sockReadData e.result = some data) : received (e :: reads) = data ++ received reads := by
  match result : e.result with
  | .received [] => simp [result, sockReadData] at got
  | .received (byte :: rest) =>
      obtain rfl : byte :: rest = data := by simpa [result, sockReadData] using got
      simp [received, result]
  | .again =>
      obtain rfl : [] = data := by simpa [result, sockReadData] using got
      simp [received, result]
  | .failed => simp [result, sockReadData] at got

theorem received_stop {e : ReadEvent} {reads : List ReadEvent} (stop : sockReadData e.result = none) :
    received (e :: reads) = [] := by
  match result : e.result with
  | .received [] => simp [received, result]
  | .received (byte :: rest) => simp [result, sockReadData] at stop
  | .again => simp [result, sockReadData] at stop
  | .failed => simp [received, result]

theorem received_front (part rest : List ReadEvent) : received part <+: received (part ++ rest) := by
  induction part with
  | nil => exact List.nil_prefix
  | cons e part ih =>
      rw [List.cons_append]
      cases got : sockReadData e.result with
      | none =>
          rw [received_stop got]
          exact List.nil_prefix
      | some data =>
          rw [received_cons got, received_cons got]
          exact (List.prefix_append_right_inj data).2 ih

theorem offeredAfter_cons {s : List UInt8} {e : ReadEvent} {reads : List ReadEvent} {data : List UInt8}
    (offered : OfferedAfter s (e :: reads)) (got : sockReadData e.result = some data) :
    data.length ≤ toSizeT (toInt (expected s)) ∧ OfferedAfter (s ++ data) reads := by
  match result : e.result with
  | .received [] => simp [result, sockReadData] at got
  | .received (byte :: rest) =>
      obtain rfl : byte :: rest = data := by simpa [result, sockReadData] using got
      simpa [OfferedAfter, result] using offered
  | .again =>
      obtain rfl : [] = data := by simpa [result, sockReadData] using got
      simpa [OfferedAfter, result] using offered
  | .failed => simp [result, sockReadData] at got

theorem start_follows (request : Nat → List UInt8 → List UInt8 → Int) (fd : Int) (ioWatcher timerWatcher now : Nat) :
    Follows request [] (Session.start fd ioWatcher timerWatcher now) := by
  exact ⟨.head (by decide) ⟨rfl, rfl, rfl, rfl⟩, fun _ _ => by decide⟩

theorem expected_small {s t : List UInt8} (small : expected (s ++ t) < 2 ^ 31) : expected s < 2 ^ 31 := by
  by_cases short : s.length < xheadSize
  · rw [expected_of_lt short]
    decide
  · rwa [← expected_append (t := t) (Nat.not_lt.1 short)]

/-! ## Runs without the end of the stream -/

theorem serve_follows {reads : List ReadEvent} {s : List UInt8} {session : Session} (fuel : Nat)
    (follows : Follows request s session) (delivering : ∀ e ∈ reads, sockReadData e.result ≠ none)
    (within : ¬ Overruns request (s ++ received reads)) (small : expected (s ++ received reads) < 2 ^ 31)
    (short : (s ++ received reads).length < 2 ^ 31) :
    ∃ session', session.serve request (fuel + 3) reads = some session' ∧
      Follows request (s ++ received reads) session' := by
  induction reads generalizing s session with
  | nil => exact ⟨session, rfl, by simpa [received] using follows⟩
  | cons e reads ih =>
      obtain ⟨data, got⟩ := Option.ne_none_iff_exists'.1 (delivering e (by simp))
      rw [received_cons got, ← List.append_assoc] at within small short ⊢
      have withinNow : ¬ Overruns request (s ++ data) := fun beyond => within (overruns_append beyond)
      obtain ⟨session₁, read, outcome⟩ := readQuery_follows fuel follows got withinNow
      have follows₁ : Follows request (s ++ data) session₁ := by
        refine outcome.resolve_right fun stops => ?_
        have long := (stops.broken (expected_small (t := data) (expected_small small))).2
        rw [List.length_append] at short
        omega
      obtain ⟨session', served, follows'⟩ := ih follows₁
        (fun e member => delivering e (by simp [member])) within small short
      exact ⟨session', by rw [Session.serve, read]; exact served, follows'⟩

/-! ## Framing under every fragmentation -/

/-- The reads bring the bytes `s`, in any pieces and with any number of `EAGAIN` between them. -/
structure Delivers (reads : List ReadEvent) (s : List UInt8) : Prop where
  offered : Offered reads
  reading : ∀ e ∈ reads, sockReadData e.result ≠ none
  bytes : received reads = s

/-- A part of a frame whose header announces at most `2^29` bytes. -/
structure FramePart (head body s : List UInt8) : Prop where
  header : head.length = xheadSize
  size : bodyLen head ≤ 2 ^ 29
  exact : body.length = bodyLen head
  front : s <+: head ++ body

theorem FramePart.append {head body s : List UInt8} (part : FramePart head body s)
    (long : xheadSize ≤ s.length) : ∃ rest, s = head ++ rest := by
  obtain ⟨rest, whole⟩ := part.front
  have headFront : head <+: s := by
    refine List.prefix_of_prefix_length_le (List.prefix_append head body) ⟨rest, whole⟩ ?_
    rw [part.header]
    exact long
  exact ⟨_, headFront.choose_spec.symm⟩

theorem FramePart.bodyLen_eq {head body s : List UInt8} (part : FramePart head body s)
    (long : xheadSize ≤ s.length) : bodyLen s = bodyLen head := by
  obtain ⟨rest, rfl⟩ := part.append long
  exact bodyLen_append part.header.ge

theorem FramePart.view_eq {head body s : List UInt8} (part : FramePart head body s)
    (long : xheadSize ≤ s.length) : Xhead.view s = Xhead.view head := by
  obtain ⟨rest, rfl⟩ := part.append long
  exact Xhead.view_append part.header.ge

theorem FramePart.length_le {head body s : List UInt8} (part : FramePart head body s) :
    s.length ≤ xheadSize + bodyLen head := by
  have bound := part.front.length_le
  rwa [List.length_append, part.header, part.exact] at bound

theorem serve_part {head body s : List UInt8} {reads : List ReadEvent} (part : FramePart head body s)
    (delivers : Delivers reads s) (request : Nat → List UInt8 → List UInt8 → Int) (fuel : Nat) (fd : Int)
    (ioWatcher timerWatcher now : Nat) :
    ∃ session, (Session.start fd ioWatcher timerWatcher now).serve request (fuel + 3) reads =
      some session ∧ Tracks request s session := by
  have bound := part.length_le
  have size := part.size
  have within : ¬ Overruns request s := by
    rintro ⟨header, -, beyond⟩
    rw [part.bodyLen_eq header.1] at beyond
    unfold xheadSize at bound
    omega
  have small : expected s < 2 ^ 31 := by
    unfold expected
    split
    · decide
    · next long =>
        rw [part.bodyLen_eq (Nat.not_lt.1 long)]
        omega
  have short : s.length < 2 ^ 31 := by
    unfold xheadSize at bound
    omega
  obtain ⟨session, served, follows⟩ := serve_follows fuel
    (start_follows request fd ioWatcher timerWatcher now) delivers.reading
    (by rwa [List.nil_append, delivers.bytes]) (by rwa [List.nil_append, delivers.bytes])
    (by rwa [List.nil_append, delivers.bytes])
  rw [List.nil_append, delivers.bytes] at follows
  exact ⟨session, served, follows.tracks⟩

theorem requestOf_frame {head body : List UInt8} (header : head.length = xheadSize)
    (exact : body.length = bodyLen head) : requestOf (head ++ body) = (head, body) := by
  have front : slice (head ++ body) 0 xheadSize = head := by
    rw [slice_append_left (by omega), slice_whole header]
  have back : slice (head ++ body) xheadSize (bodyLen head) = body := by
    rw [slice_append_right (by omega), header, Nat.sub_self, slice_whole exact]
  rw [requestOf, bodyLen_append header.ge, front, back]

/-- The calls of `process_request` on one connection, `send k` being what `send_rtc_msg` returns in
call number `k`. -/
def handler {V W : Type} (json : Json V) (send : Nat → RtcMsg W → Int) (worker : W) (conn : Nat)
    (fd : Int) : Nat → List UInt8 → List UInt8 → Int :=
  fun k => processRequest json (send k) worker conn fd

def sampleHandler : Nat → List UInt8 → List UInt8 → Int := handler Json.sample (fun _ _ => 0) () 1 5

def clientHeader (bodyLen : UInt32) : List UInt8 :=
  Xrpc.image { magicNum := xheadMagicNum, bodyLen := bodyLen }

theorem serve_newRequest (request : Nat → List UInt8 → List UInt8 → Int) (fuel : Nat) (fd : Int)
    (ioWatcher timerWatcher now : Nat) {content frame : List UInt8} {logId : UInt32} {r : Go.Request}
    {reads : List ReadEvent} (size : content.length ≤ 2 ^ 29)
    (made : Go.newRequest (.bytes content) logId = some r) (written : r.write = .ok frame)
    (delivers : Delivers reads frame) :
    ∃ session header, (Session.start fd ioWatcher timerWatcher now).serve request (fuel + 3) reads =
        some session ∧
      session.calls = [(header, content)] ∧ (Xhead.view header).logId = logId := by
  obtain ⟨header, rfl, log, magic, len⟩ := Xrpc.write_newRequest (by omega) made written
  have view : Xrpc.headerOf (Xhead.view (Xrpc.image header)) = header := Xrpc.view_image header
  have bodyLen_eq : bodyLen (Xrpc.image header) = content.length := by
    rw [← len, ← congrArg Go.Header.bodyLen view]
    rfl
  have part : FramePart (Xrpc.image header) content (Xrpc.image header ++ content) :=
    ⟨Xrpc.image_length header, by omega, bodyLen_eq.symm, List.prefix_refl _⟩
  obtain ⟨session, served, tracks⟩ :=
    serve_part part delivers request fuel fd ioWatcher timerWatcher now
  have hasHeader : HasHeader (Xrpc.image header) :=
    ⟨part.header.ge, (congrArg Go.Header.magicNum view).trans magic⟩
  refine ⟨session, Xrpc.image header, served, ?_, (congrArg Go.Header.logId view).trans log⟩
  rw [tracks.delivered (hasHeader_append hasHeader), requestOf_frame part.header part.exact]
  rw [bodyLen_append part.header.ge, List.length_append, part.header, part.exact]

/-- However the bytes are cut, the session depends on them alone. -/
theorem serve_framing (request : Nat → List UInt8 → List UInt8 → Int) (fuel : Nat) (fd : Int)
    (ioWatcher timerWatcher now : Nat) :
    (∀ head body s reads, FramePart head body s → Delivers reads s →
      ∃ session, (Session.start fd ioWatcher timerWatcher now).serve request (fuel + 3) reads =
          some session ∧
        (s.length < xheadSize → session.calls = [] ∧ ∃ c, session.life = .opened c) ∧
        (xheadSize ≤ s.length → (Xhead.view head).magicNum ≠ xheadMagicNum →
          session.calls = [] ∧ session.life = .closed) ∧
        ((Xhead.view head).magicNum = xheadMagicNum → s.length < xheadSize + bodyLen head →
          session.calls = [] ∧ ∃ c, session.life = .opened c) ∧
        ((Xhead.view head).magicNum = xheadMagicNum → s.length = xheadSize + bodyLen head →
          session.calls = [(slice s 0 xheadSize, slice s xheadSize (bodyLen head))])) ∧
    (∀ content logId r frame reads, content.length ≤ 2 ^ 29 →
      Go.newRequest (.bytes content) logId = some r → r.write = .ok frame → Delivers reads frame →
      ∃ session header, (Session.start fd ioWatcher timerWatcher now).serve request (fuel + 3) reads =
          some session ∧
        session.calls = [(header, content)] ∧ (Xhead.view header).logId = logId) := by
  constructor
  · intro head body s reads part delivers
    obtain ⟨session, served, tracks⟩ :=
      serve_part part delivers request fuel fd ioWatcher timerWatcher now
    refine ⟨session, served, fun short => tracks.waiting (.inl short), fun long bad => ?_,
      fun magic short => ?_, fun magic whole => ?_⟩
    · exact tracks.rejected long (by rwa [part.view_eq long])
    · refine tracks.waiting ((Nat.lt_or_ge s.length xheadSize).imp_right fun long => ?_)
      rw [part.bodyLen_eq long]
      exact ⟨⟨long, by rwa [part.view_eq long]⟩, short⟩
    · have long : xheadSize ≤ s.length := by omega
      have delivered := tracks.delivered ⟨long, by rwa [part.view_eq long]⟩
        (by rw [part.bodyLen_eq long, whole])
      rwa [requestOf, part.bodyLen_eq long] at delivered
  · intro content logId r frame reads size made written delivers
    exact serve_newRequest request fuel fd ioWatcher timerWatcher now size made written delivers

def piecewise : List ReadEvent :=
  [⟨.received ((clientHeader 11).take 20), 0⟩, ⟨.again, 0⟩,
    ⟨.received ((clientHeader 11).drop 20 ++ pullText.take 1), 0⟩, ⟨.received (pullText.drop 1), 0⟩]

theorem serve_framing_piecewise :
    FramePart (clientHeader 11) pullText (clientHeader 11 ++ pullText) ∧
      Delivers piecewise (clientHeader 11 ++ pullText) ∧
      ∃ session, (Session.start 5 0 1 0).serve sampleHandler 3 piecewise =
        some session ∧ session.calls = [(clientHeader 11, pullText)] := by
  have part : FramePart (clientHeader 11) pullText (clientHeader 11 ++ pullText) :=
    ⟨by decide, by decide, by decide, List.prefix_refl _⟩
  have delivers : Delivers piecewise (clientHeader 11 ++ pullText) :=
    ⟨by decide, by decide, by decide⟩
  obtain ⟨session, served, -, -, -, whole⟩ :=
    (serve_framing sampleHandler 0 5 0 1 0).1 _ _ _ _ part delivers
  exact ⟨part, delivers, session, served, whole (by decide) (by decide)⟩

/-! ## The second call -/

theorem process_calls {c : TcpConnection} {calls : List Call} {fuel : Nat}
    {result : Int × TcpConnection × List Call}
    (done : processQueryBuffer request fuel c calls = some result) : calls.length ≤ result.2.2.length := by
  induction fuel generalizing c calls with
  | zero => cases done
  | succ fuel ih =>
      rw [processQueryBuffer] at done
      cases step : c.queryStep with
      | done => rw [step] at done; cases done; exact le_rfl
      | badMagic => rw [step] at done; cases done; exact le_rfl
      | header c' =>
          rw [step] at done
          exact ih done
      | request header body =>
          simp only [step] at done
          split at done
          · cases done
            simp
          · have more := ih done
            simp only [List.length_append] at more
            omega

theorem process_request_calls {c : TcpConnection} {calls : List Call} {fuel : Nat}
    {result : Int × TcpConnection × List Call} {header body : List UInt8}
    (step : c.queryStep = .request header body)
    (done : processQueryBuffer request fuel c calls = some result) :
    calls.length + 1 ≤ result.2.2.length := by
  cases fuel with
  | zero => cases done
  | succ fuel =>
      simp only [processQueryBuffer, step] at done
      split at done
      · cases done
        simp
      · simpa using process_calls done

theorem process_again {c : TcpConnection} {s : List UInt8} {calls : List Call} {fuel : Nat}
    {result : Int × TcpConnection × List Call} (fields : Parser c s .body 65535 (bodyLen s))
    (long : 65535 + bodyLen s ≤ s.length)
    (done : processQueryBuffer request fuel c calls = some result) : result.1 ≠ 0 := by
  induction fuel generalizing c calls with
  | zero => cases done
  | succ fuel ih =>
      simp only [processQueryBuffer, queryStep_request fields long] at done
      split at done
      · rw [← Option.some.inj done]
        exact Int.neg_ne_zero.2 one_ne_zero
      · exact ih fields.afterRequest done

theorem process_overruns_body {c : TcpConnection} {s : List UInt8} {fuel : Nat}
    {result : Int × TcpConnection × List Call} (beyond : Overruns request s)
    (fields : Parser c s .body xheadSize (bodyLen s))
    (done : processQueryBuffer request fuel c [] = some result) :
    2 ≤ result.2.2.length ∧ result.1 ≠ 0 := by
  obtain ⟨-, accepted, long⟩ := beyond
  have served := fields.afterRequest
  cases fuel with
  | zero => cases done
  | succ fuel =>
      rw [processQueryBuffer, queryStep_request fields (by unfold xheadSize; omega)] at done
      simp only [List.length_nil, accepted, ne_eq, not_true_eq_false, if_false] at done
      exact ⟨process_request_calls (queryStep_request served long) done, process_again served long done⟩

theorem process_overruns_head {c : TcpConnection} {s : List UInt8} {fuel : Nat}
    {result : Int × TcpConnection × List Call} (beyond : Overruns request s)
    (fields : Parser c s .head 0 xheadSize)
    (done : processQueryBuffer request fuel c [] = some result) :
    2 ≤ result.2.2.length ∧ result.1 ≠ 0 := by
  obtain ⟨long, magic⟩ := beyond.1
  cases fuel with
  | zero => cases done
  | succ fuel =>
      obtain ⟨c', step, inBody⟩ := queryStep_header fields (by omega) magic
      rw [processQueryBuffer, step] at done
      exact process_overruns_body beyond (Nat.zero_add xheadSize ▸ inBody) done

theorem process_overruns {s data : List UInt8} {c c' : TcpConnection} {calls : List Call} {fuel : Nat}
    {result : Int × TcpConnection × List Call} (tracks : Tracks request s ⟨.opened c, calls⟩)
    (same : c' = { c with querybuf := c'.querybuf, lastInteraction := c'.lastInteraction })
    (buf : c'.querybuf.buf = s ++ data) (beyond : Overruns request (s ++ data))
    (done : processQueryBuffer request fuel c' calls = some result) :
    2 ≤ result.2.2.length ∧ result.1 ≠ 0 := by
  cases tracks with
  | head short fields => exact process_overruns_head beyond (fields.moved same buf) done
  | body header short fields =>
      rw [← bodyLen_append header.1] at fields
      exact process_overruns_body beyond (fields.moved same buf) done
  | served header whole accepted short fields =>
      rw [← bodyLen_append (t := data) header.1] at fields
      have moved := fields.moved same buf
      exact ⟨process_request_calls (queryStep_request moved beyond.2.2) done,
        process_again moved beyond.2.2 done⟩

theorem readQuery_calls {session session' : Session} {e : ReadEvent} {fuel : Nat}
    (read : session.readQuery request fuel e = some session') :
    session.calls.length ≤ session'.calls.length := by
  rcases readQuery_inv read with ⟨-, calls, -⟩ | ⟨c, c', result, -, -, done, rfl, -⟩
  · exact calls ▸ le_rfl
  · exact process_calls done

theorem serve_calls {reads : List ReadEvent} {session session' : Session} {fuel : Nat}
    (served : session.serve request fuel reads = some session') :
    session.calls.length ≤ session'.calls.length := by
  induction reads generalizing session with
  | nil => cases served; exact le_rfl
  | cons e reads ih =>
      obtain ⟨session₁, read, rest⟩ := Option.bind_eq_some_iff.1 served
      exact (readQuery_calls read).trans (ih rest)

theorem process_more_fuel {c : TcpConnection} {calls : List Call} {fuel : Nat} (extra : Nat)
    {result : Int × TcpConnection × List Call}
    (done : processQueryBuffer request fuel c calls = some result) :
    processQueryBuffer request (fuel + extra) c calls = some result := by
  induction fuel generalizing c calls with
  | zero => cases done
  | succ fuel ih =>
      rw [Nat.succ_add_eq_add_succ, Nat.add_succ, processQueryBuffer]
      rw [processQueryBuffer] at done
      cases step : c.queryStep with
      | done => rwa [step] at done
      | badMagic => rwa [step] at done
      | header c' =>
          rw [step] at done
          exact ih done
      | request header body =>
          simp only [step] at done ⊢
          split at done
          · next refused => rwa [if_pos refused]
          · next accepted =>
              rw [if_neg accepted]
              exact ih done

theorem readQuery_more_fuel {session session' : Session} {e : ReadEvent} {fuel : Nat} (extra : Nat)
    (read : session.readQuery request fuel e = some session') :
    session.readQuery request (fuel + extra) e = some session' := by
  rcases readQuery_inv read with ⟨reads, -, -⟩ | ⟨c, c', result, -, -, done, rfl, reads⟩
  · exact reads _
  · rw [reads, process_more_fuel extra done]
    rfl

/-! ## How often `process_request` is called -/

/-- The connection that has received `s` takes a read that brings it to `t`, and the length of the
buffer overflows or the loop sees a second request. -/
def Over (request : Nat → List UInt8 → List UInt8 → Int) (s t : List UInt8) : Prop :=
  Reading request s ∧ expected s < 2 ^ 31 ∧ (2 ^ 31 ≤ t.length ∨ Overruns request t)

theorem Over.ne {s t : List UInt8} {session : Session} (follows : Follows request s session)
    (overrun : Over request s t) : t ≠ s := by
  rintro rfl
  obtain ⟨reading, -, long | beyond⟩ := overrun
  · obtain ⟨c, opened⟩ := follows.tracks.opened reading
    exact absurd (follows.short c opened) (Nat.not_lt.2 long)
  · exact follows.tracks.within beyond

theorem over_append {s data : List UInt8} (beyond : Overruns request (s ++ data))
    (short : (s ++ data).length < 2 ^ 31) : Over request s (s ++ data) := by
  obtain ⟨header, accepted, long⟩ := beyond
  by_cases part : s.length < xheadSize
  · exact ⟨.inl part, by rw [expected_of_lt part]; decide, .inr ⟨header, accepted, long⟩⟩
  · have front : xheadSize ≤ s.length := Nat.not_lt.1 part
    have magic : HasHeader s := ⟨front, by rw [← Xhead.view_append front]; exact header.2⟩
    refine ⟨.inr ⟨magic, ?_⟩, ?_, .inr ⟨header, accepted, long⟩⟩
    · by_cases whole : s.length < xheadSize + bodyLen s
      · exact .inl whole
      · rw [requestOf_append (Nat.not_lt.1 whole)] at accepted
        exact .inr accepted
    · rw [bodyLen_append front] at long
      rw [expected_of_le front]
      omega

theorem serve_stopped {session : Session} (reads : List ReadEvent) (fuel : Nat)
    (stopped : ∀ c, session.life ≠ .opened c) : session.serve request fuel reads = some session := by
  induction reads with
  | nil => rfl
  | cons e reads ih =>
      have read : session.readQuery request fuel e = some session := by
        obtain ⟨life, calls⟩ := session
        cases life with
        | opened c => exact absurd rfl (stopped c)
        | closed => rfl
        | aborted => rfl
        | broken => rfl
      rw [Session.serve, read]
      exact ih

theorem readQuery_stop {session : Session} {e : ReadEvent} (fuel : Nat) (intact : session.life ≠ .broken)
    (stop : sockReadData e.result = none) :
    ∃ session', session.readQuery request fuel e = some session' ∧ session'.calls = session.calls ∧
      session'.life ≠ .broken ∧ ∀ c, session'.life ≠ .opened c := by
  obtain ⟨life, calls⟩ := session
  cases life with
  | closed => exact ⟨_, rfl, rfl, by simp, by simp⟩
  | aborted => exact ⟨_, rfl, rfl, by simp, by simp⟩
  | broken => exact absurd rfl intact
  | opened c =>
      cases made : sdsMakeRoomFor c.querybuf c.readLen with
      | none => exact ⟨_, readQuery_aborts made, rfl, by simp, by simp⟩
      | some room =>
          have stop' : sockReadData (sysRead c.readLen e.result) = none := by
            cases got : sockReadData (sysRead c.readLen e.result) with
            | none => rfl
            | some data => cases stop.symm.trans (sysRead_got got)
          obtain ⟨c', filled⟩ := fill_stop e.result e.now made stop'
          refine ⟨⟨.closed, calls⟩, ?_, rfl, by simp, by simp⟩
          rw [readQuery_made _ _ _ _ made, filled]
          rfl

theorem Tracks.calls_le {s : List UInt8} {session : Session} (tracks : Tracks request s session) :
    session.calls.length ≤ 1 := by
  cases tracks <;> simp

theorem Tracks.intact {s : List UInt8} {session : Session} (tracks : Tracks request s session) :
    session.life ≠ .broken := by
  cases tracks <;> simp

theorem readQuery_over {s data : List UInt8} {session : Session} {e : ReadEvent} (fuel : Nat)
    (follows : Follows request s session) (got : sockReadData e.result = some data)
    (beyond : Overruns request (s ++ data)) :
    (∃ session', session.readQuery request fuel e = some session' ∧
        Stops request s data session.calls session') ∨
      (Over request s (s ++ data) ∧ ∀ session', session.readQuery request fuel e = some session' →
        2 ≤ session'.calls.length) := by
  obtain ⟨life, calls⟩ := session
  cases life with
  | closed => exact absurd beyond (follows.tracks.closed_append rfl).within
  | aborted => cases follows.tracks
  | broken => cases follows.tracks
  | opened c =>
      rcases readQuery_cases fuel follows got with stops | ⟨c', enters, read⟩
      · exact .inl stops
      · refine .inr ⟨⟨follows.tracks.reading, enters.small, .inr beyond⟩, fun session' read' => ?_⟩
        obtain ⟨result, done, rfl⟩ := Option.map_eq_some_iff.1 (read.symm.trans read')
        exact (process_overruns follows.tracks enters.same enters.buf beyond done).1

theorem readQuery_once {s data : List UInt8} {session : Session} {e : ReadEvent}
    (follows : Follows request s session) (got : sockReadData e.result = some data)
    (fine : ¬ Over request s (s ++ data)) :
    ∃ session', session.readQuery request 3 e = some session' ∧ (Follows request (s ++ data) session' ∨
      session'.calls = session.calls ∧ session'.life ≠ .broken ∧ ∀ c, session'.life ≠ .opened c) := by
  have settled {session'} (stops : Stops request s data session.calls session') :
      session'.calls = session.calls ∧ session'.life ≠ .broken ∧ ∀ c, session'.life ≠ .opened c := by
    cases stops with
    | overflows reading small long => exact absurd ⟨reading, small, .inl long⟩ fine
    | closes => exact ⟨rfl, by simp, by simp⟩
    | aborts => exact ⟨rfl, by simp, by simp⟩
  by_cases beyond : Overruns request (s ++ data)
  · rcases readQuery_over 3 follows got beyond with ⟨session', read, stops⟩ | ⟨overrun, -⟩
    · exact ⟨session', read, .inr (settled stops)⟩
    · exact absurd overrun fine
  · obtain ⟨session', read, outcome⟩ := readQuery_follows 0 follows got beyond
    exact ⟨session', read, outcome.imp_right settled⟩

theorem serve_once {reads : List ReadEvent} {s : List UInt8} {session : Session}
    (follows : Follows request s session)
    (fine : ∀ part e, part ++ [e] <+: reads →
      ¬ Over request (s ++ received part) (s ++ received (part ++ [e]))) :
    ∃ session', session.serve request 3 reads = some session' ∧ session'.life ≠ .broken ∧
      session'.calls.length ≤ 1 := by
  induction reads generalizing s session with
  | nil => exact ⟨session, rfl, Tracks.intact follows.tracks, Tracks.calls_le follows.tracks⟩
  | cons e reads ih =>
      have stopped {session'} (read : session.readQuery request 3 e = some session')
          (calls : session'.calls = session.calls) (intact : session'.life ≠ .broken)
          (stop : ∀ c, session'.life ≠ .opened c) :
          ∃ session', session.serve request 3 (e :: reads) = some session' ∧ session'.life ≠ .broken ∧
            session'.calls.length ≤ 1 := by
        refine ⟨session', ?_, intact, calls ▸ Tracks.calls_le follows.tracks⟩
        rw [Session.serve, read]
        exact serve_stopped reads 3 stop
      cases got : sockReadData e.result with
      | none =>
          obtain ⟨session', read, calls, intact, stop⟩ :=
            readQuery_stop 3 (Tracks.intact follows.tracks) got
          exact stopped read calls intact stop
      | some data =>
          have now : ¬ Over request s (s ++ data) := by
            have first := fine [] e (List.prefix_append [e] reads)
            rwa [List.nil_append, received_cons got, received, List.append_nil, List.append_nil] at first
          obtain ⟨session₁, read, follows₁ | ⟨calls, intact, stop⟩⟩ := readQuery_once follows got now
          · obtain ⟨session', served, result⟩ := ih follows₁ fun part e' front => by
              have later := fine (e :: part) e' ((List.prefix_cons_inj e).2 front)
              rwa [List.cons_append, received_cons got, received_cons got, ← List.append_assoc,
                ← List.append_assoc] at later
            exact ⟨session', by rw [Session.serve, read]; exact served, result⟩
          · exact stopped read calls intact stop

theorem serve_broken {reads : List ReadEvent} {session session' : Session} {fuel : Nat}
    (broken : session.life = .broken) (served : session.serve request fuel reads = some session') :
    session'.life = .broken := by
  rw [serve_stopped reads fuel (by simp [broken])] at served
  exact Option.some.inj served ▸ broken

theorem Over.read {s data : List UInt8} {session session' : Session} {e : ReadEvent} {fuel : Nat}
    (overrun : Over request s (s ++ data)) (follows : Follows request s session)
    (got : sockReadData e.result = some data) (read : session.readQuery request fuel e = some session') :
    session'.life = .broken ∧ 2 ^ 31 ≤ (s ++ data).length ∨ 2 ≤ session'.calls.length := by
  obtain ⟨reading, small, wrong⟩ := overrun
  obtain ⟨life, calls⟩ := session
  obtain ⟨c, opened⟩ := follows.tracks.opened reading
  obtain rfl : life = .opened c := opened
  rcases readQuery_cases fuel follows got with ⟨session₁, read', stops⟩ | ⟨c', enters, read'⟩
  · obtain rfl := Option.some.inj (read.symm.trans read')
    exact .inl (stops.broken small)
  · have beyond := wrong.resolve_left (Nat.not_le.2 enters.short)
    obtain ⟨result, done, rfl⟩ := Option.map_eq_some_iff.1 (read'.symm.trans read)
    exact .inr (process_overruns follows.tracks enters.same enters.buf beyond done).1

theorem serve_over {part rest : List ReadEvent} {e : ReadEvent} {s : List UInt8}
    {session session' : Session} {fuel : Nat} (follows : Follows request s session)
    (overrun : Over request (s ++ received part) (s ++ received (part ++ [e])))
    (served : session.serve request fuel (part ++ e :: rest) = some session') :
    session'.life = .broken ∧ 2 ^ 31 ≤ (s ++ received (part ++ [e])).length ∨
      2 ≤ session'.calls.length := by
  induction part generalizing s session with
  | nil =>
      obtain ⟨session₁, read, later⟩ := Option.bind_eq_some_iff.1 served
      rw [List.nil_append, received, List.append_nil] at overrun
      cases got : sockReadData e.result with
      | none =>
          rw [received_stop got, List.append_nil] at overrun
          exact absurd rfl (overrun.ne follows)
      | some data =>
          rw [received_cons got, received, List.append_nil] at overrun
          rw [List.nil_append, received_cons got, received, List.append_nil]
          exact (overrun.read follows got read).imp (fun ⟨broken, long⟩ => ⟨serve_broken broken later, long⟩)
            fun twice => twice.trans (serve_calls later)
  | cons e₀ part ih =>
      obtain ⟨session₁, read, later⟩ := Option.bind_eq_some_iff.1 served
      cases got : sockReadData e₀.result with
      | none =>
          rw [List.cons_append, received_stop got, received_stop got, List.append_nil] at overrun
          exact absurd rfl (overrun.ne follows)
      | some data =>
          rw [received_cons got, ← List.append_assoc] at overrun
          rw [List.cons_append, received_cons got, ← List.append_assoc] at overrun ⊢
          have small : expected s < 2 ^ 31 := expected_small (t := data) (expected_small overrun.2.1)
          have stopped (stops : Stops request s data session.calls session₁) :
              session'.life = .broken ∧ 2 ^ 31 ≤ (s ++ data ++ received (part ++ [e])).length := by
            obtain ⟨broken, long⟩ := stops.broken small
            refine ⟨serve_broken broken later, ?_⟩
            rw [List.length_append]
            omega
          by_cases beyond : Overruns request (s ++ data)
          · rcases readQuery_over fuel follows got beyond with ⟨session₂, read', stops⟩ | ⟨-, twice⟩
            · obtain rfl := Option.some.inj (read.symm.trans read')
              exact .inl (stopped stops)
            · exact .inr ((twice session₁ read).trans (serve_calls later))
          · obtain ⟨session₂, read', outcome⟩ := readQuery_follows fuel follows got beyond
            obtain rfl := Option.some.inj ((readQuery_more_fuel 3 read).symm.trans read')
            rcases outcome with follows₁ | stops
            · exact ih follows₁ overrun later
            · exact .inl (stopped stops)

theorem overruns_twice {session : Session} {fuel : Nat} {fd : Int} {ioWatcher timerWatcher now : Nat}
    (part : List ReadEvent) (e : ReadEvent) (beyond : Overruns request (received (part ++ [e])))
    (short : (received (part ++ [e])).length < 2 ^ 31)
    (served : (Session.start fd ioWatcher timerWatcher now).serve request fuel (part ++ [e]) = some session) :
    2 ≤ session.calls.length := by
  obtain ⟨data, whole⟩ := received_front part [e]
  have overrun : Over request (received part) (received (part ++ [e])) := by
    rw [← whole] at beyond short ⊢
    exact over_append beyond short
  rcases serve_over (start_follows request fd ioWatcher timerWatcher now) overrun served with ⟨-, long⟩ | twice
  · exact absurd long (Nat.not_le.2 short)
  · exact twice

/-- Every call of the loop returns and `process_request` is called at most once, exactly when no read
of the connection brings the buffer to `2^31` bytes, or that of an accepted request to
`65535 + body_len`. -/
theorem one_request_iff {V W : Type} (json : Json V) (send : Nat → RtcMsg W → Int) (worker : W)
    (conn : Nat) (fd : Int) (ioWatcher timerWatcher now : Nat) (reads : List ReadEvent) :
    (∃ fuel session, (Session.start fd ioWatcher timerWatcher now).serve
        (handler json send worker conn fd) fuel reads = some session ∧ session.life ≠ .broken ∧
        session.calls.length ≤ 1) ↔
      ∀ part e, part ++ [e] <+: reads →
        ¬ Over (handler json send worker conn fd) (received part) (received (part ++ [e])) := by
  have start := start_follows (handler json send worker conn fd) fd ioWatcher timerWatcher now
  constructor
  · rintro ⟨fuel, session, served, intact, once⟩ part e ⟨rest, rfl⟩ overrun
    rw [List.append_assoc] at served
    rcases serve_over start overrun served with ⟨broken, -⟩ | twice
    · exact intact broken
    · omega
  · intro fine
    obtain ⟨session, served, result⟩ := serve_once start fine
    exact ⟨3, session, served, result⟩

theorem one_request_iff_piecewise : ∀ part e, part ++ [e] <+: piecewise →
    ¬ Over sampleHandler (received part) (received (part ++ [e])) := by
  refine (one_request_iff Json.sample (fun _ _ => 0) () 1 5 0 1 0 piecewise).1 ⟨3, _, rfl, ?_, ?_⟩
  · intro broken
    cases broken
  · decide

theorem decode_pull (n : Nat) :
    decodeRequest Json.sample (pullText ++ List.replicate n 0x20) = .handled := by
  have push : padded pushText (pullText ++ List.replicate n 0x20) = false := rfl
  have pull : padded pullText (pullText ++ List.replicate n 0x20) = true := by
    rw [padded, List.drop_left, List.all_replicate]
    simp
  simp [decodeRequest, Json.sample, push, pull, Json.member, CMDNO_PUSH, CMDNO_PULL]

theorem sampleHandler_pull (k : Nat) (header : List UInt8) (n : Nat) :
    sampleHandler k header (pullText ++ List.replicate n 0x20) = 0 := by
  rw [sampleHandler, handler, processRequest, decode_pull]

def floodBody : List UInt8 := pullText ++ List.replicate 65524 0x20

theorem length_floodBody : floodBody.length = 65535 := by
  rw [floodBody, List.length_append, List.length_replicate]
  decide

def floodRequest : List ReadEvent := [⟨.received (clientHeader 65535), 0⟩, ⟨.received floodBody, 0⟩]

/-- The request, and 65499 more blanks. -/
def flood : List ReadEvent := floodRequest ++ [⟨.received (List.replicate 65499 0x20), 0⟩]

theorem bodyLen_clientHeader {t : List UInt8} : bodyLen (clientHeader 65535 ++ t) = 65535 := by
  rw [bodyLen_append (by decide)]
  decide

theorem flood_offered : Offered flood := by
  have asked (t : List UInt8) : toSizeT (toInt (expected (clientHeader 65535 ++ t))) = 65535 := by
    rw [expected_of_le (hasHeader_append (by decide)).1, bodyLen_clientHeader]
    decide
  have first := asked []
  rw [List.append_nil] at first
  refine ⟨by decide, ?_, ?_, trivial⟩
  · rw [List.nil_append, first, length_floodBody]
  · rw [List.nil_append, asked, List.length_replicate]
    decide

theorem sockReadData_received {bytes : List UInt8} (some : 0 < bytes.length) :
    sockReadData (.received bytes) = .some bytes := by
  cases bytes with
  | nil => cases some
  | cons => rfl

theorem received_flood : received flood =
    clientHeader 65535 ++ (floodBody ++ (List.replicate 65499 0x20 ++ [])) := by
  have body : 0 < floodBody.length := by
    rw [length_floodBody]
    decide
  have blanks : 0 < (List.replicate 65499 (0x20 : UInt8)).length := by
    rw [List.length_replicate]
    decide
  rw [flood, floodRequest, List.cons_append, List.cons_append, List.nil_append,
    received_cons (sockReadData_received (by decide)), received_cons (sockReadData_received body),
    received_cons (sockReadData_received blanks), received]

theorem length_flood : (received flood).length = 36 + 65535 + 65499 := by
  rw [received_flood, List.length_append, List.length_append, List.length_append, length_floodBody,
    List.length_replicate]
  decide

theorem flood_overruns : Overruns sampleHandler (received flood) := by
  have header : HasHeader (received flood) := by
    rw [received_flood]
    exact hasHeader_append (by decide)
  have size : bodyLen (received flood) = 65535 := by rw [received_flood, bodyLen_clientHeader]
  have front : (clientHeader 65535).length = xheadSize := by decide
  have body : slice (received flood) xheadSize 65535 = floodBody := by
    rw [received_flood, slice_append_right front.le, front, Nat.sub_self,
      slice_append_left (by rw [length_floodBody]), slice_whole length_floodBody]
  refine ⟨header, ?_, ?_⟩
  · rw [requestOf, size, body, floodBody]
    exact sampleHandler_pull 0 _ 65524
  · rw [size, length_flood]

/-- The guard of the loop holds again after the request, and `process_request` is called again. -/
theorem flood_repeats_request :
    Offered flood ∧
      ¬ ∃ fuel session, (Session.start 5 0 1 0).serve sampleHandler fuel
        flood = some session ∧ session.calls.length ≤ 1 := by
  refine ⟨flood_offered, fun ⟨fuel, session, served, once⟩ => ?_⟩
  have twice := overruns_twice floodRequest _ flood_overruns (by rw [← flood, length_flood]; decide) served
  omega

end Xrtc.Proof.ShortConnection
