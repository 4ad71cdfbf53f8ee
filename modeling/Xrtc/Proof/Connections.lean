import Xrtc.Proof.ReplyTarget
import Xrtc.Proof.Received

/-!
# Every connection of the running server

From its registration to its removal a connection of a signaling worker goes through states of
`Parsing`, whatever the other connections and the other threads do meanwhile.
-/

namespace Xrtc.Proof.Connections
open Server Base Lib Callbacks Table Received

variable {V : Type} {n m : Nat}

/-- What a thread at `pc` is doing with the connection `fd`. -/
def phaseOf (fd : Int) : Pc → Reading
  | .querying fd' _ => if fd' = fd then .inside else .waiting
  | .sending fd' _ => if fd' = fd then .inside else .waiting
  | .closing fd' _ => if fd' = fd then .closed else .waiting
  | .removing fd' _ => if fd' = fd then .closed else .waiting
  | _ => .waiting

def Sends (fd : Int) (pc : Pc) : Prop := ∃ write, pc = .sending fd write

/-- `p` stands for the connection `obj` in slot `fd` of a worker that is at `pc`; `mail` are the messages
that were made for requests of it. -/
structure Traced (json : Json V) (root : ResRoot) (mail : RtcMsg (Fin n) → Prop) (pc : Pc) (fd : Int)
    (obj : TcpConnection) (p : Parsing) : Prop where
  run : Run json root fd p
  same : p.obj = obj
  phase : p.phase = phaseOf fd pc
  request : Sends fd pc → ∃ header body, obj.queryStep = .request header body
  asked : ∀ msg, mail msg → Sends fd pc ∨ 0 < p.dispatched
  carries : ∀ msg, mail msg → Carries json obj.querybuf.buf msg

def Follows (json : Json V) (root : ResRoot) (mail : Nat → RtcMsg (Fin n) → Prop) (a : Agent) : Prop :=
  ∀ fd c, lookup a.worker.conns fd = some c → ∃ p, Traced json root (mail c.origin) a.pc fd c.obj p

section Relation

variable {json : Json V} {root : ResRoot} {mail : Nat → RtcMsg (Fin n) → Prop} {a a' : Agent} {fd : Int} {pc pc' : Pc}

theorem phaseOf_other (elsewhere : target pc ≠ some fd) : phaseOf fd pc = .waiting := by
  cases pc with
  | loop => rfl
  | replying fd' => rfl
  | _ => exact if_neg fun same => elsewhere (congrArg some same)

theorem not_sends (elsewhere : target pc ≠ some fd) : ¬ Sends fd pc := by
  rintro ⟨write, rfl⟩
  exact elsewhere rfl

theorem loop_quiet : ¬ Sends fd .loop := by
  rintro ⟨_, same⟩
  cases same

theorem closing_quiet {fd' : Int} {write : Bool} : ¬ Sends fd (.closing fd' write) := by
  rintro ⟨_, same⟩
  cases same

theorem querying_quiet {fd' : Int} {write : Bool} : ¬ Sends fd (.querying fd' write) := by
  rintro ⟨_, same⟩
  cases same

section Traced

variable {letters : RtcMsg (Fin n) → Prop} {obj : TcpConnection} {p p' : Parsing} {e : ParsingEvent}

theorem Traced.elsewhere (traced : Traced json root letters pc fd obj p) (before : target pc ≠ some fd)
    (after : target pc' ≠ some fd) : Traced json root letters pc' fd obj p where
  run := traced.run
  same := traced.same
  phase := by rw [traced.phase, phaseOf_other before, phaseOf_other after]
  request sends := absurd sends (not_sends after)
  asked msg was := .inr ((traced.asked msg was).resolve_left (not_sends before))
  carries := traced.carries

theorem Traced.waits (traced : Traced json root letters pc fd obj p) (before : target pc ≠ some fd) :
    p.phase = .waiting ∧ ∀ msg, letters msg → 0 < p.dispatched :=
  ⟨traced.phase.trans (phaseOf_other before), fun msg was => (traced.asked msg was).resolve_left (not_sends before)⟩

theorem Traced.next (traced : Traced json root letters pc fd obj p) (quiet : ¬ Sends fd pc)
    (quiet' : ¬ Sends fd pc') (admits : Admits root p e) (stepped : Parsing.step json p e = some p')
    (phase : p'.phase = phaseOf fd pc') (dispatched : p.dispatched ≤ p'.dispatched) :
    Traced json root letters pc' fd p'.obj p' where
  run := traced.run.next admits stepped
  same := rfl
  phase := phase
  request sends := absurd sends quiet'
  asked msg was := .inr (((traced.asked msg was).resolve_left quiet).trans_le dispatched)
  carries msg was := (traced.carries msg was).grown (traced.same ▸ step_grows stepped)

end Traced

theorem Follows.update {entry : Option ConnPtr} (follows : Follows json root mail a)
    (before : ∀ fd', target a.pc = some fd' → fd' = fd) (after : ∀ fd', target a'.pc = some fd' → fd' = fd)
    (changed : lookup a'.worker.conns = Function.update (lookup a.worker.conns) fd entry)
    (new : ∀ c, entry = some c → ∃ p, Traced json root (mail c.origin) a'.pc fd c.obj p) :
    Follows json root mail a' := by
  intro fd' c held
  rw [changed] at held
  by_cases here : fd' = fd
  · subst here
    rw [Function.update_self] at held
    exact new c held
  · rw [Function.update_of_ne here] at held
    obtain ⟨p, traced⟩ := follows fd' c held
    exact ⟨p, traced.elsewhere (fun same => here (before _ same)) (fun same => here (after _ same))⟩

theorem Follows.move (follows : Follows json root mail a) (same : a'.worker.conns = a.worker.conns)
    (before : target a.pc = none) (after : target a'.pc = none) : Follows json root mail a' := by
  intro fd c held
  rw [same] at held
  obtain ⟨p, traced⟩ := follows fd c held
  exact ⟨p, traced.elsewhere (by simp [before]) (by simp [after])⟩

theorem Follows.mono {mail' : Nat → RtcMsg (Fin n) → Prop} (follows : Follows json root mail a)
    (fewer : ∀ fd c msg, lookup a.worker.conns fd = some c → mail' c.origin msg → mail c.origin msg) :
    Follows json root mail' a := by
  intro fd c held
  obtain ⟨p, traced⟩ := follows fd c held
  exact ⟨p, traced.run, traced.same, traced.phase, traced.request,
    fun msg was => traced.asked msg (fewer fd c msg held was),
    fun msg was => traced.carries msg (fewer fd c msg held was)⟩

theorem Follows.store {c : ConnPtr} {obj : TcpConnection} {p : Parsing} (follows : Follows json root mail a)
    (held : lookup a.worker.conns fd = some c) (before : ∀ fd', target a.pc = some fd' → fd' = fd)
    (after : ∀ fd', target pc = some fd' → fd' = fd)
    (traced : Traced json root (mail c.origin) pc fd obj p) :
    Follows json root mail ⟨a.worker.store fd { c with obj := obj }, pc⟩ := by
  apply follows.update before after (lookup_set held _)
  intro c' same
  cases same
  exact ⟨p, traced⟩

theorem Follows.turn {c : ConnPtr} {p : Parsing} (follows : Follows json root mail a)
    (held : lookup a.worker.conns fd = some c) (before : ∀ fd', target a.pc = some fd' → fd' = fd)
    (after : ∀ fd', target pc = some fd' → fd' = fd)
    (traced : Traced json root (mail c.origin) pc fd c.obj p) :
    Follows json root mail { a with pc := pc } := by
  have unchanged : lookup { a with pc := pc }.worker.conns =
      Function.update (lookup a.worker.conns) fd (some c) := by
    rw [← held, Function.update_eq_self]
  apply follows.update before after unchanged
  intro c' same
  cases same
  exact ⟨p, traced⟩

end Relation

/-! ## The callbacks -/

section Callbacks

variable {json : Json V} {root : ResRoot} {mail : Nat → RtcMsg (Fin n) → Prop} {a a' : Agent}

theorem readQuery_filled {p : Parsing} {result : ReadResult} {now : Nat} {obj : TcpConnection} {close : Bool}
    (filled : p.obj.fill result now = some (obj, close)) :
    (p.readQuery result now).obj = obj ∧ (p.readQuery result now).dispatched = p.dispatched ∧
      (p.readQuery result now).phase = if close then .closed else .inside := by
  rw [Parsing.readQuery, filled]
  cases close <;> exact ⟨rfl, rfl, rfl⟩

theorem connIoCb_follows {fd : Int} {read : Option ReadResult} {write : Bool} {now : Nat}
    (follows : Follows json root mail a) (idle : a.pc = .loop)
    (offered : ∀ c bytes, lookup a.worker.conns fd = some c → read = some (.received bytes) →
      bytes.length ≤ c.obj.readLen) (ran : a.connIoCb fd read write now = .ok a') :
    Follows json root mail a' := by
  have nothing : target a.pc = none := by rw [idle]; rfl
  unfold Agent.connIoCb at ran
  split at ran
  · cases ran
    exact follows.move rfl nothing (target_afterRead fd write)
  · next result =>
      split at ran
      · cases ran
        exact follows.move rfl nothing (target_afterRead fd write)
      · next c held =>
          cases filled : c.obj.fill result now with
          | none =>
              rw [filled] at ran
              cases ran
          | some pair =>
              obtain ⟨obj, close⟩ := pair
              rw [filled] at ran
              cases ran
              obtain ⟨p, traced⟩ := follows fd c held
              have free : target a.pc ≠ some fd := by simp [nothing]
              have waiting := (traced.waits free).1
              rw [← traced.same] at filled
              obtain ⟨read, dispatched, phase⟩ := readQuery_filled filled
              have admits : Admits root p (.read result now) := by
                cases result with
                | received bytes =>
                    change bytes.length ≤ p.obj.readLen
                    rw [traced.same]
                    exact offered c bytes held rfl
                | _ => trivial
              refine follows.store (p := p.readQuery result now) held (by simp [nothing]) ?_ ?_
              · cases close <;> exact fun fd' same => (Option.some.inj same).symm
              · rw [← read]
                refine traced.next (not_sends free) ?_ admits (if_pos waiting) ?_ dispatched.ge
                · cases close
                  · exact querying_quiet
                  · exact closing_quiet
                · rw [phase]
                  cases close <;> exact (if_pos rfl).symm

theorem processTimeout_follows {timeout cfd : Int} {now : Nat} (follows : Follows json root mail a)
    (idle : a.pc = .loop) (ran : a.processTimeout timeout cfd now = .ok a') : Follows json root mail a' := by
  unfold Agent.processTimeout at ran
  split at ran
  · cases ran
  · next c held =>
      split at ran
      · cases ran
        have nothing : target a.pc = none := by rw [idle]; rfl
        have free : target a.pc ≠ some cfd := by simp [nothing]
        obtain ⟨p, traced⟩ := follows cfd c held
        refine follows.turn (p := { p with phase := .closed }) held (by simp [nothing])
          (fun fd' same => (Option.some.inj same).symm) ?_
        rw [← traced.same]
        exact traced.next (e := .close) (not_sends free) closing_quiet trivial
          (if_pos (traced.waits free).1) (if_pos rfl).symm le_rfl
      · cases ran
        exact follows

theorem iterate_dispatched (p : Parsing) (ret : Int) : p.dispatched ≤ (p.iterate ret).dispatched := by
  unfold Parsing.iterate
  split <;> first | exact le_rfl | exact Nat.le_succ _

theorem Traced.iterate {letters : RtcMsg (Fin n) → Prop} {fd : Int} {write : Bool} {obj obj' : TcpConnection}
    {p : Parsing} {pc : Pc} {ret : Int} (traced : Traced json root letters (.querying fd write) fd obj p)
    (quiet : ¬ Sends fd pc)
    (turned : (p.iterate ret).obj = obj') (phase : (p.iterate ret).phase = phaseOf fd pc) :
    Traced json root letters pc fd obj' (p.iterate ret) := by
  have inside : p.phase = .inside := traced.phase.trans (if_pos rfl)
  rw [← turned]
  exact traced.next (e := .iterate ret) querying_quiet quiet trivial (if_pos inside) phase
    (iterate_dispatched p ret)

theorem iterate_done {p : Parsing} (ret : Int) (step : p.obj.queryStep = .done) :
    (p.iterate ret).obj = p.obj ∧ (p.iterate ret).phase = .waiting := by
  rw [Parsing.iterate, step]
  exact ⟨rfl, rfl⟩

theorem iterate_badMagic {p : Parsing} (ret : Int) (step : p.obj.queryStep = .badMagic) :
    (p.iterate ret).obj = p.obj ∧ (p.iterate ret).phase = .closed := by
  rw [Parsing.iterate, step]
  exact ⟨rfl, rfl⟩

theorem iterate_header {p : Parsing} {obj : TcpConnection} (ret : Int) (step : p.obj.queryStep = .header obj) :
    (p.iterate ret).obj = obj ∧ (p.iterate ret).phase = p.phase := by
  rw [Parsing.iterate, step]
  exact ⟨rfl, rfl⟩

theorem iterate_request {p : Parsing} {header body : List UInt8} (ret : Int)
    (step : p.obj.queryStep = .request header body) :
    (p.iterate ret).obj = (if ret ≠ 0 then p.obj else p.obj.served) ∧
      (p.iterate ret).phase = (if ret ≠ 0 then .closed else .inside) ∧
      (p.iterate ret).dispatched = p.dispatched + 1 := by
  rw [Parsing.iterate, step]
  exact ⟨rfl, rfl, rfl⟩

theorem target_querying {fd : Int} {write : Bool} (at_pc : a.pc = .querying fd write) :
    ∀ fd', target a.pc = some fd' → fd' = fd := by
  intro fd' same
  rw [at_pc] at same
  exact (Option.some.inj same).symm

theorem query_follows {i : Fin n} (follows : Follows json root mail a)
    (ran : a.query json i = some (a', none)) : Follows json root mail a' := by
  unfold Agent.query at ran
  split at ran
  · next fd write at_pc =>
      have before := target_querying at_pc
      have closing : ∀ fd', target (.closing fd write) = some fd' → fd' = fd :=
        fun fd' same => (Option.some.inj same).symm
      split at ran
      · cases ran
      · next c held =>
          obtain ⟨p, traced⟩ := follows fd c held
          rw [at_pc] at traced
          have same := traced.same
          split at ran
          · next step =>
              cases ran
              have free : target (.afterRead fd write) ≠ some fd := by simp [target_afterRead]
              refine follows.turn held before (by simp [target_afterRead]) (p := p.iterate 0) ?_
              obtain ⟨obj, phase⟩ := iterate_done 0 (same ▸ step)
              exact traced.iterate (not_sends free) (obj.trans same) (phase.trans (phaseOf_other free).symm)
          · next step =>
              cases ran
              refine follows.turn held before closing (p := p.iterate 0) ?_
              obtain ⟨obj, phase⟩ := iterate_badMagic 0 (same ▸ step)
              exact traced.iterate closing_quiet (obj.trans same) (phase.trans (if_pos rfl).symm)
          · next obj step =>
              cases ran
              refine follows.store held before before (p := p.iterate 0) ?_
              obtain ⟨obj, phase⟩ := iterate_header 0 (same ▸ step)
              rw [at_pc]
              exact traced.iterate querying_quiet obj (phase.trans traced.phase)
          · next header body step =>
              split at ran
              · cases ran
                refine follows.turn held before closing (p := p.iterate (-1)) ?_
                obtain ⟨obj, phase, -⟩ := iterate_request (-1) (same ▸ step)
                exact traced.iterate closing_quiet (obj.trans same) (phase.trans (if_pos rfl).symm)
              · cases ran
                refine follows.store held before before (p := p.iterate 0) ?_
                obtain ⟨obj, phase, -⟩ := iterate_request 0 (same ▸ step)
                rw [at_pc]
                exact traced.iterate querying_quiet (obj.trans (congrArg TcpConnection.served same))
                  (phase.trans (if_pos rfl).symm)
              · cases ran
  · cases ran

theorem query_sends {i : Fin n} {msg : RtcMsg (Fin n)} {origin : Nat} (follows : Follows json root mail a)
    (apart : ∀ fd c fd' c', lookup a.worker.conns fd = some c → lookup a.worker.conns fd' = some c' →
      c.origin = c'.origin → fd = fd') (ran : a.query json i = some (a', some (msg, origin))) :
    Follows json root (fun o letter => mail o letter ∨ o = origin ∧ letter = msg) a' := by
  unfold Agent.query at ran
  split at ran
  · next fd write at_pc =>
      split at ran
      · cases ran
      · next c held =>
          split at ran
          · cases ran
          · cases ran
          · cases ran
          · next header body step =>
              split at ran
              · cases ran
              · cases ran
              · next params decoded =>
                  cases ran
                  intro fd' c' held'
                  obtain ⟨p, traced⟩ := follows fd' c' held'
                  by_cases here : fd' = fd
                  · subst here
                    obtain rfl := Option.some.inj (held.symm.trans held')
                    refine ⟨p, traced.run, traced.same, ?_, fun _ => ⟨header, body, step⟩,
                      fun _ _ => .inl ⟨write, rfl⟩, ?_⟩
                    · rw [traced.phase, at_pc]
                      rfl
                    · rintro letter (earlier | ⟨-, rfl⟩)
                      · exact traced.carries letter earlier
                      · exact carries_request (run_placed traced.run) traced.same step decoded _ _ _
                  · have before : target a.pc ≠ some fd' := fun same => here (target_querying at_pc fd' same)
                    have after : target (.sending fd write) ≠ some fd' :=
                      fun same => here (Option.some.inj same).symm
                    have moved := traced.elsewhere before after
                    have earlier (letter : RtcMsg (Fin n)) (was : mail c'.origin letter ∨ c'.origin = c.origin ∧
                        letter = pushMsg params header i c.addr c.obj.cfd) : mail c'.origin letter :=
                      was.resolve_right fun new => here (apart fd' c' fd c held' held new.1)
                    exact ⟨p, moved.run, moved.same, moved.phase, moved.request,
                      fun letter was => moved.asked letter (earlier letter was),
                      fun letter was => moved.carries letter (earlier letter was)⟩
  · cases ran

theorem query_at {i : Fin n} {answer : Option (RtcMsg (Fin n) × Nat)} (ran : a.query json i = some (a', answer)) :
    ∃ fd write, a.pc = .querying fd write := by
  unfold Agent.query at ran
  split at ran
  · next fd write at_pc => exact ⟨fd, write, at_pc⟩
  · cases ran

theorem sent_follows {ok : Bool} (follows : Follows json root mail a) (ran : a.sent ok = some a') :
    Follows json root mail a' := by
  unfold Agent.sent at ran
  split at ran
  · next fd write at_pc =>
      have before : ∀ fd', target a.pc = some fd' → fd' = fd := by
        intro fd' same
        rw [at_pc] at same
        exact (Option.some.inj same).symm
      split at ran
      · cases ran
      · next c held =>
          obtain ⟨p, traced⟩ := follows fd c held
          rw [at_pc] at traced
          have same := traced.same
          have inside : p.phase = .inside := traced.phase.trans (if_pos rfl)
          obtain ⟨header, body, step⟩ := traced.request ⟨write, rfl⟩
          -- the call was made when the message was sent, and is counted now
          have ended (ret : Int) {pc : Pc} (quiet : ¬ Sends fd pc) (phase : (p.iterate ret).phase = phaseOf fd pc) :
              Traced json root (mail c.origin) pc fd (p.iterate ret).obj (p.iterate ret) := by
            have stepped : Parsing.step json p (.iterate ret) = some (p.iterate ret) := if_pos inside
            refine ⟨traced.run.next (e := .iterate ret) trivial stepped, rfl, phase,
              fun sends => absurd sends quiet, fun _ _ => .inr ?_,
              fun msg was => (traced.carries msg was).grown (same ▸ step_grows stepped)⟩
            rw [(iterate_request ret (same ▸ step)).2.2]
            exact Nat.succ_pos _
          split at ran
          · cases ran
            refine follows.store held before (fun fd' same => (Option.some.inj same).symm) (p := p.iterate 0) ?_
            obtain ⟨obj, phase, -⟩ := iterate_request 0 (same ▸ step)
            rw [← same, show p.obj.served = (p.iterate 0).obj from obj.symm]
            exact ended 0 querying_quiet (phase.trans (if_pos rfl).symm)
          · cases ran
            refine follows.turn held before (fun fd' same => (Option.some.inj same).symm) (p := p.iterate (-1)) ?_
            obtain ⟨obj, phase, -⟩ := iterate_request (-1) (same ▸ step)
            rw [← same, show p.obj = (p.iterate (-1)).obj from obj.symm]
            exact ended (-1) closing_quiet (phase.trans (if_pos rfl).symm)
  · cases ran

theorem writeReply_follows {results : List WriteResult} {now : Nat} (follows : Follows json root mail a)
    (ran : a.writeReply results now = some (.ok a')) : Follows json root mail a' := by
  unfold Agent.writeReply at ran
  split at ran
  · next fd at_pc =>
      have nothing : target a.pc = none := by rw [at_pc]; rfl
      split at ran
      · cases ran
        exact follows.move rfl nothing rfl
      · split at ran
        · cases ran
          exact follows.move rfl nothing rfl
        · next c held =>
            have free : target a.pc ≠ some fd := by simp [nothing]
            obtain ⟨p, traced⟩ := follows fd c held
            have waiting := (traced.waits free).1
            have wrote {obj : TcpConnection} {close : Bool} (done : c.obj.writeLoop results = some (obj, close)) :
                Parsing.step json p (.write results now) = some (p.afterWrite now (obj, close)) := by
              rw [← traced.same] at done
              rw [Parsing.step, if_pos waiting, done]
              rfl
            split at ran
            · cases ran
            · next obj done =>
                cases ran
                refine follows.store held (by simp [nothing]) (fun fd' same => (Option.some.inj same).symm)
                  (p := p.afterWrite now (obj, true)) ?_
                exact traced.next (e := .write results now) (not_sends free) closing_quiet trivial (wrote done)
                  (if_pos rfl).symm le_rfl
            · next obj done =>
                have next : Traced json root (mail c.origin) .loop fd { obj with lastInteraction := now }
                    (p.afterWrite now (obj, false)) :=
                  traced.next (e := .write results now) (not_sends free) loop_quiet trivial (wrote done) waiting le_rfl
                -- whatever becomes of the watcher, the object is stored back
                have stored (el : EventLoop) : Follows json root mail ⟨{ a.worker with el := el }.store fd
                    { c with obj := { obj with lastInteraction := now } }, .loop⟩ := by
                  have other : Follows json root mail { a with worker := { a.worker with el := el } } := follows
                  exact other.store held (by simp [nothing]) (fun _ same => by cases same) next
                simp only [Option.some.injEq] at ran
                split at ran
                · obtain ⟨el, -, ran⟩ := bind_eq_ok ran
                  obtain rfl := Except.ok.inj ran
                  exact stored el
                · obtain rfl := Except.ok.inj ran
                  exact stored a.worker.el
  · cases ran

theorem close_follows {c : ConnPtr} (follows : Follows json root mail a) (ran : a.close = some (a', c)) :
    Follows json root mail a' := by
  obtain ⟨fd, write, at_pc, held, rfl⟩ := close_inv ran
  obtain ⟨p, traced⟩ := follows fd c held
  rw [at_pc] at traced
  refine follows.turn held ?_ (fun fd' same => (Option.some.inj same).symm) (p := p) ?_
  · intro fd' same
    rw [at_pc] at same
    exact (Option.some.inj same).symm
  · refine ⟨traced.run, traced.same, traced.phase, ?_, ?_, traced.carries⟩
    · rintro ⟨_, same⟩
      cases same
    · exact fun msg was => .inr ((traced.asked msg was).resolve_left closing_quiet)

theorem remove_follows (cfd : ∀ fd c, lookup a.worker.conns fd = some c → c.obj.cfd = fd)
    (follows : Follows json root mail a) (ran : a.remove = some (.ok a')) : Follows json root mail a' := by
  obtain ⟨fd, write, c, worker, at_pc, held, removed, rfl⟩ := remove_inv ran
  have conns : worker.conns = a.worker.conns.set fd.toNat none := by
    obtain ⟨el, -, removed⟩ := bind_eq_ok removed
    obtain ⟨el', -, removed⟩ := bind_eq_ok removed
    split at removed
    · cases removed
    · cases removed
      rw [cfd fd c held]
  have updated : lookup worker.conns = Function.update (lookup a.worker.conns) fd none := by
    rw [conns]
    exact lookup_set held none
  refine follows.update ?_ (by simp [target_afterRead]) updated (fun c same => by cases same)
  intro fd' same
  rw [at_pc] at same
  exact (Option.some.inj same).symm

theorem register_follows {fd : Int} {addr origin now : Nat} {worker : SignalingWorker}
    (follows : Follows json root mail a) (idle : a.pc = .loop) (new : ∀ msg, ¬ mail origin msg)
    (registered : a.worker.newConn fd addr origin now = .ok worker) :
    Follows json root mail ⟨worker, .loop⟩ := by
  have nonneg := newConn_nonneg registered
  rw [Watchers.newConn_eq nonneg] at registered
  cases registered
  refine follows.update (by simp [idle, target]) (fun _ same => by cases same) (lookup_added nonneg _) ?_
  intro c same
  cases same
  exact ⟨_, ⟨_, _, _, .start⟩, rfl, rfl, fun sends => absurd sends loop_quiet,
    fun msg was => absurd was (new msg), fun msg was => absurd was (new msg)⟩

theorem offer_follows {msg : RtcMsg (Fin n)} {mem : Nat → UInt8} {worker : SignalingWorker}
    (follows : Follows json root mail a) (idle : a.pc = .loop)
    (cfd : ∀ fd c, lookup a.worker.conns fd = some c → c.obj.cfd = fd)
    (answers : msg.resRoot = root) (asker : ∀ c, a.worker.offerTarget msg = some c → ∃ letter, mail c.origin letter)
    (offered : a.worker.responseServerOffer json msg mem = .ok worker) :
    Follows json root mail ⟨worker, .loop⟩ := by
  have nothing : target a.pc = none := by rw [idle]; rfl
  unfold SignalingWorker.responseServerOffer at offered
  split at offered
  · cases offered
    exact follows.move rfl nothing rfl
  · next c found =>
      have held := offerTarget_held found
      have free : target a.pc ≠ some msg.fd := by simp [nothing]
      obtain ⟨p, traced⟩ := follows msg.fd c held
      obtain ⟨waiting, dispatched⟩ := traced.waits free
      obtain ⟨letter, made⟩ := asker c found
      refine follows.update (by simp [nothing]) (fun _ same => by cases same)
        (lookup_addReply held (cfd _ c held) offered) ?_
      intro c' same
      cases same
      refine ⟨p.responseServerOffer json msg.resRoot mem, ?_⟩
      rw [← traced.same]
      exact traced.next (e := .offer msg.resRoot mem) (not_sends free) loop_quiet answers
        (if_pos ⟨waiting, dispatched letter made⟩) waiting le_rfl

end Callbacks

end Xrtc.Proof.Connections
