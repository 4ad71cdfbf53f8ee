import Xrtc.Proof.Transit
import Xrtc.Proof.Notifications

/-!
# Who owns a descriptor

From `accept` to `close` a descriptor belongs to one connection, which is on its way to one worker or
in the table of one worker.
-/

namespace Xrtc.Proof.Ownership
open Server Base Lib Lib.Mailbox Callbacks Table Steps Transit Notifications

variable {V : Type} {n m : Nat}

structure Registration (n : Nat) where
  worker : Fin n
  fd : Int
  origin : Nat

def registration : Event n m → Option (Registration n)
  | .register i fd origin _ => some ⟨i, fd, origin⟩
  | _ => none

def registrations (s : System n m) : List (Registration n) := s.loc.log.filterMap registration

def Backed (fds : Int → Option Nat) : Place (Thread n m) (Box n m) → Item n → Prop
  | .done, _ => True
  | _, .conn fd origin => fds fd = some origin
  | _, .msg _ => True

structure Owned (s : System n m) : Prop where
  backed : s.net.Fits (Backed s.loc.fds)
  cfd : ∀ i fd c, slot (s.loc.agent i).worker fd = some c → c.cfd = fd
  opened : ∀ i fd c, slot (s.loc.agent i).worker fd = some c →
    (∃ write, (s.loc.agent i).pc = .removing fd write) ∨ s.loc.fds fd = some c.origin
  registered : ∀ i fd c, slot (s.loc.agent i).worker fd = some c → ⟨i, fd, c.origin⟩ ∈ registrations s
  arrived : ∀ r ∈ registrations s, .conn r.fd r.origin ∈ s.net.consumed
  once : ((registrations s).map Registration.origin).Nodup
  empty : ∀ i fd origin old, .register i fd origin old ∈ s.loc.log → old = none
  closed : ∀ i fd origin found, .close i fd origin found ∈ s.loc.log →
    found = some origin ∧ ⟨i, fd, origin⟩ ∈ registrations s

section Owned

variable {cfg : Config V m} {admits : System n m → Label n m → Prop} {s : System n m}

theorem Owned.opened_of {i : Fin n} {fd : Int} {c : Identity} (owned : Owned s)
    (held : slot (s.loc.agent i).worker fd = some c) (elsewhere : ∀ write, (s.loc.agent i).pc ≠ .removing fd write) :
    s.loc.fds fd = some c.origin := by
  rcases owned.opened i fd c held with ⟨write, removing⟩ | opened
  · exact absurd removing (elsewhere write)
  · exact opened

theorem Owned.slot_unique {i i' : Fin n} {fd fd' : Int} {c c' : Identity} (owned : Owned s)
    (held : slot (s.loc.agent i).worker fd = some c) (held' : slot (s.loc.agent i').worker fd' = some c')
    (same : c.origin = c'.origin) : i = i' ∧ fd = fd' := by
  have equal := List.inj_on_of_nodup_map owned.once (owned.registered i fd c held)
    (owned.registered i' fd' c' held') same
  exact ⟨congrArg Registration.worker equal, congrArg Registration.fd equal⟩

theorem Owned.arrived_ne (owned : Owned s) (reached : Reached cfg admits s) {r : Registration n}
    (registered : r ∈ registrations s) {place : Place (Thread n m) (Box n m)} (unfinished : place ≠ .done)
    {fd : Int} {origin : Nat} (member : .conn fd origin ∈ s.net.contents place) : origin ≠ r.origin := by
  intro same
  have arrived : .conn r.fd r.origin ∈ s.net.contents .done := owned.arrived r registered
  have stamps : stamp (.conn fd origin : Item n) = stamp (.conn r.fd r.origin : Item n) :=
    congrArg Number.accept same
  apply unfinished
  apply (reached_stamp reached).place_unique stamps _ member arrived
  exact List.nodup_iff_count_le_one.1 (reached_stamped reached).nodup _

/-! ## Steps that change nothing here -/

def owning : Event n m → Bool
  | .register _ _ _ _ => true
  | .close _ _ _ _ => true
  | _ => false

theorem registrations_eq (s : System n m) :
    registrations s = (s.loc.log.filter owning).filterMap registration := by
  rw [registrations, List.filterMap_filter]
  congr
  funext event
  cases event <;> rfl

theorem Owned.frame {s' : System n m} (owned : Owned s) (backed : s'.net.Fits (Backed s'.loc.fds))
    (fds : s'.loc.fds = s.loc.fds)
    (slots : ∀ i, slot (s'.loc.agent i).worker = slot (s.loc.agent i).worker)
    (removing : ∀ i fd write, (s.loc.agent i).pc = .removing fd write →
      (s'.loc.agent i).pc = .removing fd write)
    (consumed : ∀ x ∈ s.net.consumed, x ∈ s'.net.consumed)
    (log : s'.loc.log.filter owning = s.loc.log.filter owning) : Owned s' := by
  have same : registrations s' = registrations s := by rw [registrations_eq, registrations_eq, log]
  have logged {event : Event n m} (owns : owning event = true) (member : event ∈ s'.loc.log) :
      event ∈ s.loc.log := by
    apply List.mem_of_mem_filter (p := owning)
    rw [← log]
    exact List.mem_filter.2 ⟨member, owns⟩
  constructor
  case backed => exact backed
  case cfd =>
    intro i fd c held
    rw [slots] at held
    exact owned.cfd i fd c held
  case opened =>
    intro i fd c held
    rw [slots] at held
    rw [fds]
    rcases owned.opened i fd c held with ⟨write, at_pc⟩ | opened
    · exact .inl ⟨write, removing i fd write at_pc⟩
    · exact .inr opened
  case registered =>
    intro i fd c held
    rw [slots] at held
    rw [same]
    exact owned.registered i fd c held
  case arrived =>
    intro r member
    rw [same] at member
    exact consumed _ (owned.arrived r member)
  case once =>
    rw [same]
    exact owned.once
  case empty =>
    intro i fd origin old member
    exact owned.empty i fd origin old (logged rfl member)
  case closed =>
    intro i fd origin found member
    rw [same]
    exact owned.closed i fd origin found (logged rfl member)

theorem slots_update {agent : Fin n → Agent} {i : Fin n} {a : Agent}
    (same : slot a.worker = slot (agent i).worker) (k : Fin n) :
    slot (Function.update agent i a k).worker = slot (agent k).worker := by
  by_cases here : k = i
  · subst here
    rw [Function.update_self]
    exact same
  · rw [Function.update_of_ne here]

theorem slot_entry {agent : Fin n → Agent} {i k : Fin n} {a : Agent} {fd fd' : Int} {entry : Option Identity}
    {c : Identity} (changed : slot a.worker = Function.update (slot (agent i).worker) fd entry)
    (held : slot (Function.update agent i a k).worker fd' = some c) :
    k = i ∧ fd' = fd ∧ entry = some c ∨ (k = i → fd' ≠ fd) ∧ slot (agent k).worker fd' = some c := by
  by_cases here : k = i
  · subst here
    rw [Function.update_self, changed] at held
    rcases update_cases held with ⟨this, new⟩ | ⟨other, old⟩
    · exact .inl ⟨rfl, this, new⟩
    · exact .inr ⟨fun _ => other, old⟩
  · rw [Function.update_of_ne here] at held
    exact .inr ⟨fun same => absurd same here, held⟩

theorem removing_update {agent : Fin n → Agent} {i : Fin n} {a : Agent}
    (elsewhere : ∀ fd write, (agent i).pc ≠ .removing fd write) (k : Fin n) (fd : Int) (write : Bool)
    (at_pc : (agent k).pc = .removing fd write) :
    (Function.update agent i a k).pc = .removing fd write := by
  by_cases here : k = i
  · subst here
    exact absurd at_pc (elsewhere fd write)
  · rw [Function.update_of_ne here]
    exact at_pc

theorem act_backed {l : Label n m} {move : Option (QueueMove n m)} {loc : Local n m} {net : Queues n m}
    (act : Act cfg s l move loc) (carried : Carried cfg s.net move net) {fds : Int → Option Nat}
    (backed : s.net.Fits (Backed fds))
    (accepted : ∀ t fd origin, move = some (.create t (.conn fd origin)) → fds fd = some origin) :
    net.Fits (Backed fds) := by
  match move with
  | none =>
      rw [show net = s.net from carried]
      exact backed
  | some move =>
      refine Net.step_fits backed ?_ carried
      cases act with
      | accept _ _ => exact accepted _ _ _ rfl
      | dispatch _ => exact fun x _ fit => by cases x <;> exact fit
      | notify _ => split <;> trivial
      | sent _ => split <;> trivial
      | wake => trivial
      | pop => exact fun b x _ fit => by cases x <;> exact fit
      | forward _ _ => exact fun x _ fit => by cases x <;> exact fit
      | process _ _ => exact fun x _ _ => trivial
      | ask _ _ => trivial
      | send _ => exact fun x _ fit => by cases x <;> exact fit
      | _ => exact fun x _ _ => trivial

theorem consumed_mono {move : Option (QueueMove n m)} {net : Queues n m}
    (carried : Carried cfg s.net move net) (x : Item n) (member : x ∈ s.net.consumed) : x ∈ net.consumed := by
  rw [carried_consumed carried]
  exact List.mem_append_left _ member

theorem record_owning {loc : Local n m} {event : Event n m} (other : owning event = false) :
    (loc.record event).log.filter owning = loc.log.filter owning := by
  rw [Local.record, List.filter_append, List.filter_cons_of_neg (by rw [other]; decide)]
  exact List.append_nil _

/-! ## `accept` -/

theorem accept_backed {fd : Int} {origin : Nat} (owned : Owned s) (closed : s.loc.fds fd = none) :
    s.net.Fits (Backed (Function.update s.loc.fds fd (some origin))) := by
  intro place x member
  have backed := owned.backed place x member
  have kept {fd' : Int} {origin' : Nat} (before : s.loc.fds fd' = some origin') :
      Function.update s.loc.fds fd (some origin) fd' = some origin' := by
    have other : fd' ≠ fd := by
      rintro rfl
      rw [closed] at before
      cases before
    rw [Function.update_of_ne other]
    exact before
  cases x with
  | msg e => cases place <;> trivial
  | conn fd' origin' =>
      cases place with
      | done => trivial
      | box b => exact kept backed
      | hand t => exact kept backed

theorem accept_owned {fd : Int} {net : Queues n m} (owned : Owned s) (closed : s.loc.fds fd = none)
    (backed : net.Fits (Backed (Function.update s.loc.fds fd (some s.loc.accepted))))
    (consumed : ∀ x ∈ s.net.consumed, x ∈ net.consumed) :
    Owned ⟨net, { s.loc with
      fds := Function.update s.loc.fds fd (some s.loc.accepted)
      accepted := s.loc.accepted + 1 }⟩ where
  backed := backed
  cfd := owned.cfd
  opened i fd' c held := by
    rcases owned.opened i fd' c held with removing | opened
    · exact .inl removing
    · have other : fd' ≠ fd := by
        rintro rfl
        rw [closed] at opened
        cases opened
      exact .inr ((Function.update_of_ne other ..).trans opened)
  registered := owned.registered
  arrived r member := consumed _ (owned.arrived r member)
  once := owned.once
  empty := owned.empty
  closed := owned.closed

/-! ## `close` -/

theorem close_backed {i : Fin n} {fd : Int} {c : Identity} (owned : Owned s) (reached : Reached cfg admits s)
    (held : slot (s.loc.agent i).worker fd = some c) (opened : s.loc.fds fd = some c.origin) :
    s.net.Fits (Backed (Function.update s.loc.fds fd none)) := by
  intro place x member
  by_cases finished : place = .done
  · subst finished
    trivial
  · cases x with
    | msg e => cases place <;> trivial
    | conn fd' origin =>
        have before : s.loc.fds fd' = some origin := by
          have backed := owned.backed place _ member
          cases place with
          | done => exact absurd rfl finished
          | box b => exact backed
          | hand t => exact backed
        have other : fd' ≠ fd := by
          rintro rfl
          apply owned.arrived_ne reached (owned.registered i fd' c held) finished member
          exact Option.some.inj (before.symm.trans opened)
        have after : Function.update s.loc.fds fd none fd' = some origin :=
          (Function.update_of_ne other ..).trans before
        cases place with
        | done => trivial
        | box b => exact after
        | hand t => exact after

theorem close_owned {s' : System n m} {i : Fin n} {fd : Int} {write : Bool} {c : Identity}
    (owned : Owned s) (reached : Reached cfg admits s) (at_pc : (s.loc.agent i).pc = .closing fd write)
    (held : slot (s.loc.agent i).worker fd = some c) (net : s'.net = s.net)
    (agents : s'.loc.agent = Function.update s.loc.agent i { s.loc.agent i with pc := .removing fd write })
    (fds : s'.loc.fds = Function.update s.loc.fds fd none)
    (log : s'.loc.log = s.loc.log ++ [.close i fd c.origin (s.loc.fds fd)]) : Owned s' := by
  have elsewhere : ∀ fd write, (s.loc.agent i).pc ≠ .removing fd write := by simp [at_pc]
  have opened := owned.opened_of held (elsewhere fd)
  have slots (k : Fin n) : slot (s'.loc.agent k).worker = slot (s.loc.agent k).worker := by
    rw [agents]
    apply slots_update
    rfl
  have same : registrations s' = registrations s := by
    rw [registrations, log, List.filterMap_append]
    exact List.append_nil _
  constructor
  case backed =>
    rw [net, fds]
    exact close_backed owned reached held opened
  case cfd =>
    intro k fd' c' held'
    rw [slots] at held'
    exact owned.cfd k fd' c' held'
  case opened =>
    intro k fd' c' held'
    rw [slots] at held'
    rw [fds, agents]
    by_cases here : k = i
    · subst here
      by_cases this : fd' = fd
      · subst this
        exact .inl ⟨write, by rw [Function.update_self]⟩
      · rw [Function.update_of_ne this]
        exact .inr (owned.opened_of held' (elsewhere fd'))
    · rw [Function.update_of_ne here]
      rcases owned.opened k fd' c' held' with removing | opened'
      · exact .inl removing
      · have other : fd' ≠ fd := by
          rintro rfl
          apply here
          exact (owned.slot_unique held' held (Option.some.inj (opened'.symm.trans opened))).1
        rw [Function.update_of_ne other]
        exact .inr opened'
  case registered =>
    intro k fd' c' held'
    rw [slots] at held'
    rw [same]
    exact owned.registered k fd' c' held'
  case arrived =>
    rw [same, net]
    exact owned.arrived
  case once =>
    rw [same]
    exact owned.once
  case empty =>
    intro k fd' origin old member
    rw [log, List.mem_append, List.mem_singleton] at member
    rcases member with before | new
    · exact owned.empty k fd' origin old before
    · cases new
  case closed =>
    intro k fd' origin found member
    rw [log, List.mem_append, List.mem_singleton] at member
    rw [same]
    rcases member with before | new
    · exact owned.closed k fd' origin found before
    · cases new
      exact ⟨opened, owned.registered i fd c held⟩

/-! ## `remove_conn` -/

theorem remove_owned {s' : System n m} {i : Fin n} {fd : Int} {write : Bool} {a : Agent}
    (owned : Owned s) (at_pc : (s.loc.agent i).pc = .removing fd write) (net : s'.net = s.net)
    (agents : s'.loc.agent = Function.update s.loc.agent i a)
    (removed : slot a.worker = Function.update (slot (s.loc.agent i).worker) fd none)
    (fds : s'.loc.fds = s.loc.fds) (log : s'.loc.log = s.loc.log) : Owned s' := by
  have same : registrations s' = registrations s := by rw [registrations, log, registrations]
  -- what is still there was there before, and not in the slot that is emptied
  have left {k : Fin n} {fd' : Int} {c : Identity} (held : slot (s'.loc.agent k).worker fd' = some c) :
      (k = i → fd' ≠ fd) ∧ slot (s.loc.agent k).worker fd' = some c := by
    rw [agents] at held
    rcases slot_entry removed held with ⟨-, -, new⟩ | old
    · cases new
    · exact old
  constructor
  case backed =>
    rw [net, fds]
    exact owned.backed
  case cfd => exact fun k fd' c held => owned.cfd k fd' c (left held).2
  case opened =>
    intro k fd' c held
    obtain ⟨other, before⟩ := left held
    rw [fds, agents]
    by_cases here : k = i
    · subst here
      right
      apply owned.opened_of before
      intro write' removing
      rw [at_pc] at removing
      cases removing
      exact other rfl rfl
    · rw [Function.update_of_ne here]
      exact owned.opened k fd' c before
  case registered =>
    intro k fd' c held
    rw [same]
    exact owned.registered k fd' c (left held).2
  case arrived =>
    rw [same, net]
    exact owned.arrived
  case once =>
    rw [same]
    exact owned.once
  case empty =>
    rw [log]
    exact owned.empty
  case closed =>
    rw [same, log]
    exact owned.closed

/-! ## `new_conn` -/

theorem register_empty {i : Fin n} {fd : Int} {origin : Nat} (owned : Owned s)
    (reached : Reached cfg admits s) (idle : (s.loc.agent i).pc = .loop)
    (holds : s.net.role (.signaling i) = .holding (.conn fd origin)) :
    s.loc.fds fd = some origin ∧ (∀ r ∈ registrations s, origin ≠ r.origin) ∧
      slot (s.loc.agent i).worker fd = none := by
  have member : .conn fd origin ∈ s.net.contents (.hand (.signaling i)) := by
    rw [Net.contents, holds]
    exact List.mem_singleton_self _
  have opened : s.loc.fds fd = some origin := owned.backed _ _ member
  have fresh (r : Registration n) (registered : r ∈ registrations s) : origin ≠ r.origin :=
    owned.arrived_ne reached registered (by simp) member
  refine ⟨opened, fresh, ?_⟩
  cases held : slot (s.loc.agent i).worker fd with
  | none => rfl
  | some c =>
      have opened' := owned.opened_of held (by simp [idle])
      exact absurd (Option.some.inj (opened.symm.trans opened')) (fresh _ (owned.registered i fd c held))

theorem register_owned {s' : System n m} {i : Fin n} {fd : Int} {origin addr : Nat} {a : Agent}
    (owned : Owned s) (reached : Reached cfg admits s) (idle : (s.loc.agent i).pc = .loop)
    (holds : s.net.role (.signaling i) = .holding (.conn fd origin))
    (backed : s'.net.Fits (Backed s.loc.fds)) (consumed : s'.net.consumed = s.net.consumed ++ [.conn fd origin])
    (agents : s'.loc.agent = Function.update s.loc.agent i a)
    (added : slot a.worker = Function.update (slot (s.loc.agent i).worker) fd (some ⟨addr, origin, fd⟩))
    (fds : s'.loc.fds = s.loc.fds) (log : s'.loc.log = s.loc.log ++ [.register i fd origin none]) :
    Owned s' := by
  obtain ⟨opened, fresh, -⟩ := register_empty owned reached idle holds
  have grown : registrations s' = registrations s ++ [⟨i, fd, origin⟩] := by
    rw [registrations, log, List.filterMap_append]
    rfl
  have cases_slot {k : Fin n} {fd' : Int} {c : Identity} (held : slot (s'.loc.agent k).worker fd' = some c) :
      k = i ∧ fd' = fd ∧ c = ⟨addr, origin, fd⟩ ∨ slot (s.loc.agent k).worker fd' = some c := by
    rw [agents] at held
    rcases slot_entry added held with ⟨here, this, new⟩ | ⟨-, old⟩
    · exact .inl ⟨here, this, (Option.some.inj new).symm⟩
    · exact .inr old
  constructor
  case backed =>
    rw [fds]
    exact backed
  case cfd =>
    intro k fd' c held
    rcases cases_slot held with ⟨rfl, rfl, rfl⟩ | before
    · rfl
    · exact owned.cfd k fd' c before
  case opened =>
    intro k fd' c held
    rw [fds, agents]
    rcases cases_slot held with ⟨rfl, rfl, rfl⟩ | before
    · exact .inr opened
    · rcases owned.opened k fd' c before with ⟨write, removing⟩ | opened'
      · exact .inl ⟨write, removing_update (by simp [idle]) k fd' write removing⟩
      · exact .inr opened'
  case registered =>
    intro k fd' c held
    rw [grown, List.mem_append, List.mem_singleton]
    rcases cases_slot held with ⟨rfl, rfl, rfl⟩ | before
    · exact .inr rfl
    · exact .inl (owned.registered k fd' c before)
  case arrived =>
    intro r member
    rw [grown, List.mem_append, List.mem_singleton] at member
    rw [consumed, List.mem_append, List.mem_singleton]
    rcases member with before | rfl
    · exact .inl (owned.arrived r before)
    · exact .inr rfl
  case once =>
    rw [grown, List.map_append, List.map_singleton, ← List.concat_eq_append, List.nodup_concat]
    refine ⟨fun repeated => ?_, owned.once⟩
    obtain ⟨r, member, same⟩ := List.mem_map.1 repeated
    exact fresh r member same.symm
  case empty =>
    intro k fd' origin' old member
    rw [log, List.mem_append, List.mem_singleton] at member
    rcases member with before | new
    · exact owned.empty k fd' origin' old before
    · cases new
      rfl
  case closed =>
    intro k fd' origin' found member
    rw [log, List.mem_append, List.mem_singleton] at member
    rcases member with before | new
    · obtain ⟨right, registered⟩ := owned.closed k fd' origin' found before
      rw [grown]
      exact ⟨right, List.mem_append_left _ registered⟩
    · cases new

/-! ## Every run -/

theorem start_owned : Owned (System.start n m) := by
  constructor
  case backed => exact Net.empty_fits _
  case once => exact List.nodup_nil
  case arrived => intro r member; cases member
  case empty => intro i fd origin old member; cases member
  case closed => intro i fd origin found member; cases member
  all_goals
    intro i fd c held
    simp [System.start, slot, SignalingWorker.empty, lookup] at held

theorem act_owned {s' : System n m} {l : Label n m} {move : Option (QueueMove n m)}
    (reached : Reached cfg admits s) (owned : Owned s) (act : Act cfg s l move s'.loc)
    (carried : Carried cfg s.net move s'.net) : Owned s' := by
  have consumed := consumed_mono carried
  have kept (other : ∀ t fd origin, move ≠ some (.create t (.conn fd origin))) :
      s'.net.Fits (Backed s.loc.fds) :=
    act_backed act carried owned.backed fun t fd origin created => absurd created (other t fd origin)
  obtain ⟨net, loc⟩ := s'
  dsimp only at act carried consumed kept
  cases act with
  | accept nonneg closed =>
      apply accept_owned owned closed _ consumed
      refine act_backed (.accept nonneg closed) carried (accept_backed owned closed) ?_
      intro t fd origin created
      cases created
      exact Function.update_self ..
  | register idle holds registered =>
      have free := (register_empty owned reached idle holds).2.2
      have finished := carried_consumed carried
      rw [consumes_hand holds] at finished
      refine register_owned owned reached idle holds (kept (by simp)) finished rfl
        (slot_newConn registered) rfl ?_
      rw [lookup_of_slot free]
      rfl
  | close at_pc held =>
      have slot_eq := slot_of_lookup held
      have same := owned.cfd _ _ _ slot_eq
      exact close_owned owned reached at_pc slot_eq carried rfl (by rw [← same]; rfl) (by rw [← same]; rfl)
  | remove at_pc held removed =>
      have slot_eq := slot_of_lookup held
      exact remove_owned owned at_pc carried rfl
        (slot_removeConn held (owned.cfd _ _ _ slot_eq) removed) rfl rfl
  | offer idle holds offered =>
      refine owned.frame (kept (by simp)) rfl (slots_update ?_) (removing_update (by simp [idle])) consumed
        (record_owning rfl)
      exact slot_responseServerOffer (fun fd c held => owned.cfd _ fd _ (slot_of_lookup held)) offered
  | turn still =>
      exact owned.frame (kept (by simp)) rfl (slots_update still.slot_eq) (removing_update still.before)
        consumed rfl
  | sent still =>
      exact owned.frame (kept (by split <;> simp)) rfl (slots_update still.slot_eq)
        (removing_update still.before) consumed rfl
  | ask still _ =>
      exact owned.frame (kept (by simp)) rfl (slots_update still.slot_eq) (removing_update still.before)
        consumed rfl
  | notify _ =>
      exact owned.frame (kept (by split <;> simp)) rfl (fun _ => rfl) (fun _ _ _ => id) consumed rfl
  | process _ _ =>
      exact owned.frame (kept (by simp)) rfl (fun _ => rfl) (fun _ _ _ => id) consumed (record_owning rfl)
  | homeless _ _ =>
      exact owned.frame (kept (by simp)) rfl (fun _ => rfl) (fun _ _ _ => id) consumed (record_owning rfl)
  | stranger _ _ =>
      exact owned.frame (kept (by simp)) rfl (fun _ => rfl) (fun _ _ _ => id) consumed (record_owning rfl)
  | unknown _ _ =>
      exact owned.frame (kept (by simp)) rfl (fun _ => rfl) (fun _ _ _ => id) consumed
        ((record_owning rfl).trans (record_owning rfl))
  | orphan _ _ =>
      exact owned.frame (kept (by simp)) rfl (fun _ => rfl) (fun _ _ _ => id) consumed
        ((record_owning rfl).trans (record_owning rfl))
  | _ => exact owned.frame (kept (by simp)) rfl (fun _ => rfl) (fun _ _ _ => id) consumed rfl

theorem reached_owned (reached : Reached cfg admits s) : Owned s := by
  apply reached_invariant Owned start_owned _ _ reached
  · intro s fault owned
    exact ⟨owned.backed, owned.cfd, owned.opened, owned.registered, owned.arrived, owned.once, owned.empty,
      owned.closed⟩
  · intro s s' l move before owned _ act carried
    exact act_owned before owned act carried

/-- `new_conn` finds its slot empty, an accepted connection is registered at most once, and `close` closes
what the worker registered. -/
theorem descriptor_owned (reached : Reached cfg Always s) :
    (∀ i fd origin old, .register i fd origin old ∈ s.loc.log → old = none) ∧
      ((registrations s).map Registration.origin).Nodup ∧
      ∀ i fd origin found, .close i fd origin found ∈ s.loc.log →
        found = some origin ∧ ⟨i, fd, origin⟩ ∈ registrations s := by
  have owned := reached_owned reached
  exact ⟨owned.empty, owned.once, owned.closed⟩

end Owned

/-- A descriptor is accepted again between `close` and `remove_conn`. -/
theorem descriptor_owned_reused : ∃ s : System 1 1, Reached (small 1 1 (by decide)) Always s ∧
    (registrations s).map Registration.origin = [0, 1] ∧
    (registrations s).map Registration.fd = [3, 3] ∧
    ((registrations s).map Registration.origin).Nodup ∧
    ∀ i fd origin old, .register i fd origin old ∈ s.loc.log → old = none := by
  obtain ⟨s, reached, holds⟩ := exists_reachable_of_runLabels (System.step (small 1 1 (by decide)))
    always_sound (System.start 1 1)
    (connect 3 1 ++ [.io 0 0 (some (.received [])) false 0, .close 0, .accept 3, .remove 0, .dispatch,
      .notify .acceptor true, .wake (.signaling 0), .pop (.signaling 0), .register 0 1 0])
    (fun s => (registrations s).map Registration.origin = [0, 1] ∧
      (registrations s).map Registration.fd = [3, 3])
    (by decide +kernel)
  simp only [decide_eq_true_eq] at holds
  obtain ⟨empty, once, -⟩ := descriptor_owned reached
  exact ⟨s, reached, holds.1, holds.2, once, empty⟩

end Xrtc.Proof.Ownership
