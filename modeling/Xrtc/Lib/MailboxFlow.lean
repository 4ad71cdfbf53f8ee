import Xrtc.Lib.MailboxLaws
import Xrtc.Lib.Matching

/-!
# The flow of items in a network of mailboxes

* `Net.Conserved`: every created item is in exactly one queue, in the hands of one thread, or
  consumed.
* `Net.Fifo`: a box gives its items back in the order in which they were pushed.
* `Net.Served`: only the reader of a pipe is woken for its boxes.
* `Net.Sends`: who may push where.
* `Net.Fits`: what may be where.
-/

namespace Xrtc.Lib.Mailbox

variable {T B P L I K : Type*}

/-! ## Conservation -/

inductive Place (T B : Type*)
  | box (b : B)
  | hand (t : T)
  | done
  deriving DecidableEq

def Place.toSum : Place T B ≃ B ⊕ T ⊕ Unit where
  toFun
    | .box b => .inl b
    | .hand t => .inr (.inl t)
    | .done => .inr (.inr ())
  invFun
    | .inl b => .box b
    | .inr (.inl t) => .hand t
    | .inr (.inr ()) => .done
  left_inv place := by cases place <;> rfl
  right_inv sum := by rcases sum with b | t | _ <;> rfl

section Conservation

variable [Fintype T] [Fintype B]

instance : Fintype (Place T B) := Fintype.ofEquiv _ Place.toSum.symm

theorem Place.sum_eq (f : Place T B → Nat) :
    ∑ place, f place = ∑ b, f (.box b) + (∑ t, f (.hand t) + f .done) := by
  rw [← Place.toSum.symm.sum_comp f, Fintype.sum_sum_type, Fintype.sum_sum_type]
  simp [Place.toSum]

def Net.contents (net : Net T B P L I) : Place T B → List I
  | .box b => net.queue b
  | .hand t => (net.role t).held
  | .done => net.consumed

/-- A move that keeps the key of the item it pushes. -/
def Move.Keeps (key : I → K) (net : Net T B P L I) : Move T B P I → Prop
  | .push t _ f => ∀ x, net.role t = .holding x → key (f x) = key x
  | _ => True

variable [DecidableEq K]

/-- How often an item with this key is in the network. -/
def Net.tally (key : I → K) (net : Net T B P L I) (k : K) : Nat :=
  ∑ place, ((net.contents place).map key).count k

def Net.Conserved (key : I → K) (net : Net T B P L I) : Prop :=
  ∀ k, net.tally key k = (net.created.map key).count k

theorem Net.tally_eq (key : I → K) (net : Net T B P L I) (k : K) :
    net.tally key k = ∑ b, ((net.queue b).map key).count k +
      (∑ t, ((net.role t).held.map key).count k + (net.consumed.map key).count k) :=
  Place.sum_eq _

theorem Net.empty_conserved (key : I → K) : (Net.empty : Net T B P L I).Conserved key := by
  intro k
  simp [Net.tally_eq, Net.empty, Role.held]

variable [DecidableEq T] [DecidableEq B]

theorem Net.Conserved.two_places {key : I → K} {net : Net T B P L I} (conserved : net.Conserved key)
    (k : K) {place other : Place T B} (different : place ≠ other) :
    ((net.contents place).map key).count k + ((net.contents other).map key).count k ≤
      (net.created.map key).count k := by
  rw [← conserved k, Net.tally,
    ← Finset.sum_pair (f := fun place => ((net.contents place).map key).count k) different]
  exact Finset.sum_le_sum_of_subset (Finset.subset_univ _)

theorem Net.Conserved.one_place {key : I → K} {net : Net T B P L I}
    (conserved : net.Conserved key) {k : K} (once : (net.created.map key).count k = 1) :
    ∃ place, ((net.contents place).map key).count k = 1 ∧
      ∀ other ≠ place, ((net.contents other).map key).count k = 0 := by
  have total : ∑ place, ((net.contents place).map key).count k = 1 := (conserved k).trans once
  have nonzero : ∑ place, ((net.contents place).map key).count k ≠ 0 := by omega
  obtain ⟨place, -, present⟩ := Finset.exists_ne_zero_of_sum_ne_zero nonzero
  have within := Finset.single_le_sum (f := fun place => ((net.contents place).map key).count k)
    (fun _ _ => Nat.zero_le _) (Finset.mem_univ place)
  refine ⟨place, by omega, fun other different => ?_⟩
  have both := conserved.two_places k different
  omega

/-- An item that was created at most once is not in two places. -/
theorem Net.Conserved.place_unique {key : I → K} {net : Net T B P L I} (conserved : net.Conserved key)
    {x y : I} (same : key x = key y) (once : (net.created.map key).count (key y) ≤ 1)
    {place other : Place T B} (here : x ∈ net.contents place) (there : y ∈ net.contents other) :
    place = other := by
  by_contra different
  have both := conserved.two_places (key y) different
  have first : 0 < ((net.contents place).map key).count (key y) :=
    List.count_pos_iff.2 (same ▸ List.mem_map_of_mem here)
  have second : 0 < ((net.contents other).map key).count (key y) :=
    List.count_pos_iff.2 (List.mem_map_of_mem there)
  omega

variable [DecidableEq P]

theorem Net.tally_step {w : Wiring T B P L} {key : I → K} {net net' : Net T B P L I}
    {move : Move T B P I} (keeps : move.Keeps key net) (taken : net.step w move = some net') (k : K) :
    net'.tally key k + (net.created.map key).count k =
      net.tally key k + (net'.created.map key).count k := by
  have hands (t : T) (r : Role B I) := sum_update net.role (fun r => (r.held.map key).count k) t r
  have boxes (b : B) (items : List I) := sum_update net.queue (fun xs => (xs.map key).count k) b items
  simp only [Net.tally_eq]
  cases move with
  | create t x =>
      obtain ⟨free, rfl⟩ := Net.create_inv taken
      have change := hands t (.holding x)
      simp only [free, Role.held, List.map_nil, List.count_nil, List.map_append, List.count_append]
        at change ⊢
      simp only [List.map_cons, List.map_nil] at change ⊢
      omega
  | push t b f =>
      obtain ⟨x, held, rfl⟩ := Net.push_inv taken
      have change := hands t (.owes b)
      have added := boxes b (net.queue b ++ [f x])
      simp only [held, Role.held, List.map_nil, List.count_nil, List.map_append, List.count_append,
        List.map_cons, keeps x held] at change added ⊢
      omega
  | notify t =>
      obtain ⟨b, owed, -, rfl⟩ := Net.notify_inv taken
      have change := hands t .free
      simp only [owed, Role.held] at change ⊢
      omega
  | abandon t =>
      obtain ⟨b, owed, rfl⟩ := Net.abandon_inv taken
      have change := hands t .free
      simp only [owed, Role.held] at change ⊢
      omega
  | wake p =>
      obtain ⟨l, rest, free, -, rfl⟩ := Net.wake_inv taken
      cases named : w.boxOf p l with
      | none =>
          have change := hands (w.readerOf p) .free
          simp only [free, Role.held] at change ⊢
          omega
      | some b =>
          have change := hands (w.readerOf p) (.woken b)
          simp only [free, Role.held] at change ⊢
          omega
  | pop t =>
      obtain ⟨b, woken, ⟨x, rest, head, rfl⟩ | ⟨-, rfl⟩⟩ := Net.pop_inv taken
      · have change := hands t (.holding x)
        have removed := boxes b rest
        simp only [woken, head, Role.held, List.map_nil, List.count_nil, List.map_cons,
          List.count_cons] at change removed ⊢
        omega
      · have change := hands t .free
        simp only [woken, Role.held] at change ⊢
        omega
  | consume t =>
      obtain ⟨x, held, rfl⟩ := Net.consume_inv taken
      have change := hands t .free
      simp only [held, Role.held, List.map_nil, List.count_nil, List.map_append, List.count_append,
        List.map_cons] at change ⊢
      omega

theorem Net.step_conserved {w : Wiring T B P L} {key : I → K} {net net' : Net T B P L I}
    {move : Move T B P I} (conserved : net.Conserved key) (keeps : move.Keeps key net)
    (taken : net.step w move = some net') : net'.Conserved key := by
  intro k
  have change := Net.tally_step keeps taken k
  have before := conserved k
  omega

end Conservation

/-! ## Histories -/

section Histories

variable [DecidableEq T]

theorem held_update (role : T → Role B I) (t t' : T) (r : Role B I) :
    (Function.update role t' r t).held = if t' = t then r.held else (role t).held := by
  by_cases same : t' = t
  · subst same
    simp
  · simp [same, Ne.symm same]

theorem held_idle {role : T → Role B I} {t t' : T} {r : Role B I} (before : (role t').held = [])
    (after : r.held = []) : (Function.update role t' r t).held = (role t).held := by
  rw [held_update]
  split
  · next same => rw [← same, before, after]
  · rfl

variable [DecidableEq B]

def Move.creates : Move T B P I → List I
  | .create _ x => [x]
  | _ => []

def Move.consumes (net : Net T B P L I) : Move T B P I → List I
  | .consume t => (net.role t).held
  | _ => []

def Move.pushes (net : Net T B P L I) (b : B) : Move T B P I → List I
  | .push t c f => if c = b then (net.role t).held.map f else []
  | _ => []

def Net.next (net : Net T B P L I) (t : T) : List I :=
  match net.role t with
  | .woken b => (net.queue b).take 1
  | _ => []

def Move.pops (net : Net T B P L I) (b : B) : Move T B P I → List I
  | .pop t => if (net.role t).claim b = 1 then net.next t else []
  | _ => []

def Move.hold (net : Net T B P L I) (t : T) : Move T B P I → List I
  | .create t' x => if t' = t then [x] else (net.role t).held
  | .push t' _ _ => if t' = t then [] else (net.role t).held
  | .pop t' => if t' = t then net.next t else (net.role t).held
  | .consume t' => if t' = t then [] else (net.role t).held
  | _ => (net.role t).held

variable [DecidableEq P] {w : Wiring T B P L} {net net' : Net T B P L I} {move : Move T B P I}

theorem Net.step_created (taken : net.step w move = some net') :
    net'.created = net.created ++ move.creates := by
  cases move with
  | create t x => obtain ⟨-, rfl⟩ := Net.create_inv taken; rfl
  | push t b f => obtain ⟨_, -, rfl⟩ := Net.push_inv taken; exact (List.append_nil _).symm
  | notify t => obtain ⟨_, -, -, rfl⟩ := Net.notify_inv taken; exact (List.append_nil _).symm
  | abandon t => obtain ⟨_, -, rfl⟩ := Net.abandon_inv taken; exact (List.append_nil _).symm
  | wake p => obtain ⟨_, _, -, -, rfl⟩ := Net.wake_inv taken; exact (List.append_nil _).symm
  | consume t => obtain ⟨_, -, rfl⟩ := Net.consume_inv taken; exact (List.append_nil _).symm
  | pop t =>
      obtain ⟨_, -, ⟨_, _, -, rfl⟩ | ⟨-, rfl⟩⟩ := Net.pop_inv taken <;> exact (List.append_nil _).symm

theorem Net.step_consumed (taken : net.step w move = some net') :
    net'.consumed = net.consumed ++ move.consumes net := by
  cases move with
  | create t x => obtain ⟨-, rfl⟩ := Net.create_inv taken; exact (List.append_nil _).symm
  | push t b f => obtain ⟨_, -, rfl⟩ := Net.push_inv taken; exact (List.append_nil _).symm
  | notify t => obtain ⟨_, -, -, rfl⟩ := Net.notify_inv taken; exact (List.append_nil _).symm
  | abandon t => obtain ⟨_, -, rfl⟩ := Net.abandon_inv taken; exact (List.append_nil _).symm
  | wake p => obtain ⟨_, _, -, -, rfl⟩ := Net.wake_inv taken; exact (List.append_nil _).symm
  | consume t =>
      obtain ⟨x, held, rfl⟩ := Net.consume_inv taken
      simp only [Move.consumes, held, Role.held]
  | pop t =>
      obtain ⟨_, -, ⟨_, _, -, rfl⟩ | ⟨-, rfl⟩⟩ := Net.pop_inv taken <;> exact (List.append_nil _).symm

theorem Net.step_pushed (taken : net.step w move = some net') (b : B) :
    net'.pushed b = net.pushed b ++ move.pushes net b := by
  cases move with
  | push t c f =>
      obtain ⟨x, held, rfl⟩ := Net.push_inv taken
      by_cases same : c = b
      · subst same
        simp [Move.pushes, held, Role.held]
      · simp [Move.pushes, same, Ne.symm same]
  | create t x => obtain ⟨-, rfl⟩ := Net.create_inv taken; exact (List.append_nil _).symm
  | notify t => obtain ⟨_, -, -, rfl⟩ := Net.notify_inv taken; exact (List.append_nil _).symm
  | abandon t => obtain ⟨_, -, rfl⟩ := Net.abandon_inv taken; exact (List.append_nil _).symm
  | wake p => obtain ⟨_, _, -, -, rfl⟩ := Net.wake_inv taken; exact (List.append_nil _).symm
  | consume t => obtain ⟨_, -, rfl⟩ := Net.consume_inv taken; exact (List.append_nil _).symm
  | pop t =>
      obtain ⟨_, -, ⟨_, _, -, rfl⟩ | ⟨-, rfl⟩⟩ := Net.pop_inv taken <;> exact (List.append_nil _).symm

theorem Net.step_popped (taken : net.step w move = some net') (b : B) :
    net'.popped b = net.popped b ++ move.pops net b := by
  cases move with
  | pop t =>
      obtain ⟨c, woken, ⟨x, rest, head, rfl⟩ | ⟨empty, rfl⟩⟩ := Net.pop_inv taken
      · by_cases same : c = b
        · subst same
          simp [Move.pops, Net.next, woken, Role.claim, head]
        · simp [Move.pops, woken, Role.claim, same, Ne.symm same]
      · simp [Move.pops, Net.next, woken, empty]
  | create t x => obtain ⟨-, rfl⟩ := Net.create_inv taken; exact (List.append_nil _).symm
  | push t c f => obtain ⟨_, -, rfl⟩ := Net.push_inv taken; exact (List.append_nil _).symm
  | notify t => obtain ⟨_, -, -, rfl⟩ := Net.notify_inv taken; exact (List.append_nil _).symm
  | abandon t => obtain ⟨_, -, rfl⟩ := Net.abandon_inv taken; exact (List.append_nil _).symm
  | wake p => obtain ⟨_, _, -, -, rfl⟩ := Net.wake_inv taken; exact (List.append_nil _).symm
  | consume t => obtain ⟨_, -, rfl⟩ := Net.consume_inv taken; exact (List.append_nil _).symm

theorem Net.step_held (taken : net.step w move = some net') (t : T) :
    (net'.role t).held = move.hold net t := by
  cases move with
  | create t' x =>
      obtain ⟨-, rfl⟩ := Net.create_inv taken
      exact held_update ..
  | push t' c f =>
      obtain ⟨_, -, rfl⟩ := Net.push_inv taken
      exact held_update ..
  | consume t' =>
      obtain ⟨_, -, rfl⟩ := Net.consume_inv taken
      exact held_update ..
  | notify t' =>
      obtain ⟨_, owed, -, rfl⟩ := Net.notify_inv taken
      exact held_idle (by rw [owed]; rfl) rfl
  | abandon t' =>
      obtain ⟨_, owed, rfl⟩ := Net.abandon_inv taken
      exact held_idle (by rw [owed]; rfl) rfl
  | wake p =>
      obtain ⟨l, _, free, -, rfl⟩ := Net.wake_inv taken
      apply held_idle (by rw [free]; rfl)
      cases w.boxOf p l <;> rfl
  | pop t' =>
      obtain ⟨c, woken, ⟨x, rest, head, rfl⟩ | ⟨empty, rfl⟩⟩ := Net.pop_inv taken
      · have next : net.next t' = [x] := by simp [Net.next, woken, head]
        rw [held_update]
        show _ = if t' = t then net.next t else (net.role t).held
        split
        · next same => rw [← same, next]; rfl
        · rfl
      · have next : net.next t' = [] := by simp [Net.next, woken, empty]
        rw [held_update]
        show _ = if t' = t then net.next t else (net.role t).held
        split
        · next same => rw [← same, next]; rfl
        · rfl

end Histories

/-! ## Order, and who does what -/

def Net.Fifo (net : Net T B P L I) : Prop := ∀ b, net.pushed b = net.popped b ++ net.queue b

def Net.Served (w : Wiring T B P L) (net : Net T B P L I) : Prop :=
  ∀ t b, net.role t = .woken b → t = w.readerOf (w.pipeOf b)

def Net.Sends (allowed : T → B → Prop) (net : Net T B P L I) : Prop :=
  ∀ t b, net.role t = .owes b → allowed t b

def Net.Fits (fit : Place T B → I → Prop) (net : Net T B P L I) : Prop :=
  ∀ place x, x ∈ net.contents place → fit place x

theorem Net.empty_fifo : (Net.empty : Net T B P L I).Fifo := fun _ => rfl

theorem Net.empty_served (w : Wiring T B P L) : (Net.empty : Net T B P L I).Served w :=
  fun _ _ woken => by cases woken

theorem Net.empty_sends (allowed : T → B → Prop) : (Net.empty : Net T B P L I).Sends allowed :=
  fun _ _ owed => by cases owed

theorem Net.empty_fits (fit : Place T B → I → Prop) : (Net.empty : Net T B P L I).Fits fit := by
  intro place x member
  cases place <;> simp [Net.contents, Net.empty, Role.held] at member

/-- A move that leaves every item where it may be. -/
def Move.Fitting (fit : Place T B → I → Prop) (net : Net T B P L I) : Move T B P I → Prop
  | .create t x => fit (.hand t) x
  | .push t b f => ∀ x, net.role t = .holding x → fit (.hand t) x → fit (.box b) (f x)
  | .pop t => ∀ b x, net.role t = .woken b → fit (.box b) x → fit (.hand t) x
  | .consume t => ∀ x, net.role t = .holding x → fit (.hand t) x → fit .done x
  | _ => True

variable [DecidableEq T]

theorem Net.contents_role {net : Net T B P L I} {t : T} {r : Role B I} {place : Place T B} {x : I}
    (member : x ∈ Net.contents { net with role := Function.update net.role t r } place) :
    x ∈ net.contents place ∨ place = .hand t ∧ r = .holding x := by
  cases place with
  | box b => exact .inl member
  | done => exact .inl member
  | hand t' =>
      by_cases same : t' = t
      · subst same
        simp only [Net.contents, Function.update_self] at member
        cases r <;> simp only [Role.held, List.not_mem_nil, List.mem_singleton] at member
        subst member
        exact .inr ⟨rfl, rfl⟩
      · simp only [Net.contents, Function.update_of_ne same] at member
        exact .inl member

variable [DecidableEq B] [DecidableEq P]

theorem Net.step_fifo {w : Wiring T B P L} {net net' : Net T B P L I} {move : Move T B P I}
    (fifo : net.Fifo) (taken : net.step w move = some net') : net'.Fifo := by
  intro b
  have before := fifo b
  cases move with
  | create t x => obtain ⟨-, rfl⟩ := Net.create_inv taken; exact before
  | notify t => obtain ⟨_, -, -, rfl⟩ := Net.notify_inv taken; exact before
  | abandon t => obtain ⟨_, -, rfl⟩ := Net.abandon_inv taken; exact before
  | wake p => obtain ⟨_, _, -, -, rfl⟩ := Net.wake_inv taken; exact before
  | consume t => obtain ⟨_, -, rfl⟩ := Net.consume_inv taken; exact before
  | push t c f =>
      obtain ⟨x, -, rfl⟩ := Net.push_inv taken
      by_cases same : b = c
      · subst same
        simp only [Function.update_self, before, List.append_assoc]
      · simpa only [Function.update_of_ne same] using before
  | pop t =>
      obtain ⟨c, -, ⟨x, rest, head, rfl⟩ | ⟨-, rfl⟩⟩ := Net.pop_inv taken
      · by_cases same : b = c
        · subst same
          simp only [Function.update_self, before, head, List.append_assoc, List.singleton_append]
        · simpa only [Function.update_of_ne same] using before
      · exact before

theorem Net.step_served {w : Wiring T B P L} {net net' : Net T B P L I} {move : Move T B P I}
    (served : net.Served w) (taken : net.step w move = some net') : net'.Served w := by
  intro t b woken
  obtain ⟨actor, r, shift, role⟩ := Net.step_shift taken
  rw [role] at woken
  rcases update_cases woken with ⟨rfl, rfl⟩ | ⟨-, old⟩
  · cases shift with
    | wake free named => rw [((w.boxOf_iff _ _ _).1 named).1]
  · exact served t b old

theorem Net.step_sends {w : Wiring T B P L} {allowed : T → B → Prop} {net net' : Net T B P L I}
    {move : Move T B P I} (sends : net.Sends allowed)
    (pushes : ∀ t b f, move = .push t b f → allowed t b) (taken : net.step w move = some net') :
    net'.Sends allowed := by
  intro t b owed
  obtain ⟨actor, r, shift, role⟩ := Net.step_shift taken
  rw [role] at owed
  rcases update_cases owed with ⟨rfl, rfl⟩ | ⟨-, old⟩
  · cases shift with
    | push holds => exact pushes _ _ _ rfl
  · exact sends t b old

theorem Net.step_fits {w : Wiring T B P L} {fit : Place T B → I → Prop} {net net' : Net T B P L I}
    {move : Move T B P I} (fits : net.Fits fit) (fitting : move.Fitting fit net)
    (taken : net.step w move = some net') : net'.Fits fit := by
  intro place x member
  have hand {t : T} (held : net.role t = .holding x) : fit (.hand t) x :=
    fits (.hand t) x (by simp [Net.contents, held, Role.held])
  cases move with
  | create t y =>
      obtain ⟨-, rfl⟩ := Net.create_inv taken
      rcases Net.contents_role member with old | ⟨rfl, new⟩
      · exact fits place x old
      · cases new
        exact fitting
  | notify t =>
      obtain ⟨_, -, -, rfl⟩ := Net.notify_inv taken
      rcases Net.contents_role member with old | ⟨-, new⟩
      · exact fits place x old
      · cases new
  | abandon t =>
      obtain ⟨_, -, rfl⟩ := Net.abandon_inv taken
      rcases Net.contents_role member with old | ⟨-, new⟩
      · exact fits place x old
      · cases new
  | wake p =>
      obtain ⟨l, rest, -, -, rfl⟩ := Net.wake_inv taken
      rcases Net.contents_role member with old | ⟨-, new⟩
      · exact fits place x old
      · split at new <;> cases new
  | consume t =>
      obtain ⟨y, held, rfl⟩ := Net.consume_inv taken
      by_cases finished : place = .done
      · subst finished
        rcases List.mem_append.1 member with old | new
        · exact fits .done x old
        · obtain rfl := List.mem_singleton.1 new
          exact fitting x held (hand held)
      · have same : x ∈ Net.contents { net with role := Function.update net.role t .free } place := by
          cases place <;> first | exact member | exact absurd rfl finished
        rcases Net.contents_role same with old | ⟨-, new⟩
        · exact fits place x old
        · cases new
  | push t b f =>
      obtain ⟨y, held, rfl⟩ := Net.push_inv taken
      by_cases target : place = .box b
      · subst target
        simp only [Net.contents, Function.update_self, List.mem_append, List.mem_singleton] at member
        rcases member with old | rfl
        · exact fits (.box b) x old
        · exact fitting y held (fits (.hand t) y (by simp [Net.contents, held, Role.held]))
      · have same : x ∈ Net.contents { net with role := Function.update net.role t (.owes b) } place := by
          cases place with
          | box c =>
              have other : c ≠ b := fun same => target (congrArg Place.box same)
              simpa only [Net.contents, Function.update_of_ne other] using member
          | hand t' => exact member
          | done => exact member
        rcases Net.contents_role same with old | ⟨-, new⟩
        · exact fits place x old
        · cases new
  | pop t =>
      obtain ⟨b, woken, ⟨y, rest, head, rfl⟩ | ⟨-, rfl⟩⟩ := Net.pop_inv taken
      · by_cases source : place = .box b
        · subst source
          simp only [Net.contents, Function.update_self] at member
          exact fits (.box b) x (by simp [Net.contents, head, member])
        · have same : x ∈ Net.contents { net with role := Function.update net.role t (.holding y) } place := by
            cases place with
            | box c =>
                have other : c ≠ b := fun same => source (congrArg Place.box same)
                simpa only [Net.contents, Function.update_of_ne other] using member
            | hand t' => exact member
            | done => exact member
          rcases Net.contents_role same with old | ⟨rfl, new⟩
          · exact fits place x old
          · cases new
            exact fitting b x woken (fits (.box b) x (by simp [Net.contents, head]))
      · rcases Net.contents_role member with old | ⟨-, new⟩
        · exact fits place x old
        · cases new

end Xrtc.Lib.Mailbox
