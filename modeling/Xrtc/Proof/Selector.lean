import Xrtc.Go.Client
import Xrtc.Lib.Machine
import Xrtc.Lib.RoundRobin

/-!
# Picking servers while others pick and set them
-/

namespace Xrtc.Proof.Selector
open Go Lib RoundRobin

variable {A : Type} {s s' : Selecting A} {resolve : String → Except String A} {servers : List String}
  {rrs rrs' : RoundRobinSelector A}

theorem setServer_eq (resolve : String → Except String A) (servers : List String)
    (rrs : RoundRobinSelector A) : RoundRobinSelector.setServer resolve servers rrs =
    if servers.length = 0 then .error "servers is nil" rrs
    else
      match servers.mapM resolve with
      | .error err => .error err rrs
      | .ok addrs => .ok () { rrs with addrs := addrs } := by
  unfold RoundRobinSelector.setServer
  by_cases empty : servers.length = 0
  · rw [if_pos empty, if_pos empty]
    rfl
  · rw [if_neg empty, if_neg empty]
    cases servers.mapM resolve with
    | error err => rfl
    | ok addrs => rfl

theorem setServer_error {err : String}
    (failed : RoundRobinSelector.setServer resolve servers rrs = .error err rrs') : rrs' = rrs := by
  rw [setServer_eq] at failed
  split at failed
  · cases failed
    rfl
  · split at failed
    · cases failed
      rfl
    · cases failed

theorem mapM_ok_length {ε : Type} {f : String → Except ε A} {l : List String} {as : List A}
    (mapped : l.mapM f = .ok as) : as.length = l.length := by
  induction l generalizing as with
  | nil =>
      cases mapped
      rfl
  | cons x l ih =>
      rw [List.mapM_cons] at mapped
      obtain ⟨a, -, mapped⟩ := bind_eq_ok mapped
      obtain ⟨rest, later, mapped⟩ := bind_eq_ok mapped
      cases mapped
      rw [List.length_cons, List.length_cons, ih later]

theorem setServer_ok (set : RoundRobinSelector.setServer resolve servers rrs = .ok () rrs') :
    rrs'.curIndex = rrs.curIndex ∧ 0 < rrs'.addrs.length ∧ servers.mapM resolve = .ok rrs'.addrs := by
  rw [setServer_eq] at set
  split at set
  · cases set
  · next some_server =>
      split at set
      · cases set
      · next addrs resolved =>
          cases set
          have same := mapM_ok_length resolved
          exact ⟨rfl, by dsimp only; omega, resolved⟩

/-! ## What a step does -/

def PicksOnly (_ : Selecting A) : SelectorLabel A → Prop
  | .setServer _ _ => False
  | _ => True

theorem lock_inv (taken : s.step .lock = some s') :
    s' = ⟨{ s.rrs with curIndex := advance s.rrs.addrs.length s.rrs.curIndex },
      s.calls ++ [⟨s.rrs.curIndex, none⟩]⟩ :=
  (Option.some.inj taken).symm

theorem rlock_inv {i : Nat} (taken : s.step (.rlock i) = some s') :
    ∃ index, s.calls[i]? = some ⟨index, none⟩ ∧
      s' = { s with calls := s.calls.set i ⟨index, some (s.rrs.addrs, s.rrs.pickRLocked index)⟩ } := by
  simp only [Selecting.step] at taken
  split at taken
  · next index found => exact ⟨index, found, (Option.some.inj taken).symm⟩
  · cases taken

theorem setServer_inv (taken : s.step (.setServer resolve servers) = some s') :
    (s' = s ∧ ∃ err, RoundRobinSelector.setServer resolve servers s.rrs = .error err s.rrs) ∨
      ∃ rrs, RoundRobinSelector.setServer resolve servers s.rrs = .ok () rrs ∧ s' = { s with rrs := rrs } := by
  simp only [Selecting.step] at taken
  split at taken
  · next rrs set =>
      exact .inr ⟨rrs, set, (Option.some.inj taken).symm⟩
  · next err rrs failed =>
      obtain rfl := setServer_error failed
      exact .inl ⟨(Option.some.inj taken).symm, err, failed⟩

/-! ## Reconfiguration -/

/-- What `PickServer` may return when it finds `list` in its second section. -/
def Answers (list : List A) (out : Picked A) : Prop :=
  (∃ a ∈ list, out = .addr a) ∨ (list = [] ∧ out = .err "no server to pick")

def Sound (s : Selecting A) : Prop :=
  ∀ call ∈ s.calls, ∀ list out, call.result = some (list, out) → Answers list out

/-- The list is longer than the cursor and the indices that are already handed out. -/
def Fits (s : Selecting A) (addrs : List A) : Prop :=
  s.rrs.curIndex < addrs.length ∧ ∀ call ∈ s.calls, call.result = none → call.index < addrs.length

-- `max 1`: a selector without servers hands out index 0
structure Bounded (s : Selecting A) : Prop where
  cursor : s.rrs.curIndex < max 1 s.rrs.addrs.length
  pending : ∀ call ∈ s.calls, call.result = none → call.index < max 1 s.rrs.addrs.length
  sound : Sound s

theorem pickRLocked_answers {index : Nat} (inside : index < max 1 rrs.addrs.length) :
    Answers rrs.addrs (rrs.pickRLocked index) := by
  unfold RoundRobinSelector.pickRLocked
  by_cases empty : rrs.addrs.length = 0
  · rw [if_pos empty]
    exact .inr ⟨List.length_eq_zero_iff.1 empty, rfl⟩
  · have within : index < rrs.addrs.length := by omega
    rw [if_neg empty, List.getElem?_eq_getElem within]
    exact .inl ⟨_, List.getElem_mem within, rfl⟩

theorem Bounded.lock (bounded : Bounded s) (taken : s.step .lock = some s') : Bounded s' := by
  obtain rfl := lock_inv taken
  constructor
  case cursor =>
    dsimp only
    rcases Nat.eq_zero_or_pos s.rrs.addrs.length with empty | positive
    · rw [empty, advance_eq_zero (Nat.zero_le 1)]
      decide
    · exact Nat.lt_of_lt_of_le (advance_lt positive _) (Nat.le_max_right _ _)
  case pending =>
    intro call member waiting
    rcases List.mem_append.1 member with old | new
    · exact bounded.pending call old waiting
    · rw [List.mem_singleton.1 new]
      exact bounded.cursor
  case sound =>
    intro call member list out returned
    rcases List.mem_append.1 member with old | new
    · exact bounded.sound call old list out returned
    · rw [List.mem_singleton.1 new] at returned
      cases returned

theorem Bounded.rlock {i : Nat} (bounded : Bounded s) (taken : s.step (.rlock i) = some s') :
    Bounded s' := by
  obtain ⟨index, found, rfl⟩ := rlock_inv taken
  have waiting := List.mem_of_getElem? found
  constructor
  case cursor => exact bounded.cursor
  case pending =>
    intro call member open_call
    rcases List.mem_or_eq_of_mem_set member with old | rfl
    · exact bounded.pending call old open_call
    · cases open_call
  case sound =>
    intro call member list out returned
    rcases List.mem_or_eq_of_mem_set member with old | rfl
    · exact bounded.sound call old list out returned
    · cases returned
      exact pickRLocked_answers (bounded.pending _ waiting rfl)

theorem Bounded.set (bounded : Bounded s) (same : rrs.curIndex = s.rrs.curIndex)
    (fits : Fits s rrs.addrs) : Bounded { s with rrs := rrs } where
  cursor := by
    dsimp only
    rw [same]
    exact Nat.lt_of_lt_of_le fits.1 (Nat.le_max_right _ _)
  pending call member waiting := Nat.lt_of_lt_of_le (fits.2 call member waiting) (Nat.le_max_right _ _)
  sound := bounded.sound

def Admits (s : Selecting A) : SelectorLabel A → Prop
  | .setServer resolve servers =>
      ∀ rrs, RoundRobinSelector.setServer resolve servers s.rrs = .ok () rrs → Fits s rrs.addrs
  | _ => True

theorem Bounded.kept {l : SelectorLabel A} (bounded : Bounded s) (admitted : Admits s l)
    (taken : s.step l = some s') : Bounded s' := by
  cases l with
  | lock => exact bounded.lock taken
  | rlock i => exact bounded.rlock taken
  | setServer resolve servers =>
      obtain ⟨rfl, -⟩ | ⟨rrs, set, rfl⟩ := setServer_inv taken
      · exact bounded
      · exact bounded.set (setServer_ok set).1 (admitted rrs set)

theorem admits_of_picksOnly (s : Selecting A) (l : SelectorLabel A) (only : PicksOnly s l) : Admits s l := by
  cases l with
  | setServer resolve servers => cases only
  | _ => trivial

theorem new_bounded : Bounded (⟨.new, []⟩ : Selecting A) where
  cursor := Nat.lt_of_lt_of_le Nat.zero_lt_one (Nat.le_max_left _ _)
  pending call member := by cases member
  sound call member := by cases member

theorem pickRLocked_outside {index : Nat} (some_server : 0 < rrs.addrs.length)
    (outside : rrs.addrs.length ≤ index) : rrs.pickRLocked index = .indexOutOfRange := by
  rw [RoundRobinSelector.pickRLocked, if_neg (by omega), List.getElem?_eq_none outside]

theorem rlock_eq {i index : Nat} (found : s.calls[i]? = some ⟨index, none⟩) : s.step (.rlock i) =
    some { s with calls := s.calls.set i ⟨index, some (s.rrs.addrs, s.rrs.pickRLocked index)⟩ } := by
  simp only [Selecting.step, found]

theorem rlock_panics {i index : Nat} (found : s.calls[i]? = some ⟨index, none⟩)
    (some_server : 0 < s.rrs.addrs.length) (outside : s.rrs.addrs.length ≤ index) :
    ∃ s', s.step (.rlock i) = some s' ∧ ¬ Sound s' := by
  obtain ⟨inside, -⟩ := List.getElem?_eq_some_iff.1 found
  refine ⟨_, rlock_eq found, fun sound => ?_⟩
  have wrong := sound ⟨index, some (s.rrs.addrs, s.rrs.pickRLocked index)⟩ (List.mem_set inside _) _ _ rfl
  rw [pickRLocked_outside some_server outside] at wrong
  rcases wrong with ⟨a, -, impossible⟩ | ⟨-, impossible⟩
  · cases impossible
  · cases impossible

theorem fits_of_sound (some_server : 0 < s.rrs.addrs.length)
    (sound : ∀ s', Reachable Selecting.step PicksOnly s s' → Sound s') : Fits s s.rrs.addrs := by
  constructor
  · by_contra beyond
    -- a call that starts now takes the cursor and meets the list in its second section
    let s₁ : Selecting A := ⟨{ s.rrs with curIndex := advance s.rrs.addrs.length s.rrs.curIndex },
      s.calls ++ [⟨s.rrs.curIndex, none⟩]⟩
    have locked : Reachable Selecting.step PicksOnly s s₁ := .next .start (l := .lock) trivial rfl
    have found : s₁.calls[s.calls.length]? = some ⟨s.rrs.curIndex, none⟩ := List.getElem?_concat_length
    obtain ⟨s₂, taken, unsound⟩ := rlock_panics (s := s₁) found some_server (Nat.le_of_not_lt beyond)
    exact unsound (sound s₂ (.next (l := .rlock _) locked trivial taken))
  · intro call member waiting
    by_contra beyond
    -- the call is between its sections already
    obtain ⟨i, found⟩ := List.mem_iff_getElem?.1 member
    obtain ⟨index, result⟩ := call
    obtain rfl : result = none := waiting
    obtain ⟨s₁, taken, unsound⟩ := rlock_panics found some_server (Nat.le_of_not_lt beyond)
    exact unsound (sound s₁ (.next (l := .rlock i) .start trivial taken))

/-- Calls of `SetServer` and `PickServer` in any interleaving: as long as each list that is set fits
the state it is set in, every call of `PickServer` returns as it should; a list that does not fit
makes one of the calls that follow panic. A failing `SetServer` changes nothing. -/
theorem selection_safe (A : Type) :
    (∀ s : Selecting A, Reachable Selecting.step Admits ⟨.new, []⟩ s → Sound s) ∧
    (∀ (s : Selecting A) resolve servers rrs, Reachable Selecting.step Admits ⟨.new, []⟩ s →
      RoundRobinSelector.setServer resolve servers s.rrs = .ok () rrs →
      ((∀ s', Reachable Selecting.step PicksOnly { s with rrs := rrs } s' → Sound s') ↔
        Fits s rrs.addrs)) ∧
    (∀ (resolve : String → Except String A) servers rrs err rrs',
      RoundRobinSelector.setServer resolve servers rrs = .error err rrs' → rrs'.addrs = rrs.addrs) := by
  have bounded : ∀ s : Selecting A, Reachable Selecting.step Admits ⟨.new, []⟩ s → Bounded s :=
    fun s reachable => reachable.invariant new_bounded fun _ _ _ before admitted taken =>
      before.kept admitted taken
  refine ⟨fun s reachable => (bounded s reachable).sound, fun s resolve servers rrs reachable set => ?_,
    fun resolve servers rrs err rrs' failed => by rw [setServer_error failed]⟩
  obtain ⟨same, some_server, -⟩ := setServer_ok set
  constructor
  · intro sound
    have fits := fits_of_sound some_server sound
    rw [Fits, same] at fits
    exact fits
  · intro fits s' reachable'
    have after := (bounded s reachable).set same fits
    exact (reachable'.invariant after fun _ _ _ before only taken =>
      before.kept (admits_of_picksOnly _ _ only) taken).sound

def admitted (s : Selecting A) : SelectorLabel A → Bool
  | .setServer resolve servers =>
      match RoundRobinSelector.setServer resolve servers s.rrs with
      | .error _ _ => true
      | .ok _ rrs => s.rrs.curIndex < rrs.addrs.length &&
          s.calls.all fun call => call.result.isSome || call.index < rrs.addrs.length
  | _ => true

theorem admits_of_admitted (s : Selecting A) (l : SelectorLabel A) (passed : admitted s l = true) :
    Admits s l := by
  cases l with
  | setServer resolve servers =>
      intro rrs set
      simp only [admitted, set, Bool.and_eq_true, decide_eq_true_eq, List.all_eq_true, Bool.or_eq_true] at passed
      refine ⟨passed.1, fun call member waiting => (passed.2 call member).resolve_left ?_⟩
      simp [waiting]
  | _ => trivial

def literal (server : String) : Except String String := .ok server

/-- Two servers, then three while a call is between its sections. -/
theorem selection_safe_longer :
    ∃ s : Selecting String, Reachable Selecting.step Admits ⟨.new, []⟩ s ∧ Sound s ∧
      s.calls.map (·.result) = [some (["10.0.0.1:90", "10.0.0.2:90"], .addr "10.0.0.1:90"),
        some (["10.0.0.1:90", "10.0.0.2:90", "10.0.0.3:90"], .addr "10.0.0.2:90")] := by
  obtain ⟨s, reachable, holds⟩ := exists_reachable_of_runLabels (Selecting.step (A := String))
    admits_of_admitted ⟨.new, []⟩
    [.setServer literal ["10.0.0.1:90", "10.0.0.2:90"], .lock, .lock, .rlock 0,
      .setServer literal ["10.0.0.1:90", "10.0.0.2:90", "10.0.0.3:90"], .rlock 1]
    (fun s => s.calls.map (·.result) = [some (["10.0.0.1:90", "10.0.0.2:90"], .addr "10.0.0.1:90"),
      some (["10.0.0.1:90", "10.0.0.2:90", "10.0.0.3:90"], .addr "10.0.0.2:90")]) (by decide)
  exact ⟨s, reachable, (selection_safe String).1 s reachable, of_decide_eq_true holds⟩

/-- Two picks of three servers leave the cursor at 2; the list then has one server. -/
theorem shorter_list_panics :
    ∃ s : Selecting String, Reachable Selecting.step Always ⟨.new, []⟩ s ∧
      (s.calls.map (·.result)).getLast? = some (some (["10.0.0.1:90"], .indexOutOfRange)) := by
  obtain ⟨s, reachable, holds⟩ := exists_reachable_of_runLabels (Selecting.step (A := String)) always_sound
    ⟨.new, []⟩
    [.setServer literal ["10.0.0.1:90", "10.0.0.2:90", "10.0.0.3:90"], .lock, .rlock 0, .lock, .rlock 1,
      .setServer literal ["10.0.0.1:90"], .lock, .rlock 2]
    (fun s => (s.calls.map (·.result)).getLast? = some (some (["10.0.0.1:90"], .indexOutOfRange)))
    (by decide)
  exact ⟨s, reachable, of_decide_eq_true holds⟩

/-! ## One list for good -/

theorem mapM_of_resolvable (resolvable : ∀ server ∈ servers, ∃ a, resolve server = .ok a) :
    ∃ addrs, servers.mapM resolve = .ok addrs := by
  induction servers with
  | nil => exact ⟨[], rfl⟩
  | cons server servers ih =>
      obtain ⟨a, first⟩ := resolvable server List.mem_cons_self
      obtain ⟨rest, later⟩ := ih fun server member => resolvable server (List.mem_cons_of_mem _ member)
      refine ⟨a :: rest, ?_⟩
      rw [List.mapM_cons, first, later]
      rfl

theorem mapM_getElem? {l : List String} {as : List A} {i : Nat} {a : A} (mapped : l.mapM resolve = .ok as)
    (at_i : as[i]? = some a) : ∃ x, l[i]? = some x ∧ resolve x = .ok a := by
  induction l generalizing as i with
  | nil =>
      cases mapped
      cases at_i
  | cons x l ih =>
      rw [List.mapM_cons] at mapped
      obtain ⟨a₀, first, mapped⟩ := bind_eq_ok mapped
      obtain ⟨rest, later, mapped⟩ := bind_eq_ok mapped
      cases mapped
      cases i with
      | zero =>
          cases at_i
          exact ⟨x, rfl, first⟩
      | succ i => exact ih later at_i

structure Rounds (addrs : List A) (s : Selecting A) : Prop where
  list : s.rrs.addrs = addrs
  cursor : s.rrs.curIndex = s.calls.length % addrs.length
  places : s.calls.map (·.index) = picks addrs.length 0 s.calls.length
  results : ∀ i call list out, s.calls[i]? = some call → call.result = some (list, out) →
    ∃ a, addrs[i % addrs.length]? = some a ∧ out = .addr a

theorem Rounds.place {addrs : List A} {i : Nat} {call : PickCall A} (rounds : Rounds addrs s)
    (found : s.calls[i]? = some call) : call.index = i % addrs.length := by
  have inside := (List.getElem?_eq_some_iff.1 found).1
  have chosen := congrArg (·[i]?) rounds.places
  simp only [List.getElem?_map, found, getElem?_picks inside, Option.map_some, Option.some.injEq] at chosen
  exact chosen

theorem Rounds.lock {addrs : List A} (positive : 0 < addrs.length) (rounds : Rounds addrs s)
    (taken : s.step .lock = some s') : Rounds addrs s' := by
  obtain rfl := lock_inv taken
  constructor
  case list => exact rounds.list
  case cursor =>
    dsimp only
    rw [rounds.list, rounds.cursor, advance_mod positive, List.length_append, List.length_singleton]
  case places =>
    rw [List.map_append, rounds.places, List.length_append, List.length_singleton, picks_succ, Nat.zero_add]
    exact congrArg (_ ++ [·]) rounds.cursor
  case results =>
    intro i call list out found returned
    rcases getElem?_concat_cases found with old | rfl
    · exact rounds.results i call list out old returned
    · cases returned

theorem Rounds.rlock {addrs : List A} {j : Nat} (positive : 0 < addrs.length) (rounds : Rounds addrs s)
    (taken : s.step (.rlock j) = some s') : Rounds addrs s' := by
  obtain ⟨index, waiting, rfl⟩ := rlock_inv taken
  constructor
  case list => exact rounds.list
  case cursor => rw [List.length_set]; exact rounds.cursor
  case places =>
    have same : (s.calls.map (·.index))[j]? = some index := by rw [List.getElem?_map, waiting]; rfl
    obtain ⟨_, unchanged⟩ := List.getElem?_eq_some_iff.1 same
    rw [List.map_set, List.length_set, ← rounds.places, ← unchanged, List.set_getElem_self]
  case results =>
    intro i call list out found returned
    rcases getElem?_set_cases found with ⟨rfl, rfl⟩ | old
    · cases returned
      have place : index = i % addrs.length := rounds.place waiting
      have bound : index < addrs.length := place ▸ Nat.mod_lt i positive
      refine ⟨addrs[index], by rw [← place, List.getElem?_eq_getElem bound], ?_⟩
      rw [RoundRobinSelector.pickRLocked, rounds.list, if_neg (by omega), List.getElem?_eq_getElem bound]
    · exact rounds.results i call list out old returned

theorem Rounds.kept {addrs : List A} {l : SelectorLabel A} (positive : 0 < addrs.length)
    (rounds : Rounds addrs s) (only : PicksOnly s l) (taken : s.step l = some s') : Rounds addrs s' := by
  cases l with
  | setServer resolve servers => cases only
  | lock => exact rounds.lock positive taken
  | rlock j => exact rounds.rlock positive taken

theorem newClient_rounds {addrs : List A} (some_server : 1 ≤ servers.length)
    (resolved : servers.mapM resolve = .ok addrs) :
    Rounds addrs ⟨(newClient resolve servers).selector, []⟩ := by
  have selector : (newClient resolve servers).selector = ⟨addrs, 0⟩ := by
    rw [newClient, setServer_eq, if_neg (by omega), resolved]
    rfl
  rw [selector]
  exact ⟨rfl, (Nat.zero_mod _).symm, rfl, fun i call list out found => by cases found⟩

/-- The calls of `PickServer` of a client with `n` servers, numbered in the order of their first
sections: call `i` takes place `i % n` and returns the address there, and any `k * n` calls in a row
take each place `k` times, in every interleaving of the sections. -/
theorem round_robin_exact (resolve : String → Except String A) (servers : List String)
    (some_server : 1 ≤ servers.length) (resolvable : ∀ server ∈ servers, ∃ a, resolve server = .ok a)
    (s : Selecting A)
    (reachable : Reachable Selecting.step PicksOnly ⟨(newClient resolve servers).selector, []⟩ s) :
    (∀ i call, s.calls[i]? = some call → call.index = i % servers.length ∧
      ∀ list out, call.result = some (list, out) →
        ∃ server a, servers[i % servers.length]? = some server ∧ resolve server = .ok a ∧ out = .addr a) ∧
    (∀ a k, a + k * servers.length ≤ s.calls.length → ∀ place < servers.length,
      (((s.calls.drop a).take (k * servers.length)).map (·.index)).count place = k) := by
  obtain ⟨addrs, resolved⟩ := mapM_of_resolvable resolvable
  have size : addrs.length = servers.length := mapM_ok_length resolved
  have positive : 0 < addrs.length := by omega
  have rounds : Rounds addrs s := reachable.invariant (newClient_rounds some_server resolved)
    fun _ _ _ before only taken => before.kept positive only taken
  rw [← size]
  constructor
  · intro i call found
    refine ⟨rounds.place found, fun list out returned => ?_⟩
    obtain ⟨a, at_place, answer⟩ := rounds.results i call list out found returned
    obtain ⟨server, named, resolves⟩ := mapM_getElem? resolved at_place
    exact ⟨server, a, named, resolves, answer⟩
  · intro a k within place inside
    rw [List.map_take, List.map_drop, rounds.places, window_picks within]
    exact count_rounds inside a k

def picking (_ : Selecting A) : SelectorLabel A → Bool
  | .setServer _ _ => false
  | _ => true

theorem picksOnly_of_picking (s : Selecting A) (l : SelectorLabel A) (passed : picking s l = true) :
    PicksOnly s l := by
  cases l with
  | setServer resolve servers => cases passed
  | _ => trivial

/-- Four calls for two servers; the second returns before the first. -/
theorem round_robin_exact_two :
    ∃ s : Selecting String, Reachable Selecting.step PicksOnly
        ⟨(newClient literal ["10.0.0.1:90", "10.0.0.2:90"]).selector, []⟩ s ∧
      s.calls.length = 4 ∧ (∀ call, s.calls[3]? = some call → call.index = 1) ∧
      (((s.calls.drop 1).take 2).map (·.index)).count 0 = 1 := by
  obtain ⟨s, reachable, four⟩ := exists_reachable_of_runLabels (Selecting.step (A := String))
    picksOnly_of_picking ⟨(newClient literal ["10.0.0.1:90", "10.0.0.2:90"]).selector, []⟩
    [.lock, .lock, .rlock 1, .lock, .rlock 0, .lock] (fun s => s.calls.length = 4) (by decide)
  have four : s.calls.length = 4 := of_decide_eq_true four
  obtain ⟨places, windows⟩ := round_robin_exact literal ["10.0.0.1:90", "10.0.0.2:90"] (by decide)
    (fun server _ => ⟨server, rfl⟩) s reachable
  refine ⟨s, reachable, four, fun call found => (places 3 call found).1, windows 1 1 ?_ 0 (by decide)⟩
  rw [four]
  decide

end Xrtc.Proof.Selector
