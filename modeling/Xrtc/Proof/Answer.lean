import Mathlib.Data.Nat.Digits.Defs
import Xrtc.Proof.Push

/-!
# The answers of the push endpoint
-/

namespace Xrtc.Proof.Answer
open Go Lib

/-! ## Decimal numerals -/

def digit (c : UInt8) : Nat := c.toNat - 0x30

structure IsDecimal (s : List UInt8) (n : Nat) : Prop where
  nonempty : s ≠ []
  digits : ∀ c ∈ s, 0x30 ≤ c ∧ c ≤ 0x39
  value : Nat.ofDigits 10 (s.map digit).reverse = n

theorem value_cons (c : UInt8) (s : List UInt8) :
    Nat.ofDigits 10 ((c :: s).map digit).reverse =
      digit c * 10 ^ s.length + Nat.ofDigits 10 (s.map digit).reverse := by
  rw [List.map_cons, List.reverse_cons, Nat.ofDigits_append, List.length_reverse, List.length_map,
    Nat.ofDigits_singleton, Nat.add_comm, Nat.mul_comm]

theorem parseDigits_ok_iff {s : List UInt8} {n m : Nat} (small : n < 2 ^ 64) :
    parseDigits n s = .ok m ↔ (∀ c ∈ s, 0x30 ≤ c ∧ c ≤ 0x39) ∧
      m = n * 10 ^ s.length + Nat.ofDigits 10 (s.map digit).reverse ∧ m < 2 ^ 64 := by
  induction s generalizing n with
  | nil =>
      simp only [parseDigits, Except.ok.injEq, List.not_mem_nil, false_implies, implies_true, List.length_nil,
        pow_zero, Nat.mul_one, List.map_nil, List.reverse_nil, Nat.ofDigits_nil, Nat.add_zero, true_and]
      constructor
      · rintro rfl
        exact ⟨rfl, small⟩
      · rintro ⟨rfl, -⟩
        rfl
  | cons c s ih =>
      have shifted : n * 10 ^ (s.length + 1) + (digit c * 10 ^ s.length + Nat.ofDigits 10 (s.map digit).reverse) =
          (10 * n + digit c) * 10 ^ s.length + Nat.ofDigits 10 (s.map digit).reverse := by ring
      rw [parseDigits, value_cons, List.length_cons, shifted, List.forall_mem_cons]
      by_cases other : c < 0x30 ∨ 0x39 < c
      · rw [if_pos other]
        refine iff_of_false (fun impossible => by cases impossible) ?_
        rintro ⟨digits, -⟩
        rcases other with below | above
        · exact absurd below (UInt8.not_lt.2 digits.1.1)
        · exact absurd above (UInt8.not_lt.2 digits.1.2)
      · obtain ⟨above, below⟩ := not_or.1 other
        have isDigit : 0x30 ≤ c ∧ c ≤ 0x39 := ⟨UInt8.not_lt.1 above, UInt8.not_lt.1 below⟩
        rw [if_neg other]
        by_cases large : 2 ^ 64 ≤ 10 * n + digit c
        · have beyond : 10 * n + digit c ≤ (10 * n + digit c) * 10 ^ s.length :=
            Nat.le_mul_of_pos_right _ (Nat.pow_pos (by decide))
          refine iff_of_false ?_ ?_
          · intro parsed
            cases (if_pos large).symm.trans parsed
          · rintro ⟨-, value, bound⟩
            omega
        · have step := ih (n := 10 * n + digit c) (Nat.lt_of_not_le large)
          simp only [isDigit, true_and, and_self]
          rw [← step]
          exact iff_of_eq (congrArg (· = _) (if_neg large))

theorem parseUint_ok_iff {s : List UInt8} {uid : UInt64} :
    parseUint s = .ok uid ↔ IsDecimal s uid.toNat := by
  unfold parseUint
  by_cases empty : s = []
  · rw [if_pos empty]
    exact iff_of_false (fun impossible => by cases impossible) fun numeral => numeral.nonempty empty
  · have spec := parseDigits_ok_iff (s := s) (n := 0) (m := uid.toNat) (by decide)
    rw [Nat.zero_mul, Nat.zero_add] at spec
    rw [if_neg empty]
    constructor
    · intro parsed
      cases digits : parseDigits 0 s with
      | error e => rw [digits] at parsed; cases parsed
      | ok m =>
          have bound := ((parseDigits_ok_iff (by decide)).1 digits).2.2
          rw [digits] at parsed
          obtain rfl : UInt64.ofNat m = uid := Except.ok.inj parsed
          rw [UInt64.toNat_ofNat_of_lt' bound] at spec ⊢
          obtain ⟨all, value, -⟩ := spec.1 digits
          exact ⟨empty, all, value.symm⟩
    · intro numeral
      rw [spec.2 ⟨numeral.digits, numeral.value.symm, uid.toNat_lt⟩]
      exact congrArg Except.ok UInt64.ofNat_toNat

/-! ## What `Execute` leaves -/

variable {form : Form} {backend : XrtcPushReq → Except GoError XrtcPushResp} {h : Handling}

def add (h : Handling) (served : Served) : Handling where
  written := h.written ++ [served.resp]
  calls := h.calls ++ served.called.toList
  logged := h.logged ++ served.cerr.toList

theorem value_run (key : String) : Handling.value form key h =
    match formValue form key with
    | .error p => .error p h
    | .ok value => .ok value h := by
  unfold Handling.value
  cases formValue form key with
  | error p => rfl
  | ok value => rfl

theorem report_run (req : XrtcPushReq) (result : Except GoError XrtcPushResp) :
    Handling.report result { h with calls := h.calls ++ [req] } = .ok () (add h (finish req result)) := by
  unfold Handling.report finish
  cases result with
  | error err => rfl
  | ok resp =>
      dsimp only
      by_cases failed : resp.errNo ≠ 0
      · rw [if_pos failed, if_pos failed]
        rfl
      · rw [if_neg failed, if_neg failed, add, Option.toList_none, List.append_nil]
        rfl

theorem writeError_run (cerr : Errors) :
    Handling.writeError cerr h = .ok () (add h (writeJsonErrorResponse cerr none)) := by
  rw [add, writeJsonErrorResponse, Option.toList_none, List.append_nil]
  rfl

theorem value_ok {key : String} {value : List UInt8} (found : formValue form key = .ok value) :
    Handling.value form key h = .ok value h := by
  rw [value_run, found]

theorem value_panics {key : String} {p : Panic} (missing : formValue form key = .error p) :
    Handling.value form key h = .error p h := by
  rw [value_run, missing]

theorem push_run (uid : UInt64) (streamName : List UInt8) : Handling.push form backend uid streamName h =
    match (do
      let strAudio ← formValue form "audio"
      let strVideo ← formValue form "video"
      let req := Push.pushReq uid streamName strAudio strVideo
      return finish req (backend req) : Except Panic Served) with
    | .error p => .error p h
    | .ok served => .ok () (add h served) := by
  rw [Handling.push]
  cases audio : formValue form "audio" with
  | error p => exact run_bind_error (value_panics audio)
  | ok strAudio =>
      rw [run_bind_ok (value_ok audio)]
      cases video : formValue form "video" with
      | error p => exact run_bind_error (value_panics video)
      | ok strVideo =>
          rw [run_bind_ok (value_ok video)]
          exact (run_bind_ok rfl).trans (report_run _ _)

theorem uidOf_error {strUid : List UInt8} {err : NumErr} (parsed : parseUint strUid = .error err) :
    (Handling.uidOf strUid).2 = some (.num strUid err) := by
  unfold Handling.uidOf
  cases err with
  | invalid => rw [parsed]
  | outOfRange => rw [parsed]

section
variable {strUid : List UInt8} (given : formValue form "uid" = .ok strUid)
include given

theorem execute_unparsed {err : NumErr} (parsed : parseUint strUid = .error err) :
    execute form backend = .ok (writeJsonErrorResponse
      { errno := ParamErr, err := "parse uid error:", cause := some (.num strUid err) } none) := by
  simp only [execute, given, parsed, bind, Except.bind]
  rfl

theorem execute_zero {uid : UInt64} (parsed : parseUint strUid = .ok uid) (zero : uid ≤ 0) :
    execute form backend = .error .nilDereference := by
  simp only [execute, given, parsed, bind, Except.bind, if_pos zero]
  rfl

theorem execute_unnamed {uid : UInt64} (parsed : parseUint strUid = .ok uid) (positive : ¬ uid ≤ 0)
    (unnamed : formValue form "streamName" = .ok []) :
    execute form backend = .ok (writeJsonErrorResponse
      { errno := ParamErr, err := "streamName is null" } none) := by
  simp only [execute, given, parsed, unnamed, bind, Except.bind, if_neg positive]
  rfl

end

theorem execute_run : Handling.execute form backend h =
    match execute form backend with
    | .error p => .error p h
    | .ok served => .ok () (add h served) := by
  rw [Handling.execute]
  cases uid : formValue form "uid" with
  | error p =>
      have panics : execute form backend = .error p := by simp only [execute, uid]; rfl
      rw [run_bind_error (value_panics uid), panics]
  | ok strUid =>
      rw [run_bind_ok (value_ok uid)]
      cases parsed : parseUint strUid with
      | error err =>
          have failed := uidOf_error parsed
          rw [execute_unparsed uid parsed]
          dsimp only
          rw [failed, if_pos (.inl rfl)]
          exact (run_bind_ok rfl).trans (writeError_run _)
      | ok number =>
          have both : Handling.uidOf strUid = (number, none) := by rw [Handling.uidOf, parsed]
          rw [both]
          dsimp only
          by_cases zero : number ≤ 0
          · rw [execute_zero uid parsed zero, if_pos (.inr zero)]
            exact run_bind_error rfl
          · rw [if_neg (by simpa using zero)]
            cases name : formValue form "streamName" with
            | error p =>
                have panics : execute form backend = .error p := by
                  simp only [execute, uid, parsed, name, bind, Except.bind, if_neg zero]
                rw [run_bind_error (value_panics name), panics]
            | ok streamName =>
                rw [run_bind_ok (value_ok name)]
                by_cases unnamed : streamName = []
                · rw [execute_unnamed uid parsed zero (unnamed ▸ name), if_pos unnamed]
                  exact writeError_run _
                · rw [if_neg unnamed, push_run]
                  simp only [execute, uid, parsed, name, bind, Except.bind, if_neg zero, if_neg unnamed]
                  rfl

/-! ## The answer -/

def first (f : ParsedForm) (key : String) : List UInt8 := ((f.values key).bind List.head?).getD []

theorem formValue_first (f : ParsedForm) (key : String) : formValue f.values key = .ok (first f key) := by
  unfold formValue first
  cases values : f.values key with
  | none => rfl
  | some list =>
      cases list with
      | nil => exact absurd values (f.present key)
      | cons value rest => rfl

/-- `uid` is a decimal `uint64` greater than 0, and there is a stream name. -/
def Valid (f : ParsedForm) : Prop :=
  (∃ n, IsDecimal (first f "uid") n ∧ 0 < n ∧ n < 2 ^ 64) ∧ first f "streamName" ≠ []

def Failed : Except GoError XrtcPushResp → Prop
  | .error _ => True
  | .ok resp => resp.errNo ≠ 0

structure Answered (f : ParsedForm) (outcome : Except GoError XrtcPushResp) (h h' : Handling)
    (resp : ComHttpResp) : Prop where
  written : h'.written = h.written ++ [resp]
  param : resp.errNo = ParamErr ↔ ¬ Valid f
  uncalled : ¬ Valid f → h'.calls = h.calls
  network : resp.errNo = NetworkErr ↔ Valid f ∧ Failed outcome
  success : ∀ r, Valid f → outcome = .ok r → r.errNo = 0 →
    resp.errNo = 0 ∧ resp.data = some ⟨"offer", r.offer⟩

variable {f : ParsedForm} {outcome : Except GoError XrtcPushResp}

theorem IsDecimal.unique {s : List UInt8} {n m : Nat} (one : IsDecimal s n) (other : IsDecimal s m) : n = m :=
  one.value.symm.trans other.value

theorem IsDecimal.parsed {s : List UInt8} {n : Nat} (numeral : IsDecimal s n) (bound : n < 2 ^ 64) :
    parseUint s = .ok (UInt64.ofNat n) :=
  parseUint_ok_iff.2 (by rwa [UInt64.toNat_ofNat_of_lt' bound])

theorem answered_param {cerr : Errors} (invalid : ¬ Valid f) (param : cerr.errno = ParamErr) :
    Answered f outcome h (add h (writeJsonErrorResponse cerr none))
      { errNo := cerr.errno, errMsg := "process error" } where
  written := rfl
  param := iff_of_true param invalid
  uncalled _ := List.append_nil _
  network := iff_of_false (by rw [param]; decide) fun both => invalid both.1
  success _ valid := absurd valid invalid

theorem answered_finish (req : XrtcPushReq) (valid : Valid f) :
    Answered f outcome h (add h (finish req outcome)) (finish req outcome).resp := by
  have spec : ((finish req outcome).resp.errNo = NetworkErr ∧ Failed outcome) ∨
      ∃ r, outcome = .ok r ∧ r.errNo = 0 ∧
        (finish req outcome).resp = { errNo := 0, errMsg := "success", data := some ⟨"offer", r.offer⟩ } := by
    cases outcome with
    | error err => exact .inl ⟨rfl, trivial⟩
    | ok r =>
        by_cases failed : r.errNo ≠ 0
        · exact .inl ⟨by rw [finish, if_pos failed]; rfl, failed⟩
        · exact .inr ⟨r, rfl, not_not.1 failed, by rw [finish, if_neg failed]⟩
  rcases spec with ⟨errNo, failed⟩ | ⟨r, isOk, errNo, answer⟩
  · constructor
    case written => rfl
    case param => exact iff_of_false (by rw [errNo]; decide) (not_not.2 valid)
    case uncalled => exact fun invalid => absurd valid invalid
    case network => exact iff_of_true errNo ⟨valid, failed⟩
    case success =>
      rintro r - rfl fine
      exact absurd fine failed
  · constructor
    case written => rfl
    case param => exact iff_of_false (by rw [answer]; dsimp only; decide) (not_not.2 valid)
    case uncalled => exact fun invalid => absurd valid invalid
    case network =>
      refine iff_of_false (by rw [answer]; dsimp only; decide) fun both => ?_
      rw [isOk] at both
      exact both.2 errNo
    case success =>
      intro r' _ same _
      obtain rfl := Except.ok.inj (isOk.symm.trans same)
      rw [answer]
      exact ⟨rfl, rfl⟩

/-- Every form and every outcome of the backend call is answered with one response, the right one,
exactly when `uid` is not a numeral for 0. -/
theorem push_answers_iff (f : ParsedForm) (outcome : Except GoError XrtcPushResp) (h : Handling) :
    (∃ h' resp, Handling.execute f.values (fun _ => outcome) h = .ok () h' ∧ Answered f outcome h h' resp) ↔
      ¬ IsDecimal (first f "uid") 0 := by
  rw [execute_run]
  cases parsed : parseUint (first f "uid") with
  | error err =>
      have invalid : ¬ Valid f := by
        rintro ⟨⟨n, numeral, -, bound⟩, -⟩
        cases parsed.symm.trans (numeral.parsed bound)
      rw [execute_unparsed (formValue_first f "uid") parsed]
      refine iff_of_true ⟨_, _, rfl, answered_param invalid rfl⟩ fun zero => ?_
      cases parsed.symm.trans (zero.parsed (by decide))
  | ok uid =>
      have numeral := parseUint_ok_iff.1 parsed
      by_cases zero : uid ≤ 0
      · have isZero : uid.toNat = 0 := Nat.le_zero.1 (UInt64.le_iff_toNat_le.1 zero)
        rw [execute_zero (formValue_first f "uid") parsed zero]
        refine iff_of_false ?_ (not_not.2 (isZero ▸ numeral))
        rintro ⟨h', resp, done, -⟩
        cases done
      · have positive : 0 < uid := UInt64.not_le.1 zero
        have notZero : ¬ IsDecimal (first f "uid") 0 := by
          intro other
          have same := numeral.unique other
          exact absurd (UInt64.lt_iff_toNat_lt.1 positive) (by rw [same]; exact Nat.lt_irrefl 0)
        by_cases unnamed : first f "streamName" = []
        · have given := formValue_first f "streamName"
          rw [unnamed] at given
          rw [execute_unnamed (formValue_first f "uid") parsed zero given]
          exact iff_of_true ⟨_, _, rfl, answered_param (fun valid => valid.2 unnamed) rfl⟩ notZero
        · have valid : Valid f :=
            ⟨⟨uid.toNat, numeral, UInt64.lt_iff_toNat_lt.1 positive, uid.toNat_lt⟩, unnamed⟩
          have accepted : Push.Accepted f.values uid (first f "streamName") (first f "audio") (first f "video") :=
            ⟨⟨_, formValue_first f "uid", parsed⟩, positive, formValue_first f _, unnamed, formValue_first f _,
              formValue_first f _⟩
          rw [Push.execute_accepted accepted]
          exact iff_of_true ⟨_, _, rfl, answered_finish _ valid⟩ notZero

/-- `uid=0&streamName=s`. -/
def zeroUid : ParsedForm where
  values key := if key = "uid" then some [[0x30]] else if key = "streamName" then some [[0x73]] else none
  present key := by split_ifs <;> simp

theorem zero_uid_panics :
    Handling.execute zeroUid.values (fun _ => .ok ⟨0, [0x76]⟩) ⟨[], [], []⟩ =
      .error .nilDereference ⟨[], [], []⟩ := by
  rfl

end Xrtc.Proof.Answer
