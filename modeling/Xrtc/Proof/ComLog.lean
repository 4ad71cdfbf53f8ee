import Xrtc.Go.Log
import Xrtc.Lib.PrintfLaws

/-!
# What a request leaves in the log

The notices of a request become a part of the format string of its log lines. `log_verbatim_iff` says
for which notices the lines are what they should be, `entry_verbatim` what this means for a request.
-/

namespace Xrtc.Proof.ComLog
open Go Lib Lib.Printf

variable {l : Go.ComLog}

/-! ## The prefix -/

def LogItem.shown (item : LogItem) : List UInt8 := item.field ++ text "[" ++ item.value ++ text "] "

def TimeItem.millis (item : TimeItem) : List UInt8 := fixed 3 item.fdiff

def TimeItem.shown (item : TimeItem) : List UInt8 :=
  item.field ++ text "[" ++ TimeItem.millis item ++ text "ms] "

theorem sprintf_notice (field value : Operand) : sprintf (text "%s[%s] ") [field, value] =
    field.print {} 's' ++ (text "[" ++ (value.print {} 's' ++ text "] ")) := rfl

theorem sprintf_time (field value : Operand) : sprintf (text "%s[%.3fms] ") [field, value] =
    field.print {} 's' ++ (text "[" ++ (value.print { prec := some 3 } 'f' ++ text "ms] ")) := rfl

theorem string_print (s : List UInt8) : (Operand.string s).print {} 's' = s := rfl

theorem float64_print (x : ℚ) (n : Nat) : (Operand.float64 x).print { prec := some n } 'f' = fixed n x := rfl

theorem mainText_eq (item : LogItem) : ComLog.mainText item = LogItem.shown item := by
  rw [ComLog.mainText, sprintf_notice, string_print, string_print, LogItem.shown, List.append_assoc,
    List.append_assoc]

theorem timeText_eq {item : TimeItem} (done : ¬ item.diff < 0) :
    ComLog.timeText item = TimeItem.shown item := by
  rw [ComLog.timeText, if_neg done, sprintf_time, string_print, float64_print, TimeItem.shown,
    TimeItem.millis, List.append_assoc, List.append_assoc]

def verbatim (l : Go.ComLog) : List UInt8 :=
  l.mainLog.flatMap LogItem.shown ++
    (l.timeLog.filter fun item => ¬ item.diff < 0).flatMap TimeItem.shown

theorem times_eq (items : List TimeItem) : items.flatMap ComLog.timeText =
    (items.filter fun item => ¬ item.diff < 0).flatMap TimeItem.shown := by
  induction items with
  | nil => rfl
  | cons item items ih =>
      rw [List.flatMap_cons, ih]
      by_cases negative : item.diff < 0
      · rw [List.filter_cons_of_neg (by simpa using negative), ComLog.timeText, if_pos negative]
        rfl
      · rw [List.filter_cons_of_pos (by simpa using negative), timeText_eq negative, List.flatMap_cons]

theorem getPrefixLog_eq (l : Go.ComLog) : l.getPrefixLog = verbatim l := by
  have items : l.mainLog.flatMap ComLog.mainText = l.mainLog.flatMap LogItem.shown :=
    congrArg (fun f => l.mainLog.flatMap f) (funext mainText_eq)
  rw [ComLog.getPrefixLog, List.foldl_append_eq_append, List.foldl_append_eq_append, List.nil_append,
    ← List.flatMap_def, ← List.flatMap_def, items, times_eq]
  rfl

/-! ## The percent signs in it -/

/-- No notice, and no field of a time that is shown, has a `%`. -/
structure PercentFree (l : Go.ComLog) : Prop where
  notices : ∀ item ∈ l.mainLog, percent ∉ item.field ∧ percent ∉ item.value
  times : ∀ item ∈ l.timeLog, ¬ item.diff < 0 → percent ∉ item.field

theorem shown_free_iff (item : LogItem) :
    percent ∉ LogItem.shown item ↔ percent ∉ item.field ∧ percent ∉ item.value := by
  have opening : percent ∉ text "[" := by decide
  have closing : percent ∉ text "] " := by decide
  simp [LogItem.shown, opening, closing]

theorem time_free_iff (item : TimeItem) : percent ∉ TimeItem.shown item ↔ percent ∉ item.field := by
  have opening : percent ∉ text "[" := by decide
  have closing : percent ∉ text "ms] " := by decide
  have number : percent ∉ TimeItem.millis item := fixed_free 3 item.fdiff
  simp [TimeItem.shown, opening, closing, number]

theorem prefix_free_iff (l : Go.ComLog) : percent ∉ l.getPrefixLog ↔ PercentFree l := by
  have main : percent ∉ l.mainLog.flatMap LogItem.shown ↔
      ∀ item ∈ l.mainLog, percent ∉ item.field ∧ percent ∉ item.value := by
    simp only [List.mem_flatMap, not_exists, not_and, shown_free_iff]
  have times : percent ∉ (l.timeLog.filter fun item => ¬ item.diff < 0).flatMap TimeItem.shown ↔
      ∀ item ∈ l.timeLog, ¬ item.diff < 0 → percent ∉ item.field := by
    simp only [List.mem_flatMap, List.mem_filter, not_exists, not_and, time_free_iff, decide_eq_true_eq,
      and_imp]
  rw [getPrefixLog_eq, verbatim, List.mem_append, not_or, main, times]
  exact ⟨fun both => ⟨both.1, both.2⟩, fun free => ⟨free.notices, free.times⟩⟩

/-! ## The lines -/

/-- The three functions log the prefix and, behind it, the text of their format and arguments. -/
def Reports (l : Go.ComLog) : Prop :=
  ∀ format args, (l.infof format args).text = l.getPrefixLog ++ sprintf format args ∧
    (l.warningf format args).text = l.getPrefixLog ++ sprintf format args ∧
    (l.debugf format args).text = l.getPrefixLog ++ sprintf format args

/-- The prefix has the fields and values as they are, but the lines have them so exactly when there is
no `%` in them. -/
theorem log_verbatim_iff (l : Go.ComLog) :
    l.getPrefixLog = verbatim l ∧ (Reports l ↔ PercentFree l) := by
  refine ⟨getPrefixLog_eq l, ?_⟩
  rw [← prefix_free_iff, ← sprintf_verbatim_iff]
  constructor
  · intro reports format args
    exact (reports format args).1
  · intro copied format args
    exact ⟨copied format args, copied format args, copied format args⟩

/-- A push without a uid, from a client that calls itself `100%`. -/
def probe : HttpRequest where
  path := text "/signaling/push"
  userAgent := text "100%"
  remoteAddr := text "10.0.0.1:5000"

def probeError : List UInt8 := text "parse uid error:strconv.ParseUint: parsing \"\": invalid syntax"

def probeLog : Go.ComLog :=
  (logError ((requestLog 7 probe).timeBegin (text "totalCost") 1700000000000000000) (-1) probeError).1

theorem user_agent_corrupts :
    probeLog.warningf (text "request process failed") [] ∈
      entry 7 probe 1700000000000000000 1700000000001000000 (.failed (-1) probeError) ∧
    (probeLog.warningf (text "request process failed") []).text =
      text "logId[7] url[/signaling/push] referer[] cookie[] ua[100%!](MISSING) " ++
        text "clientIP[10.0.0.1:5000] realClientIP[10.0.0.1:5000] errNo[-1] " ++
        text "errMsg[parse uid error:strconv.ParseUint: parsing \"\": invalid syntax] " ++
        text "request process failed" ∧
    (probeLog.warningf (text "request process failed") []).text ≠
      probeLog.getPrefixLog ++ sprintf (text "request process failed") [] := by
  have shown : (probeLog.warningf (text "request process failed") []).text =
      text "logId[7] url[/signaling/push] referer[] cookie[] ua[100%!](MISSING) " ++
        text "clientIP[10.0.0.1:5000] realClientIP[10.0.0.1:5000] errNo[-1] " ++
        text "errMsg[parse uid error:strconv.ParseUint: parsing \"\": invalid syntax] " ++
        text "request process failed" := by
    decide +kernel
  refine ⟨List.mem_append_left _ (List.mem_singleton_self _), shown, ?_⟩
  rw [shown, getPrefixLog_eq]
  decide +kernel

/-! ## The lines of a request -/

/-- As `PercentFree`, with the times that are not over. -/
structure Clean (l : Go.ComLog) : Prop where
  notices : ∀ item ∈ l.mainLog, percent ∉ item.field ∧ percent ∉ item.value
  times : ∀ field ∈ l.timeLog.map TimeItem.field, percent ∉ field

theorem Clean.percentFree (clean : Clean l) : PercentFree l :=
  ⟨clean.notices, fun item member _ => clean.times item.field (List.mem_map_of_mem member)⟩

theorem Clean.addNotice {field value : List UInt8} (clean : Clean l) (fieldFree : percent ∉ field)
    (valueFree : percent ∉ value) : Clean (l.addNotice field value) := by
  refine ⟨fun item member => ?_, clean.times⟩
  rcases List.mem_append.1 member with old | new
  · exact clean.notices item old
  · rw [List.mem_singleton.1 new]
    exact ⟨fieldFree, valueFree⟩

theorem Clean.timeBegin {field : List UInt8} (clean : Clean l) (fieldFree : percent ∉ field) (now : Int64) :
    Clean (l.timeBegin field now) := by
  refine ⟨clean.notices, fun other member => ?_⟩
  rw [ComLog.timeBegin, List.map_append, List.mem_append] at member
  rcases member with old | new
  · exact clean.times other old
  · rw [List.mem_singleton.1 new]
    exact fieldFree

theorem endFirst_fields (field : List UInt8) (now : Int64) (items : List TimeItem) :
    (endFirst field now items).map TimeItem.field = items.map TimeItem.field := by
  induction items with
  | nil => rfl
  | cons item items ih =>
      rw [endFirst]
      split
      · rfl
      · rw [List.map_cons, ih, List.map_cons]

theorem Clean.timeEnd (clean : Clean l) (field : List UInt8) (now : Int64) : Clean (l.timeEnd field now) := by
  refine ⟨clean.notices, ?_⟩
  rw [ComLog.timeEnd, endFirst_fields]
  exact clean.times

theorem Clean.form {form : List (List UInt8 × List UInt8)} (clean : Clean l)
    (free : ∀ item ∈ form, percent ∉ item.1 ∧ percent ∉ item.2) :
    Clean (form.foldl (fun l item => l.addNotice item.1 item.2) l) := by
  induction form generalizing l with
  | nil => exact clean
  | cons item form ih =>
      obtain ⟨key, value⟩ := free item List.mem_cons_self
      exact ih (clean.addNotice key value) fun other member => free other (List.mem_cons_of_mem item member)

theorem itoa_free (i : Int) : percent ∉ itoa i := by
  cases i with
  | ofNat n => exact decimal_free n
  | negSucc n =>
      have sign : itoa (Int.negSucc n) = text "-" ++ decimal (n + 1) := by
        rw [itoa, decimal, text, text, text, Utf8.encode, Utf8.encode, Utf8.encode, ← List.flatMap_append,
          ← String.toList_append]
        rfl
      rw [sign]
      exact List.not_mem_append (by decide) (decimal_free (n + 1))

/-- What a client and the backend have a say in. -/
structure CleanRequest (r : HttpRequest) (executed : Executed) : Prop where
  path : percent ∉ r.path
  headers : ∀ header ∈ [r.referer, r.cookie, r.userAgent, r.realIP, r.forwardedIP], percent ∉ header
  remoteAddr : percent ∉ r.remoteAddr
  form : ∀ item ∈ r.form, percent ∉ item.1 ∧ percent ∉ item.2
  failed : ∀ errno message, executed = .failed errno message → percent ∉ message
  answered : ∀ resp, executed = .answered resp → percent ∉ resp

section

variable {r : HttpRequest} {executed : Executed} {logId : UInt32}

theorem realClientIP_free (clean : CleanRequest r executed) : percent ∉ getRealClientIP r := by
  unfold getRealClientIP
  split_ifs
  · exact clean.headers _ (by simp)
  · exact clean.headers _ (by simp)
  · exact clean.remoteAddr

theorem requestLog_clean (clean : CleanRequest r executed) : Clean (requestLog logId r) := by
  have empty : Clean {} := ⟨by simp, by simp⟩
  refine Clean.form ?_ clean.form
  refine Clean.addNotice ?_ (by decide) (realClientIP_free clean)
  refine Clean.addNotice ?_ (by decide) clean.remoteAddr
  refine Clean.addNotice ?_ (by decide) (clean.headers r.userAgent (by simp))
  refine Clean.addNotice ?_ (by decide) (clean.headers r.cookie (by simp))
  refine Clean.addNotice ?_ (by decide) (clean.headers r.referer (by simp))
  refine Clean.addNotice ?_ (by decide) clean.path
  exact empty.addNotice (by decide) (itoa_free logId.toNat)

/-- A line of `entry` with the notices of the request in front and a text of the program behind. -/
def Tells (logId : UInt32) (r : HttpRequest) (line : Line) : Prop :=
  ∃ l format, (requestLog logId r).mainLog <+: l.mainLog ∧ line.text = verbatim l ++ format ∧
    (format = [] ∨ format = text "request process failed")

theorem logf_tells {severity : Severity} {format : List UInt8} (clean : Clean l)
    (notices : (requestLog logId r).mainLog <+: l.mainLog)
    (known : format = [] ∨ format = text "request process failed") :
    Tells logId r (l.logf severity format []) := by
  refine ⟨l, format, notices, ?_, known⟩
  have free := (prefix_free_iff l).2 clean.percentFree
  have plain : sprintf format [] = format := by
    rcases known with rfl | rfl
    · rfl
    · decide +kernel
  rw [ComLog.logf, sprintf_literal free, plain, getPrefixLog_eq]

theorem logExecute_tells (clean : CleanRequest r executed) (before : Clean l)
    (notices : (requestLog logId r).mainLog <+: l.mainLog) :
    Clean (logExecute l executed).1 ∧ (requestLog logId r).mainLog <+: (logExecute l executed).1.mainLog ∧
      ∀ line ∈ (logExecute l executed).2, Tells logId r line := by
  have more (items : List LogItem) : (requestLog logId r).mainLog <+: l.mainLog ++ items :=
    notices.trans (List.prefix_append _ _)
  cases executed with
  | failed errno message =>
      have numbered : Clean (l.addNotice (text "errNo") (itoa errno)) :=
        before.addNotice (by decide) (itoa_free errno)
      have explained : Clean ((l.addNotice (text "errNo") (itoa errno)).addNotice (text "errMsg") message) :=
        numbered.addNotice (by decide) (clean.failed errno message rfl)
      have kept := (more [⟨text "errNo", itoa errno⟩]).trans
        (List.prefix_append _ [⟨text "errMsg", message⟩])
      refine ⟨explained, kept, fun line member => ?_⟩
      rw [List.mem_singleton.1 member]
      exact logf_tells explained kept (.inr rfl)
  | answered resp =>
      exact ⟨before.addNotice (by decide) (clean.answered resp rfl), more _, by simp [logExecute]⟩
  | quiet => exact ⟨before, notices, by simp [logExecute]⟩

/-- The lines of a request without a `%` are its notices as they are. -/
theorem entry_verbatim (logId : UInt32) (started finished : Int64) (clean : CleanRequest r executed) :
    ∀ line ∈ entry logId r started finished executed, Tells logId r line := by
  have timed : Clean ((requestLog logId r).timeBegin (text "totalCost") started) :=
    (requestLog_clean clean).timeBegin (by decide) started
  have here : (requestLog logId r).mainLog <+:
      ((requestLog logId r).timeBegin (text "totalCost") started).mainLog := List.prefix_rfl
  obtain ⟨after, notices, lines⟩ := logExecute_tells clean timed here
  intro line member
  rcases List.mem_append.1 member with early | last
  · exact lines line early
  · rw [List.mem_singleton.1 last]
    exact logf_tells (after.timeEnd _ _) notices (.inl rfl)

end

end Xrtc.Proof.ComLog
