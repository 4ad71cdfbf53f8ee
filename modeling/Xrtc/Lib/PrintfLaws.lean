import Xrtc.Lib.Printf

/-!
# Which texts a format copies

`sprintf_verbatim_iff`: a text in front of a format comes out as it is, whatever the format and the
arguments are, exactly when it has no `%`. For the one direction the text is copied byte by byte. For
the other one the arguments print nothing, so that every directive writes at most the one `%` that
complains about it, and the first directive of the text writes less than it took.
-/

namespace Xrtc.Lib.Printf

/-! ## Text without directives -/

theorem doPrintf_literal {args : List Operand} {s : List UInt8} (free : percent ∉ s) (fuel : Nat) (p : Pp)
    (format : List UInt8) :
    doPrintf args (s.length + fuel) p (s ++ format) = s ++ doPrintf args fuel p format := by
  induction s with
  | nil => rw [List.length_nil, Nat.zero_add, List.nil_append, List.nil_append]
  | cons c s ih =>
      rw [List.mem_cons, not_or] at free
      rw [List.length_cons, Nat.add_right_comm, List.cons_append, doPrintf, if_pos (Ne.symm free.1),
        ih free.2, List.cons_append]

theorem sprintf_literal {s : List UInt8} (free : percent ∉ s) (format : List UInt8) (args : List Operand) :
    sprintf (s ++ format) args = s ++ sprintf format args := by
  rw [sprintf, List.length_append, doPrintf_literal free, sprintf]

/-! ## What a directive takes from the format -/

theorem parseFlags_suffix (flags : Flags) (format : List UInt8) : (parseFlags flags format).2 <:+ format := by
  induction format generalizing flags with
  | nil => exact List.suffix_rfl
  | cons c format ih =>
      have skipped (flags : Flags) : (parseFlags flags format).2 <:+ c :: format :=
        (ih flags).trans (List.suffix_cons c format)
      rw [parseFlags]
      split_ifs
      · exact skipped _
      · exact skipped _
      · exact skipped _
      · exact skipped _
      · exact skipped _
      · exact List.suffix_rfl

theorem parsenumFrom_suffix (num : Option Nat) (s : List UInt8) : (parsenumFrom num s).2 <:+ s := by
  induction s generalizing num with
  | nil => exact List.suffix_rfl
  | cons c s ih =>
      rw [parsenumFrom]
      split_ifs
      · exact List.nil_suffix
      · exact (ih _).trans (List.suffix_cons c s)
      · exact List.suffix_rfl

def largest : Nat := 10 * limit + 9

theorem parsenumFrom_le {num : Option Nat} {n : Nat} {s rest : List UInt8} (small : num.getD 0 ≤ largest)
    (read : parsenumFrom num s = (some n, rest)) : n ≤ largest := by
  induction s generalizing num with
  | nil =>
      cases read
      exact small
  | cons c s ih =>
      rw [parsenumFrom] at read
      split_ifs at read with digit long
      · cases read
      · refine ih ?_ read
        have nine : c.toNat ≤ 57 := UInt8.le_iff_toNat_le.1 digit.2
        have zero : '0'.toNat = 48 := rfl
        rw [Option.getD_some, largest]
        omega
      · cases read
        exact small

def Index.Small : Index → Prop
  | .number n => n ≤ largest
  | _ => True

theorem parseBracket_spec (format : List UInt8) :
    (parseBracket format).1.Small ∧ (parseBracket format).2 <:+ format := by
  unfold parseBracket
  split_ifs
  · exact ⟨trivial, List.suffix_rfl⟩
  have closed : format.dropWhile (· ≠ ']'.toUInt8) <:+ format := List.dropWhile_suffix _
  split
  · exact ⟨trivial, List.suffix_rfl⟩
  · next bracket behind found =>
      rw [found] at closed
      have left : behind <:+ format := (List.suffix_cons bracket behind).trans closed
      split
      · next n read => exact ⟨parsenumFrom_le (Nat.zero_le _) read, left⟩
      · exact ⟨trivial, left⟩

theorem parseIndex_spec (format : List UInt8) :
    (parseIndex format).1.Small ∧ (parseIndex format).2 <:+ format := by
  cases format with
  | nil => exact ⟨trivial, List.suffix_rfl⟩
  | cons c format =>
      rw [parseIndex]
      split_ifs
      · obtain ⟨small, left⟩ := parseBracket_spec format
        exact ⟨small, left.trans (List.suffix_cons c format)⟩
      · exact ⟨trivial, List.suffix_rfl⟩

theorem parseNumber_suffix (format : List UInt8) : (parseNumber format).2 <:+ format := by
  have left := parsenumFrom_suffix none format
  unfold parseNumber parsenum
  rcases read : parsenumFrom none format with ⟨num, rest⟩
  rw [read] at left
  cases num <;> exact left

theorem parseSize_suffix (format : List UInt8) : (parseSize format).2 <:+ format := by
  cases format with
  | nil => exact List.suffix_rfl
  | cons c format =>
      rw [parseSize]
      split_ifs
      · exact List.suffix_cons c format
      · exact parseNumber_suffix (c :: format)

theorem parsePrecision_spec (format : List UInt8) :
    (∀ p, (parsePrecision format).1 = some p → p.1.Small) ∧ (parsePrecision format).2 <:+ format := by
  cases format with
  | nil => exact ⟨by simp [parsePrecision], List.suffix_rfl⟩
  | cons c format =>
      rw [parsePrecision]
      split_ifs
      · obtain ⟨small, left⟩ := parseIndex_spec format
        refine ⟨?_, ?_⟩
        · rintro p ⟨⟩
          exact small
        · exact ((parseSize_suffix _).trans left).trans (List.suffix_cons c format)
      · exact ⟨by simp, List.suffix_rfl⟩

theorem parseVerb_suffix (format : List UInt8) : (parseVerb format).2 <:+ format := by
  cases format with
  | nil => exact List.suffix_rfl
  | cons c format =>
      have next := List.suffix_cons c format
      rw [parseVerb]
      split_ifs
      · exact next
      · cases Utf8.decodeRune (c :: format) with
        | none => exact next
        | some verb => exact (List.drop_suffix _ _).trans next

theorem encodeChar_high {c : Char} (beyond : ¬ c.val.toNat ≤ 127) :
    ∀ byte ∈ String.utf8EncodeChar c, 128 ≤ byte.toNat := by
  unfold String.utf8EncodeChar
  dsimp only
  rw [if_neg beyond]
  split_ifs <;> simp [UInt8.toNat_ofNat'] <;> omega

theorem percent_mem_encodeChar {c : Char} (member : percent ∈ String.utf8EncodeChar c) : c = '%' := by
  have value : percent.toNat = 37 := rfl
  by_cases ascii : c.val.toNat ≤ 127
  · unfold String.utf8EncodeChar at member
    dsimp only at member
    rw [if_pos ascii, List.mem_singleton] at member
    rw [member, UInt8.toNat_ofNat'] at value
    refine Char.ext (UInt32.toNat_inj.1 ?_)
    change c.val.toNat = 37
    omega
  · have high := encodeChar_high ascii percent member
    omega

theorem parseVerb_percent {format : List UInt8} (verb : (parseVerb format).1 = some '%') :
    format = percent :: (parseVerb format).2 := by
  cases format with
  | nil => cases verb
  | cons c format =>
      rw [parseVerb] at verb ⊢
      split_ifs at verb ⊢ with ascii
      · have code : Char.ofUInt8 c = '%' := Option.some.inj verb
        have value : c.toNat = 37 := congrArg Char.toNat code
        rw [show c = percent from UInt8.toNat_inj.1 value]
      · cases decoded : Utf8.decodeRune (c :: format) with
        | none =>
            rw [decoded] at verb
            exact absurd (Option.some.inj verb) (by decide)
        | some rune =>
            rw [decoded] at verb
            obtain rfl : rune = '%' := Option.some.inj verb
            obtain ⟨rest, split⟩ := Utf8.exists_append_of_decodeRune decoded
            have first : c = percent := (List.cons.inj split).1
            rw [first] at ascii
            exact absurd (by decide) ascii

/-- What the proofs below need of a parsed directive: where its verb stands, and that its numbers are
bounded. -/
structure Parsed (format : List UInt8) (d : Directive) (rest : List UInt8) : Prop where
  left : rest <:+ format
  percent : d.verb = some '%' → Printf.percent :: rest <:+ format
  index : d.index.Small
  precision : ∀ p, d.precision = some p → p.1.Small
  last : d.last.Small

theorem parsed (format : List UInt8) : Parsed format (parse format).1 (parse format).2 := by
  have flags := parseFlags_suffix {} format
  obtain ⟨small, index⟩ := parseIndex_spec (parseFlags {} format).2
  have width := parseSize_suffix (parseIndex (parseFlags {} format).2).2
  obtain ⟨smallToo, precision⟩ := parsePrecision_spec (parseSize (parseIndex (parseFlags {} format).2).2).2
  have upTo := ((precision.trans width).trans index).trans flags
  unfold parse
  dsimp only
  generalize parsePrecision (parseSize (parseIndex (parseFlags {} format).2).2).2 = before at *
  generalize before.1.elim _ _ = after
  have last : (if after = true then (Index.absent, before.2) else parseIndex before.2).1.Small ∧
      (if after = true then (Index.absent, before.2) else parseIndex before.2).2 <:+ before.2 := by
    cases after with
    | true => exact ⟨trivial, List.suffix_rfl⟩
    | false => exact parseIndex_spec before.2
  generalize (if after = true then (Index.absent, before.2) else parseIndex before.2) = atVerb at *
  have verb := parseVerb_suffix atVerb.2
  refine ⟨(verb.trans last.2).trans upTo, fun isPercent => ?_, small, smallToo, last.1⟩
  rw [← parseVerb_percent isPercent]
  exact last.2.trans upTo

/-! ## Arguments that print nothing -/

def silentName : List UInt8 := text "main.silent"

/-- The integer 0 for `%v`. -/
def zeroText (fmt : Spec) : List UInt8 :=
  let sign := if fmt.plus then text "+" else if fmt.space then text " " else []
  let digits := fmt.prec.getD (if fmt.zero then max 1 (fmt.wid.getD 0 - sign.length) else 1)
  padString { fmt with zero := false } (if digits = 0 then [] else sign ++ List.replicate digits '0'.toUInt8)

/-- The value 0 of `type silent int` with an empty method `Format`, which `%T` and `%p` do not call. -/
def silent : Operand where
  typeString := silentName
  asInt := some 0
  print fmt verb :=
    if verb = 'T' then fmtS fmt silentName
    else if verb = 'p' then badVerb silentName (zeroText fmt) verb
    else []

theorem takeRunes_sublist (n skip : Nat) (s : List UInt8) : (takeRunes n skip s).Sublist s := by
  fun_induction takeRunes n skip s with
  | case1 => exact List.Sublist.refl _
  | case2 n skip c s ih => exact ih.cons_cons c
  | case3 => exact List.nil_sublist _
  | case4 n c s size ih => exact ih.cons_cons c

theorem replicate_free {c : UInt8} (other : c ≠ percent) (n : Nat) : percent ∉ List.replicate n c :=
  fun member => other (List.mem_replicate.1 member).2.symm

theorem padString_free {fmt : Spec} {s : List UInt8} (free : percent ∉ s) : percent ∉ padString fmt s := by
  have blank : (if fmt.zero then '0'.toUInt8 else ' '.toUInt8) ≠ percent := by
    cases fmt.zero <;> decide
  unfold padString
  split
  · exact free
  · cases fmt.minus with
    | true => exact List.not_mem_append free (replicate_free blank _)
    | false => exact List.not_mem_append (replicate_free blank _) free

theorem fmtS_free {fmt : Spec} {s : List UInt8} (free : percent ∉ s) : percent ∉ fmtS fmt s := by
  refine padString_free ?_
  cases fmt.prec with
  | none => exact free
  | some n => exact fun member => free ((takeRunes_sublist n 0 s).subset member)

theorem zeroText_free (fmt : Spec) : percent ∉ zeroText fmt := by
  have sign : percent ∉ (if fmt.plus then text "+" else if fmt.space then text " " else []) := by
    cases fmt.plus <;> cases fmt.space <;> decide
  unfold zeroText
  generalize (if fmt.plus then text "+" else if fmt.space then text " " else []) = front at *
  dsimp only
  generalize fmt.prec.getD _ = digits
  refine padString_free ?_
  split
  · exact List.not_mem_nil
  · exact List.not_mem_append sign (replicate_free (by decide) _)

theorem decimal_free (n : Nat) : percent ∉ decimal n := by
  intro member
  obtain ⟨c, among, here⟩ := List.mem_flatMap.1 member
  obtain rfl := percent_mem_encodeChar here
  have digit : '%'.isDigit = true := Nat.isDigit_of_mem_toDigits (by decide) le_rfl (by simpa using among)
  cases digit

theorem fixed_free (prec : Nat) (x : ℚ) : percent ∉ fixed prec x := by
  unfold fixed
  dsimp only
  split
  · exact decimal_free _
  · refine List.not_mem_append (List.not_mem_append (List.not_mem_append (decimal_free _) (by decide))
      (replicate_free (by decide) _)) (decimal_free _)

/-- A text that complains, with no other `%` in it. -/
def Complains (out : List UInt8) : Prop := ∃ tail, out = text "%!" ++ tail ∧ percent ∉ tail

theorem complaint_complains {verb : List Char} {reason : String} {more : List UInt8} (other : '%' ∉ verb)
    (reasonFree : percent ∉ text reason) (free : percent ∉ more) :
    Complains (Pp.complaint verb reason ++ more) := by
  refine ⟨Utf8.encode verb ++ text reason ++ more, by simp [Pp.complaint], ?_⟩
  have verbFree : percent ∉ Utf8.encode verb := by
    intro member
    obtain ⟨c, among, here⟩ := List.mem_flatMap.1 member
    exact other (percent_mem_encodeChar here ▸ among)
  exact List.not_mem_append (List.not_mem_append verbFree reasonFree) free

theorem silent_print (fmt : Spec) (verb : Char) :
    percent ∉ silent.print fmt verb ∨ Complains (silent.print fmt verb) := by
  simp only [silent]
  split_ifs with isT isP
  · exact .inl (fmtS_free (by decide))
  · refine .inr ?_
    have value : percent ∉ silentName ++ text "=" ++ zeroText fmt ++ text ")" :=
      List.not_mem_append (List.not_mem_append (by decide) (zeroText_free fmt)) (by decide)
    exact complaint_complains (by simp [isP]) (by decide) value
  · exact .inl List.not_mem_nil

/-! ## A directive over many such arguments -/

section

variable {n k : Nat} {p : Pp}

/-- Nothing is written yet, and at most `k` arguments are behind. -/
structure Calm (k : Nat) (p : Pp) : Prop where
  argNum : p.argNum ≤ k
  buf : p.buf = []

theorem Calm.argNumber {index : Index} (calm : Calm k p) (small : index.Small) (large : largest ≤ k) :
    Calm k (p.argNumber n index) := by
  cases index with
  | absent => exact calm
  | malformed => exact ⟨calm.argNum, calm.buf⟩
  | number i =>
      have bound : i ≤ largest := small
      rw [Pp.argNumber]
      split_ifs
      · exact ⟨by dsimp only; omega, calm.buf⟩
      · exact ⟨calm.argNum, calm.buf⟩

theorem intFromArg_silent (calm : Calm k p) (room : k < n) :
    p.intFromArg (List.replicate n silent) = (some 0, p.argNum + 1) := by
  have taken : (List.replicate n silent)[p.argNum]? = some silent := by
    rw [List.getElem?_replicate, if_pos (Nat.lt_of_le_of_lt calm.argNum room)]
  rw [Pp.intFromArg, taken]
  rfl

theorem Calm.width (calm : Calm k p) (room : k < n) (after : Bool) (size : Size) :
    Calm (k + 1) (p.width (List.replicate n silent) after size) := by
  have less := calm.argNum
  cases size with
  | absent => exact ⟨Nat.le_succ_of_le less, calm.buf⟩
  | digits m => exact ⟨Nat.le_succ_of_le less, calm.buf⟩
  | star =>
      rw [Pp.width, intFromArg_silent calm room]
      exact ⟨Nat.succ_le_succ less, calm.buf⟩

theorem Calm.precision {size : Size} (calm : Calm k p) (room : k < n) :
    Calm (k + 1) (p.precision (List.replicate n silent) size) := by
  have less := calm.argNum
  cases size with
  | absent => exact ⟨Nat.le_succ_of_le less, calm.buf⟩
  | digits m => exact ⟨Nat.le_succ_of_le less, calm.buf⟩
  | star =>
      rw [Pp.precision, intFromArg_silent calm room]
      exact ⟨Nat.succ_le_succ less, calm.buf⟩

theorem Calm.afterDot {dot : Option (Index × Size)} (calm : Calm k p) (room : k < n)
    (small : ∀ d, dot = some d → d.1.Small) (large : largest ≤ k) (after : Bool) :
    Calm (k + 1) (p.afterDot (List.replicate n silent) after dot) := by
  cases dot with
  | none => exact ⟨Nat.le_succ_of_le calm.argNum, calm.buf⟩
  | some d =>
      have checked : Calm k { p with goodArgNum := p.goodArgNum && !after } := ⟨calm.argNum, calm.buf⟩
      exact (checked.argNumber (small d rfl) large).precision room

/-- What a directive can write when its arguments print nothing. -/
inductive Written (verb : Option Char) (out : List UInt8) : Prop
  | free (free : percent ∉ out)
  | percent (verb : verb = some '%') (out : out = [percent])
  | complains (complains : Complains out)

theorem Calm.verb {verb : Option Char} (calm : Calm k p) :
    Written verb (p.verb (List.replicate n silent) verb).buf ∧
      (p.verb (List.replicate n silent) verb).argNum ≤ k + 1 := by
  have less := Nat.le_succ_of_le calm.argNum
  have written (s : List UInt8) : (p.writeString s).buf = s := by
    rw [Pp.writeString, calm.buf, List.nil_append]
  have complains {verb : List Char} {reason : String} (other : '%' ∉ verb) (free : percent ∉ text reason) :
      Complains (p.writeString (Pp.complaint verb reason)).buf := by
    rw [written, ← List.append_nil (Pp.complaint verb reason)]
    exact complaint_complains other free List.not_mem_nil
  cases verb with
  | none => exact ⟨.complains (complains (by simp) (by decide)), less⟩
  | some verb =>
      rw [Pp.verb]
      split_ifs with isPercent bad
      · exact ⟨.percent (isPercent ▸ rfl) (written _), less⟩
      · exact ⟨.complains (complains (by simpa using Ne.symm isPercent) (by decide)), less⟩
      · cases found : (List.replicate n silent)[p.argNum]? with
        | none => exact ⟨.complains (complains (by simpa using Ne.symm isPercent) (by decide)), less⟩
        | some arg =>
            obtain rfl := List.eq_of_mem_replicate (List.mem_of_getElem? found)
            refine ⟨?_, Nat.succ_le_succ calm.argNum⟩
            rw [Pp.writeString, calm.buf]
            rcases silent_print p.fmt verb with free | loud
            · exact .free free
            · exact .complains loud

theorem directive_silent {d : Directive} {format rest : List UInt8} (taken : Parsed format d rest)
    (less : p.argNum ≤ k) (large : largest ≤ k) (room : k + 2 < n) :
    Written d.verb (p.directive (List.replicate n silent) d).buf ∧
      (p.directive (List.replicate n silent) d).argNum ≤ k + 3 := by
  have start : Calm k { p with goodArgNum := true, fmt := { d.flags with }, buf := [] } := ⟨less, rfl⟩
  have width := (start.argNumber (n := (List.replicate n silent).length) taken.index large).width
    (Nat.lt_of_succ_lt (Nat.lt_of_succ_lt room)) d.index.found d.width
  have dot := width.afterDot (Nat.lt_of_succ_lt room) taken.precision (Nat.le_succ_of_le large)
    (afterIndex d.index d.width)
  exact (dot.argNumber taken.last (by omega)).verb

/-! ## Counting the percent signs -/

theorem Complains.count {out : List UInt8} (complains : Complains out) : out.count percent = 1 := by
  obtain ⟨tail, rfl, free⟩ := complains
  rw [List.count_append, List.count_eq_zero.2 free]
  decide

theorem intercalate_free {sep : List UInt8} {parts : List (List UInt8)} (free : percent ∉ sep)
    (each : ∀ s ∈ parts, percent ∉ s) : percent ∉ sep.intercalate parts := by
  induction parts with
  | nil => exact List.not_mem_nil
  | cons s parts ih =>
      cases parts with
      | nil => simpa using each
      | cons t parts =>
          rw [List.intercalate_cons_cons]
          have others := ih fun u member => each u (List.mem_cons_of_mem s member)
          exact List.not_mem_append (List.not_mem_append (each s List.mem_cons_self) free) others

theorem extra_silent (p : Pp) : extra (List.replicate n silent) p = [] ∨
    Complains (extra (List.replicate n silent) p) := by
  unfold extra
  split_ifs
  · refine .inr ⟨text "(EXTRA " ++ (text ", ").intercalate
      (((List.replicate n silent).drop p.argNum).map extraText) ++ text ")", by simp [text, Utf8.encode], ?_⟩
    refine List.not_mem_append (List.not_mem_append (by decide) (intercalate_free (by decide) ?_)) (by decide)
    intro s member
    obtain ⟨arg, among, rfl⟩ := List.mem_map.1 member
    obtain rfl := List.eq_of_mem_replicate (List.mem_of_mem_drop among)
    decide
  · exact .inl rfl

theorem extra_count_le (p : Pp) : (extra (List.replicate n silent) p).count percent ≤ 1 := by
  rcases extra_silent (n := n) p with nothing | complains
  · simp [nothing]
  · exact complains.count.le

theorem doPrintf_count_le {fuel : Nat} {format : List UInt8} (enough : format.length ≤ fuel)
    (less : p.argNum ≤ k) (large : largest ≤ k) (room : k + 3 * format.length < n) :
    (doPrintf (List.replicate n silent) fuel p format).count percent ≤ format.count percent + 1 := by
  induction fuel generalizing format p k with
  | zero =>
      obtain rfl := List.eq_nil_of_length_eq_zero (Nat.le_zero.1 enough)
      rw [doPrintf]
      exact (extra_count_le p).trans (Nat.le_add_left 1 _)
  | succ fuel ih =>
      cases format with
      | nil =>
          rw [doPrintf]
          exact (extra_count_le p).trans (Nat.le_add_left 1 _)
      | cons c format =>
          rw [List.length_cons] at enough room
          by_cases literal : c ≠ percent
          · rw [doPrintf, if_pos literal, List.count_cons_of_ne literal, List.count_cons_of_ne literal]
            exact ih (by omega) less large (by omega)
          · obtain rfl : c = percent := not_not.1 literal
            have taken := parsed format
            obtain ⟨written, behind⟩ := directive_silent taken less large (by omega : k + 2 < n)
            have shorter := taken.left.length_le
            have later := ih (show (parse format).2.length ≤ fuel by omega) behind (by omega) (by omega)
            have fewer : (parse format).2.count percent ≤ format.count percent :=
              taken.left.sublist.count_le percent
            have single : (p.directive (List.replicate n silent) (parse format).1).buf.count percent ≤ 1 := by
              cases written with
              | free free => simp [List.count_eq_zero.2 free]
              | percent _ out => simp [out]
              | complains complains => exact complains.count.le
            rw [doPrintf, if_neg literal, List.count_append, List.count_cons_self]
            omega

theorem directive_bang (room : 0 < n) (format : List UInt8) :
    (Pp.directive {} (List.replicate n silent) (parse ('!'.toUInt8 :: format)).1).buf = [] := by
  have plain : (parse ('!'.toUInt8 :: format)).1 = ⟨{}, .absent, .absent, none, .absent, some '!'⟩ := rfl
  have first : (List.replicate n silent)[0]? = some silent := by
    rw [List.getElem?_replicate, if_pos room]
  rw [plain]
  change (Pp.verb {} (List.replicate n silent) (some '!')).buf = []
  rw [Pp.verb, if_neg (by decide), if_neg (by decide), first]
  rfl

theorem sprintf_nil_silent (room : 0 < n) : Complains (sprintf [] (List.replicate n silent)) := by
  have asked : sprintf [] (List.replicate n silent) = extra (List.replicate n silent) {} := rfl
  rw [asked]
  refine (extra_silent {}).resolve_left ?_
  rw [extra, if_pos ⟨by decide, by rwa [List.length_replicate]⟩]
  simp [text, Utf8.encode]

end

/-- A text with a `%` is not copied in front of the empty format, with many silent arguments. -/
theorem sprintf_silent_ne {s : List UInt8} (member : percent ∈ s) :
    ∃ args, sprintf s args ≠ s ++ sprintf [] args := by
  obtain ⟨front, back, rfl, free⟩ := List.eq_append_cons_of_mem member
  have room : largest + 3 * (back.length + 1) < largest + 3 * (back.length + 1) + 1 := Nat.lt_succ_self _
  generalize largest + 3 * (back.length + 1) + 1 = n at room
  refine ⟨List.replicate n silent, fun same => ?_⟩
  have taken := parsed back
  obtain ⟨written, behind⟩ := directive_silent (p := {}) taken (Nat.zero_le largest) le_rfl
    (show largest + 2 < n by omega)
  have shorter := taken.left.length_le
  have later := doPrintf_count_le shorter behind (Nat.le_add_right _ _)
    (show largest + 3 + 3 * (parse back).2.length < n by omega)
  have unused := sprintf_nil_silent (show 0 < n by omega)
  -- behind the literal front, the first directive of the text stands against the text itself
  rw [sprintf, List.length_append, doPrintf_literal free, List.append_assoc] at same
  replace same := List.append_cancel_left same
  rw [List.length_cons, doPrintf, if_neg (not_not.2 rfl)] at same
  dsimp only at same
  have counts := congrArg (List.count percent) same
  rw [List.count_append, List.count_append, List.count_cons_self, unused.count] at counts
  cases written with
  | free free =>
      have fewer := taken.left.sublist.count_le percent
      rw [List.count_eq_zero.2 free] at counts
      omega
  | percent verb out =>
      have fewer := (taken.percent verb).sublist.count_le percent
      rw [List.count_cons_self] at fewer
      rw [out, List.count_singleton_self] at counts
      omega
  | complains complains =>
      -- the complaint starts with `%!`, so the text does, but the verb `!` does not complain
      obtain ⟨tail, out, -⟩ := complains
      obtain ⟨extra, nothing, -⟩ := unused
      rw [out, nothing] at same
      cases back with
      | nil => exact absurd (List.cons.inj (List.cons.inj same).2).1 (by decide)
      | cons c back =>
          obtain rfl : '!'.toUInt8 = c := (List.cons.inj (List.cons.inj same).2).1
          rw [directive_bang (by omega)] at out
          cases out

theorem sprintf_verbatim_iff (s : List UInt8) :
    (∀ format args, sprintf (s ++ format) args = s ++ sprintf format args) ↔ percent ∉ s := by
  constructor
  · intro verbatim member
    obtain ⟨args, differs⟩ := sprintf_silent_ne member
    exact differs (by simpa using verbatim [] args)
  · intro free format args
    exact sprintf_literal free format args

end Xrtc.Lib.Printf
