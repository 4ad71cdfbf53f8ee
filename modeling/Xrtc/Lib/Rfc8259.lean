import Xrtc.Lib.Utf8
import Mathlib.Data.List.Nodup

/-!
# JSON texts of flat objects

`decode` is what RFC 8259 makes of a text that is an object of strings and whole numbers in which no
name stands twice.
-/

namespace Xrtc.Lib.Rfc8259

inductive Scalar
  | number (i : Int)
  | string (text : List Char)
  deriving DecidableEq

abbrev Object := List (List Char × Scalar)

def isBlank (c : Char) : Bool := c == ' ' || c == '\t' || c == '\n' || c == '\r'

def skipBlanks (text : List Char) : List Char := text.dropWhile isBlank

def hexDigit (c : Char) : Option Nat :=
  if '0' ≤ c ∧ c ≤ '9' then some (c.toNat - '0'.toNat)
  else if 'a' ≤ c ∧ c ≤ 'f' then some (c.toNat - 'a'.toNat + 10)
  else if 'A' ≤ c ∧ c ≤ 'F' then some (c.toNat - 'A'.toNat + 10)
  else none

def codeUnit : List Char → Option (Nat × List Char)
  | a :: b :: c :: d :: rest => do
      let a ← hexDigit a
      let b ← hexDigit b
      let c ← hexDigit c
      let d ← hexDigit d
      return (((a * 16 + b) * 16 + c) * 16 + d, rest)
  | _ => none

def lowSurrogate (high : Nat) : List Char → Option (Char × List Char)
  | '\\' :: 'u' :: rest =>
      (codeUnit rest).bind fun (low, rest) =>
        if 0xdc00 ≤ low ∧ low < 0xe000 then
          some (Char.ofNat (0x10000 + (high - 0xd800) * 0x400 + (low - 0xdc00)), rest)
        else none
  | _ => none

def escaped : List Char → Option (Char × List Char)
  | '"' :: rest => some ('"', rest)
  | '\\' :: rest => some ('\\', rest)
  | '/' :: rest => some ('/', rest)
  | 'b' :: rest => some ('\x08', rest)
  | 'f' :: rest => some ('\x0c', rest)
  | 'n' :: rest => some ('\n', rest)
  | 'r' :: rest => some ('\r', rest)
  | 't' :: rest => some ('\t', rest)
  | 'u' :: rest =>
      (codeUnit rest).bind fun (unit, rest) =>
        if unit < 0xd800 ∨ 0xe000 ≤ unit then some (Char.ofNat unit, rest)
        else if unit < 0xdc00 then lowSurrogate unit rest
        else none
  | _ => none

def character : List Char → Option (Char × List Char)
  | '\\' :: rest => escaped rest
  | c :: rest => if c = '"' ∨ c.toNat < 0x20 then none else some (c, rest)
  | [] => none

def stringBody : (fuel : Nat) → List Char → Option (List Char × List Char)
  | 0, _ => none
  | _ + 1, '"' :: rest => some ([], rest)
  | fuel + 1, text =>
      (character text).bind fun (c, rest) => (stringBody fuel rest).map fun (text, rest) => (c :: text, rest)

def string (text : List Char) : Option (List Char × List Char) := stringBody text.length text

/-- A number with a fraction or an exponent is not a whole one. -/
def endsNumber (rest : List Char) : Bool :=
  match rest with
  | c :: _ => !c.isDigit && c != '.' && c != 'e' && c != 'E'
  | [] => true

def natural (text : List Char) : Option (Nat × List Char) :=
  let digits := text.takeWhile Char.isDigit
  let rest := text.dropWhile Char.isDigit
  if digits = [] ∨ digits.head? = some '0' ∧ digits ≠ ['0'] ∨ endsNumber rest = false then none
  else some (Nat.ofDigitChars 10 digits 0, rest)

def scalar : List Char → Option (Scalar × List Char)
  | '"' :: rest => (string rest).map fun (text, rest) => (.string text, rest)
  | '-' :: rest => (natural rest).map fun (n, rest) => (.number (-n), rest)
  | text => (natural text).map fun (n, rest) => (.number n, rest)

def memberValue (name : List Char) : List Char → Option ((List Char × Scalar) × List Char)
  | ':' :: rest => (scalar (skipBlanks rest)).map fun (value, rest) => ((name, value), skipBlanks rest)
  | _ => none

def member : List Char → Option ((List Char × Scalar) × List Char)
  | '"' :: rest => (string rest).bind fun (name, rest) => memberValue name (skipBlanks rest)
  | _ => none

def members : (fuel : Nat) → List Char → Option (Object × List Char)
  | 0, _ => none
  | fuel + 1, text =>
      (member (skipBlanks text)).bind fun
        | (first, ',' :: rest) => (members fuel rest).map fun (others, rest) => (first :: others, rest)
        | (first, '\x7d' :: rest) => some ([first], rest)
        | _ => none

def object (text : List Char) : Option (Object × List Char) :=
  match skipBlanks text with
  | '\x7b' :: rest =>
      match skipBlanks rest with
      | '\x7d' :: rest => some ([], rest)
      | _ => members rest.length rest
  | _ => none

def decode (bytes : List UInt8) : Option Object :=
  (Utf8.decode bytes).bind fun text =>
    (object text).bind fun (found, rest) =>
      if skipBlanks rest = [] ∧ (found.map Prod.fst).Nodup then some found else none

example : decode [0x7b, 0x22, 0x61, 0x22, 0x3a, 0x2d, 0x37, 0x7d] = some [(['a'], .number (-7))] := by decide

theorem nodup_of_decode {bytes : List UInt8} {found : Object} (decoded : decode bytes = some found) :
    (found.map Prod.fst).Nodup := by
  obtain ⟨text, -, decoded⟩ := Option.bind_eq_some_iff.mp decoded
  obtain ⟨read, -, decoded⟩ := Option.bind_eq_some_iff.mp decoded
  obtain ⟨whole, same⟩ := Option.ite_none_right_eq_some.mp decoded
  rw [← Option.some.inj same]
  exact whole.2

theorem lookup_of_mem {members : Object} {name : List Char} {value : Scalar}
    (nodup : (members.map Prod.fst).Nodup) (member : (name, value) ∈ members) :
    members.lookup name = some value := by
  induction members with
  | nil => cases member
  | cons first members ih =>
      rw [List.map_cons, List.nodup_cons] at nodup
      rcases List.mem_cons.mp member with rfl | later
      · exact List.lookup_cons_self
      · have other : name ≠ first.1 := by
          rintro rfl
          exact nodup.1 (List.mem_map.mpr ⟨_, later, rfl⟩)
        rw [List.lookup_cons, beq_false_of_ne other]
        exact ih nodup.2 later

/-! ## The texts that Go's encoding/json writes -/

/-- An integer or a string of Go, which is any bytes. -/
inductive Field
  | int (i : Int)
  | string (bytes : List UInt8)

def Field.meaning : Field → Scalar
  | .int i => .number i
  | .string bytes => .string (Utf8.sanitize bytes)

def hexDigits (n : Nat) : List Char :=
  [(n / 4096 % 16).digitChar, (n / 256 % 16).digitChar, (n / 16 % 16).digitChar, (n % 16).digitChar]

def escape (c : Char) : List Char :=
  if c = '"' ∨ c = '\\' then ['\\', c]
  else if c = '\n' then ['\\', 'n']
  else if c = '\r' then ['\\', 'r']
  else if c = '\t' then ['\\', 't']
  else if c.toNat < 0x20 ∨ c = '<' ∨ c = '>' ∨ c = '&' ∨ c = '\u2028' ∨ c = '\u2029' then
    '\\' :: 'u' :: hexDigits c.toNat
  else [c]

def encodeRune : Option Char → List Char
  | some c => escape c
  | none => '\\' :: 'u' :: hexDigits 0xfffd

def encodeRunes (runes : List (Option Char)) : List Char := '"' :: (runes.flatMap encodeRune ++ ['"'])

def encodeInt (i : Int) : List Char :=
  if i < 0 then '-' :: Nat.toDigits 10 i.natAbs else Nat.toDigits 10 i.natAbs

def encodeField : Field → List Char
  | .int i => encodeInt i
  | .string bytes => encodeRunes (Utf8.runes bytes)

def encodeMember (field : List Char × Field) : List Char :=
  encodeRunes (field.1.map some) ++ ':' :: encodeField field.2

def encodeMembers : List (List Char × Field) → List Char
  | [] => []
  | [field] => encodeMember field
  | field :: fields => encodeMember field ++ ',' :: encodeMembers fields

def encode (fields : List (List Char × Field)) : List UInt8 :=
  Utf8.encode ('\x7b' :: (encodeMembers fields ++ ['\x7d']))

theorem hexDigit_digitChar : ∀ d < 16, hexDigit d.digitChar = some d := by decide

theorem codeUnit_hexDigits {n : Nat} (small : n < 0x10000) (rest : List Char) :
    codeUnit (hexDigits n ++ rest) = some (n, rest) := by
  have value : ((n / 4096 % 16 * 16 + n / 256 % 16) * 16 + n / 16 % 16) * 16 + n % 16 = n := by omega
  simp only [hexDigits, List.cons_append, List.nil_append, codeUnit,
    hexDigit_digitChar _ (Nat.mod_lt _ (by decide : 16 > 0)), Option.bind_eq_bind, Option.bind_some, value]
  rfl

theorem escaped_hexDigits {n : Nat} (scalar : n < 0xd800 ∨ 0xe000 ≤ n) (small : n < 0x10000)
    (rest : List Char) : escaped ('u' :: (hexDigits n ++ rest)) = some (Char.ofNat n, rest) := by
  simp only [escaped, codeUnit_hexDigits small, Option.bind_some]
  rw [if_pos scalar]

theorem character_escape (c : Char) (rest : List Char) : character (escape c ++ rest) = some (c, rest) := by
  unfold escape
  split
  · next quoted => rcases quoted with rfl | rfl <;> rfl
  split
  · next newline => subst newline; rfl
  split
  · next ret => subst ret; rfl
  split
  · next tab => subst tab; rfl
  split
  · next special =>
      have low : c.toNat < 0xd800 := by
        rcases special with low | rfl | rfl | rfl | rfl | rfl
        · omega
        all_goals decide
      have decoded := escaped_hexDigits (.inl low) (by omega) rest
      rwa [Char.ofNat_toNat] at decoded
  · next plain _ _ _ safe =>
      rw [not_or] at plain safe
      rw [List.singleton_append, character]
      · rw [if_neg (not_or.mpr ⟨plain.1, safe.1⟩)]
      · exact plain.2

theorem character_encodeRune (r : Option Char) (rest : List Char) :
    character (encodeRune r ++ rest) = some (r.getD Utf8.replacement, rest) := by
  cases r with
  | some c => exact character_escape c rest
  | none => exact escaped_hexDigits (n := 0xfffd) (.inr (by decide)) (by decide) rest

theorem stringBody_character {text rest : List Char} {c : Char} (reads : character text = some (c, rest))
    (fuel : Nat) : stringBody (fuel + 1) text = (stringBody fuel rest).map fun p => (c :: p.1, p.2) := by
  cases text with
  | nil => cases reads
  | cons first others =>
      have unquoted : first ≠ '"' := by
        rintro rfl
        cases reads
      rw [stringBody, reads, Option.bind_some]
      exact fun _ quoted => unquoted (List.cons.inj quoted).1

theorem stringBody_runes (runes : List (Option Char)) (rest : List Char) {fuel : Nat}
    (enough : runes.length < fuel) :
    stringBody fuel (runes.flatMap encodeRune ++ '"' :: rest) =
      some (runes.map (·.getD Utf8.replacement), rest) := by
  induction runes generalizing fuel with
  | nil =>
      obtain ⟨fuel, rfl⟩ := Nat.exists_eq_succ_of_ne_zero (Nat.ne_of_gt enough)
      rfl
  | cons r runes ih =>
      obtain ⟨fuel, rfl⟩ := Nat.exists_eq_succ_of_ne_zero (Nat.ne_of_gt (Nat.zero_lt_of_lt enough))
      rw [List.flatMap_cons, List.append_assoc, stringBody_character (character_encodeRune r _),
        ih (Nat.lt_of_succ_lt_succ enough)]
      rfl

theorem encodeRune_pos (r : Option Char) : 0 < (encodeRune r).length := by
  have reads := character_encodeRune r []
  cases text : encodeRune r with
  | nil =>
      rw [text] at reads
      cases reads
  | cons c rest => exact Nat.succ_pos _

theorem length_le_flatMap (runes : List (Option Char)) : runes.length ≤ (runes.flatMap encodeRune).length := by
  induction runes with
  | nil => exact Nat.le_refl _
  | cons r runes ih =>
      have pos := encodeRune_pos r
      rw [List.flatMap_cons, List.length_append, List.length_cons]
      omega

theorem string_runes (runes : List (Option Char)) (rest : List Char) :
    string (runes.flatMap encodeRune ++ '"' :: rest) =
      some (runes.map (·.getD Utf8.replacement), rest) := by
  have longer := length_le_flatMap runes
  apply stringBody_runes
  rw [List.length_append, List.length_cons]
  omega

theorem toDigits_head {n : Nat} (pos : 0 < n) : (Nat.toDigits 10 n).head? ≠ some '0' := by
  induction n using Nat.strongRecOn with
  | _ n ih =>
      rcases Nat.lt_or_ge n 10 with small | large
      · have digit : ∀ d < 10, 0 < d → d.digitChar ≠ '0' := by decide
        rw [Nat.toDigits_of_lt_base small]
        exact fun zero => digit n small pos (Option.some.inj zero)
      · rw [Nat.toDigits_of_base_le (by decide) large, List.head?_append_of_ne_nil _ Nat.toDigits_ne_nil]
        exact ih (n / 10) (by omega) (by omega)

theorem natural_toDigits (n : Nat) {rest : List Char} (ends : endsNumber rest = true) :
    natural (Nat.toDigits 10 n ++ rest) = some (n, rest) := by
  have digits : ∀ c ∈ Nat.toDigits 10 n, c.isDigit = true := fun c member =>
    Nat.isDigit_of_mem_toDigits (by decide) (by decide) member
  have stops : rest.takeWhile Char.isDigit = [] ∧ rest.dropWhile Char.isDigit = rest := by
    cases rest with
    | nil => exact ⟨rfl, rfl⟩
    | cons c rest =>
        have none : c.isDigit = false := by
          simp only [endsNumber, Bool.and_eq_true, Bool.not_eq_true'] at ends
          exact ends.1.1.1
        simp [none]
  have leading : ¬ ((Nat.toDigits 10 n).head? = some '0' ∧ Nat.toDigits 10 n ≠ ['0']) := by
    rintro ⟨zero, more⟩
    rcases Nat.eq_zero_or_pos n with rfl | pos
    · exact more rfl
    · exact toDigits_head pos zero
  simp only [natural, List.takeWhile_append_of_pos digits, List.dropWhile_append_of_pos digits, stops.1,
    stops.2, List.append_nil, ends]
  rw [if_neg, Nat.ofDigitChars_ten_toDigits]
  rintro (empty | zero | unended)
  · exact Nat.toDigits_ne_nil empty
  · exact leading zero
  · cases unended

theorem skipBlanks_cons {c : Char} (black : isBlank c = false) (rest : List Char) :
    skipBlanks (c :: rest) = c :: rest := by
  simp [skipBlanks, black]

theorem toDigits_cons (n : Nat) : ∃ d ds, Nat.toDigits 10 n = d :: ds ∧ d.isDigit = true := by
  cases digits : Nat.toDigits 10 n with
  | nil => exact absurd digits Nat.toDigits_ne_nil
  | cons d ds =>
      refine ⟨d, ds, rfl, Nat.isDigit_of_mem_toDigits (b := 10) (n := n) (by decide) (by decide) ?_⟩
      rw [digits]
      exact List.mem_cons_self

theorem isBlank_of_isDigit {c : Char} (digit : c.isDigit = true) : isBlank c = false := by
  simp only [isBlank, Bool.or_eq_false_iff, beq_eq_false_iff_ne]
  refine ⟨⟨⟨?_, ?_⟩, ?_⟩, ?_⟩ <;> (rintro rfl; cases digit)

theorem scalar_encodeInt (i : Int) {rest : List Char} (ends : endsNumber rest = true) :
    scalar (encodeInt i ++ rest) = some (.number i, rest) := by
  unfold encodeInt
  split
  · next negative =>
      rw [List.cons_append, scalar, natural_toDigits _ ends, Option.map_some]
      simp only
      rw [Int.ofNat_natAbs_of_nonpos (Int.le_of_lt negative), Int.neg_neg]
  · next nonneg =>
      obtain ⟨d, ds, digits, digit⟩ := toDigits_cons i.natAbs
      rw [scalar, natural_toDigits _ ends, Option.map_some]
      · simp only
        rw [Int.natAbs_of_nonneg (Int.not_lt.mp nonneg)]
      · intro _ quoted
        rw [digits] at quoted
        cases (List.cons.inj quoted).1
        cases digit
      · intro _ minus
        rw [digits] at minus
        cases (List.cons.inj minus).1
        cases digit

theorem scalar_encodeField (field : Field) {rest : List Char} (ends : endsNumber rest = true) :
    scalar (encodeField field ++ rest) = some (field.meaning, rest) := by
  cases field with
  | int i => exact scalar_encodeInt i ends
  | string bytes =>
      rw [encodeField, encodeRunes, List.cons_append, List.append_assoc, List.singleton_append, scalar,
        string_runes]
      rfl

theorem skipBlanks_encodeField (field : Field) (rest : List Char) :
    skipBlanks (encodeField field ++ rest) = encodeField field ++ rest := by
  cases field with
  | string bytes => rfl
  | int i =>
      obtain ⟨d, ds, digits, digit⟩ := toDigits_cons i.natAbs
      simp only [encodeField, encodeInt, digits]
      split
      · rfl
      · exact skipBlanks_cons (isBlank_of_isDigit digit) _

/-- The texts that stand behind a member. -/
def EndsMember (rest : List Char) : Prop := ∃ c others, rest = c :: others ∧ (c = ',' ∨ c = '\x7d')

theorem member_encodeMember (field : List Char × Field) {rest : List Char} (ends : EndsMember rest) :
    member (encodeMember field ++ rest) = some ((field.1, field.2.meaning), rest) := by
  obtain ⟨c, others, rfl, mark⟩ := ends
  have ended : endsNumber (c :: others) = true := by
    rcases mark with rfl | rfl <;> rfl
  have black : isBlank c = false := by
    rcases mark with rfl | rfl <;> rfl
  have name : (field.1.map some).map (·.getD Utf8.replacement) = field.1 := by
    rw [List.map_map]
    exact List.map_id field.1
  have text : encodeMember field ++ c :: others =
      '"' :: ((field.1.map some).flatMap encodeRune ++ '"' :: ':' :: (encodeField field.2 ++ c :: others)) := by
    simp [encodeMember, encodeRunes]
  rw [text, member, string_runes, Option.bind_some, name]
  simp only
  rw [skipBlanks_cons rfl, memberValue, skipBlanks_encodeField, scalar_encodeField _ ended, Option.map_some]
  simp only
  rw [skipBlanks_cons black]

theorem skipBlanks_encodeMember (field : List Char × Field) (rest : List Char) :
    skipBlanks (encodeMember field ++ rest) = encodeMember field ++ rest := rfl

theorem members_encodeMembers (field : List Char × Field) (fields : List (List Char × Field))
    (rest : List Char) {fuel : Nat} (enough : fields.length < fuel) :
    members fuel (encodeMembers (field :: fields) ++ '\x7d' :: rest) =
      some ((field :: fields).map fun field => (field.1, field.2.meaning), rest) := by
  induction fields generalizing field fuel with
  | nil =>
      obtain ⟨fuel, rfl⟩ := Nat.exists_eq_succ_of_ne_zero (Nat.ne_of_gt enough)
      rw [encodeMembers, members, skipBlanks_encodeMember,
        member_encodeMember field ⟨_, _, rfl, .inr rfl⟩]
      rfl
  | cons next fields ih =>
      obtain ⟨fuel, rfl⟩ := Nat.exists_eq_succ_of_ne_zero (Nat.ne_of_gt (Nat.zero_lt_of_lt enough))
      rw [encodeMembers, List.append_assoc, List.cons_append, members, skipBlanks_encodeMember,
        member_encodeMember field ⟨_, _, rfl, .inl rfl⟩, Option.bind_some]
      · simp only
        rw [ih next (Nat.lt_of_succ_lt_succ enough)]
        rfl
      · exact List.cons_ne_nil next fields

theorem length_le_encodeMembers (fields : List (List Char × Field)) :
    fields.length ≤ (encodeMembers fields).length := by
  induction fields with
  | nil => exact Nat.le_refl _
  | cons field fields ih =>
      cases fields with
      | nil => simp [encodeMembers, encodeMember, encodeRunes]
      | cons next fields =>
          rw [encodeMembers]
          · simp only [List.length_append, List.length_cons] at ih ⊢
            omega
          · exact List.cons_ne_nil next fields

/-- Invalid bytes apart, a reader gets back what was written. -/
theorem decode_encode {fields : List (List Char × Field)} (nodup : (fields.map Prod.fst).Nodup) :
    decode (encode fields) = some (fields.map fun field => (field.1, field.2.meaning)) := by
  have names : ((fields.map fun field => (field.1, field.2.meaning)).map Prod.fst).Nodup := by
    rw [List.map_map]
    exact nodup
  have read : object ('\x7b' :: (encodeMembers fields ++ ['\x7d'])) =
      some (fields.map fun field => (field.1, field.2.meaning), []) := by
    cases fields with
    | nil => rfl
    | cons field fields =>
        have enough : fields.length < (encodeMembers (field :: fields) ++ ['\x7d']).length := by
          have longer := length_le_encodeMembers (field :: fields)
          rw [List.length_cons] at longer
          rw [List.length_append]
          omega
        rw [← members_encodeMembers field fields [] enough]
        cases fields <;> rfl
  rw [decode, encode, Utf8.decode_encode, Option.bind_some, read, Option.bind_some]
  exact if_pos ⟨rfl, names⟩

end Xrtc.Lib.Rfc8259
