import Xrtc.Go.ConfigRead

/-!
# The lines of a configuration file

Each line that `SaveConfigData` writes for a section, a key or a comment is read as what it was written
for, under the conditions that its text makes necessary.
-/

namespace Xrtc.Proof.ConfigLine
open Go Lib Lib.Strings Lib.Printf

abbrev Trimmed (s : Str) : Prop := whiteSpace.Trimmed s

/-! ## White space -/

theorem boundary {b : UInt8} (ascii : b < 0x80) : whiteSpace.Boundary b := by
  have words : ∀ word ∈ whiteSpace.words, word.length = 1 ∨ ∀ x ∈ word, 0x80 ≤ x := by decide +kernel
  intro word member inside
  obtain single | high := words word member
  · obtain ⟨x, rfl⟩ := List.length_eq_one_iff.mp single
    rw [List.mem_singleton.mp inside]
  · exact absurd (high b inside) (UInt8.not_le.mpr ascii)

theorem not_leads_ascii {b : UInt8} (ascii : b < 0x80) (plain : [b] ∉ whiteSpace.words) (s : Str) :
    ¬ whiteSpace.Leads (b :: s) := by
  rintro ⟨word, member, begins⟩
  cases word with
  | nil => exact whiteSpace.filled member
  | cons x rest =>
      have same := (List.cons_prefix_cons.mp begins).1
      have alone := boundary ascii (x :: rest) member (same ▸ List.mem_cons_self ..)
      exact plain (alone ▸ member)

theorem not_trails_ascii {b : UInt8} (ascii : b < 0x80) (plain : [b] ∉ whiteSpace.words) (s : Str) :
    ¬ whiteSpace.Trails (s ++ [b]) := by
  rintro ⟨word, member, ends⟩
  have reversed := List.reverse_prefix.mpr ends
  rw [List.reverse_concat] at reversed
  cases shape : word.reverse with
  | nil => exact whiteSpace.filled (List.reverse_eq_nil_iff.mp shape ▸ member)
  | cons x rest =>
      rw [shape] at reversed
      have same := (List.cons_prefix_cons.mp reversed).1
      have inside : b ∈ word := List.mem_reverse.mp (by rw [shape, same]; exact List.mem_cons_self ..)
      have alone := boundary ascii word member inside
      exact plain (alone ▸ member)

theorem trimSpace_eq {s : Str} (trimmed : Trimmed s) : trimSpace s = s := whiteSpace.trim_eq_self trimmed

theorem trimSpace_trimmed (s : Str) : Trimmed (trimSpace s) := whiteSpace.trim_trimmed s

theorem trimSpace_space_cons (s : Str) : trimSpace (0x20 :: s) = trimSpace s :=
  whiteSpace.trim_cons (by decide) s

theorem trimSpace_concat_space (s : Str) : trimSpace (s ++ [0x20]) = trimSpace s :=
  whiteSpace.trim_concat (by decide) (boundary (by decide)) s

theorem trimmed_nil : Trimmed [] := by constructor <;> decide +kernel

theorem trimmed_between {a b : UInt8} (first : a < 0x80) (plain : [a] ∉ whiteSpace.words) (last : b < 0x80)
    (blank : [b] ∉ whiteSpace.words) (s : Str) : Trimmed (a :: s ++ [b]) :=
  ⟨not_leads_ascii first plain _, not_trails_ascii last blank _⟩

/-! ## Keys -/

theorem indexAssign_append {s : Str} (equal : 0x3d ∉ s) (colon : 0x3a ∉ s) (t : Str) :
    indexAssign (s ++ 0x3d :: t) = some s.length := by
  have none : s.findIdx? (fun b => b == 0x3d || b == 0x3a) = none := by
    refine List.findIdx?_eq_none_iff.mpr fun b member => ?_
    have first : b ≠ 0x3d := fun same => equal (same ▸ member)
    have second : b ≠ 0x3a := fun same => colon (same ▸ member)
    simp [first, second]
  rw [indexAssign, List.findIdx?_append, none]
  simp [List.findIdx?_cons]

theorem parseKey_plain {key : Str} (filled : key ≠ []) (trimmed : Trimmed key) (equal : 0x3d ∉ key)
    (colon : 0x3a ∉ key) (double : key.head? ≠ some 0x22) (back : key.head? ≠ some 0x60) (rest : Str) :
    parseKey (key ++ 0x20 :: 0x3d :: rest) = some (key, key.length + 1) := by
  have head : (key ++ 0x20 :: 0x3d :: rest).head? = key.head? := List.head?_append_of_ne_nil _ filled
  have unquoted : keyQuote (key ++ 0x20 :: 0x3d :: rest) = [] := by
    rw [keyQuote, head, if_neg double, if_neg back]
  have spaced : key ++ 0x20 :: 0x3d :: rest = (key ++ [0x20]) ++ 0x3d :: rest := by simp
  have sign : indexAssign (key ++ 0x20 :: 0x3d :: rest) = some (key.length + 1) := by
    rw [spaced, indexAssign_append (by simp [equal]) (by simp [colon]), List.length_append]
    rfl
  have front : (key ++ 0x20 :: 0x3d :: rest).take (key.length + 1) = key ++ [0x20] := by
    rw [spaced]
    exact List.take_left' (by simp)
  rw [parseKey, unquoted]
  simp only [ne_eq, not_true_eq_false, if_false, sign, front, trimSpace_concat_space, trimSpace_eq trimmed]

theorem parseKey_quoted {quote key : Str} (filled : quote ≠ []) (equal : 0x3d ∉ quote) (colon : 0x3a ∉ quote)
    (found : index quote (key ++ quote) = some key.length) (rest : Str)
    (quoted : keyQuote (quote ++ key ++ quote ++ 0x20 :: 0x3d :: rest) = quote) :
    parseKey (quote ++ key ++ quote ++ 0x20 :: 0x3d :: rest) =
      some (key, (quote ++ key ++ quote).length + 1) := by
  have inner : (quote ++ key ++ quote ++ 0x20 :: 0x3d :: rest).drop quote.length =
      key ++ quote ++ 0x20 :: 0x3d :: rest := by simp
  have behind : (quote ++ key ++ quote ++ 0x20 :: 0x3d :: rest).drop (key.length + quote.length) =
      (quote ++ [0x20]) ++ 0x3d :: rest := by
    rw [Nat.add_comm, ← List.drop_drop, inner]
    simp
  have sign : indexAssign ((quote ++ [0x20]) ++ 0x3d :: rest) = some (quote.length + 1) := by
    rw [indexAssign_append (by simp [equal]) (by simp [colon]), List.length_append]
    rfl
  have close := index_append found (0x20 :: 0x3d :: rest)
  rw [parseKey, quoted]
  simp only [ne_eq, filled, not_false_eq_true, if_true, inner, close, behind, sign]
  simp only [List.append_assoc, List.take_left, List.length_append, Option.some.injEq, Prod.mk.injEq, true_and]
  omega

/-- A key that is not taken for anything else when it stands without quotes. -/
def Bare (key : Str) : Prop := Trimmed key ∧ key ≠ text "-" ∧ key.head? ∉ [some 0x3b, some 0x22, some 0x60]
  deriving Decidable

/-- A key with both kinds of quotes is written in triple ones, which may not end inside it. -/
def ClosesLate (key : Str) : Prop :=
  0x60 ∈ key → 0x22 ∈ key → index tripleQuote (key ++ tripleQuote) = some key.length
  deriving Decidable

/-- A key that can be written: one with a sign is quoted, and then the quotes must not end early; one that
begins with `#` is written as a number of its section; any other stands as it is. -/
@[mk_iff]
structure KeyPrintable (key : Str) : Prop where
  filled : key ≠ []
  oneLine : 0x0a ∉ key
  quoted : key.head? ≠ some 0x23 → (0x3d ∈ key ∨ 0x3a ∈ key) → ClosesLate key
  plain : key.head? ≠ some 0x23 → 0x3d ∉ key → 0x3a ∉ key → Bare key

instance (key : Str) : Decidable (KeyPrintable key) := decidable_of_iff' _ (keyPrintable_iff key)

def readKey (key : Str) : Str := if key.head? = some 0x23 then text "-" else key

structure Written (key written : Str) : Prop where
  stands : ConfigFile.writtenKey key = .ok written
  parse : ∀ rest, parseKey (written ++ 0x20 :: 0x3d :: rest) = some (readKey key, written.length + 1)
  filled : written ≠ []
  oneLine : 0x0a ∉ written
  front : ¬ whiteSpace.Leads written
  noComment : isComment written = false
  bracket : written.head? = some 0x5b → written = key

theorem written_plain {key : Str} (printable : KeyPrintable key) (number : key.head? ≠ some 0x23)
    (equal : 0x3d ∉ key) (colon : 0x3a ∉ key) : Written key key := by
  obtain ⟨trimmed, -, first⟩ := printable.plain number equal colon
  have semicolon : key.head? ≠ some 0x3b := fun same => first (by simp [same])
  have double : key.head? ≠ some 0x22 := fun same => first (by simp [same])
  have back : key.head? ≠ some 0x60 := fun same => first (by simp [same])
  refine ⟨?_, fun rest => ?_, printable.filled, printable.oneLine, trimmed.front, ?_, fun _ => rfl⟩
  · cases key with
    | nil => exact absurd rfl printable.filled
    | cons b rest =>
        have plain : b ≠ 0x23 := fun same => number (by rw [same]; rfl)
        simp only [ConfigFile.writtenKey, if_neg plain, equal, colon, or_self, if_false]
  · rw [readKey, if_neg number]
    exact parseKey_plain printable.filled trimmed equal colon double back rest
  · simp [isComment, number, semicolon]

theorem written_number {key : Str} (number : key.head? = some 0x23) : Written key (text "-") := by
  have minus : text "-" = [0x2d] := by decide
  refine ⟨?_, fun rest => ?_, by decide, by decide, by decide +kernel, by decide,
    fun bracket => absurd bracket (by decide)⟩
  · cases key with
    | nil => cases number
    | cons b rest =>
        have same : b = 0x23 := Option.some.inj number
        have signs : ¬ (0x3d ∈ text "-" ∨ 0x3a ∈ text "-") := by decide
        simp only [ConfigFile.writtenKey, if_pos same, if_neg signs]
  · rw [readKey, if_pos number]
    exact parseKey_plain (by decide) ⟨by decide +kernel, by decide +kernel⟩ (by decide) (by decide) (by decide)
      (by decide) rest

theorem written_quoted (quote : Str) {key : Str} (number : key.head? ≠ some 0x23)
    (stands : ConfigFile.writtenKey key = .ok (quote ++ key ++ quote)) (oneLine : 0x0a ∉ key)
    (kind : quote ∈ [backquote, doubleQuote, tripleQuote])
    (found : index quote (key ++ quote) = some key.length)
    (quoted : ∀ rest, keyQuote (quote ++ key ++ quote ++ 0x20 :: 0x3d :: rest) = quote) :
    Written key (quote ++ key ++ quote) := by
  have facts : ∀ quote ∈ [backquote, doubleQuote, tripleQuote], quote ≠ [] ∧ 0x3d ∉ quote ∧ 0x3a ∉ quote ∧
      0x0a ∉ quote ∧ quote.head? ∈ [some 0x60, some 0x22] := by decide
  obtain ⟨filled, equal, colon, single, first⟩ := facts quote kind
  have head : (quote ++ key ++ quote).head? = quote.head? := by
    rw [List.append_assoc, List.head?_append_of_ne_nil _ filled]
  have comment : isComment (quote ++ key ++ quote) = false := by
    simp only [isComment, head]
    obtain back | double := List.mem_pair.mp first
    · rw [back]; decide
    · rw [double]; decide
  refine ⟨stands, fun rest => ?_, by simp [filled], by simp [single, oneLine], ?_, comment, ?_⟩
  · rw [readKey, if_neg number]
    exact parseKey_quoted filled equal colon found rest (quoted rest)
  · cases quote with
    | nil => exact absurd rfl filled
    | cons b more =>
        obtain back | double := List.mem_pair.mp first
        · rw [Option.some.inj back]
          exact not_leads_ascii (by decide) (by decide) _
        · rw [Option.some.inj double]
          exact not_leads_ascii (by decide) (by decide) _
  · intro bracket
    rw [head] at bracket
    rw [bracket] at first
    exact absurd first (by decide)

theorem exists_written {key : Str} (printable : KeyPrintable key) : ∃ written, Written key written := by
  by_cases number : key.head? = some 0x23
  · exact ⟨_, written_number number⟩
  · by_cases signs : 0x3d ∈ key ∨ 0x3a ∈ key
    · cases key with
      | nil => exact absurd rfl printable.filled
      | cons b rest =>
          have plain : b ≠ 0x23 := fun same => number (by rw [same]; rfl)
          by_cases back : 0x60 ∈ b :: rest
          · by_cases double : 0x22 ∈ b :: rest
            · refine ⟨_, written_quoted tripleQuote number ?_ printable.oneLine (by decide)
                (printable.quoted number signs back double) fun other => ?_⟩
              · simp only [ConfigFile.writtenKey, if_neg plain, if_pos signs, if_pos back, if_pos double]
              · refine (if_pos rfl).trans (if_pos ⟨?_, rfl⟩)
                simp only [tripleQuote, List.length_append, List.length_cons]
                omega
            · refine ⟨_, written_quoted doubleQuote number ?_ printable.oneLine (by decide)
                (index_letter double []) fun other => ?_⟩
              · simp only [ConfigFile.writtenKey, if_neg plain, if_pos signs, if_pos back, if_neg double]
              · have different : b ≠ 0x22 := fun same => double (same ▸ List.mem_cons_self ..)
                simp [keyQuote, doubleQuote, tripleQuote, different]
          · refine ⟨_, written_quoted backquote number ?_ printable.oneLine (by decide)
              (index_letter back []) fun other => ?_⟩
            · simp only [ConfigFile.writtenKey, if_neg plain, if_pos signs, if_neg back]
            · simp [keyQuote, backquote]
    · rw [not_or] at signs
      exact ⟨key, written_plain printable number signs.1 signs.2⟩

/-! ## Values -/

/-- A value that can be written: one with a back quote needs a double quote beside it to be quoted, any
other stands as it is. -/
@[mk_iff]
structure ValuePrintable (value : Str) : Prop where
  oneLine : 0x0a ∉ value
  quoted : 0x60 ∈ value → 0x22 ∈ value
  plain : 0x60 ∉ value → Trimmed value ∧ ¬ (6 ≤ value.length ∧ value.take 3 = tripleQuote)

instance (value : Str) : Decidable (ValuePrintable value) := decidable_of_iff' _ (valuePrintable_iff value)

theorem writtenValue_trimmed {value : Str} (printable : ValuePrintable value) :
    Trimmed (ConfigFile.writtenValue value) := by
  rw [ConfigFile.writtenValue]
  by_cases back : 0x60 ∈ value
  · rw [if_pos back, if_pos (printable.quoted back)]
    have shape : tripleQuote ++ value ++ tripleQuote = 0x22 :: ([0x22, 0x22] ++ value ++ [0x22, 0x22]) ++ [0x22] := by
      simp [tripleQuote]
    rw [shape]
    exact trimmed_between (by decide) (by decide) (by decide) (by decide) _
  · rw [if_neg back]
    exact (printable.plain back).1

theorem writtenValue_oneLine {value : Str} (oneLine : 0x0a ∉ value) : 0x0a ∉ ConfigFile.writtenValue value := by
  have triple : 0x0a ∉ tripleQuote := by decide
  have double : 0x0a ∉ doubleQuote := by decide
  rw [ConfigFile.writtenValue]
  split
  · split
    · simp [triple, oneLine]
    · simp [double, oneLine]
  · exact oneLine

theorem parseValue_written {value : Str} (printable : ValuePrintable value) :
    parseValue (ConfigFile.writtenValue value) = some value := by
  rw [ConfigFile.writtenValue]
  by_cases back : 0x60 ∈ value
  · rw [if_pos back, if_pos (printable.quoted back)]
    have quote : valueQuote (tripleQuote ++ value ++ tripleQuote) = tripleQuote := by
      refine (if_neg fun starts => absurd starts.2 (by simp [tripleQuote])).trans (if_pos ⟨?_, rfl⟩)
      simp only [tripleQuote, List.length_append, List.length_cons]
      omega
    have inner : (tripleQuote ++ value ++ tripleQuote).drop tripleQuote.length = value ++ tripleQuote := by simp
    have close : lastIndex tripleQuote (value ++ tripleQuote) = some value.length :=
      lastIndex_end (by decide) value
    rw [parseValue, quote]
    simp only [inner, close, List.take_left]
    exact if_pos (by decide)
  · obtain ⟨trimmed, short⟩ := printable.plain back
    have quote : valueQuote value = [] := by
      refine (if_neg fun starts => back ?_).trans (if_neg short)
      exact List.mem_of_head? starts.2
    rw [if_neg back, parseValue, quote]
    simp only [ne_eq, not_true_eq_false, if_false, trimSpace_eq trimmed]

/-! ## Lines -/

def keyLine (written value : Str) : Str := written ++ text " = " ++ ConfigFile.writtenValue value

def behindSign (value : Str) : Str :=
  if ConfigFile.writtenValue value = [] then [] else 0x20 :: ConfigFile.writtenValue value

theorem trimSpace_behindSign {value : Str} (printable : ValuePrintable value) :
    trimSpace (behindSign value) = ConfigFile.writtenValue value := by
  rw [behindSign]
  split
  · next empty => rw [empty, trimSpace_eq trimmed_nil]
  · rw [trimSpace_space_cons, trimSpace_eq (writtenValue_trimmed printable)]

theorem trimSpace_keyLine {key written value : Str} (stands : Written key written)
    (printable : ValuePrintable value) :
    trimSpace (keyLine written value) = written ++ 0x20 :: 0x3d :: behindSign value := by
  have sign : text " = " = [0x20, 0x3d, 0x20] := by decide
  have front (rest : Str) : ¬ whiteSpace.Leads (written ++ 0x20 :: rest) :=
    whiteSpace.not_leads_append (boundary (by decide)) stands.front stands.filled rest
  rw [keyLine, sign, behindSign]
  split
  · next empty =>
      have shape : written ++ [0x20, 0x3d, 0x20] ++ [] = written ++ [0x20, 0x3d] ++ [0x20] := by simp
      have back : ¬ whiteSpace.Trails (written ++ [0x20] ++ [0x3d]) :=
        not_trails_ascii (by decide) (by decide) _
      rw [List.append_assoc] at back
      rw [empty, shape, trimSpace_concat_space]
      exact trimSpace_eq ⟨front [0x3d], back⟩
  · next filled =>
      have back := whiteSpace.not_trails_append (boundary (b := 0x20) (by decide))
        (writtenValue_trimmed printable).back
        filled (written ++ [0x20, 0x3d])
      have shape : written ++ [0x20, 0x3d] ++ 0x20 :: ConfigFile.writtenValue value =
          written ++ 0x20 :: 0x3d :: 0x20 :: ConfigFile.writtenValue value := by simp
      have same : written ++ [0x20, 0x3d, 0x20] ++ ConfigFile.writtenValue value =
          written ++ 0x20 :: 0x3d :: 0x20 :: ConfigFile.writtenValue value := by simp
      rw [shape] at back
      rw [same]
      exact trimSpace_eq ⟨front _, back⟩

theorem parseLine_key {key written value current : Str} (stands : Written key written)
    (printable : ValuePrintable value) (inside : current ≠ [])
    (bracket : key.head? = some 0x5b → (ConfigFile.writtenValue value).getLast? ≠ some 0x5d) :
    parseLine current (trimSpace (keyLine written value)) = .ok (.assign (readKey key) value) := by
  have head : (written ++ 0x20 :: 0x3d :: behindSign value).head? = written.head? :=
    List.head?_append_of_ne_nil _ stands.filled
  have comment : isComment (written ++ 0x20 :: 0x3d :: behindSign value) = false := by
    rw [← stands.noComment]
    simp only [isComment, head]
  have noHeader : ¬ ((written ++ 0x20 :: 0x3d :: behindSign value).head? = some 0x5b ∧
      (written ++ 0x20 :: 0x3d :: behindSign value).getLast? = some 0x5d) := by
    rintro ⟨opens, closes⟩
    rw [head] at opens
    have last := bracket (stands.bracket opens ▸ opens)
    rw [behindSign] at closes
    split at closes
    · simp at closes
    · next filled =>
        have tail : written ++ 0x20 :: 0x3d :: 0x20 :: ConfigFile.writtenValue value =
            (written ++ [0x20, 0x3d, 0x20]) ++ ConfigFile.writtenValue value := by simp
        rw [tail, List.getLast?_append_of_ne_nil _ filled] at closes
        exact last closes
  have behind : (written ++ 0x20 :: 0x3d :: behindSign value).drop (written.length + 1 + 1) =
      behindSign value := by
    rw [Nat.add_assoc, ← List.drop_drop, List.drop_left]
    rfl
  rw [trimSpace_keyLine stands printable, parseLine, if_neg (by simp), comment, if_neg Bool.false_ne_true,
    if_neg noHeader, if_neg inside, stands.parse]
  simp only [behind, trimSpace_behindSign printable, parseValue_written printable]

theorem parseLine_comment {line : Str} (trimmed : Trimmed line) (comment : isComment line = true) (current : Str) :
    parseLine current (trimSpace line) = .ok (.comment line) := by
  have filled : line ≠ [] := by
    rintro rfl
    cases comment
  rw [trimSpace_eq trimmed, parseLine, if_neg filled, if_pos comment]

theorem parseLine_header {name : Str} (trimmed : Trimmed name) (current : Str) :
    parseLine current (trimSpace (text "[" ++ name ++ text "]")) = .ok (.header name) := by
  have shape : text "[" ++ name ++ text "]" = 0x5b :: name ++ [0x5d] := rfl
  have whole : Trimmed (0x5b :: name ++ [0x5d]) :=
    trimmed_between (by decide) (by decide) (by decide) (by decide) name
  have inner : ((0x5b :: name ++ [0x5d]).drop 1).dropLast = name := by simp
  rw [shape, trimSpace_eq whole, parseLine, if_neg (by simp), if_neg (by simp [isComment]),
    if_pos ⟨rfl, List.getLast?_concat⟩, inner, trimSpace_eq trimmed]

theorem parseLine_blank (current : Str) : parseLine current (trimSpace []) = .ok .blank := by
  rw [trimSpace_eq trimmed_nil]
  rfl

end Xrtc.Proof.ConfigLine
