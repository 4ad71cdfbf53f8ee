import Xrtc.Lib.PrintfLaws
import Xrtc.Proof.ConfigSave

/-!
# Configuration files without quotes

What is read from a text without quotes can be written: saving it and reading it again changes nothing.
-/

namespace Xrtc.Proof.ConfigStable
open Go Lib Lib.Strings Lib.OrderedMap Lib.Printf ConfigFile ConfigLine ConfigSave

/-! ## Lines -/

/-- The line of a text without quotes. -/
structure Plain (line : Str) : Prop where
  trimmed : Trimmed line
  double : 0x22 ∉ line
  back : 0x60 ∉ line
  oneLine : 0x0a ∉ line

structure PlainKey (key : Str) : Prop where
  filled : key ≠ []
  oneLine : 0x0a ∉ key
  trimmed : Trimmed key
  equal : 0x3d ∉ key
  colon : 0x3a ∉ key
  first : key.head? ∉ [some 0x23, some 0x3b, some 0x22, some 0x60]

theorem PlainKey.printable {key : Str} (plain : PlainKey key) (minus : key ≠ text "-") : KeyPrintable key where
  filled := plain.filled
  oneLine := plain.oneLine
  quoted _ signs := (signs.elim plain.equal plain.colon).elim
  plain _ _ _ := ⟨plain.trimmed, minus, fun member => plain.first (List.mem_cons_of_mem _ member)⟩

theorem PlainKey.number {key : Str} (plain : PlainKey key) : key.head? ≠ some 0x23 := fun same =>
  plain.first (by rw [same]; exact List.mem_cons_self ..)

/-- What a line was, given what it was read as. -/
def Parses (line : Str) : Item → Prop
  | .blank => True
  | .comment comment => comment = line ∧ isComment line = true
  | .header name =>
      name = trimSpace (line.drop 1).dropLast ∧ ∀ current, parseLine current line = .ok (.header name)
  | .assign key value =>
      isComment line = false ∧ ¬ (line.head? = some 0x5b ∧ line.getLast? = some 0x5d) ∧
        ∃ i, parseKey line = some (key, i) ∧ parseValue (trimSpace (line.drop (i + 1))) = some value

theorem parses {current line : Str} {item : Item} (parsed : parseLine current line = .ok item) :
    Parses line item := by
  rw [parseLine] at parsed
  split at parsed
  · cases parsed
    trivial
  next filled =>
  split at parsed
  · next comment =>
      cases parsed
      exact ⟨rfl, comment⟩
  · next comment =>
      split at parsed
      · next title =>
          cases parsed
          exact ⟨rfl, fun current => by rw [parseLine, if_neg filled, if_neg comment, if_pos title]⟩
      · next title =>
          split at parsed
          · cases parsed
          · cases found : parseKey line with
            | none => rw [found] at parsed; cases parsed
            | some pair =>
                rw [found] at parsed
                simp only at parsed
                cases right : parseValue (trimSpace (line.drop (pair.2 + 1))) with
                | none => rw [right] at parsed; cases parsed
                | some read =>
                    rw [right] at parsed
                    cases parsed
                    exact ⟨Bool.eq_false_iff.mpr comment, title, pair.2, found, right⟩

theorem parseKey_unquoted {line key : Str} {i : Nat} (double : 0x22 ∉ line) (back : 0x60 ∉ line)
    (parsed : parseKey line = some (key, i)) :
    key = trimSpace (line.take i) ∧ 0 < i ∧ indexAssign line = some i := by
  have unquoted : keyQuote line = [] := by
    rw [keyQuote, if_neg fun head => double (List.mem_of_head? head), if_neg fun head => back (List.mem_of_head? head)]
  rw [parseKey, unquoted] at parsed
  simp only [ne_eq, not_true_eq_false, if_false] at parsed
  cases sign : indexAssign line with
  | none => rw [sign] at parsed; cases parsed
  | some n =>
      rw [sign] at parsed
      cases n with
      | zero => cases parsed
      | succ n =>
          cases parsed
          exact ⟨rfl, Nat.succ_pos n, rfl⟩

theorem indexAssign_some {line : Str} {i : Nat} (sign : indexAssign line = some i) :
    i < line.length ∧ 0x3d ∉ line.take i ∧ 0x3a ∉ line.take i := by
  obtain ⟨inside, -, before⟩ := List.findIdx?_eq_some_iff_getElem.mp sign
  refine ⟨inside, fun member => ?_, fun member => ?_⟩
  · obtain ⟨j, low, same⟩ := List.mem_take_iff_getElem.mp member
    exact before j (by omega) (by rw [same]; rfl)
  · obtain ⟨j, low, same⟩ := List.mem_take_iff_getElem.mp member
    exact before j (by omega) (by rw [same]; rfl)

theorem head_of_begins {key line : Str} (filled : key ≠ []) (begins : key <+: line) : key.head? = line.head? := by
  obtain ⟨rest, rfl⟩ := begins
  rw [List.head?_append_of_ne_nil _ filled]

theorem last_of_ends {value line : Str} (filled : value ≠ []) (ends : value <:+ line) :
    value.getLast? = line.getLast? := by
  obtain ⟨front, rfl⟩ := ends
  rw [List.getLast?_append_of_ne_nil _ filled]

theorem plainKey_of_parse {line key : Str} {i : Nat} (plain : Plain line) (comment : isComment line = false)
    (parsed : parseKey line = some (key, i)) : PlainKey key ∧ key.head? = line.head? := by
  obtain ⟨rfl, positive, sign⟩ := parseKey_unquoted plain.double plain.back parsed
  obtain ⟨inside, equal, colon⟩ := indexAssign_some sign
  have front : ¬ whiteSpace.Leads (line.take i) := by
    rintro ⟨word, member, begins⟩
    exact plain.trimmed.front ⟨word, member, begins.trans (List.take_prefix ..)⟩
  have taken : line.take i ≠ [] := by
    rw [Ne, List.take_eq_nil_iff, not_or]
    exact ⟨Nat.ne_of_gt positive, fun empty => by rw [empty] at inside; cases inside⟩
  have filled : trimSpace (line.take i) ≠ [] := whiteSpace.trim_ne_nil front taken
  have inner : trimSpace (line.take i) <+: line.take i := by
    have shorter := whiteSpace.trim_front (line.take i)
    rwa [whiteSpace.strip_eq_self front] at shorter
  have begins := inner.trans (List.take_prefix i line)
  have head := head_of_begins filled begins
  refine ⟨⟨filled, fun member => plain.oneLine (begins.subset member), trimSpace_trimmed _,
    fun member => equal (inner.subset member), fun member => colon (inner.subset member), ?_⟩, head⟩
  rw [head]
  simp only [isComment, Bool.or_eq_false_iff, decide_eq_false_iff_not] at comment
  simp only [List.mem_cons, List.not_mem_nil, or_false, not_or]
  exact ⟨comment.1, comment.2, fun same => plain.double (List.mem_of_head? same),
    fun same => plain.back (List.mem_of_head? same)⟩

theorem value_of_parse {line value : Str} {i : Nat} (plain : Plain line)
    (parsed : parseValue (trimSpace (line.drop i)) = some value) :
    ValuePrintable value ∧ 0x60 ∉ value ∧ (value = [] ∨ value.getLast? = line.getLast?) := by
  have inside (b : UInt8) (member : b ∈ trimSpace (line.drop i)) : b ∈ line :=
    List.mem_of_mem_drop (whiteSpace.mem_of_mem_trim member)
  have back : 0x60 ∉ trimSpace (line.drop i) := fun member => plain.back (inside _ member)
  have double : 0x22 ∉ trimSpace (line.drop i) := fun member => plain.double (inside _ member)
  have noTriple : (trimSpace (line.drop i)).take 3 ≠ tripleQuote := fun same =>
    double (List.mem_of_mem_take (same ▸ (by decide : (0x22 : UInt8) ∈ tripleQuote)))
  have unquoted : valueQuote (trimSpace (line.drop i)) = [] := by
    rw [valueQuote, if_neg fun head => back (List.mem_of_head? head.2), if_neg fun triple => noTriple triple.2]
  rw [parseValue, unquoted] at parsed
  simp only [ne_eq, not_true_eq_false, if_false, Option.some.injEq] at parsed
  rw [trimSpace_eq (trimSpace_trimmed _)] at parsed
  subst parsed
  refine ⟨⟨fun member => plain.oneLine (inside _ member), fun member => absurd member back,
    fun _ => ⟨trimSpace_trimmed _, fun triple => noTriple triple.2⟩⟩, back, ?_⟩
  -- Nothing is cut off at the end, where the line has no white space.
  have noSpace := whiteSpace.not_trails_suffix plain.trimmed.back (List.drop_suffix i line)
  by_cases filled : trimSpace (line.drop i) = []
  · exact .inl filled
  · refine .inr (last_of_ends filled ?_)
    rw [trimSpace, whiteSpace.trim_of_not_trails noSpace]
    exact (whiteSpace.strip_suffix _).trans (List.drop_suffix i line)

theorem entry_of_parse {line key value : Str} (plain : Plain line) (parsed : Parses line (.assign key value)) :
    PlainKey key ∧ ValuePrintable value ∧
      (key.head? = some 0x5b → (ConfigFile.writtenValue value).getLast? ≠ some 0x5d) := by
  obtain ⟨comment, title, i, left, right⟩ := parsed
  obtain ⟨own, head⟩ := plainKey_of_parse plain comment left
  obtain ⟨printable, back, last⟩ := value_of_parse plain right
  refine ⟨own, printable, fun opens closes => ?_⟩
  rw [ConfigFile.writtenValue, if_neg back] at closes
  obtain rfl | same := last
  · cases closes
  · exact title ⟨head ▸ opens, same ▸ closes⟩

theorem header_of_parse {line name : Str} (plain : Plain line) (parsed : Parses line (.header name)) :
    Trimmed name ∧ 0x0a ∉ name := by
  rw [parsed.1]
  refine ⟨trimSpace_trimmed _, fun member => plain.oneLine ?_⟩
  exact List.mem_of_mem_drop (List.mem_of_mem_dropLast (whiteSpace.mem_of_mem_trim member))

/-! ## Numbers -/

theorem newline_mem_encodeChar {c : Char} (member : 0x0a ∈ String.utf8EncodeChar c) : c = '\n' := by
  by_cases ascii : c.val.toNat ≤ 127
  · unfold String.utf8EncodeChar at member
    dsimp only at member
    rw [if_pos ascii, List.mem_singleton] at member
    have value : 10 = c.val.toNat % 2 ^ 8 := (congrArg UInt8.toNat member).trans UInt8.toNat_ofNat'
    refine Char.ext (UInt32.toNat_inj.1 ?_)
    change c.val.toNat = 10
    omega
  · have high := encodeChar_high ascii _ member
    simp at high

theorem itoa_oneLine (n : Nat) : 0x0a ∉ itoa n := by
  intro member
  obtain ⟨c, among, here⟩ := List.mem_flatMap.1 member
  obtain rfl := newline_mem_encodeChar here
  have digits : '\n' ∈ Nat.toDigits 10 n := by
    rw [← Nat.toList_repr]
    exact among
  have digit := Nat.isDigit_of_mem_toDigits (by decide) le_rfl digits
  cases digit

theorem text_injective {s t : String} (same : text s = text t) : s = t := by
  have runes := congrArg Utf8.runes same
  rw [text, text, Utf8.runes_encode, Utf8.runes_encode] at runes
  exact String.toList_inj.mp (List.map_injective_iff.mpr (Option.some_injective _) runes)

def numberKey (n : Nat) : Str := text "#" ++ itoa n

theorem numberKey_injective {m n : Nat} (same : numberKey m = numberKey n) : m = n := by
  have numbers : toString m = toString n := text_injective (List.append_cancel_left same)
  have digits := congrArg (fun s : String => Nat.ofDigitChars 10 s.toList 0) numbers
  simpa using digits

theorem numberKey_head (n : Nat) : (numberKey n).head? = some 0x23 := rfl

theorem numberKey_printable (n : Nat) : KeyPrintable (numberKey n) where
  filled := by simp [numberKey, text, Utf8.encode]
  oneLine := List.not_mem_append (by decide) (itoa_oneLine n)
  quoted number := absurd (numberKey_head n) number
  plain number := absurd (numberKey_head n) number

/-- The counter of `read` behind these keys. -/
def countAfter (count : Nat) (keys : List Str) : Nat :=
  keys.foldl (fun count key => autoCount count (readKey key)) count

theorem numbered_append {count : Nat} {keys : List Str} (numbered : Numbered count keys) {key : Str}
    (next : key.head? = some 0x23 → key = numberKey (countAfter count keys)) : Numbered count (keys ++ [key]) := by
  induction keys generalizing count with
  | nil => exact ⟨next, trivial⟩
  | cons first rest ih => exact ⟨numbered.1, ih numbered.2 next⟩

theorem countAfter_append (count : Nat) (keys : List Str) (key : Str) :
    countAfter count (keys ++ [key]) = autoCount (countAfter count keys) (readKey key) := by
  rw [countAfter, List.foldl_append]
  rfl

theorem count_number {key : Str} (number : key.head? = some 0x23) (count : Nat) :
    autoCount count (readKey key) = count + 1 := by
  rw [readKey, if_pos number]
  rfl

theorem count_other {key : Str} (other : key.head? ≠ some 0x23) (minus : key ≠ text "-") (count : Nat) :
    autoCount count (readKey key) = count := by
  rw [readKey, if_neg other, autoCount, if_neg minus]

theorem number_mem {count i : Nat} {keys : List Str} (numbered : Numbered count keys)
    (proper : ∀ key ∈ keys, key ≠ text "-") (low : count ≤ i) (high : i < countAfter count keys) :
    numberKey i ∈ keys := by
  induction keys generalizing count with
  | nil => exact absurd high (Nat.not_lt.mpr low)
  | cons key rest ih =>
      have others : ∀ other ∈ rest, other ≠ text "-" :=
        fun other member => proper other (List.mem_cons_of_mem _ member)
      by_cases here : key = numberKey i
      · exact here ▸ List.mem_cons_self ..
      · refine List.mem_cons_of_mem _ (ih numbered.2 others ?_ high)
        by_cases number : key.head? = some 0x23
        · have differ : i ≠ count := fun same => here (same ▸ numbered.1 number)
          rw [count_number number]
          omega
        · rwa [count_other number (proper key (List.mem_cons_self ..))]

theorem le_countAfter (count : Nat) (keys : List Str) : count ≤ countAfter count keys := by
  induction keys generalizing count with
  | nil => exact le_rfl
  | cons key rest ih =>
      have step : count ≤ autoCount count (readKey key) := by
        rw [autoCount]
        split <;> omega
      exact step.trans (ih _)

theorem number_lt {count i : Nat} {keys : List Str} (numbered : Numbered count keys) (member : numberKey i ∈ keys) :
    i < countAfter count keys := by
  induction keys generalizing count with
  | nil => cases member
  | cons key rest ih =>
      obtain rfl | later := List.mem_cons.mp member
      · have same : i = count := numberKey_injective (numbered.1 (numberKey_head i))
        have next := le_countAfter (autoCount count (readKey (numberKey i))) rest
        rw [count_number (numberKey_head i)] at next
        rw [same]
        exact same ▸ next
      · exact ih numbered.2 later

/-! ## Sections -/

structure Clean (entry : Str × Str) : Prop where
  key : KeyPrintable entry.1
  value : ValuePrintable entry.2
  bracket : entry.1.head? = some 0x5b → (ConfigFile.writtenValue entry.2).getLast? ≠ some 0x5d

theorem ne_minus {key : Str} (printable : KeyPrintable key) : key ≠ text "-" := by
  rintro rfl
  exact (printable.plain (by decide) (by decide) (by decide)).2.1 rfl

/-- The key that `read` puts first below a title. -/
def keeper : Str × Str := (text " ", text " ")

structure Body (name : Str) (entries : Entries) : Prop where
  each : ∀ entry ∈ entries, Clean entry ∨ entry = keeper ∧ name ≠ DEFAULT_SECTION
  numbered : Numbered 1 (entries.map Prod.fst)

variable {name : Str} {entries : Entries}

theorem body_nil (name : Str) : Body name [] where
  each _ member := nomatch member
  numbered := trivial

theorem Body.proper (body : Body name entries) : ∀ key ∈ entries.map Prod.fst, key ≠ text "-" := by
  intro key member
  obtain ⟨entry, held, rfl⟩ := List.mem_map.mp member
  obtain clean | ⟨rfl, -⟩ := body.each entry held
  · exact ne_minus clean.key
  · decide

theorem Body.put (body : Body name entries) {key value : Str}
    (proper : Clean (key, value) ∨ (key, value) = keeper ∧ name ≠ DEFAULT_SECTION)
    (number : key.head? = some 0x23 → key ∉ entries.map Prod.fst →
      key = numberKey (countAfter 1 (entries.map Prod.fst))) : Body name (put key value entries) where
  each entry member := by
    obtain rfl | old := mem_put member
    · exact proper
    · exact body.each entry old
  numbered := by
    rw [names_put]
    split
    · exact body.numbered
    · next new => exact numbered_append body.numbered fun auto => number auto new

theorem clean_assign {key value : Str} (plain : PlainKey key) (printable : ValuePrintable value)
    (bracket : key.head? = some 0x5b → (ConfigFile.writtenValue value).getLast? ≠ some 0x5d) (count : Nat) :
    Clean (autoKey count key, value) := by
  rw [autoKey]
  split
  · refine ⟨numberKey_printable count, printable, fun head => ?_⟩
    cases (numberKey_head count).symm.trans head
  · next minus => exact ⟨plain.printable minus, printable, bracket⟩

theorem Body.assign (body : Body name entries) {count : Nat} {key value : Str} (plain : PlainKey key)
    (clean : Clean (autoKey count key, value)) (low : 1 ≤ count)
    (high : count ≤ countAfter 1 (entries.map Prod.fst)) :
    Body name (OrderedMap.put (autoKey count key) value entries) ∧ 1 ≤ autoCount count key ∧
      autoCount count key ≤ countAfter 1 ((OrderedMap.put (autoKey count key) value entries).map Prod.fst) := by
  rw [names_put]
  by_cases minus : key = text "-"
  · have name : autoKey count key = numberKey count := if_pos minus
    have next : autoCount count key = count + 1 := if_pos minus
    -- A number that is not there yet is the next one.
    have last (new : numberKey count ∉ entries.map Prod.fst) : count = countAfter 1 (entries.map Prod.fst) :=
      Nat.le_antisymm high (Nat.not_lt.mp fun less => new (number_mem body.numbered body.proper low less))
    rw [name] at clean
    rw [name, next]
    refine ⟨body.put (.inl clean) fun _ new => congrArg numberKey (last new), by omega, ?_⟩
    split
    · next there => exact number_lt body.numbered there
    · next new => rw [countAfter_append, count_number (numberKey_head count), ← last new]
  · have name : autoKey count key = key := if_neg minus
    have next : autoCount count key = count := if_neg minus
    rw [name] at clean
    rw [name, next]
    refine ⟨body.put (.inl clean) fun auto => absurd auto plain.number, low, ?_⟩
    split
    · exact high
    · rwa [countAfter_append, count_other plain.number minus]

structure Formed (part : Str × Entries) : Prop where
  filled : part.2 ≠ []
  body : Body part.1 part.2
  titled : part.1 ≠ DEFAULT_SECTION → Trimmed part.1 ∧ 0x0a ∉ part.1 ∧ part.2.head? = some keeper

theorem Formed.sectionPrintable {part : Str × Entries} (formed : Formed part) (title : part.1 ≠ DEFAULT_SECTION)
    (distinct : (part.2.map Prod.fst).Nodup) {c : ConfigFile}
    (sections : CommentPrintable (c.getSectionComments part.1))
    (keys : ∀ key, CommentPrintable (c.getKeyComments part.1 key)) : SectionPrintable c part := by
  obtain ⟨trimmed, oneLine, head⟩ := formed.titled title
  obtain ⟨rest, shape⟩ := List.head?_eq_some_iff.mp head
  have tail : part.2.tail = rest := by rw [shape]; rfl
  have numbered := formed.body.numbered
  rw [shape, List.map_cons, List.nodup_cons] at distinct
  rw [shape] at numbered
  refine ⟨title, trimmed, oneLine, sections, head, fun entry member => ?_, tail ▸ numbered.2⟩
  rw [tail] at member
  obtain clean | ⟨rfl, -⟩ := formed.body.each entry (shape ▸ List.mem_cons_of_mem _ member)
  · exact ⟨clean.key, clean.value, clean.bracket, keys entry.1⟩
  · exact absurd (List.mem_map_of_mem member) distinct.1

theorem Formed.defaultPrintable {part : Str × Entries} (formed : Formed part) (title : part.1 = DEFAULT_SECTION)
    {c : ConfigFile} (untitled : c.getSectionComments DEFAULT_SECTION = [])
    (keys : ∀ key, CommentPrintable (c.getKeyComments DEFAULT_SECTION key)) : DefaultPrintable c part.2 := by
  refine ⟨formed.filled, untitled, fun entry member => ?_, formed.body.numbered⟩
  obtain clean | ⟨-, other⟩ := formed.body.each entry member
  · exact ⟨clean.key, clean.value, clean.bracket, keys entry.1⟩
  · exact absurd title other

/-! ## Documents -/

structure Noted (c : ConfigFile) : Prop where
  sections : ∀ name, CommentPrintable (c.getSectionComments name)
  untitled : c.getSectionComments DEFAULT_SECTION = []
  keys : ∀ name key, CommentPrintable (c.getKeyComments name key)

variable {c : ConfigFile} {doc : Document} {r : Reading} {comments : Str}

theorem Noted.header (noted : Noted c) (printable : CommentPrintable comments) (filled : name ≠ [])
    (title : name ≠ DEFAULT_SECTION) (key value : Str) :
    Noted ((noteSection c name comments).setValue name key value).1 where
  sections other := by
    rw [getSectionComments_setValue, getSectionComments_note printable]
    split
    · exact printable
    · exact noted.sections other
  untitled := by
    have other : orDefault DEFAULT_SECTION ≠ orDefault name := by
      rw [orDefault, if_neg (by decide), orDefault, if_neg filled]
      exact title.symm
    rw [getSectionComments_setValue, getSectionComments_note printable, if_neg fun both => other both.1]
    exact noted.untitled
  keys other k := by
    rw [getKeyComments_setValue, getKeyComments_noteSection]
    exact noted.keys other k

theorem Noted.assign (noted : Noted c) (printable : CommentPrintable comments) (name key value : Str) :
    Noted (noteKey (c.setValue name key value).1 name key comments) where
  sections other := by
    rw [getSectionComments_noteKey, getSectionComments_setValue]
    exact noted.sections other
  untitled := by
    rw [getSectionComments_noteKey, getSectionComments_setValue]
    exact noted.untitled
  keys other k := by
    rw [getKeyComments_note printable, getKeyComments_setValue]
    split
    · exact printable
    · exact noted.keys other k

structure Neat (r : Reading) (doc : Document) : Prop where
  shown : Represents r.config doc
  noted : Noted r.config
  formed : ∀ part ∈ doc, Formed part
  first : DEFAULT_SECTION ∉ (doc.map Prod.fst).tail
  comments : CommentPrintable r.comments
  named : r.current ≠ []
  start : r.current = DEFAULT_SECTION → doc.map Prod.fst ⊆ [DEFAULT_SECTION]
  inside : r.current ≠ DEFAULT_SECTION → r.current ∈ doc.map Prod.fst
  low : 1 ≤ r.count
  high : r.count ≤ countAfter 1 ((doc.entries r.current).map Prod.fst)

theorem Neat.printable (neat : Neat r doc) : Printable r.config doc := by
  have titled (part : Str × Entries) (member : part ∈ doc) (title : part.1 ≠ DEFAULT_SECTION) :
      SectionPrintable r.config part :=
    (neat.formed part member).sectionPrintable title (partFormed neat.shown member).distinct
      (neat.noted.sections part.1) (neat.noted.keys part.1)
  have first := neat.first
  have formed := neat.formed
  cases doc with
  | nil => trivial
  | cons part rest =>
      refine ⟨?_, fun other member => titled other (List.mem_cons_of_mem _ member) fun same => first ?_⟩
      · by_cases title : part.1 = DEFAULT_SECTION
        · exact .inr ⟨title, (formed part (List.mem_cons_self ..)).defaultPrintable title neat.noted.untitled
            (neat.noted.keys DEFAULT_SECTION)⟩
        · exact .inl (titled part (List.mem_cons_self ..) title)
      · exact same ▸ List.mem_map_of_mem member

theorem entries_body (formed : ∀ part ∈ doc, Formed part) (filled : name ≠ []) : Body name (doc.entries name) := by
  by_cases there : name ∈ doc.map Prod.fst
  · exact (formed _ (entries_mem filled there)).body
  · rw [entries_nil filled there]
    exact body_nil name

theorem first_put (first : DEFAULT_SECTION ∉ (doc.map Prod.fst).tail)
    (only : name = DEFAULT_SECTION → doc.map Prod.fst ⊆ [DEFAULT_SECTION]) (entries : Entries) :
    DEFAULT_SECTION ∉ ((put name entries doc).map Prod.fst).tail := by
  rw [names_put]
  split
  · exact first
  · next new =>
      cases doc with
      | nil => exact List.not_mem_nil
      | cons part rest =>
          rw [List.map_cons, List.cons_append, List.tail_cons]
          refine List.not_mem_append first fun last => new ?_
          have same := List.mem_singleton.mp last
          have head := only same.symm (List.mem_cons_self ..)
          rw [← same, List.map_cons, List.mem_singleton.mp head]
          exact List.mem_cons_self ..

theorem Neat.comment (neat : Neat r doc) {line : Str} (plain : Plain line) (comment : isComment line = true) :
    Neat (r.item (.comment line)) doc := by
  refine { neat with comments := ?_ }
  simp only [Reading.item]
  split
  · intro _ other member
    rw [List.splitOn_eq_singleton plain.oneLine] at member
    rw [List.mem_singleton.mp member]
    exact ⟨plain.trimmed, comment⟩
  · next some =>
      intro _ other member
      rw [lineBreak, List.append_assoc, List.singleton_append, List.splitOn_append_cons_self,
        List.splitOn_eq_singleton plain.oneLine] at member
      obtain old | new := List.mem_append.mp member
      · exact neat.comments some other old
      · rw [List.mem_singleton.mp new]
        exact ⟨plain.trimmed, comment⟩

theorem Neat.header (neat : Neat r doc) (trimmed : Trimmed name) (oneLine : 0x0a ∉ name) (filled : name ≠ [])
    (title : name ≠ DEFAULT_SECTION) : Neat (r.item (.header name)) (doc.setValue name (text " ") (text " ")) := by
  have own : orDefault name = name := if_neg filled
  have set : doc.setValue name (text " ") (text " ") =
      put name (put (text " ") (text " ") (doc.entries name)) doc := by
    rw [Document.setValue, if_neg (by decide), own]
  have number : (text " ").head? ≠ some 0x23 := by decide
  have body := (entries_body neat.formed filled).put (.inr ⟨rfl, title⟩) fun auto => absurd auto number
  have head : (put (text " ") (text " ") (doc.entries name)).head? = some keeper := by
    by_cases there : name ∈ doc.map Prod.fst
    · obtain ⟨-, -, head⟩ := (neat.formed _ (entries_mem filled there)).titled title
      have shape : doc.entries name = keeper :: _ := (List.head?_eq_some_iff.mp head).choose_spec
      rw [shape]
      rfl
    · rw [entries_nil filled there]
      rfl
  rw [set]
  refine ⟨set ▸ setValue_represents (noteSection_represents neat.shown name r.comments) name (text " ") (text " "),
    neat.noted.header neat.comments filled title _ _, fun part member => ?_,
    first_put neat.first (fun same => absurd same title) _, fun none => absurd rfl none, filled,
    fun same => absurd same title, fun _ => ?_, le_rfl, le_countAfter _ _⟩
  · obtain rfl | old := mem_put member
    · exact ⟨put_ne_nil _ _ _, body, fun _ => ⟨trimmed, oneLine, head⟩⟩
    · exact neat.formed part old
  · exact (get_isSome _ name).mp (by rw [get_put, if_pos rfl]; rfl)

theorem Neat.assign (neat : Neat r doc) {key value : Str} (plain : PlainKey key) (printable : ValuePrintable value)
    (bracket : key.head? = some 0x5b → (ConfigFile.writtenValue value).getLast? ≠ some 0x5d) :
    Neat (r.item (.assign key value)) (doc.setValue r.current (autoKey r.count key) value) := by
  have own : orDefault r.current = r.current := if_neg neat.named
  have clean := clean_assign plain printable bracket r.count
  have set : doc.setValue r.current (autoKey r.count key) value =
      put r.current (put (autoKey r.count key) value (doc.entries r.current)) doc := by
    rw [Document.setValue, if_neg clean.key.filled, own]
  obtain ⟨body, low, high⟩ := (entries_body neat.formed neat.named).assign plain clean neat.low neat.high
  have formed : Formed (r.current, put (autoKey r.count key) value (doc.entries r.current)) := by
    refine ⟨put_ne_nil _ _ _, body, fun title => ?_⟩
    obtain ⟨trimmed, oneLine, head⟩ := (neat.formed _ (entries_mem neat.named (neat.inside title))).titled title
    exact ⟨trimmed, oneLine, head?_put head (not_blank clean.key).symm value⟩
  have names : (put r.current (put (autoKey r.count key) value (doc.entries r.current)) doc).map Prod.fst ⊆
      r.current :: doc.map Prod.fst := by
    rw [names_put]
    split
    · exact List.subset_cons_self _ _
    · simp
  rw [set]
  refine ⟨set ▸ noteKey_represents (setValue_represents neat.shown _ _ _) _ _ _, neat.noted.assign neat.comments _ _ _,
    fun part member => ?_, first_put neat.first neat.start _, fun none => absurd rfl none, neat.named, fun same => ?_,
    fun _ => ?_, low, ?_⟩
  · obtain rfl | old := mem_put member
    · exact formed
    · exact neat.formed part old
  · refine List.Subset.trans names (List.cons_subset.mpr ⟨?_, neat.start same⟩)
    exact List.mem_singleton.mpr same
  · exact (get_isSome _ r.current).mp (by rw [get_put, if_pos rfl]; rfl)
  · have stored : Document.entries (put r.current (put (autoKey r.count key) value (doc.entries r.current)) doc)
        r.current = put (autoKey r.count key) value (doc.entries r.current) := by
      conv_lhs => rw [Document.entries, own, get_put, if_pos rfl, Option.getD_some]
    rw [← stored] at high
    exact high

theorem plain_piece {content : Str} (double : 0x22 ∉ content) (back : 0x60 ∉ content) {piece : Str}
    (member : piece ∈ content.splitOn 0x0a) : Plain (trimSpace piece) where
  trimmed := trimSpace_trimmed piece
  double held := double (mem_of_mem_splitOn member (whiteSpace.mem_of_mem_trim held))
  back held := back (mem_of_mem_splitOn member (whiteSpace.mem_of_mem_trim held))
  oneLine held := not_mem_of_mem_splitOn member (whiteSpace.mem_of_mem_trim held)

theorem mem_pieces {content piece : Str} {fails : Option String} (member : piece ∈ pieces content fails) :
    ∃ lines, lines ⊆ content ∧ piece ∈ lines.splitOn 0x0a := by
  refine ⟨if bom.isPrefixOf content then content.drop 3 else content, ?_, ?_⟩
  · split
    · exact List.drop_subset 3 content
    · exact List.Subset.refl content
  · simp only [pieces] at member
    split at member
    · exact List.mem_of_mem_dropLast member
    · exact member

theorem neat_lines (pieces : List Str) (plain : ∀ piece ∈ pieces, Plain (trimSpace piece))
    (titles : ∀ piece ∈ pieces, ∀ name ∈ [[], DEFAULT_SECTION],
      parseLine DEFAULT_SECTION (trimSpace piece) ≠ .ok (.header name)) (r : Reading) (doc : Document)
    (neat : Neat r doc) :
    ∃ r', (Reading.lines pieces r).1 = r'.config ∧
      Neat r' ((settings pieces r.count r.current).foldl Document.set doc) := by
  induction pieces generalizing r doc with
  | nil => exact ⟨r, rfl, neat⟩
  | cons piece rest ih =>
      have next := ih (fun other member => plain other (List.mem_cons_of_mem _ member))
        fun other member => titles other (List.mem_cons_of_mem _ member)
      have own := plain piece (List.mem_cons_self ..)
      rw [Reading.lines, settings]
      cases parsed : parseLine r.current (trimSpace piece) with
      | error err => exact ⟨r, rfl, neat⟩
      | ok item =>
          have line := parses parsed
          cases item with
          | blank => exact next r doc neat
          | comment comment =>
              obtain ⟨rfl, sign⟩ := line
              exact next _ doc (neat.comment own sign)
          | header name =>
              obtain ⟨trimmed, oneLine⟩ := header_of_parse own line
              have title := titles piece (List.mem_cons_self ..)
              have filled : name ≠ [] := fun same =>
                title [] (List.mem_cons_self ..) (same ▸ line.2 DEFAULT_SECTION)
              have other : name ≠ DEFAULT_SECTION := fun same =>
                title DEFAULT_SECTION (List.mem_cons_of_mem _ (List.mem_cons_self ..)) (by rw [line.2, same])
              exact next _ _ (neat.header trimmed oneLine filled other)
          | assign key value =>
              obtain ⟨plainKey, printable, bracket⟩ := entry_of_parse own line
              exact next _ _ (neat.assign plainKey printable bracket)

theorem noted_new (names : List Str) : Noted (newConfigFile names) where
  sections _ filled := absurd rfl filled
  untitled := rfl
  keys _ _ filled := absurd rfl filled

theorem neat_new (names : List Str) : Neat { config := newConfigFile names } [] where
  shown := represents_new names
  noted := noted_new names
  formed _ member := nomatch member
  first := List.not_mem_nil
  comments filled := absurd rfl filled
  named := (by decide : DEFAULT_SECTION ≠ [])
  start _ := List.nil_subset _
  inside other := absurd rfl other
  low := le_rfl
  high := le_rfl

theorem SameAs.saved {c' : ConfigFile} (same : SameAs c c' doc) (shown : Represents c doc) :
    c'.saveConfigData = c.saveConfigData := by
  have again : Represents c' doc := by
    obtain ⟨sections, absent, named, keyed⟩ := shown
    refine ⟨?_, ?_, ?_, ?_⟩
    · rw [same.data, same.sectionList]
      have holds : KeysHold c' = KeysHold c := by
        funext name keys entries
        rw [KeysHold, KeysHold, same.keyList]
      rwa [holds]
    · rwa [same.data, same.keyList]
    · rwa [same.sectionList]
    · rwa [same.keyList]
  have lines : doc.flatMap (sectionLines c') = doc.flatMap (sectionLines c) := by
    refine List.flatMap_congr fun part member => ?_
    have entries : part.2.flatMap (entryLines c' part.1) = part.2.flatMap (entryLines c part.1) := by
      refine List.flatMap_congr fun entry held => ?_
      rw [entryLines, entryLines]
      split
      · rfl
      · next proper => rw [same.keyComments part member entry held proper]
    rw [sectionLines, sectionLines, same.sectionComments part member, entries]
  rw [save_lines again, save_lines shown, lines]

/-- What is read from a text without quotes and without a title for the DEFAULT section, wherever an error ends
it, is saved as a text from which the same is read. That text is saved again. -/
theorem saved_stable (names : List Str) {content : Str} (fails : Option String) (double : 0x22 ∉ content)
    (back : 0x60 ∉ content)
    (titles : ∀ piece ∈ pieces content fails, ∀ name ∈ [[], DEFAULT_SECTION],
      parseLine DEFAULT_SECTION (trimSpace piece) ≠ .ok (.header name)) {c : ConfigFile}
    (read : ((newConfigFile names).read content fails).1 = c) {bytes : Str} (saved : c.saveConfigData = .ok bytes)
    (unmarked : ¬ bom <+: bytes) (fileNames : List Str) :
    ∃ c', (newConfigFile fileNames).read bytes none = (c', none) ∧
      SameAs c c' (Document.apply [] (.read content fails)) ∧ c'.saveConfigData = .ok bytes := by
  have plain : ∀ piece ∈ pieces content fails, Plain (trimSpace piece) := fun piece member => by
    obtain ⟨lines, whole, listed⟩ := mem_pieces member
    exact plain_piece (fun held => double (whole held)) (fun held => back (whole held)) listed
  obtain ⟨r, config, neat⟩ := neat_lines (pieces content fails) plain titles _ _ (neat_new names)
  rw [read_config, config] at read
  subst read
  obtain ⟨c', again, same⟩ := read_saved neat.shown neat.printable saved unmarked fileNames
  exact ⟨c', again, same, (SameAs.saved same neat.shown).trans saved⟩

/-- Numbers, a section that is opened twice, comments and a line that cannot be read. -/
def mixedText : Str :=
  text "# top\n- = one\nlevel : 5\n\n[xrpc.signaling]\nserver=a:1,b:2 \n- = x\n; more\n[t]\n[ xrpc.signaling ]\n- = y\n- = z\nbroken"

theorem saved_stable_mixed : ∃ bytes c', ((newConfigFile []).read mixedText none).1.saveConfigData = .ok bytes ∧
    (newConfigFile []).read bytes none = (c', none) ∧ c'.saveConfigData = .ok bytes := by
  obtain ⟨bytes, saved⟩ := (read_represents [] mixedText none).saved
  have shape := save_lines (read_represents [] mixedText none)
  have unmarked : ¬ bom <+: bytes := by
    rw [← Except.ok.inj (saved.symm.trans shape).symm]
    decide +kernel
  obtain ⟨c', again, -, fixed⟩ := saved_stable [] none (by decide +kernel) (by decide +kernel)
    (by decide +kernel) rfl saved
    unmarked []
  exact ⟨bytes, c', saved, again, fixed⟩

end Xrtc.Proof.ConfigStable
