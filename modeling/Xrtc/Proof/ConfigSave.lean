import Xrtc.Proof.ConfigFile
import Xrtc.Proof.ConfigLine

/-!
# Saving a configuration and reading it again
-/

namespace Xrtc.Proof.ConfigSave
open Go Lib Lib.Strings Lib.OrderedMap Lib.Printf ConfigFile ConfigLine

/-! ## The lines that are saved -/

def commentLines (comments : Str) : List Str := if comments = [] then [] else comments.splitOn 0x0a

def nameIn (key : Str) : Str := (ConfigFile.writtenKey key).toOption.getD []

def entryLines (c : ConfigFile) (name : Str) (entry : Str × Str) : List Str :=
  if entry.1 = text " " then []
  else commentLines (c.getKeyComments name entry.1) ++ [keyLine (nameIn entry.1) entry.2]

def titleLines (name : Str) : List Str :=
  if name = DEFAULT_SECTION then [] else [text "[" ++ name ++ text "]"]

def sectionLines (c : ConfigFile) (part : Str × Entries) : List Str :=
  commentLines (c.getSectionComments part.1) ++ titleLines part.1 ++
    part.2.flatMap (entryLines c part.1) ++ [[]]

abbrev textOf (lines : List Str) : Str := unlines 0x0a lines

theorem textOf_append (front back : List Str) : textOf (front ++ back) = textOf front ++ textOf back :=
  List.flatMap_append

theorem saveComments_lines (comments : Str) : ConfigFile.saveComments comments = textOf (commentLines comments) := by
  rw [ConfigFile.saveComments, commentLines]
  split
  · rfl
  · exact (unlines_splitOn 0x0a comments).symm

theorem mapM_map_ok {α β γ ε : Type} {f : β → Except ε γ} {h : α → β} {g : α → γ} {list : List α}
    (all : ∀ a ∈ list, f (h a) = .ok (g a)) : (list.map h).mapM f = .ok (list.map g) := by
  induction list with
  | nil => rfl
  | cons a rest ih =>
      rw [List.map_cons, List.mapM_cons, all a (List.mem_cons_self ..),
        ih fun other member => all other (List.mem_cons_of_mem _ member)]
      rfl

variable {c : ConfigFile} {doc : Document}

theorem saveKey_lines (shown : Represents c doc) {name : Str} {entries : Entries} (part : (name, entries) ∈ doc)
    (entry : Str × Str) (member : entry ∈ entries) :
    c.saveKey name entry.1 = .ok (textOf (entryLines c name entry)) := by
  obtain ⟨-, listed, -, keys, data, values⟩ := shown.part part
  have filled : entry.1 ≠ [] := shown.keyed name entry.1 (listed ▸ List.mem_map_of_mem member)
  obtain ⟨written, stands⟩ := writtenKey_ok filled
  have value : ((c.data name).bind (· entry.1)).getD [] = entry.2 := by
    rw [data, Option.bind_some, values entry member, Option.getD_some]
  rw [ConfigFile.saveKey, entryLines]
  split
  · rfl
  · rw [textOf_append, ← saveComments_lines, stands, value, nameIn, stands]
    simp [keyLine, unlines, lineBreak, Except.toOption, bind, Except.bind]

theorem flatten_map_textOf {α : Type} (lines : α → List Str) (list : List α) :
    (list.map fun a => textOf (lines a)).flatten = textOf (list.flatMap lines) := by
  rw [← List.flatMap_def, textOf, unlines, List.flatMap_assoc]
  rfl

theorem save_lines (shown : Represents c doc) :
    c.saveConfigData = .ok (textOf (doc.flatMap (sectionLines c))) := by
  have saved (part : Str × Entries) (member : part ∈ doc) :
      c.saveSection part.1 = .ok (textOf (sectionLines c part)) := by
    have listed := (shown.part member).2.1
    have keys := mapM_map_ok (saveKey_lines shown member)
    rw [ConfigFile.saveSection, listed, keys]
    simp only [bind, Except.bind]
    rw [flatten_map_textOf, sectionLines, textOf_append, textOf_append, textOf_append, ← saveComments_lines, titleLines]
    split
    · rfl
    · simp [unlines, lineBreak]
  rw [ConfigFile.saveConfigData, ← shown.sections.names, mapM_map_ok saved]
  simp only [bind, Except.bind]
  rw [flatten_map_textOf]

/-! ## Reading lines without an error -/

def Runs (lines : List Str) (r r' : Reading) : Prop :=
  ∀ rest, Reading.lines (lines ++ rest) r = Reading.lines rest r'

theorem runs_nil (r : Reading) : Runs [] r r := fun _ => rfl

theorem Runs.append {front back : List Str} {r r' last : Reading} (first : Runs front r r')
    (second : Runs back r' last) : Runs (front ++ back) r last := fun rest => by
  rw [List.append_assoc, first, second]

theorem runs_line {r : Reading} {line : Str} {item : Item}
    (parsed : parseLine r.current (trimSpace line) = .ok item) : Runs [line] r (r.item item) := fun rest => by
  rw [List.singleton_append, Reading.lines, parsed]

/-- Every line of the comments is one. -/
def CommentPrintable (comments : Str) : Prop :=
  comments ≠ [] → ∀ line ∈ comments.splitOn 0x0a, Trimmed line ∧ isComment line = true
  deriving Decidable

theorem runs_more_comments {lines : List Str} (printable : ∀ line ∈ lines, Trimmed line ∧ isComment line = true)
    (r : Reading) (some : r.comments ≠ []) :
    Runs lines r { r with comments := r.comments ++ lines.flatMap (0x0a :: ·) } := by
  induction lines generalizing r with
  | nil =>
      rw [List.flatMap_nil, List.append_nil]
      exact runs_nil r
  | cons line rest ih =>
      obtain ⟨trimmed, comment⟩ := printable line (List.mem_cons_self ..)
      have first : Runs [line] r { r with comments := r.comments ++ lineBreak ++ line } := by
        have read := runs_line (r := r) (parseLine_comment trimmed comment r.current)
        rwa [Reading.item, if_neg some] at read
      have others := ih (fun other member => printable other (List.mem_cons_of_mem _ member))
        { r with comments := r.comments ++ lineBreak ++ line } (by simp [some])
      have both := first.append others
      simpa [lineBreak] using both

theorem splitOn_cons (comments : Str) : ∃ first rest, comments.splitOn 0x0a = first :: rest ∧
    comments = first ++ rest.flatMap (0x0a :: ·) := by
  cases pieces : comments.splitOn 0x0a with
  | nil => exact absurd pieces (List.splitOn_ne_nil _ _)
  | cons first rest =>
      refine ⟨first, rest, rfl, ?_⟩
      rw [← intercalate_cons, ← pieces, List.intercalate_splitOn]

theorem runs_comments {comments : Str} (printable : CommentPrintable comments) (r : Reading)
    (none : r.comments = []) : Runs (commentLines comments) r { r with comments := comments } := by
  by_cases empty : comments = []
  · rw [commentLines, if_pos empty, empty, ← none]
    exact runs_nil r
  · obtain ⟨first, rest, pieces, whole⟩ := splitOn_cons comments
    have lines := printable empty
    rw [pieces] at lines
    obtain ⟨trimmed, comment⟩ := lines first (List.mem_cons_self ..)
    have filled : first ≠ [] := by
      rintro rfl
      cases comment
    have start : Runs [first] r { r with comments := first } := by
      have read := runs_line (r := r) (parseLine_comment trimmed comment r.current)
      rwa [Reading.item, if_pos none] at read
    have others := runs_more_comments (fun line member => lines line (List.mem_cons_of_mem _ member))
      { r with comments := first } filled
    rw [commentLines, if_neg empty, pieces, whole]
    exact start.append others

theorem asComment_eq {comments : Str} (printable : CommentPrintable comments) (filled : comments ≠ []) :
    asComment comments = comments := by
  obtain ⟨first, rest, pieces, whole⟩ := splitOn_cons comments
  obtain ⟨-, comment⟩ := printable filled first (pieces ▸ List.mem_cons_self ..)
  refine if_pos ?_
  cases first with
  | nil => cases comment
  | cons b more =>
      rw [whole]
      exact comment

/-! ## The comments of the store -/

theorem setValue_comments (c : ConfigFile) (name key value : Str) :
    (c.setValue name key value).1.sectionComments = c.sectionComments ∧
      (c.setValue name key value).1.keyComments = c.keyComments := by
  by_cases filled : key = []
  · rw [ConfigFile.setValue, if_pos filled]
    exact ⟨rfl, rfl⟩
  · rw [(setValue_fields filled c name value).1]
    exact ⟨rfl, rfl⟩

theorem getSectionComments_setValue (c : ConfigFile) (name key value other : Str) :
    (c.setValue name key value).1.getSectionComments other = c.getSectionComments other := by
  rw [ConfigFile.getSectionComments, (setValue_comments c name key value).1, ConfigFile.getSectionComments]

theorem getKeyComments_setValue (c : ConfigFile) (name key value other k : Str) :
    (c.setValue name key value).1.getKeyComments other k = c.getKeyComments other k := by
  rw [ConfigFile.getKeyComments, (setValue_comments c name key value).2, ConfigFile.getKeyComments]

def noteSection (c : ConfigFile) (name comments : Str) : ConfigFile :=
  if comments = [] then c else (c.setSectionComments name comments).1

def noteKey (c : ConfigFile) (name key comments : Str) : ConfigFile :=
  if comments = [] then c else (c.setKeyComments name key comments).1

theorem getSectionComments_note {comments : Str} (printable : CommentPrintable comments) (c : ConfigFile)
    (name other : Str) :
    (noteSection c name comments).getSectionComments other =
      if orDefault other = orDefault name ∧ comments ≠ [] then comments else c.getSectionComments other := by
  rw [noteSection]
  by_cases empty : comments = []
  · rw [if_pos empty, if_neg fun both => both.2 empty]
  · rw [if_neg empty, ConfigFile.setSectionComments, if_neg empty, ConfigFile.getSectionComments]
    by_cases same : orDefault other = orDefault name
    · simp only [same, Function.update_self, Option.getD_some, asComment_eq printable empty, ne_eq, empty,
        not_false_eq_true, and_self, if_true]
    · simp only [same, false_and, if_false, Function.update_of_ne same, ConfigFile.getSectionComments]

theorem getKeyComments_note {comments : Str} (printable : CommentPrintable comments) (c : ConfigFile)
    (name key other k : Str) :
    (noteKey c name key comments).getKeyComments other k =
      if (orDefault other = orDefault name ∧ k = key) ∧ comments ≠ [] then comments
      else c.getKeyComments other k := by
  rw [noteKey]
  by_cases empty : comments = []
  · rw [if_pos empty, if_neg fun both => both.2 empty]
  · rw [if_neg empty, ConfigFile.setKeyComments, if_neg empty, ConfigFile.getKeyComments]
    by_cases same : orDefault other = orDefault name
    · by_cases here : k = key
      · simp only [same, here, Function.update_self, Option.getD_some, asComment_eq printable empty, ne_eq, empty,
          not_false_eq_true, and_self, if_true]
      · simp only [same, Function.update_self, Function.update_of_ne here, here, and_false, false_and, if_false,
          ConfigFile.getKeyComments]
        cases c.keyComments (orDefault name) <;> rfl
    · simp only [Function.update_of_ne same, same, false_and, if_false, ConfigFile.getKeyComments]

theorem noteSection_represents (shown : Represents c doc) (name comments : Str) :
    Represents (noteSection c name comments) doc := by
  rw [noteSection]
  split
  · exact shown
  · exact setSectionComments_represents shown name comments

theorem noteKey_represents (shown : Represents c doc) (name key comments : Str) :
    Represents (noteKey c name key comments) doc := by
  rw [noteKey]
  split
  · exact shown
  · exact setKeyComments_represents shown name key comments

theorem getKeyComments_noteSection (c : ConfigFile) (name comments other k : Str) :
    (noteSection c name comments).getKeyComments other k = c.getKeyComments other k := by
  rw [noteSection]
  split
  · rfl
  · obtain ⟨sectionComments, changed⟩ := setSectionComments_fields c name comments
    rw [changed]
    rfl

theorem getSectionComments_noteKey (c : ConfigFile) (name key comments other : Str) :
    (noteKey c name key comments).getSectionComments other = c.getSectionComments other := by
  rw [noteKey]
  split
  · rfl
  · obtain ⟨keyComments, changed⟩ := setKeyComments_fields c name key comments
    rw [changed]
    rfl

/-! ## One entry -/

@[mk_iff]
structure EntryPrintable (c : ConfigFile) (name : Str) (entry : Str × Str) : Prop where
  key : KeyPrintable entry.1
  value : ValuePrintable entry.2
  bracket : entry.1.head? = some 0x5b → (ConfigFile.writtenValue entry.2).getLast? ≠ some 0x5d
  comment : CommentPrintable (c.getKeyComments name entry.1)

instance (c : ConfigFile) (name : Str) (entry : Str × Str) : Decidable (EntryPrintable c name entry) :=
  decidable_of_iff' _ (entryPrintable_iff c name entry)

/-- The keys that begin with `#` are the numbers from `count` on, in their order. -/
def Numbered : (count : Nat) → List Str → Prop
  | _, [] => True
  | count, key :: rest =>
      (key.head? = some 0x23 → key = text "#" ++ itoa count) ∧ Numbered (autoCount count (readKey key)) rest

instance decidableNumbered : (count : Nat) → (keys : List Str) → Decidable (Numbered count keys)
  | _, [] => isTrue trivial
  | count, key :: rest =>
      have := decidableNumbered (autoCount count (readKey key)) rest
      inferInstanceAs (Decidable ((key.head? = some 0x23 → key = text "#" ++ itoa count) ∧
        Numbered (autoCount count (readKey key)) rest))

theorem not_blank {key : Str} (printable : KeyPrintable key) : key ≠ text " " := by
  rintro rfl
  obtain ⟨trimmed, -⟩ := printable.plain (by decide) (by decide) (by decide)
  exact trimmed.front (by decide +kernel)

theorem autoKey_readKey {key : Str} (printable : KeyPrintable key) {count : Nat}
    (number : key.head? = some 0x23 → key = text "#" ++ itoa count) : autoKey count (readKey key) = key := by
  rw [readKey]
  split
  · next auto => rw [autoKey, if_pos rfl, ← number auto]
  · next plain =>
      refine if_neg fun minus => ?_
      rw [minus] at printable
      exact (printable.plain (by decide) (by decide) (by decide)).2.1 rfl

theorem nameIn_eq {key written : Str} (stands : Written key written) : nameIn key = written := by
  rw [nameIn, stands.stands]
  rfl

theorem runs_entry {name : Str} {entry : Str × Str} (printable : EntryPrintable c name entry) (r : Reading)
    (number : entry.1.head? = some 0x23 → entry.1 = text "#" ++ itoa r.count) (inside : r.current ≠ [])
    (none : r.comments = []) :
    Runs (entryLines c name entry) r
      { r with
        config := noteKey (r.config.setValue r.current entry.1 entry.2).1 r.current entry.1
          (c.getKeyComments name entry.1)
        count := autoCount r.count (readKey entry.1) } := by
  obtain ⟨written, stands⟩ := exists_written printable.key
  have comments := runs_comments printable.comment r none
  have key : Runs [keyLine written entry.2] { r with comments := c.getKeyComments name entry.1 } _ :=
    runs_line (parseLine_key stands printable.value inside printable.bracket)
  have both := comments.append key
  rw [Reading.item] at both
  simp only [autoKey_readKey printable.key number] at both
  rw [entryLines, if_neg (not_blank printable.key), nameIn_eq stands, noteKey, none]
  exact both

theorem entryLines_oneLine {name : Str} {entry : Str × Str} (printable : EntryPrintable c name entry) :
    ∀ line ∈ entryLines c name entry, 0x0a ∉ line := by
  obtain ⟨written, stands⟩ := exists_written printable.key
  have sign : 0x0a ∉ text " = " := by decide
  have value := writtenValue_oneLine printable.value.oneLine
  rw [entryLines, if_neg (not_blank printable.key), nameIn_eq stands, commentLines]
  intro line member
  obtain comment | key := List.mem_append.mp member
  · split at comment
    · cases comment
    · exact not_mem_of_mem_splitOn comment
  · rw [List.mem_singleton.mp key, keyLine]
    simp [stands.oneLine, sign, value]

/-! ## The copy -/

theorem value_setValue {key : Str} (filled : key ≠ []) (doc : Document) (name value other k : Str) :
    (doc.setValue name key value).value other k =
      if orDefault other = orDefault name ∧ k = key then some value else doc.value other k := by
  rw [Document.setValue, if_neg filled, Document.value, Document.entries, get_put]
  by_cases same : orDefault other = orDefault name
  · rw [if_pos same, Option.getD_some, get_put, Document.value, Document.entries, Document.entries, same]
    simp
  · rw [if_neg same, if_neg fun both => same both.1]
    rfl

theorem mem_names_setValue {key : Str} (filled : key ≠ []) (doc : Document) (name value other : Str) :
    other ∈ (doc.setValue name key value).map Prod.fst ↔ other ∈ doc.map Prod.fst ∨ other = orDefault name := by
  rw [Document.setValue, if_neg filled, ← get_isSome, ← get_isSome, get_put]
  by_cases same : other = orDefault name
  · simp [same]
  · simp [same]

/-- The second store has the document and, as far as it goes, the comments of the first. -/
structure Copied (c c' : ConfigFile) (doc : Document) : Prop where
  represents : Represents c' doc
  sections : ∀ name ≠ [], c'.getSectionComments name =
    if name ∈ doc.map Prod.fst then c.getSectionComments name else []
  keys : ∀ name ≠ [], ∀ key, c'.getKeyComments name key =
    if (doc.value name key).isSome ∧ key ≠ text " " then c.getKeyComments name key else []

variable {c' : ConfigFile}

theorem copied_header (copied : Copied c c' doc) {name : Str} (filled : name ≠ []) (new : name ∉ doc.map Prod.fst)
    (printable : CommentPrintable (c.getSectionComments name)) :
    Copied c ((noteSection c' name (c.getSectionComments name)).setValue name (text " ") (text " ")).1
      (doc.setValue name (text " ") (text " ")) := by
  have own : orDefault name = name := if_neg filled
  have space : text " " ≠ [] := by decide
  refine ⟨setValue_represents (noteSection_represents copied.represents _ _) _ _ _, fun other named => ?_,
    fun other named key => ?_⟩
  · have same : orDefault other = other := if_neg named
    simp only [getSectionComments_setValue, getSectionComments_note printable, mem_names_setValue space, own, same,
      copied.sections other named]
    by_cases here : other = name
    · subst here
      by_cases empty : c.getSectionComments other = [] <;> simp [empty, new]
    · rw [if_neg fun both => here both.1]
      exact if_congr (or_iff_left here).symm rfl rfl
  · rw [getKeyComments_setValue, getKeyComments_noteSection, copied.keys other named, value_setValue space]
    by_cases blank : key = text " "
    · simp [blank]
    · simp [blank]

theorem copied_entry (copied : Copied c c' doc) {name key : Str} (named : name ≠ []) (filled : key ≠ [])
    (proper : key ≠ text " ") (new : doc.value name key = none)
    (titled : name ∈ doc.map Prod.fst ∨ c.getSectionComments name = [])
    (printable : CommentPrintable (c.getKeyComments name key)) (value : Str) :
    Copied c (noteKey (c'.setValue name key value).1 name key (c.getKeyComments name key))
      (doc.setValue name key value) := by
  have own : orDefault name = name := if_neg named
  refine ⟨noteKey_represents (setValue_represents copied.represents _ _ _) _ _ _, fun other filledName => ?_,
    fun other filledName k => ?_⟩
  · simp only [getSectionComments_noteKey, getSectionComments_setValue, copied.sections other filledName,
      mem_names_setValue filled, own]
    by_cases here : other = name
    · subst here
      obtain there | empty := titled
      · simp [there]
      · simp [empty]
    · exact if_congr (or_iff_left here).symm rfl rfl
  · have same : orDefault other = other := if_neg filledName
    rw [getKeyComments_note printable, getKeyComments_setValue, copied.keys other filledName, value_setValue filled,
      own, same]
    by_cases here : other = name ∧ k = key
    · obtain ⟨rfl, rfl⟩ := here
      by_cases empty : c.getKeyComments other k = [] <;> simp [empty, new, proper]
    · rw [if_neg fun both => here both.1, if_neg here]

/-! ## Sections -/

def setAll (name : Str) (doc : Document) (entries : Entries) : Document :=
  entries.foldl (fun doc entry => doc.setValue name entry.1 entry.2) doc

theorem runs_entries {name : Str} (named : name ≠ []) (entries : Entries) : ∀ (r : Reading) (doc : Document),
    Copied c r.config doc → r.current = name → r.comments = [] → (∀ entry ∈ entries, EntryPrintable c name entry) →
    Numbered r.count (entries.map Prod.fst) → (entries.map Prod.fst).Nodup →
    (∀ entry ∈ entries, doc.value name entry.1 = none) →
    (name ∈ doc.map Prod.fst ∨ c.getSectionComments name = []) →
    ∃ r', Runs (entries.flatMap (entryLines c name)) r r' ∧ Copied c r'.config (setAll name doc entries) ∧
      r'.comments = [] := by
  induction entries with
  | nil => exact fun r doc copied _ none _ _ _ _ _ => ⟨r, runs_nil r, copied, none⟩
  | cons entry rest ih =>
      rintro r doc copied rfl none printable numbered distinct new titled
      rw [List.map_cons, List.nodup_cons] at distinct
      have own := printable entry (List.mem_cons_self ..)
      have first := runs_entry own r numbered.1 named none
      have next := copied_entry copied named own.key.filled (not_blank own.key) (new entry (List.mem_cons_self ..))
        titled own.comment entry.2
      have absent : ∀ other ∈ rest, (doc.setValue r.current entry.1 entry.2).value r.current other.1 = Option.none :=
        fun other member => by
          have differ : other.1 ≠ entry.1 := fun same => distinct.1 (same ▸ List.mem_map_of_mem member)
          rw [value_setValue own.key.filled, if_neg fun both => differ both.2]
          exact new other (List.mem_cons_of_mem _ member)
      have there := titled.imp_left fun held =>
        (mem_names_setValue own.key.filled doc r.current entry.2 _).mpr (.inl held)
      obtain ⟨r', others, whole, last⟩ := ih
        { r with
          config := noteKey (r.config.setValue r.current entry.1 entry.2).1 r.current entry.1
            (c.getKeyComments r.current entry.1)
          count := autoCount r.count (readKey entry.1) }
        _ next rfl none (fun other member => printable other (List.mem_cons_of_mem _ member)) numbered.2 distinct.2
        absent there
      exact ⟨r', first.append others, whole, last⟩

/-- A section with a title that can be written: its first key is the one that `read` puts there. -/
@[mk_iff]
structure SectionPrintable (c : ConfigFile) (part : Str × Entries) : Prop where
  title : part.1 ≠ DEFAULT_SECTION
  trimmed : Trimmed part.1
  oneLine : 0x0a ∉ part.1
  comment : CommentPrintable (c.getSectionComments part.1)
  keeper : part.2.head? = some (text " ", text " ")
  each : ∀ entry ∈ part.2.tail, EntryPrintable c part.1 entry
  numbered : Numbered 1 (part.2.tail.map Prod.fst)

/-- The DEFAULT section is written without a title, so it has to have keys and no comments. -/
@[mk_iff]
structure DefaultPrintable (c : ConfigFile) (entries : Entries) : Prop where
  filled : entries ≠ []
  comment : c.getSectionComments DEFAULT_SECTION = []
  each : ∀ entry ∈ entries, EntryPrintable c DEFAULT_SECTION entry
  numbered : Numbered 1 (entries.map Prod.fst)

instance (c : ConfigFile) (part : Str × Entries) : Decidable (SectionPrintable c part) :=
  decidable_of_iff' _ (sectionPrintable_iff c part)

instance (c : ConfigFile) (entries : Entries) : Decidable (DefaultPrintable c entries) :=
  decidable_of_iff' _ (defaultPrintable_iff c entries)

theorem runs_blank (r : Reading) : Runs [[]] r r := runs_line (parseLine_blank r.current)

theorem runs_section {part : Str × Entries} (printable : SectionPrintable c part) (named : part.1 ≠ [])
    (distinct : (part.2.map Prod.fst).Nodup) (r : Reading) (copied : Copied c r.config doc) (none : r.comments = [])
    (new : part.1 ∉ doc.map Prod.fst) :
    ∃ r', Runs (sectionLines c part) r r' ∧ Copied c r'.config (setAll part.1 doc part.2) ∧ r'.comments = [] := by
  obtain ⟨rest, shape⟩ := List.head?_eq_some_iff.mp printable.keeper
  have tail : part.2.tail = rest := by rw [shape]; rfl
  have space : text " " ≠ [] := by decide
  have each := printable.each
  have numbered := printable.numbered
  rw [tail] at each numbered
  rw [shape, List.map_cons, List.nodup_cons] at distinct
  have comments := runs_comments printable.comment r none
  have header : Runs [text "[" ++ part.1 ++ text "]"] { r with comments := c.getSectionComments part.1 } _ :=
    runs_line (parseLine_header printable.trimmed _)
  have next := copied_header copied named new printable.comment
  have absent : ∀ entry ∈ rest,
      (doc.setValue part.1 (text " ") (text " ")).value part.1 entry.1 = Option.none := fun entry member => by
    have other : entry.1 ≠ text " " := fun same =>
      distinct.1 (List.mem_map.mpr ⟨entry, member, same⟩)
    rw [value_setValue space, if_neg fun both => other both.2, Document.value, Document.entries]
    have own : orDefault part.1 = part.1 := if_neg named
    rw [own, get_eq_none new]
    rfl
  obtain ⟨r', others, whole, last⟩ := runs_entries named rest
    (Reading.item { r with comments := c.getSectionComments part.1 } (.header part.1)) _ next rfl rfl each numbered
    distinct.2 absent (.inl ((mem_names_setValue space ..).mpr (.inr (if_neg named).symm)))
  refine ⟨r', ?_, ?_, last⟩
  · rw [sectionLines, titleLines, if_neg printable.title, shape, List.flatMap_cons, entryLines, if_pos rfl,
      List.nil_append]
    exact ((comments.append header).append others).append (runs_blank r')
  · rw [shape]
    exact whole

/-! ## Documents -/

theorem setValue_last {front : Document} {name key : Str} (named : name ≠ []) (filled : key ≠ [])
    (absent : name ∉ front.map Prod.fst) {entries : Entries} (new : key ∉ entries.map Prod.fst) (value : Str) :
    Document.setValue (front ++ [(name, entries)]) name key value =
      front ++ [(name, entries ++ [(key, value)])] := by
  have own : orDefault name = name := if_neg named
  rw [Document.setValue, if_neg filled, Document.entries, own, get_last absent, Option.getD_some, put_new new,
    put_last absent]

theorem setAll_last {front : Document} {name : Str} (named : name ≠ []) (absent : name ∉ front.map Prod.fst)
    (rest done : Entries) (keyed : ∀ entry ∈ rest, entry.1 ≠ []) (distinct : ((done ++ rest).map Prod.fst).Nodup) :
    setAll name (front ++ [(name, done)]) rest = front ++ [(name, done ++ rest)] := by
  induction rest generalizing done with
  | nil => rw [List.append_nil]; rfl
  | cons entry rest ih =>
      have new : entry.1 ∉ done.map Prod.fst := by
        rw [List.map_append, List.map_cons, List.nodup_append] at distinct
        exact fun member => distinct.2.2 _ member _ (List.mem_cons_self ..) rfl
      have next := ih (done ++ [entry]) (fun other member => keyed other (List.mem_cons_of_mem _ member))
        (by rwa [List.append_assoc, List.singleton_append])
      rw [List.append_assoc, List.singleton_append] at next
      rw [← next, setAll, List.foldl_cons, setValue_last named (keyed entry (List.mem_cons_self ..)) absent new]
      rfl

theorem setAll_new {name : Str} (named : name ≠ []) (absent : name ∉ doc.map Prod.fst) {entries : Entries}
    (filled : entries ≠ []) (keyed : ∀ entry ∈ entries, entry.1 ≠ []) (distinct : (entries.map Prod.fst).Nodup) :
    setAll name doc entries = doc ++ [(name, entries)] := by
  cases entries with
  | nil => exact absurd rfl filled
  | cons entry rest =>
      have own : orDefault name = name := if_neg named
      have first : doc.setValue name entry.1 entry.2 = doc ++ [(name, [entry])] := by
        rw [Document.setValue, if_neg (keyed entry (List.mem_cons_self ..)), Document.entries, own,
          get_eq_none absent, put_new absent]
        rfl
      rw [setAll, List.foldl_cons, first]
      exact setAll_last named absent rest [entry] (fun other member => keyed other (List.mem_cons_of_mem _ member))
        distinct

/-- The sections can be written, and the DEFAULT section, if there is one, comes first. -/
def Printable (c : ConfigFile) : Document → Prop
  | [] => True
  | part :: rest =>
      (SectionPrintable c part ∨ part.1 = DEFAULT_SECTION ∧ DefaultPrintable c part.2) ∧
        ∀ other ∈ rest, SectionPrintable c other

instance (c : ConfigFile) : DecidablePred (Printable c)
  | [] => isTrue trivial
  | part :: rest =>
      inferInstanceAs (Decidable
        ((SectionPrintable c part ∨ part.1 = DEFAULT_SECTION ∧ DefaultPrintable c part.2) ∧
          ∀ other ∈ rest, SectionPrintable c other))

structure PartFormed (part : Str × Entries) : Prop where
  named : part.1 ≠ []
  keyed : ∀ entry ∈ part.2, entry.1 ≠ []
  distinct : (part.2.map Prod.fst).Nodup

theorem partFormed (shown : Represents c doc) {part : Str × Entries} (member : part ∈ doc) : PartFormed part := by
  obtain ⟨-, listed, distinct, -⟩ := shown.part member
  refine ⟨shown.named part.1 (shown.sections.names ▸ List.mem_map_of_mem member), fun entry held => ?_, distinct⟩
  exact shown.keyed part.1 entry.1 (listed ▸ List.mem_map_of_mem held)

theorem runs_parts (parts : Document) : ∀ (r : Reading) (front : Document), Copied c r.config front →
    r.comments = [] → (∀ part ∈ parts, SectionPrintable c part ∧ PartFormed part) →
    ((front ++ parts).map Prod.fst).Nodup →
    ∃ r', Runs (parts.flatMap (sectionLines c)) r r' ∧ Copied c r'.config (front ++ parts) ∧ r'.comments = [] := by
  induction parts with
  | nil =>
      intro r front copied none _ _
      rw [List.append_nil]
      exact ⟨r, runs_nil r, copied, none⟩
  | cons part rest ih =>
      intro r front copied none printable distinct
      obtain ⟨own, formed⟩ := printable part (List.mem_cons_self ..)
      have absent : part.1 ∉ front.map Prod.fst := by
        rw [List.map_append, List.map_cons, List.nodup_append] at distinct
        exact fun member => distinct.2.2 _ member _ (List.mem_cons_self ..) rfl
      have filled : part.2 ≠ [] := by
        intro empty
        have keeper := own.keeper
        rw [empty] at keeper
        cases keeper
      obtain ⟨r', first, whole, last⟩ := runs_section own formed.named formed.distinct r copied none absent
      rw [setAll_new formed.named absent filled formed.keyed formed.distinct] at whole
      obtain ⟨r'', others, all, done⟩ := ih r' _ whole last
        (fun other member => printable other (List.mem_cons_of_mem _ member))
        (by rwa [List.append_assoc, List.singleton_append])
      rw [List.append_assoc, List.singleton_append] at all
      exact ⟨r'', first.append others, all, done⟩

theorem copied_new (c : ConfigFile) (names : List Str) : Copied c (newConfigFile names) [] where
  represents := represents_new names
  sections _ _ := rfl
  keys _ _ _ := rfl

theorem runs_document (shown : Represents c doc) (printable : Printable c doc) (names : List Str) :
    ∃ r', Runs (doc.flatMap (sectionLines c)) { config := newConfigFile names } r' ∧ Copied c r'.config doc := by
  have distinct : (doc.map Prod.fst).Nodup := shown.sections.names ▸ shown.sections.distinct
  cases doc with
  | nil => exact ⟨_, runs_nil _, copied_new c names⟩
  | cons part rest =>
      have formed : ∀ other ∈ part :: rest, PartFormed other := fun _ member => partFormed shown member
      obtain ⟨own | ⟨title, own⟩, others⟩ := printable
      · have all : ∀ other ∈ part :: rest, SectionPrintable c other ∧ PartFormed other := fun other member =>
          ⟨(List.mem_cons.mp member).elim (fun same => same ▸ own) (others other), formed other member⟩
        obtain ⟨r', runs, copied, -⟩ := runs_parts (part :: rest) { config := newConfigFile names } []
          (copied_new c names) rfl all distinct
        exact ⟨r', runs, copied⟩
      · have first := formed part (List.mem_cons_self ..)
        obtain ⟨r', lines, copied, none⟩ := runs_entries (c := c) (by decide : DEFAULT_SECTION ≠ []) part.2
          { config := newConfigFile names } [] (copied_new c names) rfl rfl own.each own.numbered first.distinct
          (fun _ _ => rfl) (.inr own.comment)
        rw [setAll_new (by decide) List.not_mem_nil own.filled first.keyed first.distinct, List.nil_append] at copied
        obtain ⟨r'', more, all, -⟩ := runs_parts rest r' _ copied none
          (fun other member => ⟨others other member, formed other (List.mem_cons_of_mem _ member)⟩)
          (by rw [← title]; exact distinct)
        have start : Runs (sectionLines c part) { config := newConfigFile names } r' := by
          have blank : commentLines ([] : Str) = [] := rfl
          rw [sectionLines, titleLines, title, own.comment, blank, if_pos rfl, List.nil_append, List.nil_append]
          exact lines.append (runs_blank r')
        refine ⟨r'', start.append more, ?_⟩
        rw [← title] at all
        exact all

theorem sectionLines_oneLine {part : Str × Entries} (named : 0x0a ∉ part.1)
    (each : ∀ entry ∈ part.2, entry.1 = text " " ∨ EntryPrintable c part.1 entry) :
    ∀ line ∈ sectionLines c part, 0x0a ∉ line := by
  have brackets : 0x0a ∉ text "[" ∧ 0x0a ∉ text "]" := by decide
  intro line member
  simp only [sectionLines, List.mem_append, List.mem_flatMap, List.mem_singleton] at member
  obtain ((comment | title) | ⟨entry, held, key⟩) | rfl := member
  · rw [commentLines] at comment
    split at comment
    · cases comment
    · exact not_mem_of_mem_splitOn comment
  · rw [titleLines] at title
    split at title
    · cases title
    · rw [List.mem_singleton.mp title]
      simp [brackets, named]
  · obtain blank | printable := each entry held
    · rw [entryLines, if_pos blank] at key
      cases key
    · exact entryLines_oneLine printable line key
  · exact List.not_mem_nil

theorem document_oneLine (printable : Printable c doc) :
    ∀ line ∈ doc.flatMap (sectionLines c), 0x0a ∉ line := by
  have titled (part : Str × Entries) (own : SectionPrintable c part) :
      ∀ line ∈ sectionLines c part, 0x0a ∉ line := by
    obtain ⟨rest, shape⟩ := List.head?_eq_some_iff.mp own.keeper
    refine sectionLines_oneLine own.oneLine fun entry held => ?_
    rw [shape] at held
    obtain rfl | later := List.mem_cons.mp held
    · exact .inl rfl
    · exact .inr (own.each entry (by rw [shape]; exact later))
  intro line member
  obtain ⟨part, held, inside⟩ := List.mem_flatMap.mp member
  cases doc with
  | nil => cases held
  | cons first rest =>
      obtain ⟨own, others⟩ := printable
      obtain rfl | later := List.mem_cons.mp held
      · obtain titledOwn | ⟨title, own⟩ := own
        · exact titled part titledOwn line inside
        · refine sectionLines_oneLine (by rw [title]; decide) (fun entry held => .inr ?_) line inside
          rw [title]
          exact own.each entry held
      · exact titled part (others part later) line inside

/-- The sections and keys in their order, their values and, for a document, its comments. -/
structure SameAs (c c' : ConfigFile) (doc : Document) : Prop where
  data : c'.data = c.data
  sectionList : c'.sectionList = c.sectionList
  keyList : c'.keyList = c.keyList
  sectionComments : ∀ part ∈ doc, c'.getSectionComments part.1 = c.getSectionComments part.1
  keyComments : ∀ part ∈ doc, ∀ entry ∈ part.2, entry.1 ≠ text " " →
    c'.getKeyComments part.1 entry.1 = c.getKeyComments part.1 entry.1

theorem Copied.same (copied : Copied c c' doc) (shown : Represents c doc) : SameAs c c' doc := by
  obtain ⟨data, sections, keys⟩ := shown.unique copied.represents
  refine ⟨data, sections, keys, fun part member => ?_, fun part member entry held proper => ?_⟩
  · rw [copied.sections part.1 (partFormed shown member).named, if_pos (List.mem_map_of_mem member)]
  · have stored : doc.value part.1 entry.1 = some entry.2 := by
      obtain ⟨own, -, distinct, -⟩ := shown.part member
      have names := shown.sections.names ▸ shown.sections.distinct
      rw [Document.value, Document.entries, own, get_of_mem names member, Option.getD_some]
      exact get_of_mem distinct held
    rw [copied.keys part.1 (partFormed shown member).named, if_pos ⟨by rw [stored]; rfl, proper⟩]

theorem read_saved (shown : Represents c doc) (printable : Printable c doc) {bytes : Str}
    (saved : c.saveConfigData = .ok bytes) (unmarked : ¬ bom <+: bytes) (fileNames : List Str) :
    ∃ c', (newConfigFile fileNames).read bytes none = (c', none) ∧ SameAs c c' doc := by
  have lines : bytes = textOf (doc.flatMap (sectionLines c)) :=
    Except.ok.inj (saved.symm.trans (save_lines shown))
  obtain ⟨r', runs, copied⟩ := runs_document shown printable fileNames
  refine ⟨r'.config, ?_, copied.same shown⟩
  have plain : ¬ bom.isPrefixOf bytes = true := fun begins => unmarked (List.isPrefixOf_iff_prefix.mp begins)
  have pieces : bytes.splitOn 0x0a = doc.flatMap (sectionLines c) ++ [[]] := by
    rw [lines]
    exact splitOn_unlines (document_oneLine printable)
  simp only [ConfigFile.read, if_neg plain, pieces]
  rw [runs [[]]]
  exact runs_blank r' []

/-- A store that any run of operations has made and whose document can be written is read from the text that
is saved of it: the same sections and keys in the same order, with the same values and comments. -/
theorem save_read (names : List Str) (ops : List Operation) {c : ConfigFile}
    (ran : run (newConfigFile names) ops = .ok c) (printable : Printable c (Document.after ops)) {bytes : Str}
    (saved : c.saveConfigData = .ok bytes) (unmarked : ¬ bom <+: bytes) (fileNames : List Str) :
    ∃ c', (newConfigFile fileNames).read bytes none = (c', none) ∧ SameAs c c' (Document.after ops) := by
  obtain ⟨reached, same, represents⟩ := run_represents ops (represents_new names)
  rw [ran] at same
  cases same
  exact read_saved represents printable saved unmarked fileNames

/-- Comments, numbers, and a key and a value with quotes. -/
def sampleOps : List Operation :=
  [.setValue [] (text "#1") (text "first"), .setKeyComments [] (text "#1") (text "; one\n# two"),
    .setValue (text "s.t") (text " ") (text " "), .setSectionComments (text "s.t") (text "# about"),
    .setValue (text "s.t") (text "a=\"b\x60") (text "x \"\x60 "), .setValue (text "s.t") (text "gone") [],
    .deleteKey (text "s.t") (text "gone")]

def sampleStore : ConfigFile := (run (newConfigFile []) sampleOps).toOption.getD (newConfigFile [])

def sampleBytes : Str := sampleStore.saveConfigData.toOption.getD []

theorem save_read_sample : ∃ c', (newConfigFile []).read sampleBytes none = (c', none) ∧
    c'.data = sampleStore.data ∧ c'.getKeyComments DEFAULT_SECTION (text "#1") = text "; one\n# two" := by
  obtain ⟨c, ran, shown⟩ := run_represents sampleOps (represents_new [])
  have store : sampleStore = c := by rw [sampleStore, ran]; rfl
  obtain ⟨bytes, saved⟩ := shown.saved
  have text : sampleBytes = bytes := by rw [sampleBytes, store, saved]; rfl
  rw [← store] at ran saved
  rw [← text] at saved
  obtain ⟨c', read, same⟩ := save_read [] sampleOps ran (by decide +kernel) saved (by decide +kernel) []
  have first : (DEFAULT_SECTION, [(Printf.text "#1", Printf.text "first")]) ∈ Document.after sampleOps := by
    decide +kernel
  refine ⟨c', read, same.data, ?_⟩
  rw [same.keyComments _ first _ (List.mem_singleton_self _) (by decide)]
  decide +kernel

end Xrtc.Proof.ConfigSave
