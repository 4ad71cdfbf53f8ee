import Xrtc.Go.ConfigRead
import Xrtc.Lib.OrderedMap

/-!
# The configuration store as an ordered document

The maps and lists of a `ConfigFile` are one list of sections, each a list of keys with values.
-/

namespace Xrtc.Proof.ConfigFile
open Go Lib Lib.OrderedMap Lib.Printf

abbrev Entries := List (Str × Str)

abbrev Document := List (Str × Entries)

namespace Document

def entries (doc : Document) (name : Str) : Entries := (get doc (orDefault name)).getD []

def value (doc : Document) (name key : Str) : Option Str := get (entries doc name) key

def setValue (doc : Document) (name key value : Str) : Document :=
  if key = [] then doc else put (orDefault name) (put key value (entries doc name)) doc

def deleteKey (doc : Document) (name key : Str) : Document :=
  if (value doc name key).isSome then put (orDefault name) (remove key (entries doc name)) doc else doc

def deleteSection (doc : Document) (name : Str) : Document := remove (orDefault name) doc

end Document

abbrev KeysHold (c : ConfigFile) (name : Str) (keys : Str → Option Str) (entries : Entries) : Prop :=
  Holds (fun _ a b => a = b) keys (c.keyList name) entries

structure Represents (c : ConfigFile) (doc : Document) : Prop where
  sections : Holds (KeysHold c) c.data c.sectionList doc
  absent : ∀ name, c.data name = none → c.keyList name = []
  named : ∀ name ∈ c.sectionList, name ≠ []
  keyed : ∀ name, ∀ key ∈ c.keyList name, key ≠ []

theorem orDefault_ne (name : Str) : orDefault name ≠ [] := by
  rw [orDefault]
  split
  · decide
  · assumption

theorem represents_new (names : List Str) : Represents (newConfigFile names) [] where
  sections := holds_nil
  absent _ _ := rfl
  named _ member := nomatch member
  keyed _ _ member := nomatch member

variable {c : ConfigFile} {doc : Document}

theorem Represents.keys (shown : Represents c doc) (name : Str) :
    KeysHold c (orDefault name) ((c.data (orDefault name)).getD fun _ => none) (doc.entries name) := by
  have related := shown.sections.values (orDefault name)
  cases present : c.data (orDefault name) with
  | none =>
      rw [present] at related
      cases stored : get doc (orDefault name) with
      | none =>
          rw [KeysHold, shown.absent _ present, Document.entries, stored]
          exact holds_nil
      | some entries => rw [stored] at related; exact related.elim
  | some keys =>
      rw [present] at related
      cases stored : get doc (orDefault name) with
      | none => rw [stored] at related; exact related.elim
      | some entries =>
          rw [stored] at related
          rw [Document.entries, stored]
          exact related

theorem entries_mem {name : Str} (filled : name ≠ []) (there : name ∈ doc.map Prod.fst) :
    (name, doc.entries name) ∈ doc := by
  have own : orDefault name = name := if_neg filled
  obtain ⟨entries, stored⟩ := Option.isSome_iff_exists.mp ((get_isSome doc name).mpr there)
  rw [Document.entries, own, stored]
  exact mem_of_get stored

theorem entries_nil {name : Str} (filled : name ≠ []) (new : name ∉ doc.map Prod.fst) : doc.entries name = [] := by
  have own : orDefault name = name := if_neg filled
  rw [Document.entries, own, get_eq_none new]
  rfl

theorem eq_of_related {a b : Option Str} (related : Related (fun a b => a = b) a b) : a = b := by
  cases a <;> cases b <;> first | exact related.elim | rfl | exact congrArg some related

theorem Represents.value_eq (shown : Represents c doc) (name key : Str) :
    ((c.data (orDefault name)).getD fun _ => none) key = doc.value name key :=
  eq_of_related ((shown.keys name).values key)

/-! ## The operations -/

theorem Represents.put (shown : Represents c doc) {c' : ConfigFile} {name : Str} (filled : name ≠ [])
    {keys : Str → Option Str} {entries : Entries} (data : c'.data = Function.update c.data name (some keys))
    (sections : c'.sectionList = if (c.data name).isSome then c.sectionList else c.sectionList ++ [name])
    (others : ∀ other ≠ name, c'.keyList other = c.keyList other) (holds : KeysHold c' name keys entries)
    (keyed : ∀ key ∈ c'.keyList name, key ≠ []) : Represents c' (OrderedMap.put name entries doc) where
  sections := by
    rw [data, sections]
    refine shown.sections.put holds fun other differ keys entries held => ?_
    rwa [KeysHold, others other differ]
  absent := by
    intro other none
    by_cases same : other = name
    · rw [data, same, Function.update_self] at none
      cases none
    · rw [data, Function.update_of_ne same] at none
      rw [others other same]
      exact shown.absent other none
  named := by
    intro other member
    rw [sections] at member
    split at member
    · exact shown.named other member
    · obtain old | new := List.mem_append.mp member
      · exact shown.named other old
      · rwa [List.mem_singleton.mp new]
  keyed := by
    intro other key member
    by_cases same : other = name
    · exact keyed key (same ▸ member)
    · rw [others other same] at member
      exact shown.keyed other key member

theorem setValue_fields {key : Str} (filled : key ≠ []) (c : ConfigFile) (name value : Str) :
    let keys := (c.data (orDefault name)).getD fun _ => none
    (c.setValue name key value).1 =
        { c with
          data := Function.update c.data (orDefault name) (some (Function.update keys key (some value)))
          sectionList :=
            if (c.data (orDefault name)).isSome then c.sectionList else c.sectionList ++ [orDefault name]
          keyList :=
            if (keys key).isSome then c.keyList
            else Function.update c.keyList (orDefault name) (c.keyList (orDefault name) ++ [key]) } ∧
      (c.setValue name key value).2 = !(keys key).isSome := by
  intro keys
  rw [ConfigFile.setValue, if_neg filled]
  cases present : c.data (orDefault name) with
  | some old => simp [ConfigFile.withSection, present, keys]
  | none => simp [ConfigFile.withSection, present, keys, Function.update_idem]

theorem setValue_represents (shown : Represents c doc) (name key value : Str) :
    Represents (c.setValue name key value).1 (doc.setValue name key value) := by
  by_cases filled : key = []
  · rw [ConfigFile.setValue, if_pos filled, Document.setValue, if_pos filled]
    exact shown
  · obtain ⟨fields, -⟩ := setValue_fields filled c name value
    have kept : Holds (fun _ a b => a = b)
        (Function.update ((c.data (orDefault name)).getD fun _ => none) key (some value)) _
        (OrderedMap.put key value (doc.entries name)) :=
      (shown.keys name).put rfl fun _ _ _ _ same => same
    rw [fields, Document.setValue, if_neg filled]
    refine shown.put (orDefault_ne name) rfl rfl (fun other differ => ?_) ?_ fun k member => ?_
    · simp only
      split
      · rfl
      · rw [Function.update_of_ne differ]
    · simp only [KeysHold]
      split
      · next there => rwa [if_pos there] at kept
      · next new =>
          rw [if_neg new] at kept
          rwa [Function.update_self]
    · simp only at member
      split at member
      · exact shown.keyed _ k member
      · rw [Function.update_self] at member
        obtain old | new := List.mem_append.mp member
        · exact shown.keyed _ k old
        · rwa [List.mem_singleton.mp new]

theorem cutAt_mem {list : List Str} {key : Str} (member : key ∈ list) :
    cutAt list (list.idxOf key) = .ok (list.take (list.idxOf key) ++ list.drop (list.idxOf key + 1)) :=
  if_pos (List.idxOf_lt_length_iff.mpr member)

theorem setKeyComments_fields (c : ConfigFile) (name key comments : Str) :
    ∃ keyComments, (c.setKeyComments name key comments).1 = { c with keyComments := keyComments } := by
  rw [ConfigFile.setKeyComments]
  split
  · split
    · exact ⟨c.keyComments, rfl⟩
    · exact ⟨_, rfl⟩
  · exact ⟨_, rfl⟩

theorem setSectionComments_fields (c : ConfigFile) (name comments : Str) :
    ∃ sectionComments, (c.setSectionComments name comments).1 = { c with sectionComments := sectionComments } := by
  rw [ConfigFile.setSectionComments]
  split <;> exact ⟨_, rfl⟩

theorem Represents.comments (shown : Represents c doc) (sectionComments : Str → Option Str)
    (keyComments : Str → Option (Str → Option Str)) :
    Represents { c with sectionComments := sectionComments, keyComments := keyComments } doc :=
  ⟨shown.sections, shown.absent, shown.named, shown.keyed⟩

theorem deleteKey_represents (shown : Represents c doc) (name key : Str) :
    ∃ c', c.deleteKey name key = .ok (c', (doc.value name key).isSome) ∧
      Represents c' (doc.deleteKey name key) := by
  have value := shown.value_eq name key
  have inner := shown.keys name
  rw [ConfigFile.deleteKey, Document.deleteKey]
  cases present : c.data (orDefault name) with
  | none =>
      rw [present, Option.getD_none] at value
      rw [← value]
      exact ⟨c, rfl, shown⟩
  | some keys =>
      rw [present, Option.getD_some] at value inner
      simp only
      rw [← value]
      by_cases there : (keys key).isSome = true
      · rw [if_pos there, if_pos there, there]
        have member := (inner.mem_iff key).mpr there
        obtain ⟨keyComments, changed⟩ := setKeyComments_fields
          { c with data := Function.update c.data (orDefault name) (some (Function.update keys key none)) }
          (orDefault name) key []
        rw [changed]
        simp only [cutAt_mem member]
        refine ⟨_, rfl, shown.put (orDefault_ne name) rfl ?_ (fun other differ => ?_) ?_ fun k held => ?_⟩
        · rw [present]
          rfl
        · exact Function.update_of_ne differ ..
        · simp only [KeysHold, Function.update_self]
          exact inner.remove key fun _ _ _ _ same => same
        · simp only [Function.update_self] at held
          refine shown.keyed (orDefault name) k ?_
          obtain front | back := List.mem_append.mp held
          · exact List.mem_of_mem_take front
          · exact List.mem_of_mem_drop back
      · rw [if_neg there, if_neg there, Bool.eq_false_iff.mpr there]
        exact ⟨c, rfl, shown⟩

theorem Represents.present_iff (shown : Represents c doc) (name : Str) :
    (c.data (orDefault name)).isSome = (get doc (orDefault name)).isSome :=
  Bool.eq_iff_iff.mpr (shown.sections.values (orDefault name)).isSome_iff

theorem deleteSection_represents (shown : Represents c doc) (name : Str) :
    ∃ c', c.deleteSection name = .ok (c', (get doc (orDefault name)).isSome) ∧
      Represents c' (doc.deleteSection name) := by
  rw [ConfigFile.deleteSection, ← shown.present_iff, Document.deleteSection]
  by_cases there : (c.data (orDefault name)).isSome = true
  · have member := (shown.sections.mem_iff (orDefault name)).mpr there
    obtain ⟨sectionComments, changed⟩ := setSectionComments_fields
      { c with data := Function.update c.data (orDefault name) none } (orDefault name) []
    rw [if_pos there, there]
    simp only [changed, cutAt_mem member]
    refine ⟨_, rfl, ?_, fun other none => ?_, fun other held => ?_, fun other key held => ?_⟩
    · refine shown.sections.remove (orDefault name) fun other differ keys entries held => ?_
      simpa only [KeysHold, Function.update_of_ne differ] using held
    · by_cases same : other = orDefault name
      · rw [same]
        exact Function.update_self ..
      · simp only [Function.update_of_ne same] at none ⊢
        exact shown.absent other none
    · refine shown.named other ?_
      obtain front | back := List.mem_append.mp held
      · exact List.mem_of_mem_take front
      · exact List.mem_of_mem_drop back
    · by_cases same : other = orDefault name
      · simp only [same, Function.update_self] at held
        cases held
      · simp only [Function.update_of_ne same] at held
        exact shown.keyed other key held
  · have gone : remove (orDefault name) doc = doc := by
      refine List.filter_eq_self.mpr fun entry member => decide_eq_true fun same => there ?_
      refine (shown.sections.mem_iff _).mp ?_
      rw [← shown.sections.names, ← same]
      exact List.mem_map_of_mem member
    rw [if_neg there, Bool.eq_false_iff.mpr there, gone]
    exact ⟨c, rfl, shown⟩

theorem setSectionComments_represents (shown : Represents c doc) (name comments : Str) :
    Represents (c.setSectionComments name comments).1 doc := by
  obtain ⟨sectionComments, changed⟩ := setSectionComments_fields c name comments
  rw [changed]
  exact shown.comments sectionComments c.keyComments

theorem setKeyComments_represents (shown : Represents c doc) (name key comments : Str) :
    Represents (c.setKeyComments name key comments).1 doc := by
  obtain ⟨keyComments, changed⟩ := setKeyComments_fields c name key comments
  rw [changed]
  exact shown.comments c.sectionComments keyComments

/-! ## Reading -/

/-- The calls of `SetValue` that reading these lines makes. -/
def settings : List Str → (count : Nat) → (current : Str) → List (Str × Str × Str)
  | [], _, _ => []
  | piece :: rest, count, current =>
      match parseLine current (trimSpace piece) with
      | .error _ => []
      | .ok (.header name) => (name, text " ", text " ") :: settings rest 1 name
      | .ok (.assign key value) =>
          (current, autoKey count key, value) :: settings rest (autoCount count key) current
      | .ok _ => settings rest count current

def Document.set (doc : Document) (call : Str × Str × Str) : Document := doc.setValue call.1 call.2.1 call.2.2

theorem lines_represents (pieces : List Str) (r : Reading) {doc : Document} (shown : Represents r.config doc) :
    Represents (Reading.lines pieces r).1 ((settings pieces r.count r.current).foldl Document.set doc) := by
  induction pieces generalizing r doc with
  | nil => exact shown
  | cons piece rest ih =>
      rw [Reading.lines, settings]
      cases parsed : parseLine r.current (trimSpace piece) with
      | error err => exact shown
      | ok item =>
          cases item with
          | blank => exact ih r shown
          | comment line => exact ih (r.item (.comment line)) shown
          | header name =>
              refine ih (r.item (.header name)) (setValue_represents ?_ name (text " ") (text " "))
              split
              · exact shown
              · exact setSectionComments_represents shown name r.comments
          | assign key value =>
              have set := setValue_represents shown r.current (autoKey r.count key) value
              refine ih (r.item (.assign key value)) ?_
              simp only [Reading.item]
              split
              · exact set
              · exact setKeyComments_represents set r.current _ r.comments

def pieces (content : Str) (fails : Option String) : List Str :=
  let content := if bom.isPrefixOf content then content.drop 3 else content
  let pieces := content.splitOn 0x0a
  if fails.isSome then pieces.dropLast else pieces

theorem read_config (c : ConfigFile) (content : Str) (fails : Option String) :
    (c.read content fails).1 = (Reading.lines (pieces content fails) { config := c }).1 := by
  cases fails with
  | none => rfl
  | some err =>
      simp only [ConfigFile.read, pieces, Option.isSome_some, if_true]
      split
      · next same => rw [same]
      · next same => rw [same]

/-! ## Runs -/

inductive Operation
  | setValue (name key value : Str)
  | deleteKey (name key : Str)
  | deleteSection (name : Str)
  | setSectionComments (name comments : Str)
  | setKeyComments (name key comments : Str)
  | read (content : Str) (fails : Option String)

def apply (c : ConfigFile) : Operation → Except Panic ConfigFile
  | .setValue name key value => .ok (c.setValue name key value).1
  | .deleteKey name key => (c.deleteKey name key).map Prod.fst
  | .deleteSection name => (c.deleteSection name).map Prod.fst
  | .setSectionComments name comments => .ok (c.setSectionComments name comments).1
  | .setKeyComments name key comments => .ok (c.setKeyComments name key comments).1
  | .read content fails => .ok (c.read content fails).1

def Document.apply (doc : Document) : Operation → Document
  | .setValue name key value => doc.setValue name key value
  | .deleteKey name key => doc.deleteKey name key
  | .deleteSection name => doc.deleteSection name
  | .setSectionComments _ _ | .setKeyComments _ _ _ => doc
  | .read content fails => (settings (pieces content fails) 1 DEFAULT_SECTION).foldl Document.set doc

theorem apply_represents (shown : Represents c doc) (op : Operation) :
    ∃ c', apply c op = .ok c' ∧ Represents c' (doc.apply op) := by
  cases op with
  | setValue name key value => exact ⟨_, rfl, setValue_represents shown name key value⟩
  | deleteKey name key =>
      obtain ⟨c', deleted, represents⟩ := deleteKey_represents shown name key
      exact ⟨c', by rw [apply, deleted]; rfl, represents⟩
  | deleteSection name =>
      obtain ⟨c', deleted, represents⟩ := deleteSection_represents shown name
      exact ⟨c', by rw [apply, deleted]; rfl, represents⟩
  | setSectionComments name comments => exact ⟨_, rfl, setSectionComments_represents shown name comments⟩
  | setKeyComments name key comments => exact ⟨_, rfl, setKeyComments_represents shown name key comments⟩
  | read content fails =>
      refine ⟨_, rfl, ?_⟩
      rw [read_config]
      exact lines_represents (pieces content fails) { config := c } shown

def run (c : ConfigFile) : List Operation → Except Panic ConfigFile
  | [] => .ok c
  | op :: rest => do run (← apply c op) rest

theorem run_represents (ops : List Operation) (shown : Represents c doc) :
    ∃ c', run c ops = .ok c' ∧ Represents c' (ops.foldl Document.apply doc) := by
  induction ops generalizing c doc with
  | nil => exact ⟨c, rfl, shown⟩
  | cons op rest ih =>
      obtain ⟨next, applied, represents⟩ := apply_represents shown op
      obtain ⟨last, ran, shows⟩ := ih represents
      exact ⟨last, by rw [run, applied]; exact ran, shows⟩

/-! ## What the store shows -/

theorem Represents.data_some (shown : Represents c doc) {name : Str} (there : (get doc (orDefault name)).isSome) :
    ∃ keys, c.data (orDefault name) = some keys ∧ ∀ key, keys key = doc.value name key := by
  obtain ⟨keys, stored⟩ := Option.isSome_iff_exists.mp (shown.present_iff name ▸ there)
  refine ⟨keys, stored, fun key => ?_⟩
  rw [← shown.value_eq name key, stored, Option.getD_some]

theorem Represents.part (shown : Represents c doc) {name : Str} {entries : Entries}
    (member : (name, entries) ∈ doc) :
    orDefault name = name ∧ c.keyList name = entries.map Prod.fst ∧ (entries.map Prod.fst).Nodup ∧
      ∃ keys, c.data name = some keys ∧ ∀ entry ∈ entries, keys entry.1 = some entry.2 := by
  have listed : name ∈ c.sectionList := shown.sections.names ▸ List.mem_map_of_mem member
  have same : orDefault name = name := if_neg (shown.named name listed)
  have stored := get_of_mem (shown.sections.names ▸ shown.sections.distinct) member
  have inner := shown.keys name
  obtain ⟨keys, data, values⟩ := shown.data_some (by rw [same, stored]; rfl)
  rw [Document.entries, same, stored, Option.getD_some] at inner
  refine ⟨same, inner.names.symm, inner.names ▸ inner.distinct, keys, same ▸ data, fun entry held => ?_⟩
  rw [values, Document.value, Document.entries, same, stored]
  exact get_of_mem (inner.names ▸ inner.distinct) held

theorem Represents.unique {c' : ConfigFile} (shown : Represents c doc) (other : Represents c' doc) :
    c'.data = c.data ∧ c'.sectionList = c.sectionList ∧ c'.keyList = c.keyList := by
  have lists : c'.sectionList = c.sectionList := other.sections.names.symm.trans shown.sections.names
  have both (name : Str) : c'.data name = c.data name ∧ c'.keyList name = c.keyList name := by
    have first := shown.sections.values name
    have second := other.sections.values name
    cases stored : get doc name with
    | none =>
        rw [stored] at first second
        cases here : c.data name with
        | some keys => rw [here] at first; exact first.elim
        | none =>
            cases there : c'.data name with
            | some keys => rw [there] at second; exact second.elim
            | none => exact ⟨rfl, by rw [shown.absent name here, other.absent name there]⟩
    | some entries =>
        rw [stored] at first second
        cases here : c.data name with
        | none => rw [here] at first; exact first.elim
        | some keys =>
            cases there : c'.data name with
            | none => rw [there] at second; exact second.elim
            | some others =>
                rw [here] at first
                rw [there] at second
                have first : KeysHold c name keys entries := first
                have second : KeysHold c' name others entries := second
                refine ⟨congrArg some (funext fun key => ?_), second.names.symm.trans first.names⟩
                exact (eq_of_related (second.values key)).trans (eq_of_related (first.values key)).symm
  exact ⟨funext fun name => (both name).1, lists, funext fun name => (both name).2⟩

theorem read_represents (names : List Str) (content : Str) (fails : Option String) :
    Represents ((newConfigFile names).read content fails).1 (Document.apply [] (.read content fails)) := by
  rw [read_config]
  exact lines_represents _ { config := newConfigFile names } (represents_new names)

theorem mapM_ok {α β ε : Type} {f : α → Except ε β} {list : List α} (all : ∀ a ∈ list, ∃ b, f a = .ok b) :
    ∃ results, list.mapM f = .ok results := by
  induction list with
  | nil => exact ⟨[], rfl⟩
  | cons a rest ih =>
      obtain ⟨b, first⟩ := all a (List.mem_cons_self ..)
      obtain ⟨results, others⟩ := ih fun other member => all other (List.mem_cons_of_mem _ member)
      exact ⟨b :: results, by rw [List.mapM_cons, first, others]; rfl⟩

theorem writtenKey_ok {key : Str} (filled : key ≠ []) : ∃ name, ConfigFile.writtenKey key = .ok name := by
  cases key with
  | nil => exact absurd rfl filled
  | cons first rest =>
      simp only [ConfigFile.writtenKey]
      generalize (if first = 0x23 then text "-" else first :: rest) = keyName
      split
      · split
        · split <;> exact ⟨_, rfl⟩
        · exact ⟨_, rfl⟩
      · exact ⟨_, rfl⟩

theorem Represents.saved (shown : Represents c doc) : ∃ bytes, c.saveConfigData = .ok bytes := by
  have keys (name : Str) : ∃ texts, (c.keyList name).mapM (c.saveKey name) = .ok texts := by
    refine mapM_ok fun key member => ?_
    obtain ⟨written, ok⟩ := writtenKey_ok (shown.keyed name key member)
    rw [ConfigFile.saveKey, ok]
    split <;> exact ⟨_, rfl⟩
  have sections : ∃ texts, c.sectionList.mapM c.saveSection = .ok texts := by
    refine mapM_ok fun name _ => ?_
    obtain ⟨texts, ok⟩ := keys name
    exact ⟨_, by rw [ConfigFile.saveSection, ok]; rfl⟩
  obtain ⟨texts, ok⟩ := sections
  exact ⟨texts.flatten, by rw [ConfigFile.saveConfigData, ok]; rfl⟩

theorem Represents.keyList (shown : Represents c doc) (name : Str) :
    c.getKeyList name =
      (get doc (orDefault name)).map fun entries => (entries.map Prod.fst).filter (· ≠ text " ") := by
  have present := shown.present_iff name
  have inner := (shown.keys name).names
  rw [Document.entries] at inner
  rw [ConfigFile.getKeyList]
  cases stored : get doc (orDefault name) with
  | none =>
      rw [stored] at present
      rw [if_neg (Bool.eq_false_iff.mp present)]
      rfl
  | some entries =>
      rw [stored, Option.isSome_some] at present
      rw [stored] at inner
      rw [if_pos present, ← inner]
      rfl

def Document.after (ops : List Operation) : Document := ops.foldl Document.apply []

/-- After every run of operations from an empty store, whatever texts it reads, the store is the document
that the operations make: sections and keys stand once, in the order in which they first came, with the
values last set. No operation panics, and the results say what was there. -/
theorem store_run (names : List Str) (ops : List Operation) :
    ∃ c, run (newConfigFile names) ops = .ok c ∧ (∃ bytes, c.saveConfigData = .ok bytes) ∧
      c.getSectionList = (Document.after ops).map Prod.fst ∧ c.getSectionList.Nodup ∧
      (∀ name, c.getKeyList name = (get (Document.after ops) (orDefault name)).map fun entries =>
        (entries.map Prod.fst).filter (· ≠ text " ")) ∧
      (∀ name key, ((c.data (orDefault name)).getD fun _ => none) key = (Document.after ops).value name key) ∧
      (∀ name key value, (c.setValue name key value).2 =
        decide (key ≠ [] ∧ (Document.after ops).value name key = none)) ∧
      (∀ name key, ∃ c', c.deleteKey name key = .ok (c', ((Document.after ops).value name key).isSome)) ∧
      ∀ name, ∃ c', c.deleteSection name = .ok (c', (get (Document.after ops) (orDefault name)).isSome) := by
  obtain ⟨c, ran, shown⟩ := run_represents ops (represents_new names)
  refine ⟨c, ran, shown.saved, shown.sections.names.symm, shown.sections.distinct, shown.keyList,
    shown.value_eq, fun name key value => ?_, fun name key => ?_, fun name => ?_⟩
  · by_cases filled : key = []
    · simp [ConfigFile.setValue, filled]
    · rw [(setValue_fields filled c name value).2, shown.value_eq]
      change (!((Document.after ops).value name key).isSome) = _
      cases (Document.after ops).value name key <;> simp [filled]
  · obtain ⟨c', deleted, -⟩ := deleteKey_represents shown name key
    exact ⟨c', deleted⟩
  · obtain ⟨c', deleted, -⟩ := deleteSection_represents shown name
    exact ⟨c', deleted⟩

end Xrtc.Proof.ConfigFile
