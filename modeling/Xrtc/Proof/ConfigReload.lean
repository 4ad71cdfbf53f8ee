import Xrtc.Lib.Machine
import Xrtc.Proof.ConfigFile

/-!
# Loading a configuration again

A store is the document of its last load with the edits behind it, whatever became of the files in between.
-/

namespace Xrtc.Proof.ConfigReload
open Go Lib Lib.OrderedMap Lib.Printf ConfigFile

/-! ## What a file is read as -/

theorem lines_error (pieces : List Str) (r r' : Reading) (same : r'.current = r.current) :
    (Reading.lines pieces r').2 = (Reading.lines pieces r).2 := by
  induction pieces generalizing r r' with
  | nil => rfl
  | cons piece rest ih =>
      rw [Reading.lines, Reading.lines, same]
      cases parseLine r.current (trimSpace piece) with
      | error err => rfl
      | ok item =>
          refine ih _ _ ?_
          cases item with
          | header name => rfl
          | blank => exact same
          | comment line => exact same
          | assign key value => exact same

theorem read_error (c c' : ConfigFile) (content : Str) (fails : Option String) :
    (c'.read content fails).2 = (c.read content fails).2 := by
  cases fails with
  | none => exact lines_error _ { config := c } { config := c' } rfl
  | some err =>
      have same := lines_error (pieces content (some err)) { config := c } { config := c' } rfl
      simp only [ConfigFile.read, pieces, Option.isSome_some, if_true] at same ⊢
      split <;> split <;> simp_all

def readable (file : File) : Bool := ((newConfigFile []).read file.content file.fails).2.isNone

def loadDocument (disk : Disk) (doc : Document) : List Str → Option Document
  | [] => some doc
  | name :: rest =>
      match disk name with
      | .error _ => none
      | .ok file =>
          if readable file then loadDocument disk (doc.apply (.read file.content file.fails)) rest else none

/-! ## The names of the files -/

theorem setValue_fileNames (c : ConfigFile) (name key value : Str) :
    (c.setValue name key value).1.fileNames = c.fileNames := by
  by_cases filled : key = []
  · rw [ConfigFile.setValue, if_pos filled]
  · rw [(setValue_fields filled c name value).1]

theorem setKeyComments_fileNames (c : ConfigFile) (name key comments : Str) :
    (c.setKeyComments name key comments).1.fileNames = c.fileNames := by
  obtain ⟨keyComments, changed⟩ := setKeyComments_fields c name key comments
  rw [changed]

theorem setSectionComments_fileNames (c : ConfigFile) (name comments : Str) :
    (c.setSectionComments name comments).1.fileNames = c.fileNames := by
  obtain ⟨sectionComments, changed⟩ := setSectionComments_fields c name comments
  rw [changed]

theorem item_fileNames (r : Reading) (item : Item) : (r.item item).config.fileNames = r.config.fileNames := by
  cases item with
  | blank => rfl
  | comment line => rfl
  | header name =>
      rw [Reading.item]
      simp only [setValue_fileNames]
      split
      · rfl
      · exact setSectionComments_fileNames ..
  | assign key value =>
      rw [Reading.item]
      simp only
      split
      · exact setValue_fileNames ..
      · exact (setKeyComments_fileNames ..).trans (setValue_fileNames ..)

theorem lines_fileNames (pieces : List Str) (r : Reading) :
    (Reading.lines pieces r).1.fileNames = r.config.fileNames := by
  induction pieces generalizing r with
  | nil => rfl
  | cons piece rest ih =>
      rw [Reading.lines]
      cases parseLine r.current (trimSpace piece) with
      | error err => rfl
      | ok item => exact (ih _).trans (item_fileNames r item)

theorem read_fileNames (c : ConfigFile) (content : Str) (fails : Option String) :
    (c.read content fails).1.fileNames = c.fileNames := by
  rw [read_config]
  exact lines_fileNames ..

theorem deleteKey_fileNames {c c' : ConfigFile} {name key : Str} {done : Bool}
    (deleted : c.deleteKey name key = .ok (c', done)) : c'.fileNames = c.fileNames := by
  rw [ConfigFile.deleteKey] at deleted
  split at deleted
  · cases deleted
    rfl
  · split at deleted
    · obtain ⟨list, -, made⟩ := bind_eq_ok deleted
      cases made
      exact setKeyComments_fileNames ..
    · cases deleted
      rfl

theorem deleteSection_fileNames {c c' : ConfigFile} {name : Str} {done : Bool}
    (deleted : c.deleteSection name = .ok (c', done)) : c'.fileNames = c.fileNames := by
  rw [ConfigFile.deleteSection] at deleted
  split at deleted
  · obtain ⟨list, -, made⟩ := bind_eq_ok deleted
    cases made
    exact setSectionComments_fileNames ..
  · cases deleted
    rfl

theorem map_fst_ok {α β : Type} {x : Except Panic (α × β)} {a : α} (made : x.map Prod.fst = .ok a) :
    ∃ b, x = .ok (a, b) := by
  cases x with
  | error err => cases made
  | ok pair =>
      cases made
      exact ⟨pair.2, rfl⟩

theorem apply_fileNames {c c' : ConfigFile} {op : Operation} (applied : apply c op = .ok c') :
    c'.fileNames = c.fileNames := by
  cases op with
  | setValue name key value => cases applied; exact setValue_fileNames ..
  | deleteKey name key =>
      obtain ⟨done, deleted⟩ := map_fst_ok applied
      exact deleteKey_fileNames deleted
  | deleteSection name =>
      obtain ⟨done, deleted⟩ := map_fst_ok applied
      exact deleteSection_fileNames deleted
  | setSectionComments name comments => cases applied; exact setSectionComments_fileNames ..
  | setKeyComments name key comments => cases applied; exact setKeyComments_fileNames ..
  | read content fails => cases applied; exact read_fileNames ..

/-! ## Loads -/

variable {c : ConfigFile} {doc : Document}

theorem loadFiles_cases (disk : Disk) (names : List Str) (shown : Represents c doc) :
    (∃ c' doc', loadFiles disk c names = .ok c' ∧ loadDocument disk doc names = some doc' ∧ Represents c' doc' ∧
      c'.fileNames = c.fileNames) ∨
    ∃ err, loadFiles disk c names = .error err ∧ loadDocument disk doc names = none := by
  induction names generalizing c doc with
  | nil => exact .inl ⟨c, doc, rfl, rfl, shown, rfl⟩
  | cons name rest ih =>
      rw [loadFiles, loadDocument, ConfigFile.loadFile]
      cases opened : disk name with
      | error err => exact .inr ⟨.io err, rfl, rfl⟩
      | ok file =>
          have error := read_error (newConfigFile []) c file.content file.fails
          have names := read_fileNames c file.content file.fails
          have next : Represents (c.read file.content file.fails).1 (doc.apply (.read file.content file.fails)) := by
            rw [read_config]
            exact lines_represents _ { config := c } shown
          simp only [readable, ← error]
          cases result : c.read file.content file.fails with
          | mk read err =>
              rw [result] at names next
              cases err with
              | some err => exact .inr ⟨err, rfl, rfl⟩
              | none =>
                  obtain ⟨c', doc', loaded, made, represents, same⟩ | failed := ih next
                  · exact .inl ⟨c', doc', loaded, made, represents, same.trans names⟩
                  · exact .inr failed

/-- Where a store comes from: the names of its files and its document. -/
structure Origin where
  names : List Str
  doc : Document

inductive FileOperation
  | edit (op : Operation)
  | reload (disk : Disk)
  | reloadData (content : Str) (fails : Option String)
  | appendFiles (disk : Disk) (files : List Str)

def perform (c : ConfigFile) : FileOperation → Except Panic (ConfigFile × Option LoadError)
  | .edit op => (apply c op).map (·, none)
  | .reload disk => c.reload disk
  | .reloadData content fails => .ok (c.reloadData content fails)
  | .appendFiles disk files => c.appendFiles disk files

namespace Origin

/-- The data are in memory, not in a file. -/
def InMemory (s : Origin) : Prop := s.names = [[]]
  deriving Decidable

def reload (s : Origin) (disk : Disk) : Origin × Bool :=
  if s.InMemory then (s, false)
  else
    match loadDocument disk [] s.names with
    | some doc => (⟨s.names, doc⟩, true)
    | none => (s, false)

/-- Whether it succeeds beside what it leaves: the names that are appended stay. -/
def perform (s : Origin) : FileOperation → Origin × Bool
  | .edit op => (⟨s.names, s.doc.apply op⟩, true)
  | .reload disk => s.reload disk
  | .reloadData content fails =>
      if s.names.length = 1 ∧ readable ⟨content, fails⟩ then
        (⟨[[]], Document.apply [] (.read content fails)⟩, true)
      else (s, false)
  | .appendFiles disk files => if s.InMemory then (s, false) else Origin.reload ⟨s.names ++ files, s.doc⟩ disk

end Origin

structure Follows (c : ConfigFile) (s : Origin) : Prop where
  shown : Represents c s.doc
  names : c.fileNames = s.names
  some : s.names ≠ []

variable {s : Origin}

theorem reload_follows (follows : Follows c s) (disk : Disk) :
    ∃ c' err, c.reload disk = .ok (c', err) ∧ Follows c' (s.reload disk).1 ∧ err.isNone = (s.reload disk).2 ∧
      (err.isSome → c' = c) := by
  cases files : s.names with
  | nil => exact absurd files follows.some
  | cons fileName moreFiles =>
      have memory : moreFiles = [] ∧ fileName = [] ↔ s.InMemory := by
        rw [Origin.InMemory, files, List.cons.injEq, and_comm]
      rw [ConfigFile.reload, follows.names, files, Origin.reload]
      simp only [memory]
      by_cases inside : s.InMemory
      · rw [if_pos inside, if_pos inside]
        exact ⟨c, _, rfl, follows, rfl, fun _ => rfl⟩
      · rw [if_neg inside, if_neg inside, loadConfigFile, files]
        obtain ⟨c', doc, loaded, made, shown, same⟩ | ⟨err, failed, none⟩ :=
          loadFiles_cases disk (fileName :: moreFiles) (represents_new (fileName :: moreFiles))
        · rw [loaded, made]
          exact ⟨c', none, rfl, ⟨shown, same, List.cons_ne_nil _ _⟩, rfl, fun failed => by cases failed⟩
        · rw [failed, none]
          exact ⟨c, some err, rfl, follows, rfl, fun _ => rfl⟩

theorem reloadData_follows (follows : Follows c s) (content : Str) (fails : Option String) :
    ∃ c' err, c.reloadData content fails = (c', err) ∧ Follows c' (s.perform (.reloadData content fails)).1 ∧
      err.isNone = (s.perform (.reloadData content fails)).2 ∧ (err.isSome → c' = c) := by
  have error := read_error (newConfigFile []) (newConfigFile [[]]) content fails
  have names := read_fileNames (newConfigFile [[]]) content fails
  have shown := read_represents [[]] content fails
  rw [ConfigFile.reloadData, follows.names, Origin.perform, readable, ← error, loadFromReader]
  by_cases one : s.names.length = 1
  · rw [if_neg (not_not.mpr one)]
    cases result : (newConfigFile [[]]).read content fails with
    | mk cfg err =>
        rw [result] at names shown
        cases err with
        | none =>
            rw [if_pos ⟨one, rfl⟩]
            exact ⟨cfg, none, rfl, ⟨shown, names, List.cons_ne_nil _ _⟩, rfl, fun failed => by cases failed⟩
        | some err =>
            rw [if_neg fun both => by cases both.2]
            exact ⟨c, some err, rfl, follows, rfl, fun _ => rfl⟩
  · rw [if_pos one, if_neg fun both => one both.1]
    exact ⟨c, _, rfl, follows, rfl, fun _ => rfl⟩

theorem perform_follows (follows : Follows c s) (op : FileOperation) :
    ∃ c' err, perform c op = .ok (c', err) ∧ Follows c' (s.perform op).1 ∧ err.isNone = (s.perform op).2 ∧
      (err.isSome → c' = { c with fileNames := c'.fileNames }) := by
  cases op with
  | edit op =>
      obtain ⟨c', applied, shown⟩ := apply_represents follows.shown op
      refine ⟨c', none, by rw [perform, applied]; rfl, ⟨shown, ?_, follows.some⟩, rfl, fun failed => by cases failed⟩
      exact (apply_fileNames applied).trans follows.names
  | reload disk =>
      obtain ⟨c', err, performed, next, success, kept⟩ := reload_follows follows disk
      exact ⟨c', err, performed, next, success, fun failed => by rw [kept failed]⟩
  | reloadData content fails =>
      obtain ⟨c', err, performed, next, success, kept⟩ := reloadData_follows follows content fails
      exact ⟨c', err, congrArg _ performed, next, success, fun failed => by rw [kept failed]⟩
  | appendFiles disk files =>
      rw [perform, ConfigFile.appendFiles, follows.names, Origin.perform]
      by_cases memory : s.InMemory
      · have here : s.names = [[]] := memory
        rw [if_pos here, if_pos memory]
        exact ⟨c, _, rfl, follows, rfl, fun _ => rfl⟩
      · have elsewhere : s.names ≠ [[]] := memory
        have longer : Follows { c with fileNames := s.names ++ files } ⟨s.names ++ files, s.doc⟩ :=
          ⟨⟨follows.shown.sections, follows.shown.absent, follows.shown.named, follows.shown.keyed⟩, rfl,
            List.append_ne_nil_of_left_ne_nil follows.some files⟩
        rw [if_neg elsewhere, if_neg memory]
        obtain ⟨c', err, performed, next, success, kept⟩ := reload_follows longer disk
        exact ⟨c', err, performed, next, success, fun failed => by rw [kept failed]⟩

/-! ## Runs -/

def performAll (c : ConfigFile) : List FileOperation → Except Panic (ConfigFile × List (Option LoadError))
  | [] => .ok (c, [])
  | op :: rest => do
      let (c, err) ← perform c op
      let (c, errors) ← performAll c rest
      .ok (c, err :: errors)

def Origin.performAll (s : Origin) : List FileOperation → Origin × List Bool
  | [] => (s, [])
  | op :: rest =>
      let (s, success) := s.perform op
      let (s, successes) := s.performAll rest
      (s, success :: successes)

theorem performAll_follows (ops : List FileOperation) (follows : Follows c s) :
    ∃ c' errors, performAll c ops = .ok (c', errors) ∧ Follows c' (s.performAll ops).1 ∧
      errors.map Option.isNone = (s.performAll ops).2 := by
  induction ops generalizing c s with
  | nil => exact ⟨c, [], rfl, follows, rfl⟩
  | cons op rest ih =>
      obtain ⟨next, err, performed, reached, success, -⟩ := perform_follows follows op
      obtain ⟨last, errors, others, ends, successes⟩ := ih reached
      refine ⟨last, err :: errors, ?_, ends, ?_⟩
      · rw [performAll, performed]
        simp only [bind, Except.bind, others]
      · rw [List.map_cons, success, successes]
        rfl

theorem inMemory_kept (memory : s.InMemory) (op : FileOperation) : (s.perform op).1.InMemory := by
  cases op with
  | edit op => exact memory
  | reload disk =>
      rw [Origin.perform, Origin.reload, if_pos memory]
      exact memory
  | reloadData content fails =>
      rw [Origin.perform]
      split
      · rfl
      · exact memory
  | appendFiles disk files =>
      rw [Origin.perform, if_pos memory]
      exact memory

theorem inMemory_run (ops : List FileOperation) (memory : s.InMemory) : (s.performAll ops).1.InMemory := by
  induction ops generalizing s with
  | nil => exact memory
  | cons op rest ih => exact ih (inMemory_kept memory op)

/-- After every run of edits and loads, with whatever the files hold at each load, the store is the document of
the last load that succeeded with the edits behind it. No call panics, and one that fails changes nothing but
the names of the files, which `AppendFiles` keeps. After `ReloadData` the store never belongs to a file again. -/
theorem files_run {disk : Disk} {fileName : Str} {moreFiles : List Str} {c : ConfigFile}
    (loaded : loadConfigFile disk fileName moreFiles = .ok c) (ops : List FileOperation) :
    ∃ doc, loadDocument disk [] (fileName :: moreFiles) = some doc ∧
      ∃ c' errors, performAll c ops = .ok (c', errors) ∧
        let run := Origin.performAll ⟨fileName :: moreFiles, doc⟩ ops
        errors.map Option.isNone = run.2 ∧ c'.fileNames = run.1.names ∧
        c'.getSectionList = run.1.doc.map Prod.fst ∧
        (∀ name, c'.getKeyList name = (get run.1.doc (orDefault name)).map fun entries =>
          (entries.map Prod.fst).filter (· ≠ text " ")) ∧
        (∀ name key, ((c'.data (orDefault name)).getD fun _ => none) key = run.1.doc.value name key) ∧
        (∀ op c'' err, perform c' op = .ok (c'', some err) → c'' = { c' with fileNames := c''.fileNames }) ∧
        (c'.fileNames = [[]] → ∀ more c'' errors, performAll c' more = .ok (c'', errors) → c''.fileNames = [[]]) := by
  obtain ⟨c₀, doc, first, made, shown, same⟩ | ⟨err, failed, -⟩ :=
    loadFiles_cases disk (fileName :: moreFiles) (represents_new (fileName :: moreFiles))
  case inr => cases loaded.symm.trans failed
  cases loaded.symm.trans first
  have follows : Follows c ⟨fileName :: moreFiles, doc⟩ := ⟨shown, same, List.cons_ne_nil _ _⟩
  obtain ⟨c', errors, performed, reached, successes⟩ := performAll_follows ops follows
  refine ⟨doc, made, c', errors, performed, successes, reached.names, reached.shown.sections.names.symm,
    reached.shown.keyList, reached.shown.value_eq, fun op c'' err failed => ?_, fun memory more c'' errors later => ?_⟩
  · obtain ⟨next, error, result, -, -, kept⟩ := perform_follows reached op
    cases result.symm.trans failed
    exact kept rfl
  · obtain ⟨next, list, result, ends, -⟩ := performAll_follows more reached
    cases result.symm.trans later
    rw [ends.names]
    exact inMemory_run more (reached.names.symm.trans memory)

/-- A file that breaks between two loads. -/
def goodFile : File := { content := text "[s]\nk = 1\n" }
def brokenFile : File := { content := text "[s]\nk = 2\nx\n" }

theorem files_run_broken :
    ∃ c c' errors, loadConfigFile (fun _ => .ok goodFile) (text "f") [] = .ok c ∧
      performAll c [.reload fun _ => .ok brokenFile, .appendFiles (fun _ => .error "gone") [text "g"],
        .edit (.setValue (text "s") (text "n") (text "3"))] = .ok (c', errors) ∧
      errors.map Option.isNone = [false, false, true] ∧ c'.fileNames = [text "f", text "g"] ∧
      ((c'.data (text "s")).getD fun _ => none) (text "k") = some (text "1") := by
  have loaded : ∃ c, loadConfigFile (fun _ => .ok goodFile) (text "f") [] = .ok c := by
    obtain ⟨c, doc, loaded, -⟩ | ⟨err, failed, none⟩ :=
      loadFiles_cases (fun _ => .ok goodFile) [text "f"] (represents_new [text "f"])
    · exact ⟨c, loaded⟩
    · exact absurd none (by decide +kernel)
  obtain ⟨c, loaded⟩ := loaded
  obtain ⟨doc, made, c', errors, performed, successes, names, -, -, values, -⟩ := files_run loaded
    [.reload fun _ => .ok brokenFile, .appendFiles (fun _ => .error "gone") [text "g"],
      .edit (.setValue (text "s") (text "n") (text "3"))]
  have document : doc = [(text "s", [(text " ", text " "), (text "k", text "1")])] :=
    Option.some.inj (made.symm.trans (by decide +kernel))
  subst document
  refine ⟨c, c', errors, loaded, performed, successes.trans (by decide +kernel), names.trans (by decide +kernel), ?_⟩
  exact (values (text "s") (text "k")).trans (by decide +kernel)

end Xrtc.Proof.ConfigReload
