import Xrtc.Proof.ConfigFile

/-!
# Values with references

The DEFAULT section is a system of equations: its values are texts with references to its keys. Without
a cycle `GetValue` computes the solution, with one it does not return.
-/

namespace Xrtc.Proof.ConfigValue
open Go Lib Lib.Strings Lib.Printf Lib.Template

def option (name : Str) : Str := optionName (varPattern.reference name)

def defaults (c : ConfigFile) : Str → Option Str := (c.data DEFAULT_SECTION).getD fun _ => none

/-- The values are texts with few enough references, each to a key of lower rank or to none. -/
structure Acyclic (keys : Str → Option Str) (segments : Str → List (Segment UInt8)) (rank : Str → Nat) :
    Prop where
  text : ∀ key value, keys key = some value → value = varPattern.render (segments key)
  formed : ∀ key, (keys key).isSome → ∀ segment ∈ segments key, varPattern.Formed segment
  few : ∀ key, (keys key).isSome → (names (segments key)).toFinset.card ≤ depthValues
  below : ∀ key, (keys key).isSome → ∀ name ∈ names (segments key), (keys (option name)).isSome →
    rank (option name) < rank key

/-- What stands for a name: the value of its key in the DEFAULT section, or nothing. -/
def lookup (keys : Str → Option Str) (solution : Str → Str) (name : Str) : Str :=
  if (keys (option name)).isSome then solution (option name) else []

def Solves (keys : Str → Option Str) (segments : Str → List (Segment UInt8)) (solution : Str → Str) : Prop :=
  ∀ key, (keys key).isSome → solution key = subst (lookup keys solution) (segments key)

variable {keys : Str → Option Str} {segments : Str → List (Segment UInt8)} {rank : Str → Nat}

theorem subst_congr {first second : Str → Str} {list : List (Segment UInt8)}
    (same : ∀ name ∈ names list, first name = second name) : subst first list = subst second list := by
  refine List.flatMap_congr fun segment member => ?_
  cases segment with
  | text s => rfl
  | ref name => exact same name (List.mem_filterMap.mpr ⟨_, member, rfl⟩)

/-- The values with references followed this deep. -/
def meaning (keys : Str → Option Str) (segments : Str → List (Segment UInt8)) : Nat → Str → Str
  | 0, _ => []
  | depth + 1, key => subst (lookup keys (meaning keys segments depth)) (segments key)

theorem meaning_stable (acyclic : Acyclic keys segments rank) (depth : Nat) :
    ∀ key, (keys key).isSome → rank key < depth →
      meaning keys segments (depth + 1) key = meaning keys segments depth key := by
  induction depth with
  | zero => exact fun key present low => absurd low (Nat.not_lt_zero _)
  | succ depth ih =>
      intro key present low
      refine subst_congr fun name member => ?_
      rw [lookup, lookup]
      split
      · next there => exact ih _ there (by have := acyclic.below key present name member there; omega)
      · rfl

theorem meaning_eq (acyclic : Acyclic keys segments rank) {depth : Nat} {key : Str}
    (present : (keys key).isSome) (low : rank key < depth) :
    meaning keys segments depth key = meaning keys segments (rank key + 1) key := by
  induction depth with
  | zero => exact absurd low (Nat.not_lt_zero _)
  | succ depth ih =>
      obtain deeper | last := Nat.lt_or_ge (rank key) depth
      · rw [meaning_stable acyclic depth key present deeper, ih deeper]
      · rw [Nat.le_antisymm (Nat.lt_succ_iff.mp low) last]

theorem exists_solution (acyclic : Acyclic keys segments rank) : ∃ solution, Solves keys segments solution := by
  refine ⟨fun key => meaning keys segments (rank key + 1) key, fun key present => ?_⟩
  refine subst_congr fun name member => ?_
  rw [lookup, lookup]
  split
  · next there => exact meaning_eq acyclic there (acyclic.below key present name member there)
  · rfl

/-! ## One call -/

variable {c : ConfigFile}

/-- What comes in the place of a reference in a value of the section `home` with these keys. -/
def resolve (c : ConfigFile) (fuel : Nat) (home : Str) (keys : Str → Option Str) (vr : Str) : Option Str :=
  (c.getValue fuel DEFAULT_SECTION (optionName vr)).map fun
    | .ok nvalue => nvalue
    | .error _ => if home ≠ DEFAULT_SECTION then (keys (optionName vr)).getD [] else []

theorem getValue_present {name key value : Str} {keys : Str → Option Str}
    (there : c.data (orDefault name) = some keys) (found : keys key = some value) (fuel : Nat) :
    c.getValue (fuel + 1) name key =
      (varPattern.expand (resolve c fuel (orDefault name) keys) depthValues value).map .ok := by
  rw [ConfigFile.getValue]
  simp only [there, found]
  rfl

theorem getValue_parent {name key : Str} {keys : Str → Option Str} {i : Nat}
    (there : c.data (orDefault name) = some keys) (missing : keys key = none)
    (dot : lastIndex (text ".") (orDefault name) = some i) (fuel : Nat) :
    c.getValue (fuel + 1) name key = c.getValue fuel ((orDefault name).take i) key := by
  rw [ConfigFile.getValue]
  simp only [there, missing, dot]

theorem getValue_undefined {key : Str} (missing : defaults c key = none) (fuel : Nat) :
    ∃ err, c.getValue (fuel + 1) DEFAULT_SECTION key = some (.error err) := by
  have root : lastIndex (text ".") DEFAULT_SECTION = none := by decide +kernel
  have name : orDefault DEFAULT_SECTION = DEFAULT_SECTION := by decide
  rw [defaults] at missing
  rw [ConfigFile.getValue]
  simp only [name]
  cases there : c.data DEFAULT_SECTION with
  | none => exact ⟨_, rfl⟩
  | some keys =>
      rw [there, Option.getD_some] at missing
      simp only [missing, root]
      exact ⟨_, rfl⟩

theorem defaults_data {key value : Str} (found : defaults c key = some value) :
    ∃ keys, c.data (orDefault DEFAULT_SECTION) = some keys ∧ keys key = some value := by
  have name : orDefault DEFAULT_SECTION = DEFAULT_SECTION := by decide
  rw [defaults] at found
  rw [name]
  cases there : c.data DEFAULT_SECTION with
  | none => rw [there] at found; cases found
  | some keys => exact ⟨keys, rfl, by rwa [there] at found⟩

/-- What stands for a name in a section: a name that the DEFAULT section does not have is looked up in the
section itself. -/
def lookupIn (c : ConfigFile) (solution : Str → Str) (home : Str) (keys : Str → Option Str) (name : Str) : Str :=
  if (defaults c (option name)).isSome then solution (option name)
  else if home ≠ DEFAULT_SECTION then (keys (option name)).getD [] else []

theorem resolve_reference {solution : Str → Str} {fuel : Nat} (positive : 0 < fuel) {name : Str}
    (known : (defaults c (option name)).isSome →
      c.getValue fuel DEFAULT_SECTION (option name) = some (.ok (solution (option name))))
    (home : Str) (keys : Str → Option Str) :
    resolve c fuel home keys (varPattern.reference name) = some (lookupIn c solution home keys name) := by
  rw [resolve, lookupIn]
  cases defined : defaults c (option name) with
  | some value =>
      have got := known (by rw [defined]; rfl)
      rw [option] at got
      rw [got]
      rfl
  | none =>
      obtain ⟨fuel, rfl⟩ := Nat.exists_eq_succ_of_ne_zero (Nat.ne_of_gt positive)
      obtain ⟨err, failed⟩ := getValue_undefined defined fuel
      rw [option] at failed
      rw [failed]
      rfl

/-! ## The DEFAULT section -/

section Defaults

variable {solution : Str → Str} (acyclic : Acyclic (defaults c) segments rank)
  (solves : Solves (defaults c) segments solution)

include acyclic solves

theorem solution_unmarked (depth : Nat) :
    ∀ key, (defaults c key).isSome → rank key < depth → varPattern.mark ∉ solution key := by
  induction depth with
  | zero => exact fun key present low => absurd low (Nat.not_lt_zero _)
  | succ depth ih =>
      intro key present low
      rw [solves key present]
      refine varPattern.unmarked_subst (acyclic.formed key present) fun name member => ?_
      rw [lookup]
      split
      · next there => exact ih _ there (by have := acyclic.below key present name member there; omega)
      · exact List.not_mem_nil

theorem lookup_unmarked (name : Str) : varPattern.mark ∉ lookup (defaults c) solution name := by
  rw [lookup]
  split
  · next there => exact solution_unmarked acyclic solves _ _ there (Nat.lt_succ_self _)
  · exact List.not_mem_nil

theorem getValue_default (fuel : Nat) : ∀ key, (defaults c key).isSome → rank key + 2 ≤ fuel →
    c.getValue fuel DEFAULT_SECTION key = some (.ok (solution key)) := by
  induction fuel with
  | zero => exact fun key present deep => absurd deep (by omega)
  | succ fuel ih =>
      intro key present deep
      obtain ⟨value, found⟩ := Option.isSome_iff_exists.mp present
      obtain ⟨keys, there, stored⟩ := defaults_data found
      have here (name : Str) : lookupIn c solution (orDefault DEFAULT_SECTION) keys name =
          lookup (defaults c) solution name := by
        rw [lookupIn, lookup, if_neg (not_not_intro (by decide))]
      rw [getValue_present there stored, acyclic.text key value found,
        varPattern.expand_render depthValues (acyclic.formed key present) (fun name member => ?_)
          (fun name _ => lookup_unmarked acyclic solves name) (acyclic.few key present),
        ← solves key present]
      · rfl
      · rw [← here]
        refine resolve_reference (by omega) (fun defined => ?_) _ keys
        have lower := acyclic.below key present name member defined
        exact ih (option name) defined (by omega)

end Defaults

/-! ## All sections -/

/-- The key is found in the section `home`, the section of this name or the next one above it that has
the key. -/
inductive Found (c : ConfigFile) (key : Str) : (name home : Str) → (Str → Option Str) → Str → Prop
  | here {name : Str} {keys : Str → Option Str} {value : Str} (there : c.data (orDefault name) = some keys)
      (stored : keys key = some value) : Found c key name (orDefault name) keys value
  | above {name home : Str} {own keys : Str → Option Str} {value : Str} {i : Nat}
      (there : c.data (orDefault name) = some own) (missing : own key = none)
      (dot : lastIndex (text ".") (orDefault name) = some i)
      (found : Found c key ((orDefault name).take i) home keys value) : Found c key name home keys value

theorem getValue_found {key name home value : Str} {keys : Str → Option Str}
    (found : Found c key name home keys value) : ∃ steps,
      (∀ fuel ≤ steps, c.getValue fuel name key = none) ∧ ∀ fuel, c.getValue (fuel + 1 + steps) name key =
        (varPattern.expand (resolve c fuel home keys) depthValues value).map .ok := by
  induction found with
  | here there stored =>
      refine ⟨0, fun fuel none => ?_, getValue_present there stored⟩
      rw [Nat.le_zero.mp none]
      rfl
  | above there missing dot _ ih =>
      obtain ⟨steps, early, late⟩ := ih
      refine ⟨steps + 1, fun fuel few => ?_, fun fuel => ?_⟩
      · cases fuel with
        | zero => rfl
        | succ fuel =>
            rw [getValue_parent there missing dot]
            exact early fuel (by omega)
      · rw [← Nat.add_assoc, getValue_parent there missing dot]
        exact late fuel

def deepest (rank : Str → Nat) (names : List Str) : Nat := (names.map fun name => rank (option name)).foldr max 0

theorem rank_le_deepest {names : List Str} {name : Str} (member : name ∈ names) :
    rank (option name) ≤ deepest rank names := by
  induction names with
  | nil => cases member
  | cons first rest ih =>
      simp only [deepest, List.map_cons, List.foldr_cons] at ih ⊢
      obtain rfl | later := List.mem_cons.mp member
      · exact Nat.le_max_left ..
      · exact (ih later).trans (Nat.le_max_right ..)

theorem dropWhile_self_iff {p : UInt8 → Bool} (s : Str) :
    s.dropWhile p = s ↔ ∀ b, s.head? = some b → p b = false := by
  cases s with
  | nil => simp
  | cons b rest =>
      cases passed : p b with
      | false => simp [passed]
      | true =>
          have shorter : (rest.dropWhile p).length ≤ rest.length := (List.dropWhile_suffix p).length_le
          constructor
          · intro same
            rw [List.dropWhile_cons_of_pos passed] at same
            rw [same, List.length_cons] at shorter
            omega
          · intro none
            rw [none b rfl] at passed
            cases passed

theorem option_eq (name : Str) : option name = trimRight (trimLeft name (text "%(")) (text ")s") := by
  have front : trimLeft (varPattern.reference name) (text "%(") =
      trimLeft name (text "%(") ++ [0x29, 0x73] := by
    have marks : varPattern.reference name = [0x25, 0x28] ++ (name ++ [0x29, 0x73]) := rfl
    have stop : ([0x29, 0x73] : Str).dropWhile (· ∈ text "%(") = [0x29, 0x73] := by decide
    rw [trimLeft, trimLeft, marks, List.dropWhile_append_of_pos (by decide +kernel), List.dropWhile_append,
      stop]
    split
    · next empty => rw [List.isEmpty_iff.mp empty, List.nil_append]
    · rfl
  rw [option, optionName, front, trimRight, trimRight, List.reverse_append,
    List.dropWhile_append_of_pos (by decide +kernel)]

theorem option_self_iff {name : Str} (proper : varPattern.Proper name) :
    option name = name ↔ name.head? ≠ some 0x28 ∧ name.getLast? ≠ some 0x73 := by
  have left : trimLeft name (text "%(") = name ↔ name.head? ≠ some 0x28 := by
    rw [trimLeft, dropWhile_self_iff]
    constructor
    · intro all opens
      exact absurd (all _ opens) (by decide)
    · intro differs b first
      refine decide_eq_false fun cut => ?_
      have two : text "%(" = [0x25, 0x28] := by decide
      rw [two, List.mem_cons, List.mem_singleton] at cut
      obtain rfl | rfl := cut
      · exact proper.unmarked (List.mem_of_head? first)
      · exact differs first
  have right : trimRight name (text ")s") = name ↔ name.getLast? ≠ some 0x73 := by
    rw [trimRight, List.reverse_eq_iff, dropWhile_self_iff, List.head?_reverse]
    constructor
    · intro all ends
      exact absurd (all _ ends) (by decide)
    · intro differs b last
      refine decide_eq_false fun cut => ?_
      have two : text ")s" = [0x29, 0x73] := by decide
      rw [two, List.mem_cons, List.mem_singleton] at cut
      obtain rfl | rfl := cut
      · exact proper.open_ (List.mem_of_getLast? last)
      · exact differs last
  rw [option_eq, ← left, ← right]
  constructor
  · intro same
    -- Nothing is cut off on the right, so nothing was on the left.
    have back : (trimRight (trimLeft name (text "%(")) (text ")s")).length ≤ (trimLeft name (text "%(")).length := by
      have shorter := (List.dropWhile_suffix (l := (trimLeft name (text "%(")).reverse) (· ∈ text ")s")).length_le
      rwa [List.length_reverse, ← List.length_reverse] at shorter
    have kept : trimLeft name (text "%(") = name :=
      (List.dropWhile_suffix _).eq_of_length_le (by rwa [same] at back)
    exact ⟨kept, by rwa [kept] at same⟩
  · rintro ⟨front, back⟩
    rw [front, back]

/-- If the DEFAULT section is a system of equations without a cycle, in which every `%` belongs to a reference,
`GetValue` returns the value of a key with the solutions in the place of its references: a name that the
DEFAULT section does not have stands for what the section of the key has under it, which must have no `%`, or
for nothing. The key of a name is the name itself exactly if it does not begin with `(` or end with `s`. -/
theorem value_expands (c : ConfigFile) (acyclic : Acyclic (defaults c) segments rank) :
    ∃ solution, Solves (defaults c) segments solution ∧
      (∀ name, varPattern.Proper name →
        (option name = name ↔ name.head? ≠ some 0x28 ∧ name.getLast? ≠ some 0x73)) ∧
      ∀ key name home keys list, Found c key name home keys (varPattern.render list) →
        (∀ segment ∈ list, varPattern.Formed segment) → (names list).toFinset.card ≤ depthValues →
        (∀ other ∈ names list, defaults c (option other) = none →
          varPattern.mark ∉ (keys (option other)).getD []) →
        ∃ enough, ∀ fuel ≥ enough,
          c.getValue fuel name key = some (.ok (subst (lookupIn c solution home keys) list)) := by
  obtain ⟨solution, solves⟩ := exists_solution acyclic
  refine ⟨solution, solves, fun name => option_self_iff, fun key name home keys list found formed few plain => ?_⟩
  obtain ⟨steps, -, late⟩ := getValue_found found
  refine ⟨deepest rank (names list) + 2 + 1 + steps, fun fuel enough => ?_⟩
  obtain ⟨more, rfl⟩ := Nat.exists_eq_add_of_le enough
  have depth : deepest rank (names list) + 2 + 1 + steps + more =
      deepest rank (names list) + 2 + more + 1 + steps := by omega
  rw [depth, late, varPattern.expand_render depthValues formed (fun other member => ?_) (fun other member => ?_) few]
  · rfl
  · refine resolve_reference (by omega) (fun defined => ?_) home keys
    have low : rank (option other) ≤ deepest rank (names list) := rank_le_deepest member
    exact getValue_default acyclic solves _ (option other) defined (by omega)
  · rw [lookupIn]
    split
    · next defined => exact solution_unmarked acyclic solves _ _ defined (Nat.lt_succ_self _)
    · next undefined =>
        split
        · exact plain other member (Option.not_isSome_iff_eq_none.mp undefined)
        · exact List.not_mem_nil

/-! ## A small file -/

def sampleText : Str :=
  text "host = a\nurl = http://%(host)s/\n[x]\nlink = see %(url)s\n[x.y]\n"

def sample : ConfigFile := ((newConfigFile []).read sampleText none).1

def sampleDoc : ConfigFile.Document :=
  [(DEFAULT_SECTION, [(text "host", text "a"), (text "url", text "http://%(host)s/")]),
    (text "x", [(text " ", text " "), (text "link", text "see %(url)s")]), (text "x.y", [(text " ", text " ")])]

theorem sample_represents : ConfigFile.Represents sample sampleDoc := by
  have doc : ConfigFile.Document.apply [] (.read sampleText none) = sampleDoc := by decide +kernel
  rw [← doc]
  exact ConfigFile.read_represents [] sampleText none

def sampleSegments (key : Str) : List (Segment UInt8) :=
  if key = text "url" then [.text (text "http://"), .ref (text "host"), .text (text "/")] else [.text (text "a")]

def sampleRank (key : Str) : Nat := if key = text "url" then 1 else 0

theorem sample_defaults (key : Str) : defaults sample key = sampleDoc.value DEFAULT_SECTION key :=
  sample_represents.value_eq DEFAULT_SECTION key

theorem sample_cases {key value : Str} (found : defaults sample key = some value) :
    key = text "host" ∧ value = text "a" ∨ key = text "url" ∧ value = text "http://%(host)s/" := by
  have listed : OrderedMap.get [(text "host", text "a"), (text "url", text "http://%(host)s/")] key = some value :=
    (sample_defaults key).symm.trans found
  rw [OrderedMap.get, OrderedMap.get, OrderedMap.get] at listed
  split at listed
  · next same => exact .inl ⟨same.symm, (Option.some.inj listed).symm⟩
  · split at listed
    · next same => exact .inr ⟨same.symm, (Option.some.inj listed).symm⟩
    · cases listed

theorem sample_acyclic : Acyclic (defaults sample) sampleSegments sampleRank where
  text key value found := by
    obtain ⟨rfl, rfl⟩ | ⟨rfl, rfl⟩ := sample_cases found <;> decide +kernel
  formed key present := by
    obtain ⟨value, found⟩ := Option.isSome_iff_exists.mp present
    obtain ⟨rfl, -⟩ | ⟨rfl, -⟩ := sample_cases found <;> decide +kernel
  few key present := by
    obtain ⟨value, found⟩ := Option.isSome_iff_exists.mp present
    obtain ⟨rfl, -⟩ | ⟨rfl, -⟩ := sample_cases found <;> decide +kernel
  below key present := by
    obtain ⟨value, found⟩ := Option.isSome_iff_exists.mp present
    obtain ⟨rfl, -⟩ | ⟨rfl, -⟩ := sample_cases found
    · have none : names (sampleSegments (text "host")) = [] := by decide +kernel
      rw [none]
      exact fun name member => nomatch member
    · intro name member defined
      have only : names (sampleSegments (text "url")) = [text "host"] := by decide +kernel
      rw [only, List.mem_singleton] at member
      rw [member]
      decide +kernel

/-- The key is found one section up, and its reference leads over two values. -/
theorem value_expands_sample :
    ∃ fuel, sample.getValue fuel (text "x.y") (text "link") = some (.ok (text "see http://a/")) := by
  obtain ⟨solution, solves, -, expands⟩ := value_expands sample sample_acyclic
  have child : (OrderedMap.get sampleDoc (orDefault (text "x.y"))).isSome := by decide +kernel
  have parent : (OrderedMap.get sampleDoc (orDefault (text "x"))).isSome := by decide +kernel
  obtain ⟨own, there, empty⟩ := sample_represents.data_some child
  obtain ⟨keys, above, stored⟩ := sample_represents.data_some parent
  have missing : own (text "link") = none := by rw [empty]; decide +kernel
  have value : keys (text "link") = some (varPattern.render [.text (text "see "), .ref (text "url")]) := by
    rw [stored]
    decide +kernel
  have dot : lastIndex (text ".") (orDefault (text "x.y")) = some 1 := by decide +kernel
  obtain ⟨enough, returned⟩ := expands (text "link") (text "x.y") (orDefault (text "x")) keys
    [.text (text "see "), .ref (text "url")] (.above there missing dot (.here above value)) (by decide +kernel)
    (by decide +kernel) (fun other member _ => by
      rw [List.mem_singleton.mp member, stored]
      decide +kernel)
  have host : option (text "host") = text "host" := by decide +kernel
  have url : option (text "url") = text "url" := by decide +kernel
  have hosted : (defaults sample (text "host")).isSome := by rw [sample_defaults]; decide +kernel
  have linked : (defaults sample (text "url")).isSome := by rw [sample_defaults]; decide +kernel
  have first : solution (text "host") = text "a" := solves (text "host") hosted
  have filled : lookup (defaults sample) solution (text "host") = text "a" := by
    rw [lookup, host, if_pos hosted, first]
  have parts : sampleSegments (text "url") = [.text (text "http://"), .ref (text "host"), .text (text "/")] := by
    decide +kernel
  have second : solution (text "url") = text "http://" ++ (text "a" ++ (text "/" ++ [])) := by
    rw [solves (text "url") linked, parts]
    simp only [subst, List.flatMap_cons, List.flatMap_nil, Segment.subst, filled]
  refine ⟨enough, ?_⟩
  rw [returned enough (Nat.le_refl _)]
  simp only [subst, List.flatMap_cons, List.flatMap_nil, Segment.subst, lookupIn, url, if_pos linked, second]
  decide +kernel

/-- A chain of first references that never ends. -/
structure Endless (c : ConfigFile) (chain : Nat → Str) : Prop where
  next : ∀ i, ∃ value vr, defaults c (chain i) = some value ∧ varPattern.find value = some vr ∧
    optionName vr = chain (i + 1)

theorem expand_lost {resolve : Str → Option Str} {value vr : Str} (found : varPattern.find value = some vr)
    (lost : resolve vr = none) : varPattern.expand resolve depthValues value = none := by
  rw [depthValues, Marks.expand, found]
  simp only [lost, Option.bind_none]

theorem getValue_endless (fuel : Nat) : ∀ chain, Endless c chain →
    c.getValue fuel DEFAULT_SECTION (chain 0) = none := by
  induction fuel with
  | zero => exact fun chain endless => rfl
  | succ fuel ih =>
      intro chain endless
      obtain ⟨value, vr, defined, found, next⟩ := endless.next 0
      obtain ⟨keys, there, stored⟩ := defaults_data defined
      have later := ih (fun i => chain (i + 1)) ⟨fun i => endless.next (i + 1)⟩
      rw [getValue_present there stored, expand_lost found]
      · rfl
      · rw [resolve, next, later]
        rfl

/-- A value whose first reference leads into an endless chain of first references is never returned: the
calls of `GetValue` go deeper than any bound. -/
theorem value_endless (c : ConfigFile) (chain : Nat → Str) (endless : Endless c chain) {key name home value vr : Str}
    {keys : Str → Option Str} (found : Found c key name home keys value)
    (first : varPattern.find value = some vr) (leads : optionName vr = chain 0) (fuel : Nat) :
    c.getValue fuel name key = none := by
  obtain ⟨steps, early, late⟩ := getValue_found found
  obtain few | many := Nat.lt_or_ge steps fuel
  · obtain ⟨more, rfl⟩ := Nat.exists_eq_add_of_le few
    have depth : steps.succ + more = more + 1 + steps := by omega
    rw [depth, late, expand_lost first]
    · rfl
    · rw [resolve, leads, getValue_endless more chain endless]
      rfl
  · exact early fuel many

def loopText : Str := text "a = %(a)s\n"

def loop : ConfigFile := ((newConfigFile []).read loopText none).1

theorem loop_represents : ConfigFile.Represents loop [(DEFAULT_SECTION, [(text "a", text "%(a)s")])] := by
  have doc : ConfigFile.Document.apply [] (.read loopText none) =
      [(DEFAULT_SECTION, [(text "a", text "%(a)s")])] := by decide +kernel
  rw [← doc]
  exact ConfigFile.read_represents [] loopText none

theorem value_endless_loop : loop.getValue 1000000 [] (text "a") = none := by
  have present : (OrderedMap.get [(DEFAULT_SECTION, [(text "a", text "%(a)s")])] (orDefault [])).isSome := by
    decide +kernel
  obtain ⟨keys, there, stored⟩ := loop_represents.data_some present
  have value : keys (text "a") = some (text "%(a)s") := by rw [stored]; decide +kernel
  have first : varPattern.find (text "%(a)s") = some (text "%(a)s") := by decide +kernel
  have again : optionName (text "%(a)s") = text "a" := by decide +kernel
  have defined : defaults loop (text "a") = some (text "%(a)s") := by
    rw [← value, defaults]
    exact congrArg (fun data => Option.getD data (fun _ => none) (text "a")) there
  exact value_endless loop (fun _ => text "a") ⟨fun _ => ⟨_, _, defined, first, again⟩⟩ (.here there value) first
    again 1000000

end Xrtc.Proof.ConfigValue
