import Mathlib.Data.List.Nodup
import Mathlib.Logic.Function.Basic

/-!
# Maps that remember the order of their keys

A map beside a list of its keys is the list of its entries in the order in which their keys came
first. `Holds` relates the two; the values may be of different types, related key by key, so that
the relation also covers maps of maps.
-/

namespace Xrtc.Lib.OrderedMap

variable {κ β γ : Type} [DecidableEq κ]

def get : List (κ × β) → κ → Option β
  | [], _ => none
  | (k, v) :: rest, key => if k = key then some v else get rest key

/-- A new key comes last, an old one keeps its place. -/
def put (key : κ) (value : β) : List (κ × β) → List (κ × β)
  | [] => [(key, value)]
  | (k, v) :: rest => if k = key then (k, value) :: rest else (k, v) :: put key value rest

def remove (key : κ) (entries : List (κ × β)) : List (κ × β) := entries.filter (·.1 ≠ key)

theorem get_isSome (entries : List (κ × β)) (key : κ) :
    (get entries key).isSome ↔ key ∈ entries.map Prod.fst := by
  induction entries with
  | nil => simp [get]
  | cons entry rest ih =>
      rw [get, List.map_cons, List.mem_cons]
      split
      · next same => simp [same]
      · next other => simp [ih, Ne.symm other]

theorem get_eq_none {entries : List (κ × β)} {key : κ} (absent : key ∉ entries.map Prod.fst) :
    get entries key = none :=
  Option.not_isSome_iff_eq_none.mp fun there => absent ((get_isSome entries key).mp there)

theorem get_of_mem {entries : List (κ × β)} (distinct : (entries.map Prod.fst).Nodup) {key : κ} {value : β}
    (member : (key, value) ∈ entries) : get entries key = some value := by
  induction entries with
  | nil => cases member
  | cons entry rest ih =>
      rw [List.map_cons, List.nodup_cons] at distinct
      rw [get]
      obtain rfl | later := List.mem_cons.mp member
      · rw [if_pos rfl]
      · have other : entry.1 ≠ key := fun same => distinct.1 (same ▸ List.mem_map_of_mem later)
        rw [if_neg other, ih distinct.2 later]

theorem mem_of_get {entries : List (κ × β)} {key : κ} {value : β} (stored : get entries key = some value) :
    (key, value) ∈ entries := by
  induction entries with
  | nil => cases stored
  | cons entry rest ih =>
      rw [get] at stored
      split at stored
      · next same =>
          rw [← same, ← Option.some.inj stored]
          exact List.mem_cons_self ..
      · exact List.mem_cons_of_mem _ (ih stored)

theorem get_put (key : κ) (value : β) (entries : List (κ × β)) (k : κ) :
    get (put key value entries) k = if k = key then some value else get entries k := by
  induction entries with
  | nil => grind [put, get]
  | cons entry rest ih => grind [put, get]

theorem get_remove (key : κ) (entries : List (κ × β)) (k : κ) :
    get (remove key entries) k = if k = key then none else get entries k := by
  induction entries with
  | nil => grind [remove, get]
  | cons entry rest ih => grind [remove, get]

theorem names_put (key : κ) (value : β) (entries : List (κ × β)) :
    (put key value entries).map Prod.fst =
      if key ∈ entries.map Prod.fst then entries.map Prod.fst else entries.map Prod.fst ++ [key] := by
  induction entries with
  | nil => simp [put]
  | cons entry rest ih => grind [put]

theorem names_remove (key : κ) (entries : List (κ × β)) :
    (remove key entries).map Prod.fst = (entries.map Prod.fst).filter (· ≠ key) := by
  rw [remove, List.filter_map]
  rfl

theorem put_new {key : κ} {entries : List (κ × β)} (absent : key ∉ entries.map Prod.fst) (value : β) :
    put key value entries = entries ++ [(key, value)] := by
  induction entries with
  | nil => rfl
  | cons entry rest ih =>
      rw [List.map_cons, List.mem_cons, not_or] at absent
      rw [put, if_neg (Ne.symm absent.1), ih absent.2, List.cons_append]

theorem mem_put {key : κ} {value : β} {entries : List (κ × β)} {entry : κ × β}
    (member : entry ∈ put key value entries) :
    entry = (key, value) ∨ entry ∈ entries := by
  induction entries with
  | nil => exact .inl (List.mem_singleton.mp member)
  | cons first rest ih =>
      rw [put] at member
      split at member
      · next same =>
          obtain here | later := List.mem_cons.mp member
          · exact .inl (same ▸ here)
          · exact .inr (List.mem_cons_of_mem _ later)
      · obtain here | later := List.mem_cons.mp member
        · exact .inr (here ▸ List.mem_cons_self ..)
        · exact (ih later).imp_right (List.mem_cons_of_mem _)

theorem put_ne_nil (key : κ) (value : β) (entries : List (κ × β)) : put key value entries ≠ [] := by
  cases entries with
  | nil => exact List.cons_ne_nil _ _
  | cons entry rest =>
      rw [put]
      split <;> exact List.cons_ne_nil _ _

theorem head?_put {key : κ} {first : κ × β} {entries : List (κ × β)} (head : entries.head? = some first)
    (other : first.1 ≠ key) (value : β) : (put key value entries).head? = some first := by
  cases entries with
  | nil => cases head
  | cons entry rest =>
      cases head
      rw [put, if_neg other]
      rfl

theorem put_last {key : κ} {entries : List (κ × β)} (absent : key ∉ entries.map Prod.fst) (old value : β) :
    put key value (entries ++ [(key, old)]) = entries ++ [(key, value)] := by
  induction entries with
  | nil => simp [put]
  | cons entry rest ih =>
      rw [List.map_cons, List.mem_cons, not_or] at absent
      rw [List.cons_append, put, if_neg (Ne.symm absent.1), ih absent.2, List.cons_append]

theorem get_last {key : κ} {entries : List (κ × β)} (absent : key ∉ entries.map Prod.fst) (value : β) :
    get (entries ++ [(key, value)]) key = some value := by
  induction entries with
  | nil => simp [get]
  | cons entry rest ih =>
      rw [List.map_cons, List.mem_cons, not_or] at absent
      rw [List.cons_append, get, if_neg (Ne.symm absent.1), ih absent.2]

theorem take_drop_filter [BEq κ] [LawfulBEq κ] {keys : List κ} (distinct : keys.Nodup) (key : κ) :
    keys.take (keys.idxOf key) ++ keys.drop (keys.idxOf key + 1) = keys.filter (· ≠ key) := by
  rw [← List.eraseIdx_eq_take_drop_succ, List.eraseIdx_idxOf_eq_erase, distinct.erase_eq_filter]
  refine List.filter_congr fun k _ => ?_
  rw [Bool.eq_iff_iff, bne_iff_ne, decide_eq_true_iff]

def Related (rel : γ → β → Prop) : Option γ → Option β → Prop
  | none, none => True
  | some g, some b => rel g b
  | _, _ => False

theorem Related.mono {rel rel' : γ → β → Prop} {g : Option γ} {b : Option β} (related : Related rel g b)
    (weaker : ∀ g b, rel g b → rel' g b) : Related rel' g b := by
  cases g <;> cases b <;> first | exact related | exact weaker _ _ related

theorem Related.isSome_iff {rel : γ → β → Prop} {g : Option γ} {b : Option β} (related : Related rel g b) :
    g.isSome ↔ b.isSome := by
  cases g <;> cases b <;> first | exact related.elim | simp

/-- The map with these keys, in this order, has these entries. -/
structure Holds (rel : κ → γ → β → Prop) (map : κ → Option γ) (keys : List κ) (entries : List (κ × β)) :
    Prop where
  names : entries.map Prod.fst = keys
  distinct : keys.Nodup
  values : ∀ k, Related (rel k) (map k) (get entries k)

variable {rel rel' : κ → γ → β → Prop} {map : κ → Option γ} {keys : List κ} {entries : List (κ × β)}

theorem Holds.mem_iff (holds : Holds rel map keys entries) (key : κ) : key ∈ keys ↔ (map key).isSome := by
  rw [← holds.names, ← get_isSome, (holds.values key).isSome_iff]

theorem holds_nil : Holds rel (fun _ => none) [] [] :=
  ⟨rfl, List.nodup_nil, fun _ => trivial⟩

theorem Holds.put (holds : Holds rel map keys entries) {key : κ} {g : γ} {b : β} (new : rel' key g b)
    (others : ∀ k ≠ key, ∀ g b, rel k g b → rel' k g b) :
    Holds rel' (Function.update map key (some g)) (if (map key).isSome then keys else keys ++ [key])
      (put key b entries) := by
  have member := holds.mem_iff key
  refine ⟨?_, ?_, fun k => ?_⟩
  · simp only [names_put, holds.names, member]
  · by_cases present : (map key).isSome = true
    · rw [if_pos present]
      exact holds.distinct
    · rw [if_neg present, List.nodup_append]
      refine ⟨holds.distinct, List.nodup_singleton key, ?_⟩
      rintro a inside b last rfl
      exact present (member.mp (List.mem_singleton.mp last ▸ inside))
  · rw [get_put]
    by_cases same : k = key
    · rw [same, Function.update_self, if_pos rfl]
      exact new
    · rw [Function.update_of_ne same, if_neg same]
      exact (holds.values k).mono (others k same)

theorem Holds.remove [BEq κ] [LawfulBEq κ] (holds : Holds rel map keys entries) (key : κ)
    (others : ∀ k ≠ key, ∀ g b, rel k g b → rel' k g b) :
    Holds rel' (Function.update map key none) (keys.take (keys.idxOf key) ++ keys.drop (keys.idxOf key + 1))
      (remove key entries) := by
  rw [take_drop_filter holds.distinct]
  refine ⟨?_, holds.distinct.filter _, fun k => ?_⟩
  · rw [names_remove, holds.names]
  · rw [get_remove]
    by_cases same : k = key
    · rw [same, Function.update_self, if_pos rfl]
      trivial
    · rw [Function.update_of_ne same, if_neg same]
      exact (holds.values k).mono (others k same)

end Xrtc.Lib.OrderedMap
