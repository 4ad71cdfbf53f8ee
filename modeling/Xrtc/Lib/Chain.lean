import Mathlib.Data.List.Nodup
import Mathlib.Logic.Function.Basic
import Mathlib.Logic.Relation

/-!
# Linked lists in a heap

`cells nodes` is the heap that holds the given nodes, each linked to the one behind it, and nothing else.
-/

namespace Xrtc.Lib

structure Cell (A T : Type*) where
  data : T
  next : Option A

namespace Chain

variable {A T : Type*}

abbrev addrs (nodes : List (A × T)) : List A := nodes.map Prod.fst

def front (nodes : List (A × T)) : Option A := nodes.head?.map Prod.fst

def Link (heap : A → Option (Cell A T)) (a b : A) : Prop := ∃ cell, heap a = some cell ∧ cell.next = some b

variable [DecidableEq A] {nodes before behind : List (A × T)} {a b : A} {x y : T}

def cells : List (A × T) → A → Option (Cell A T)
  | [] => fun _ => none
  | (a, x) :: rest => Function.update (cells rest) a (some ⟨x, front rest⟩)

theorem cells_ne_none_iff : cells nodes a ≠ none ↔ a ∈ addrs nodes := by
  induction nodes with
  | nil => simp [cells]
  | cons node rest ih =>
      by_cases same : a = node.1
      · simp [cells, same]
      · simpa [cells, same] using ih

theorem cells_at (nodup : (addrs (before ++ (a, x) :: behind)).Nodup) :
    cells (before ++ (a, x) :: behind) a = some ⟨x, front behind⟩ := by
  induction before with
  | nil => exact Function.update_self ..
  | cons node rest ih =>
      obtain ⟨unlisted, nodup⟩ := List.nodup_cons.1 nodup
      have other : a ≠ node.1 := by
        rintro rfl
        exact unlisted (by simp)
      exact (Function.update_of_ne other _ _).trans (ih nodup)

theorem cells_drop (nodup : (addrs ((a, x) :: behind)).Nodup) :
    Function.update (cells ((a, x) :: behind)) a none = cells behind := by
  have unlisted : a ∉ addrs behind := (List.nodup_cons.1 nodup).1
  rw [cells, Function.update_idem]
  exact Function.update_eq_self_iff.2 (not_not.1 (mt cells_ne_none_iff.1 unlisted)).symm

theorem cells_link (nodup : (addrs (before ++ [(a, x)])).Nodup) (fresh : b ∉ addrs (before ++ [(a, x)])) :
    Function.update (Function.update (cells (before ++ [(a, x)])) b (some ⟨y, none⟩)) a (some ⟨x, some b⟩) =
      cells (before ++ [(a, x)] ++ [(b, y)]) := by
  induction before with
  | nil =>
      have other : b ≠ a := by simpa [addrs] using fresh
      funext c
      by_cases at_a : c = a
      · simp [cells, at_a, front]
      · by_cases at_b : c = b
        · simp [cells, at_b, other, front]
        · simp [cells, at_a, at_b]
  | cons node rest ih =>
      obtain ⟨unlisted, nodup⟩ := List.nodup_cons.1 nodup
      have other : node.1 ≠ a := fun same => unlisted (by simp [same])
      have fresh' : b ≠ node.1 ∧ b ∉ addrs (rest ++ [(a, x)]) := by simpa [addrs] using fresh
      have same : front (rest ++ [(a, x)]) = front (rest ++ [(a, x)] ++ [(b, y)]) := by
        cases rest <;> rfl
      rw [List.cons_append, cells, Function.update_comm fresh'.1.symm, Function.update_comm other,
        ih nodup fresh'.2, same]
      rfl

omit [DecidableEq A] in
theorem nodup_snoc (nodup : (addrs nodes).Nodup) (fresh : b ∉ addrs nodes) :
    (addrs (nodes ++ [(b, y)])).Nodup := by
  rw [addrs, List.map_append]
  exact nodup.append (List.nodup_singleton b) (by simpa using fresh)

omit [DecidableEq A] in
theorem front_mem (first : front nodes = some a) : a ∈ addrs nodes := by
  obtain ⟨node, head, rfl⟩ := Option.map_eq_some_iff.1 first
  exact List.mem_map_of_mem (List.mem_of_head? head)

theorem link_mem (nodup : (addrs (before ++ behind)).Nodup) (member : a ∈ addrs behind)
    (link : Link (cells (before ++ behind)) a b) : b ∈ addrs behind := by
  obtain ⟨⟨a, x⟩, listed, rfl⟩ := List.mem_map.1 member
  obtain ⟨front, back, rfl⟩ := List.append_of_mem listed
  obtain ⟨cell, held, next⟩ := link
  rw [← List.append_assoc] at nodup held
  rw [cells_at nodup] at held
  cases held
  have further := front_mem next
  simp only [addrs, List.map_append, List.map_cons, List.mem_append, List.mem_cons]
  exact .inr (.inr further)

theorem reach_mem (nodup : (addrs (before ++ behind)).Nodup) (member : a ∈ addrs behind)
    (reach : Relation.ReflTransGen (Link (cells (before ++ behind))) a b) : b ∈ addrs behind := by
  induction reach with
  | refl => exact member
  | tail _ link ih => exact link_mem nodup ih link

end Chain

end Xrtc.Lib
