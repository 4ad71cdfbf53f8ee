import Mathlib.Data.List.Basic
import Mathlib.Tactic.SplitIfs

/-!
# Messages that leave in pieces

An outbox holds the messages that are not out completely and how much of the first one is out. `text`
gives the symbols of a message.
-/

namespace Xrtc.Lib

structure Outbox (M : Type*) where
  queue : List M
  pos : Nat

namespace Outbox

variable {M α : Type*} {text : M → List α}

def add (o : Outbox M) (m : M) : Outbox M := { o with queue := o.queue ++ [m] }

def offered (text : M → List α) (o : Outbox M) : List α :=
  match o.queue with
  | [] => []
  | m :: _ => (text m).drop o.pos

/-- The next `n` symbols of the first message go out. -/
def advance (text : M → List α) (o : Outbox M) (n : Nat) : Outbox M :=
  match o.queue with
  | [] => o
  | m :: rest => if (text m).length ≤ n + o.pos then ⟨rest, 0⟩ else { o with pos := o.pos + n }

structure Wf (text : M → List α) (o : Outbox M) : Prop where
  nonempty : ∀ m ∈ o.queue, text m ≠ []
  front : ∀ m rest, o.queue = m :: rest → o.pos < (text m).length
  start : o.queue = [] → o.pos = 0

/-- `sent` is all of the messages `done` and the part of the first message in the queue that is out. -/
def Accounts (text : M → List α) (o : Outbox M) (done : List M) (sent : List α) : Prop :=
  sent = done.flatMap text ++ (o.queue.flatMap text).take o.pos

theorem Wf.add {o : Outbox M} (wf : o.Wf text) {m : M} (nonempty : text m ≠ []) : (o.add m).Wf text := by
  constructor
  · intro m' member
    rcases List.mem_append.1 member with old | new
    · exact wf.nonempty m' old
    · rw [List.mem_singleton.1 new]
      exact nonempty
  · intro m' rest head
    cases queue : o.queue with
    | nil =>
        rw [Outbox.add, queue, List.nil_append] at head
        cases head
        rw [Outbox.add, wf.start queue]
        exact List.length_pos_iff.2 nonempty
    | cons first others =>
        rw [Outbox.add, queue, List.cons_append] at head
        cases head
        exact wf.front _ _ queue
  · intro empty
    simp [Outbox.add] at empty

theorem Wf.of_tail {m : M} {rest : List M} {pos : Nat} (wf : Wf text ⟨m :: rest, pos⟩) :
    Wf text ⟨rest, 0⟩ := by
  refine ⟨fun m' member => wf.nonempty m' (List.mem_cons_of_mem _ member), ?_, fun _ => rfl⟩
  rintro m' others rfl
  exact List.length_pos_iff.2 (wf.nonempty m' (by simp))

theorem Wf.advance {o : Outbox M} (wf : o.Wf text) (n : Nat) : (o.advance text n).Wf text := by
  obtain ⟨queue, pos⟩ := o
  cases queue with
  | nil => exact wf
  | cons m rest =>
      unfold Outbox.advance
      dsimp only
      split_ifs with finished
      · exact wf.of_tail
      · refine ⟨wf.nonempty, ?_, fun empty => by cases empty⟩
        rintro m' others head
        cases head
        dsimp only
        omega

theorem Wf.advance_zero {o : Outbox M} (wf : o.Wf text) : o.advance text 0 = o := by
  obtain ⟨queue, pos⟩ := o
  cases queue with
  | nil => rfl
  | cons m rest =>
      have inside := wf.front m rest rfl
      dsimp only at inside
      simp only [Outbox.advance, Nat.zero_add, if_neg (Nat.not_le.2 inside), Nat.add_zero]

theorem Accounts.add {o : Outbox M} {done : List M} {sent : List α} (accounts : o.Accounts text done sent)
    (wf : o.Wf text) (m : M) : (o.add m).Accounts text done sent := by
  have inside : o.pos ≤ (o.queue.flatMap text).length := by
    cases queue : o.queue with
    | nil => simp [wf.start queue]
    | cons first others =>
        have := wf.front _ _ queue
        simp only [List.flatMap_cons, List.length_append]
        omega
  unfold Accounts at accounts ⊢
  simp only [Outbox.add, List.flatMap_append]
  rw [List.take_append_of_le_length inside, accounts]

theorem Accounts.advance {o : Outbox M} {done : List M} {sent : List α}
    (accounts : o.Accounts text done sent) (wf : o.Wf text) {n : Nat}
    (within : n ≤ (o.offered text).length) :
    ∃ done', done' ++ (o.advance text n).queue = done ++ o.queue ∧
      (o.advance text n).Accounts text done' (sent ++ (o.offered text).take n) := by
  obtain ⟨queue, pos⟩ := o
  cases queue with
  | nil => exact ⟨done, rfl, by simpa [Accounts, Outbox.advance, offered] using accounts⟩
  | cons m rest =>
      have inside : pos < (text m).length := wf.front m rest rfl
      have out : sent = done.flatMap text ++ (text m).take pos := by
        simpa [Accounts, List.take_append_of_le_length (Nat.le_of_lt inside)] using accounts
      have more : n ≤ (text m).length - pos := by simpa [offered] using within
      unfold Outbox.advance
      dsimp only [offered]
      split_ifs with finished
      · refine ⟨done ++ [m], by simp, ?_⟩
        have all : ((text m).drop pos).take n = (text m).drop pos :=
          List.take_of_length_le (by simp; omega)
        simp [Accounts, out, all]
      · refine ⟨done, rfl, ?_⟩
        have part : ((m :: rest).flatMap text).take (pos + n) =
            (text m).take pos ++ ((text m).drop pos).take n := by
          rw [List.flatMap_cons, List.take_append_of_le_length (by omega), List.take_add]
        simp only [Accounts, part, out, List.append_assoc]

theorem Accounts.isPrefix {o : Outbox M} {done : List M} {sent : List α}
    (accounts : o.Accounts text done sent) : sent <+: (done ++ o.queue).flatMap text := by
  rw [accounts, List.flatMap_append]
  exact (List.prefix_append_right_inj _).2 (List.take_prefix _ _)

theorem Accounts.eq_of_empty {o : Outbox M} {done : List M} {sent : List α}
    (accounts : o.Accounts text done sent) (empty : o.queue = []) :
    sent = (done ++ o.queue).flatMap text := by
  rw [accounts, empty]
  simp

end Outbox

end Xrtc.Lib
