import Xrtc.Lib.Mailbox
import Mathlib.Algebra.Order.BigOperators.Group.Finset

/-!
# Announcements in a network of mailboxes

While no write of a tag fails, every queued item is announced exactly once: by a tag in the pipe, by
a sender that still owes the tag, or by the reader that took it.
-/

namespace Xrtc.Lib.Mailbox

variable {T B P L I : Type*}

/-- Changing a family at one index changes a sum over it by the difference at that index. -/
theorem sum_update {ι β : Type*} [Fintype ι] [DecidableEq ι] (g : ι → β) (f : β → Nat) (i : ι)
    (x : β) :
    ∑ j, f (Function.update g i x j) + f (g i) = ∑ j, f (g j) + f x := by
  have elsewhere : ∑ j ∈ Finset.univ.erase i, f (Function.update g i x j) =
      ∑ j ∈ Finset.univ.erase i, f (g j) := by
    apply Finset.sum_congr rfl
    intro j member
    rw [Function.update_of_ne (Finset.ne_of_mem_erase member)]
  have updated := Finset.add_sum_erase Finset.univ (fun j => f (Function.update g i x j))
    (Finset.mem_univ i)
  have original := Finset.add_sum_erase Finset.univ (fun j => f (g j)) (Finset.mem_univ i)
  simp only [Function.update_self] at updated
  omega

/-! ## Tags -/

theorem Wiring.tag_same (w : Wiring T B P L) (b c : B) :
    w.pipeOf b = w.pipeOf c ∧ w.tagOf b = w.tagOf c ↔ b = c := by
  constructor
  · rintro ⟨samePipe, sameTag⟩
    have forward := (w.boxOf_iff (w.pipeOf c) (w.tagOf c) b).mpr ⟨samePipe, sameTag⟩
    have backward := (w.boxOf_iff (w.pipeOf c) (w.tagOf c) c).mpr ⟨rfl, rfl⟩
    exact Option.some.inj (forward.symm.trans backward)
  · rintro rfl
    exact ⟨rfl, rfl⟩

def Net.Tagged (w : Wiring T B P L) (net : Net T B P L I) : Prop :=
  ∀ p, ∀ l ∈ net.pipe p, ∃ b, w.boxOf p l = some b

theorem Net.empty_tagged (w : Wiring T B P L) : (Net.empty : Net T B P L I).Tagged w :=
  fun _ _ member => by cases member

section

variable [DecidableEq T] [DecidableEq B] [DecidableEq P]

theorem Net.step_tagged {w : Wiring T B P L} {net net' : Net T B P L I} {move : Move T B P I}
    (tagged : net.Tagged w) (taken : net.step w move = some net') : net'.Tagged w := by
  intro p l member
  cases move with
  | create t x => obtain ⟨-, rfl⟩ := Net.create_inv taken; exact tagged p l member
  | push t b f => obtain ⟨_, -, rfl⟩ := Net.push_inv taken; exact tagged p l member
  | abandon t => obtain ⟨_, -, rfl⟩ := Net.abandon_inv taken; exact tagged p l member
  | consume t => obtain ⟨_, -, rfl⟩ := Net.consume_inv taken; exact tagged p l member
  | pop t =>
      obtain ⟨c, -, ⟨x, rest, head, rfl⟩ | ⟨-, rfl⟩⟩ := Net.pop_inv taken
      · exact tagged p l member
      · exact tagged p l member
  | notify t =>
      obtain ⟨b, -, -, rfl⟩ := Net.notify_inv taken
      by_cases same : p = w.pipeOf b
      · subst same
        simp only [Function.update_self, List.mem_append, List.mem_singleton] at member
        rcases member with old | rfl
        · exact tagged _ l old
        · exact ⟨b, (w.boxOf_iff _ _ b).2 ⟨rfl, rfl⟩⟩
      · simp only [Function.update_of_ne same] at member
        exact tagged p l member
  | wake q =>
      obtain ⟨l', rest, -, head, rfl⟩ := Net.wake_inv taken
      by_cases same : p = q
      · subst same
        simp only [Function.update_self] at member
        exact tagged p l (head ▸ List.mem_cons_of_mem l' member)
      · simp only [Function.update_of_ne same] at member
        exact tagged p l member

end

section

variable [DecidableEq B] [DecidableEq P] [DecidableEq L]

theorem Net.count_append_tag (w : Wiring T B P L) (net : Net T B P L I) (b c : B) :
    (Function.update net.pipe (w.pipeOf c) (net.pipe (w.pipeOf c) ++ [w.tagOf c])
        (w.pipeOf b)).count (w.tagOf b) =
      (net.pipe (w.pipeOf b)).count (w.tagOf b) + if c = b then 1 else 0 := by
  by_cases same : c = b
  · subst same
    simp [List.count_append]
  · by_cases pipe : w.pipeOf b = w.pipeOf c
    · have tag : w.tagOf c ≠ w.tagOf b := fun tag => same ((w.tag_same c b).mp ⟨pipe.symm, tag⟩)
      simp [pipe, same, List.count_append, tag]
    · simp [Function.update_of_ne pipe, same]

theorem Net.count_cons_tag (w : Wiring T B P L) (net : Net T B P L I) (b : B) (p : P) (l : L)
    (rest : List L) (head : net.pipe p = l :: rest) :
    (Function.update net.pipe p rest (w.pipeOf b)).count (w.tagOf b) +
        (if w.boxOf p l = some b then 1 else 0) =
      (net.pipe (w.pipeOf b)).count (w.tagOf b) := by
  simp only [w.boxOf_iff]
  by_cases pipe : w.pipeOf b = p
  · subst pipe
    by_cases tag : w.tagOf b = l
    · subst tag
      simp [head]
    · simp [head, tag, Ne.symm tag]
  · simp [pipe]

end

section

variable [Fintype B] [DecidableEq P] [DecidableEq L]

theorem length_eq_sum_count {w : Wiring T B P L} {p : P} {tags : List L}
    (tagged : ∀ l ∈ tags, ∃ b, w.boxOf p l = some b) :
    tags.length = ∑ b with w.pipeOf b = p, tags.count (w.tagOf b) := by
  induction tags with
  | nil => simp
  | cons l tags ih =>
      obtain ⟨b, named⟩ := tagged l (List.mem_cons_self ..)
      obtain ⟨pipe, tag⟩ := (w.boxOf_iff p l b).1 named
      -- of the boxes of this pipe, `l` is the tag of `b` alone
      have one : ∑ c with w.pipeOf c = p, (if l == w.tagOf c then 1 else 0) = 1 := by
        rw [Finset.sum_eq_single b]
        · simp [tag]
        · intro c inPipe other
          rw [if_neg]
          intro same
          apply other
          apply (w.tag_same c b).1
          exact ⟨(Finset.mem_filter.1 inPipe).2.trans pipe.symm, tag.trans (beq_iff_eq.1 same) ▸ rfl⟩
        · intro absent
          exact absurd (Finset.mem_filter.2 ⟨Finset.mem_univ b, pipe⟩) absent
      simp only [List.length_cons, List.count_cons, Finset.sum_add_distrib, one]
      rw [ih fun l member => tagged l (List.mem_cons_of_mem _ member)]

end

/-! ## Announcements -/

variable [Fintype T] [DecidableEq B]

theorem Net.sum_debt [DecidableEq I] (net : Net T B P L I) (b : B) :
    ∑ t, (net.role t).debt b = (Finset.univ.filter fun t => net.role t = .owes b).card := by
  rw [Finset.card_filter]
  apply Finset.sum_congr rfl
  intro t _
  cases net.role t <;> simp [Role.debt]

variable [DecidableEq L]

/-- The announcements of box `b`: tags in its pipe, senders that owe one, a reader that took one. -/
def Net.due (w : Wiring T B P L) (net : Net T B P L I) (b : B) : Nat :=
  (net.pipe (w.pipeOf b)).count (w.tagOf b) + ∑ t, (net.role t).debt b + ∑ t, (net.role t).claim b

def Net.Balanced (w : Wiring T B P L) (net : Net T B P L I) : Prop :=
  ∀ b, (net.queue b).length = net.due w b

/-- No announcement is without an item; a failed write leaves an item without announcement. -/
def Net.Covered (w : Wiring T B P L) (net : Net T B P L I) : Prop :=
  ∀ b, net.due w b ≤ (net.queue b).length

theorem Net.empty_balanced (w : Wiring T B P L) : (Net.empty : Net T B P L I).Balanced w := by
  intro b
  simp [Net.empty, Net.due, Role.debt, Role.claim]

theorem Net.Balanced.covered {w : Wiring T B P L} {net : Net T B P L I} (balanced : net.Balanced w) :
    net.Covered w := fun b => (balanced b).ge

theorem Net.Balanced.quiet {w : Wiring T B P L} {net : Net T B P L I} (balanced : net.Balanced w)
    (drained : ∀ p, net.pipe p = []) (idle : ∀ t, net.role t = .free) (b : B) :
    net.queue b = [] := by
  apply List.eq_nil_of_length_eq_zero
  rw [balanced b]
  simp [Net.due, drained, idle, Role.debt, Role.claim]

theorem Net.Covered.woken_nonempty {w : Wiring T B P L} {net : Net T B P L I}
    (covered : net.Covered w) {t : T} {b : B} (woken : net.role t = .woken b) :
    net.queue b ≠ [] := by
  intro empty
  have one := Finset.single_le_sum (f := fun t => (net.role t).claim b)
    (fun _ _ => Nat.zero_le _) (Finset.mem_univ t)
  have claimed : (net.role t).claim b = 1 := by simp [woken, Role.claim]
  have bound := covered b
  simp only [Net.due, empty, List.length_nil] at bound
  omega

variable [DecidableEq T]

theorem Net.due_role (w : Wiring T B P L) (net : Net T B P L I) (t : T) (r : Role B I) (b : B) :
    Net.due w { net with role := Function.update net.role t r } b +
        (net.role t).debt b + (net.role t).claim b =
      net.due w b + r.debt b + r.claim b := by
  have debts := sum_update net.role (Role.debt b) t r
  have claims := sum_update net.role (Role.claim b) t r
  simp only [Net.due]
  omega

variable [DecidableEq P]

/-- Except for a failed write, a step changes a queue's length and its announcements alike. -/
theorem Net.due_step {w : Wiring T B P L} {net net' : Net T B P L I} {move : Move T B P I}
    (covered : net.Covered w) (kept : ∀ t, move ≠ .abandon t) (taken : net.step w move = some net')
    (b : B) : (net'.queue b).length + net.due w b = (net.queue b).length + net'.due w b := by
  cases move with
  | create t x =>
      obtain ⟨free, rfl⟩ := Net.create_inv taken
      have change := net.due_role w t (.holding x) b
      simp only [free, Role.debt, Role.claim, Net.due] at change ⊢
      omega
  | push t c f =>
      obtain ⟨x, held, rfl⟩ := Net.push_inv taken
      have change := net.due_role w t (.owes c) b
      simp only [held, Role.debt, Role.claim, Net.due] at change ⊢
      by_cases same : c = b
      · subst same
        simp only [Function.update_self, List.length_append, List.length_singleton,
          if_true] at change ⊢
        omega
      · simp only [Function.update_of_ne (Ne.symm same), same, if_false] at change ⊢
        omega
  | notify t =>
      obtain ⟨c, owed, -, rfl⟩ := Net.notify_inv taken
      have change := net.due_role w t .free b
      have tags := net.count_append_tag w b c
      simp only [owed, Role.debt, Role.claim, Net.due] at change ⊢
      omega
  | abandon t => exact absurd rfl (kept t)
  | wake p =>
      obtain ⟨l, rest, free, head, rfl⟩ := Net.wake_inv taken
      have tags := net.count_cons_tag w b p l rest head
      cases named : w.boxOf p l with
      | none =>
          have change := net.due_role w (w.readerOf p) .free b
          simp only [named, free, Role.debt, Role.claim, Net.due] at change tags ⊢
          simp only [reduceCtorEq, if_false] at tags
          omega
      | some c =>
          have change := net.due_role w (w.readerOf p) (.woken c) b
          simp only [named, free, Role.debt, Role.claim, Net.due, Option.some.injEq] at change tags ⊢
          omega
  | pop t =>
      obtain ⟨c, woken, ⟨x, rest, head, rfl⟩ | ⟨empty, rfl⟩⟩ := Net.pop_inv taken
      · have change := net.due_role w t (.holding x) b
        simp only [woken, Role.debt, Role.claim, Net.due] at change ⊢
        by_cases same : c = b
        · subst same
          simp only [Function.update_self, head, List.length_cons, if_true] at change ⊢
          omega
        · simp only [Function.update_of_ne (Ne.symm same), same, if_false] at change ⊢
          omega
      · exact absurd empty (covered.woken_nonempty woken)
  | consume t =>
      obtain ⟨x, held, rfl⟩ := Net.consume_inv taken
      have change := net.due_role w t .free b
      simp only [held, Role.debt, Role.claim, Net.due] at change ⊢
      omega

theorem Net.step_balanced {w : Wiring T B P L} {net net' : Net T B P L I} {move : Move T B P I}
    (balanced : net.Balanced w) (kept : ∀ t, move ≠ .abandon t)
    (taken : net.step w move = some net') : net'.Balanced w := by
  intro b
  have change := Net.due_step balanced.covered kept taken b
  have before := balanced b
  omega

theorem Net.step_covered {w : Wiring T B P L} {net net' : Net T B P L I} {move : Move T B P I}
    (covered : net.Covered w) (taken : net.step w move = some net') : net'.Covered w := by
  intro b
  have before := covered b
  by_cases failed : ∃ t, move = .abandon t
  · obtain ⟨t, rfl⟩ := failed
    obtain ⟨c, owed, rfl⟩ := Net.abandon_inv taken
    have change := net.due_role w t .free b
    simp only [owed, Role.debt, Role.claim] at change
    simp only
    omega
  · have change := Net.due_step covered (fun t same => failed ⟨t, same⟩) taken b
    omega

/-! ## Full pipes -/

variable [Fintype B]

omit [DecidableEq T] in
/-- While a thread waits to write into a pipe, the boxes of the pipe hold more items than the pipe holds
tags. -/
theorem Net.Covered.backlog {w : Wiring T B P L} {net : Net T B P L I} (covered : net.Covered w)
    (tagged : net.Tagged w) {t : T} {b : B} (owed : net.role t = .owes b) :
    (net.pipe (w.pipeOf b)).length + 1 ≤ ∑ c with w.pipeOf c = w.pipeOf b, (net.queue c).length := by
  have debt : (net.role t).debt b = 1 := by simp [owed, Role.debt]
  have debts := Finset.single_le_sum (f := fun t => (net.role t).debt b) (fun _ _ => Nat.zero_le _)
    (Finset.mem_univ t)
  have strict : ∑ c with w.pipeOf c = w.pipeOf b, (net.pipe (w.pipeOf b)).count (w.tagOf c) <
      ∑ c with w.pipeOf c = w.pipeOf b, (net.queue c).length := by
    apply Finset.sum_lt_sum
    · intro c inPipe
      have bound := covered c
      rw [Net.due, (Finset.mem_filter.1 inPipe).2] at bound
      omega
    · refine ⟨b, Finset.mem_filter.2 ⟨Finset.mem_univ b, rfl⟩, ?_⟩
      have bound := covered b
      rw [Net.due] at bound
      omega
  rw [length_eq_sum_count (tagged (w.pipeOf b))]
  exact strict

end Xrtc.Lib.Mailbox
