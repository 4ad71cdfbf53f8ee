import Mathlib.Data.List.Basic
import Xrtc.Lib.Machine

/-!
# A buffered writer on a sink that may fail

The sink takes the bytes it is given until it has taken as many as it ever will; the write that goes
beyond fails. The writer hands its buffer on when it is full.
-/

namespace Xrtc.Lib

structure Sink (ε : Type) where
  /-- The number of bytes after which a write fails, and the error. -/
  fails : Option (Nat × ε)

def Sink.Takes {ε : Type} (sink : Sink ε) (n : Nat) : Prop := ∀ k e, sink.fails = some (k, e) → n ≤ k

theorem Sink.Takes.mono {ε : Type} {sink : Sink ε} {m n : Nat} (fewer : m ≤ n) (takes : sink.Takes n) :
    sink.Takes m :=
  fun k e fails => Nat.le_trans fewer (takes k e fails)

structure BufWriter (α : Type) where
  sent : List α
  buf : List α

namespace BufWriter

variable {α ε : Type} {sink : Sink ε} {size : Nat} {w w' : BufWriter α}

def bytes (w : BufWriter α) : List α := w.sent ++ w.buf

def flush (sink : Sink ε) (w : BufWriter α) : Except ε (BufWriter α) :=
  if w.buf.isEmpty then .ok w
  else
    match sink.fails with
    | none => .ok ⟨w.sent ++ w.buf, []⟩
    | some (k, e) => if w.sent.length + w.buf.length ≤ k then .ok ⟨w.sent ++ w.buf, []⟩ else .error e

def flushFull (size : Nat) (sink : Sink ε) (w : BufWriter α) : Except ε (BufWriter α) :=
  if size ≤ w.buf.length then w.flush sink else .ok w

/-- The writer takes from a reader what fits into the buffer, and flushes a full buffer before it
reads on; the bytes are moved one by one here. -/
def readFrom (size : Nat) (sink : Sink ε) (w : BufWriter α) : List α → Except ε (BufWriter α)
  | [] => w.flushFull size sink
  | b :: rest => do
      let w ← w.flushFull size sink
      readFrom size sink ⟨w.sent, w.buf ++ [b]⟩ rest

theorem flush_ok (takes : sink.Takes w.bytes.length) : w.flush sink = .ok ⟨w.bytes, []⟩ := by
  obtain ⟨sent, buf⟩ := w
  unfold flush
  cases buf with
  | nil => rw [bytes, List.append_nil]; rfl
  | cons b buf =>
      rw [if_neg (by simp)]
      cases fails : sink.fails with
      | none => rfl
      | some failure =>
          obtain ⟨k, e⟩ := failure
          have room := takes k e fails
          rw [bytes, List.length_append] at room
          exact if_pos room

/-- A flush that returns has handed everything on, and the sink took it. -/
theorem flush_inv (taken : sink.Takes w.sent.length) (flushed : w.flush sink = .ok w') :
    w' = ⟨w.bytes, []⟩ ∧ sink.Takes w.bytes.length := by
  obtain ⟨sent, buf⟩ := w
  have takes : sink.Takes (BufWriter.mk sent buf).bytes.length := by
    intro k e fails
    rw [bytes, List.length_append]
    unfold flush at flushed
    cases buf with
    | nil => exact taken k e fails
    | cons b buf =>
        rw [if_neg (by simp), fails] at flushed
        dsimp only at flushed
        split at flushed
        · next room => exact room
        · cases flushed
  rw [flush_ok takes] at flushed
  exact ⟨(Except.ok.inj flushed).symm, takes⟩

theorem flushFull_inv (taken : sink.Takes w.sent.length) (flushed : w.flushFull size sink = .ok w') :
    w'.bytes = w.bytes ∧ sink.Takes w'.sent.length := by
  unfold flushFull at flushed
  split at flushed
  · obtain ⟨rfl, takes⟩ := flush_inv taken flushed
    exact ⟨List.append_nil _, takes⟩
  · cases flushed
    exact ⟨rfl, taken⟩

theorem flushFull_ok (takes : sink.Takes w.bytes.length) :
    ∃ w', w.flushFull size sink = .ok w' ∧ w'.bytes = w.bytes := by
  unfold flushFull
  split
  · exact ⟨_, flush_ok takes, List.append_nil _⟩
  · exact ⟨w, rfl, rfl⟩

theorem put_bytes (w : BufWriter α) (b : α) : bytes ⟨w.sent, w.buf ++ [b]⟩ = w.bytes ++ [b] :=
  (List.append_assoc _ _ _).symm

theorem readFrom_inv {rest : List α} (taken : sink.Takes w.sent.length)
    (read : w.readFrom size sink rest = .ok w') :
    w'.bytes = w.bytes ++ rest ∧ sink.Takes w'.sent.length := by
  induction rest generalizing w with
  | nil =>
      obtain ⟨kept, takes⟩ := flushFull_inv taken read
      exact ⟨kept.trans (List.append_nil _).symm, takes⟩
  | cons b rest ih =>
      obtain ⟨w₁, flushed, read⟩ := bind_eq_ok read
      obtain ⟨kept, takes⟩ := flushFull_inv taken flushed
      obtain ⟨all, takes'⟩ := ih (w := ⟨w₁.sent, w₁.buf ++ [b]⟩) takes read
      rw [put_bytes, kept, List.append_assoc] at all
      exact ⟨all, takes'⟩

theorem readFrom_ok {rest : List α} (takes : sink.Takes (w.bytes ++ rest).length) :
    ∃ w', w.readFrom size sink rest = .ok w' ∧ w'.bytes = w.bytes ++ rest := by
  induction rest generalizing w with
  | nil =>
      rw [List.append_nil] at takes ⊢
      exact flushFull_ok takes
  | cons b rest ih =>
      have front : sink.Takes w.bytes.length := takes.mono (by simp)
      obtain ⟨w₁, flushed, kept⟩ : ∃ w₁, w.flushFull size sink = .ok w₁ ∧ w₁.bytes = w.bytes :=
        flushFull_ok front
      have split : (bytes ⟨w₁.sent, w₁.buf ++ [b]⟩) ++ rest = w.bytes ++ b :: rest := by
        rw [put_bytes, kept, List.append_assoc]
        rfl
      obtain ⟨w₂, read, all⟩ := ih (w := ⟨w₁.sent, w₁.buf ++ [b]⟩) (by rw [split]; exact takes)
      refine ⟨w₂, ?_, all.trans split⟩
      rw [readFrom, flushed]
      exact read

/-- A reader is copied and the rest flushed exactly when the sink takes all of it. -/
theorem readFrom_flush_iff {rest : List α} (taken : sink.Takes w.sent.length) :
    (∃ w₁ w₂, w.readFrom size sink rest = .ok w₁ ∧ w₁.flush sink = .ok w₂) ↔
      sink.Takes (w.bytes ++ rest).length := by
  constructor
  · rintro ⟨w₁, w₂, read, flushed⟩
    obtain ⟨all, takes⟩ := readFrom_inv taken read
    rw [← all]
    exact (flush_inv takes flushed).2
  · intro takes
    obtain ⟨w₁, read, all⟩ : ∃ w₁, w.readFrom size sink rest = .ok w₁ ∧ w₁.bytes = w.bytes ++ rest :=
      readFrom_ok takes
    exact ⟨w₁, _, read, flush_ok (by rw [all]; exact takes)⟩

end BufWriter

end Xrtc.Lib
