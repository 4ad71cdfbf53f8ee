import Mathlib.Data.List.Basic

/-!
# Byte strings as UTF-8 text

A byte at which no character starts is an invalid one: `runes` has `none` in its place, `sanitize` U+FFFD.
-/

namespace Xrtc.Lib.Utf8

def encode (text : List Char) : List UInt8 := text.flatMap String.utf8EncodeChar

def decodeRune (bytes : List UInt8) : Option Char := bytes.toByteArray.utf8DecodeChar? 0

theorem decodeRune_encode (c : Char) (rest : List UInt8) :
    decodeRune (String.utf8EncodeChar c ++ rest) = some c := by
  rw [decodeRune, List.toByteArray_append, ByteArray.utf8DecodeChar?_utf8EncodeChar_append]

theorem exists_append_of_decodeRune {bytes : List UInt8} {c : Char} (decoded : decodeRune bytes = some c) :
    ∃ rest, bytes = String.utf8EncodeChar c ++ rest := by
  obtain ⟨rest, split⟩ := ByteArray.exists_of_utf8DecodeChar?_eq_some decoded
  refine ⟨rest.data.toList, List.toByteArray_inj.mp ?_⟩
  rw [split, List.toByteArray_append]
  congr 1
  exact ByteArray.ext (by simp)

/-- The first `skip` bytes belong to a character that is already there. -/
def runesFrom : (skip : Nat) → List UInt8 → List (Option Char)
  | _, [] => []
  | skip + 1, _ :: rest => runesFrom skip rest
  | 0, byte :: rest =>
      match decodeRune (byte :: rest) with
      | some c => some c :: runesFrom (c.utf8Size - 1) rest
      | none => none :: runesFrom 0 rest

def runes (bytes : List UInt8) : List (Option Char) := runesFrom 0 bytes

theorem runesFrom_eq (skip : Nat) (bytes : List UInt8) : runesFrom skip bytes = runes (bytes.drop skip) := by
  induction bytes generalizing skip with
  | nil => cases skip <;> rfl
  | cons byte rest ih =>
      cases skip with
      | zero => rfl
      | succ skip => exact ih skip

theorem runes_char (c : Char) (rest : List UInt8) :
    runes (String.utf8EncodeChar c ++ rest) = some c :: runes rest := by
  have size := String.length_utf8EncodeChar c
  have decoded := decodeRune_encode c rest
  cases bytes : String.utf8EncodeChar c with
  | nil =>
      rw [bytes, List.length_nil] at size
      exact absurd c.utf8Size_pos (by omega)
  | cons byte others =>
      rw [bytes, List.length_cons] at size
      rw [bytes, List.cons_append] at decoded
      rw [List.cons_append, runes, runesFrom, decoded]
      simp only
      rw [runesFrom_eq, ← size, Nat.add_sub_cancel, List.drop_left]

theorem runes_invalid {byte : UInt8} {rest : List UInt8} (invalid : decodeRune (byte :: rest) = none) :
    runes (byte :: rest) = none :: runes rest := by
  rw [runes, runesFrom, invalid]
  rfl

@[elab_as_elim]
theorem bytes_induction {motive : List UInt8 → Prop} (nil : motive [])
    (char : ∀ c rest, motive rest → motive (String.utf8EncodeChar c ++ rest))
    (invalid : ∀ byte rest, decodeRune (byte :: rest) = none → motive rest → motive (byte :: rest))
    (bytes : List UInt8) : motive bytes := by
  induction size : bytes.length using Nat.strongRecOn generalizing bytes with
  | _ n ih =>
      cases bytes with
      | nil => exact nil
      | cons byte rest =>
          cases decoded : decodeRune (byte :: rest) with
          | none => exact invalid byte rest decoded (ih rest.length (by simp [← size]) rest rfl)
          | some c =>
              obtain ⟨others, split⟩ := exists_append_of_decodeRune decoded
              have shorter : others.length < n := by
                have pos := c.utf8Size_pos
                rw [← size, split, List.length_append, String.length_utf8EncodeChar]
                omega
              rw [split]
              exact char c others (ih others.length shorter others rfl)

def Valid (bytes : List UInt8) : Prop := none ∉ runes bytes
  deriving Decidable

def replacement : Char := '\uFFFD'

def sanitize (bytes : List UInt8) : List Char := (runes bytes).map (·.getD replacement)

def decode (bytes : List UInt8) : Option (List Char) := if Valid bytes then some (sanitize bytes) else none

theorem runes_encode (text : List Char) : runes (encode text) = text.map some := by
  induction text with
  | nil => rfl
  | cons c text ih =>
      rw [encode, List.flatMap_cons, runes_char, List.map_cons, ← ih]
      rfl

@[simp] theorem decode_encode (text : List Char) : decode (encode text) = some text := by
  have valid : Valid (encode text) := by simp [Valid, runes_encode]
  rw [decode, if_pos valid, sanitize, runes_encode, List.map_map]
  exact congrArg some (List.map_id text)

theorem encode_sanitize {bytes : List UInt8} (valid : Valid bytes) : encode (sanitize bytes) = bytes := by
  induction bytes using bytes_induction with
  | nil => rfl
  | char c rest ih =>
      unfold Valid at valid ih
      rw [runes_char, List.mem_cons, not_or] at valid
      rw [sanitize, runes_char, List.map_cons, encode, List.flatMap_cons]
      exact congrArg (String.utf8EncodeChar c ++ ·) (ih valid.2)
  | invalid byte rest invalid ih =>
      rw [Valid, runes_invalid invalid] at valid
      exact absurd List.mem_cons_self valid

end Xrtc.Lib.Utf8
