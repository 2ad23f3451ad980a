import Mathlib.Data.List.Basic
import Mathlib.Data.Nat.Notation

/-!
# UTF-8 with replacement

A decoder that never fails: the bytes of a character give the character, and
the longest run of bytes that no character can complete gives `U+FFFD`. The
encoding of a text is read back as the text, so two texts with one encoding are
one text.
-/

namespace Utf8

/-- The encoding of a text. -/
def encode (text : List Char) : List UInt8 := text.flatMap String.utf8EncodeChar

/-- The character the bytes begin with. -/
def firstChar? (bytes : List UInt8) : Option Char := bytes.toByteArray.utf8DecodeChar? 0

/-- The second bytes that may follow a first one. -/
def second (lead b : ℕ) : Bool :=
  if lead = 0xE0 then 0xA0 ≤ b && b ≤ 0xBF
  else if lead = 0xED then 0x80 ≤ b && b ≤ 0x9F
  else if lead = 0xF0 then 0x90 ≤ b && b ≤ 0xBF
  else if lead = 0xF4 then 0x80 ≤ b && b ≤ 0x8F
  else if 0xE1 ≤ lead && lead ≤ 0xF3 then 0x80 ≤ b && b ≤ 0xBF
  else false

/-- **The bytes one replacement stands for beyond the first**: those that
continue a character which the next byte then breaks off. -/
def broken (lead : UInt8) : List UInt8 → ℕ
  | b :: c :: _ =>
    if second lead.toNat b.toNat then
      if 0xF0 ≤ lead.toNat && 0x80 ≤ c.toNat && c.toNat ≤ 0xBF then 2 else 1
    else 0
  | [b] => if second lead.toNat b.toNat then 1 else 0
  | [] => 0

/-- The text of the bytes after the first `skip` of them. -/
def decodeAfter : ℕ → List UInt8 → List Char
  | _, [] => []
  | skip + 1, _ :: rest => decodeAfter skip rest
  | 0, b :: rest =>
    match firstChar? (b :: rest) with
    | some c => c :: decodeAfter (c.utf8Size - 1) rest
    | none => '\uFFFD' :: decodeAfter (broken b rest) rest

/-- **`bytes.decode("utf-8", "replace")`.** -/
def decodeReplace (bytes : List UInt8) : List Char := decodeAfter 0 bytes

theorem decodeAfter_length (front rest : List UInt8) :
    decodeAfter front.length (front ++ rest) = decodeAfter 0 rest := by
  induction front with
  | nil => rfl
  | cons b front ih => exact ih

/-- The bytes of a character are read as the character. -/
theorem firstChar?_encode (c : Char) (rest : List UInt8) :
    firstChar? (String.utf8EncodeChar c ++ rest) = some c := by
  rw [firstChar?, List.toByteArray_append]
  exact ByteArray.utf8DecodeChar?_utf8EncodeChar_append

/-- **The encoding of a text is read back.** -/
theorem decodeReplace_encode (text : List Char) : decodeReplace (encode text) = text := by
  induction text with
  | nil => rfl
  | cons c text ih =>
    have hread := firstChar?_encode c (encode text)
    have hlength := String.length_utf8EncodeChar c
    have hpos := c.utf8Size_pos
    show decodeAfter 0 (String.utf8EncodeChar c ++ encode text) = _
    cases hbytes : String.utf8EncodeChar c with
    | nil =>
      rw [hbytes, List.length_nil] at hlength
      omega
    | cons b front =>
      rw [hbytes] at hread hlength
      rw [List.length_cons] at hlength
      have hskip : c.utf8Size - 1 = front.length := by omega
      rw [List.cons_append] at hread ⊢
      simp only [decodeAfter, hread]
      rw [hskip, decodeAfter_length]
      exact congrArg _ ih

end Utf8
