import Mathlib.Data.List.Basic
import Mathlib.Data.Nat.Notation
import Mathlib.Logic.Basic

/-!
# Base64

The standard encoding of bytes as text: three bytes are four digits of six
bits each, and a last group of one or two bytes is padded with `=`. `encode`
is `base64.b64encode`, `decode` its strict inverse and `b64decode` the tolerant
one of `base64.b64decode`; `decode_encode` and `b64decode_encode` say that
nothing is lost on the way.
-/

namespace Base64

/-- The digits, in the order of their values. -/
def alphabet : List Char :=
  "ABCDEFGHIJKLMNOPQRSTUVWXYZabcdefghijklmnopqrstuvwxyz0123456789+/".toList

/-- The digit of a value. -/
def digit (n : ℕ) : Char := alphabet.getD n '='

/-- The value of a digit. -/
def value (c : Char) : Option ℕ :=
  if alphabet.idxOf c < 64 then some (alphabet.idxOf c) else none

/-- **The text of a list of bytes.** -/
def encode : List UInt8 → List Char
  | [] => []
  | [a] => [digit (a.toNat / 4), digit (a.toNat % 4 * 16), '=', '=']
  | [a, b] =>
    [digit (a.toNat / 4), digit (a.toNat % 4 * 16 + b.toNat / 16),
      digit (b.toNat % 16 * 4), '=']
  | a :: b :: c :: rest =>
    digit (a.toNat / 4) :: digit (a.toNat % 4 * 16 + b.toNat / 16)
      :: digit (b.toNat % 16 * 4 + c.toNat / 64) :: digit (c.toNat % 64) :: encode rest

/-- The bytes of four digits, the last of which may be padding. -/
def decodeGroup (p q r s : Char) : Option (List UInt8) := do
  let x ← value p
  let y ← value q
  let first := UInt8.ofNat (x * 4 + y / 16)
  if s = '=' then
    if r = '=' then return [first]
    else
      let z ← value r
      return [first, UInt8.ofNat (y % 16 * 16 + z / 4)]
  else
    let z ← value r
    let w ← value s
    return [first, UInt8.ofNat (y % 16 * 16 + z / 4), UInt8.ofNat (z % 4 * 64 + w)]

/-- **The bytes of a text**, read in groups of four digits; padding ends the
text. -/
def decode : List Char → Option (List UInt8)
  | [] => some []
  | p :: q :: r :: s :: rest =>
    if s = '=' ∧ rest ≠ [] then none
    else do return (← decodeGroup p q r s) ++ (← decode rest)
  | _ => none

theorem value_digit {n : ℕ} (h : n < 64) : value (digit n) = some n := by
  have hall : ∀ n : Fin 64, value (digit n.val) = some n.val := by decide +kernel
  exact hall ⟨n, h⟩

/-- The padding is no digit. -/
theorem digit_ne_pad {n : ℕ} (h : n < 64) : digit n ≠ '=' := by
  have hall : ∀ n : Fin 64, digit n.val ≠ '=' := by decide +kernel
  exact hall ⟨n, h⟩

/-- A byte is recovered from the number it was split into. -/
theorem ofNat_eq {a : UInt8} {n : ℕ} (h : n = a.toNat) : UInt8.ofNat n = a := by
  rw [h, UInt8.ofNat_toNat]

/-- The group of one byte. -/
theorem decodeGroup_one (a : UInt8) :
    decodeGroup (digit (a.toNat / 4)) (digit (a.toNat % 4 * 16)) '=' '=' = some [a] := by
  have ha := a.toNat_lt
  unfold decodeGroup
  rw [value_digit (by omega), value_digit (by omega)]
  simp only [Option.bind_eq_bind, Option.bind_some, if_true, Option.pure_def]
  rw [ofNat_eq (a := a) (by omega)]

/-- The group of two bytes. -/
theorem decodeGroup_two (a b : UInt8) :
    decodeGroup (digit (a.toNat / 4)) (digit (a.toNat % 4 * 16 + b.toNat / 16))
      (digit (b.toNat % 16 * 4)) '=' = some [a, b] := by
  have ha := a.toNat_lt
  have hb := b.toNat_lt
  have hpad : digit (b.toNat % 16 * 4) ≠ '=' := digit_ne_pad (by omega)
  unfold decodeGroup
  rw [value_digit (by omega), value_digit (by omega), value_digit (by omega)]
  simp only [Option.bind_eq_bind, Option.bind_some, if_true, if_neg hpad, Option.pure_def]
  rw [ofNat_eq (a := a) (by omega), ofNat_eq (a := b) (by omega)]

/-- A full group. -/
theorem decodeGroup_three (a b c : UInt8) :
    decodeGroup (digit (a.toNat / 4)) (digit (a.toNat % 4 * 16 + b.toNat / 16))
      (digit (b.toNat % 16 * 4 + c.toNat / 64)) (digit (c.toNat % 64)) = some [a, b, c] := by
  have ha := a.toNat_lt
  have hb := b.toNat_lt
  have hc := c.toNat_lt
  have hpad : digit (c.toNat % 64) ≠ '=' := digit_ne_pad (by omega)
  unfold decodeGroup
  rw [value_digit (by omega), value_digit (by omega), value_digit (by omega),
    value_digit (by omega)]
  simp only [Option.bind_eq_bind, Option.bind_some, if_neg hpad, Option.pure_def]
  rw [ofNat_eq (a := a) (by omega), ofNat_eq (a := b) (by omega), ofNat_eq (a := c) (by omega)]

/-- **Decoding inverts encoding.** -/
theorem decode_encode (bytes : List UInt8) : decode (encode bytes) = some bytes := by
  induction bytes using encode.induct with
  | case1 => rfl
  | case2 a => simp [encode, decode, decodeGroup_one]
  | case3 a b => simp [encode, decode, decodeGroup_two]
  | case4 a b c rest ih =>
    have hpad : digit (c.toNat % 64) ≠ '=' := digit_ne_pad (Nat.mod_lt _ (by decide))
    simp [encode, decode, decodeGroup_three, hpad, ih]

/-! ## The tolerant decoder -/

/-- **The bytes of the digits of a text**, after `quad` digits of a group whose
last bits are `left` and `pads` padding characters. What is neither a digit nor
padding is passed over, and so is padding that cannot end a group. -/
def scan : List Char → ℕ → ℕ → ℕ → Option (List UInt8)
  | [], quad, _, _ => if quad = 0 then some [] else none
  | ch :: rest, quad, left, pads =>
    if ch = '=' then
      if quad < 2 then scan rest quad left pads
      else if 4 ≤ quad + (pads + 1) then some []
      else scan rest quad left (pads + 1)
    else
      match value ch with
      | none => scan rest quad left pads
      | some v =>
        match quad with
        | 0 => scan rest 1 v 0
        | 1 => (scan rest 2 (v % 16) 0).map (UInt8.ofNat (left * 4 + v / 16) :: ·)
        | 2 => (scan rest 3 (v % 4) 0).map (UInt8.ofNat (left * 16 + v / 4) :: ·)
        | _ => (scan rest 0 0 0).map (UInt8.ofNat (left * 64 + v) :: ·)

/-- **`base64.b64decode`**: `none` is the `ValueError` of a text that is not ASCII
or whose digits do not make up groups. -/
def b64decode (text : List Char) : Option (List UInt8) :=
  if text.all (fun c => c.toNat < 128) then scan text 0 0 0 else none

/-- A digit is read. -/
theorem scan_digit {n : ℕ} (h : n < 64) (rest : List Char) (quad left pads : ℕ) :
    scan (digit n :: rest) quad left pads
      = match quad with
        | 0 => scan rest 1 n 0
        | 1 => (scan rest 2 (n % 16) 0).map (UInt8.ofNat (left * 4 + n / 16) :: ·)
        | 2 => (scan rest 3 (n % 4) 0).map (UInt8.ofNat (left * 16 + n / 4) :: ·)
        | _ => (scan rest 0 0 0).map (UInt8.ofNat (left * 64 + n) :: ·) := by
  conv_lhs => unfold scan
  rw [if_neg (digit_ne_pad h), value_digit h]

theorem scan_encode (bytes : List UInt8) : scan (encode bytes) 0 0 0 = some bytes := by
  induction bytes using encode.induct with
  | case1 => rfl
  | case2 a =>
    have ha := a.toNat_lt
    have hx : a.toNat / 4 < 64 := by omega
    have hy : a.toNat % 4 * 16 < 64 := by omega
    simp only [encode, scan_digit hx, scan_digit hy]
    rw [ofNat_eq (a := a) (by omega)]
    rfl
  | case3 a b =>
    have ha := a.toNat_lt
    have hb := b.toNat_lt
    have hx : a.toNat / 4 < 64 := by omega
    have hy : a.toNat % 4 * 16 + b.toNat / 16 < 64 := by omega
    have hz : b.toNat % 16 * 4 < 64 := by omega
    simp only [encode, scan_digit hx, scan_digit hy, scan_digit hz]
    rw [ofNat_eq (a := a) (by omega), ofNat_eq (a := b) (by omega)]
    rfl
  | case4 a b c rest ih =>
    have ha := a.toNat_lt
    have hb := b.toNat_lt
    have hc := c.toNat_lt
    have hx : a.toNat / 4 < 64 := by omega
    have hy : a.toNat % 4 * 16 + b.toNat / 16 < 64 := by omega
    have hz : b.toNat % 16 * 4 + c.toNat / 64 < 64 := by omega
    have hw : c.toNat % 64 < 64 := by omega
    simp only [encode, scan_digit hx, scan_digit hy, scan_digit hz, scan_digit hw, ih]
    rw [ofNat_eq (a := a) (by omega), ofNat_eq (a := b) (by omega),
      ofNat_eq (a := c) (by omega)]
    rfl

theorem digit_ascii (n : ℕ) : (digit n).toNat < 128 := by
  have hall : ∀ n : Fin 64, (digit n.val).toNat < 128 := by decide +kernel
  by_cases h : n < 64
  · exact hall ⟨n, h⟩
  · have hnone : alphabet[n]? = none := List.getElem?_eq_none (Nat.not_lt.mp h)
    rw [digit, List.getD_eq_getElem?_getD, hnone]
    decide

theorem encode_ascii (bytes : List UInt8) :
    (encode bytes).all (fun c => c.toNat < 128) = true := by
  induction bytes using encode.induct with
  | case1 => rfl
  | case2 a => simp [encode, digit_ascii]
  | case3 a b => simp [encode, digit_ascii]
  | case4 a b c rest ih =>
    simp only [encode, List.all_cons, digit_ascii, decide_true, Bool.true_and, ih]

/-- **The tolerant decoder inverts the encoding**, too. -/
theorem b64decode_encode (bytes : List UInt8) : b64decode (encode bytes) = some bytes := by
  rw [b64decode, if_pos (encode_ascii bytes), scan_encode]

end Base64
