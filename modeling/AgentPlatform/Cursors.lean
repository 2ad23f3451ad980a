import AgentPlatform.Base64
import AgentPlatform.ExecutionStore
import Mathlib.Data.List.DropRight

/-!
# Cursors

The cursor of a list endpoint is the identifier of a row as text: its sixteen
bytes in URL-safe base64, without the padding (`admin_api/pagination.py`).
`encodeCursor` and `decodeCursor` are the two directions, and what is encoded is
decoded again (`decodeCursor_encodeCursor`).

Python's decoder skips characters that are no digits and stops at the padding,
so it reads more texts than the encoder writes; `Base64.readDigits` is this
decoder.
-/

namespace Base64

/-- **The bytes of a text, as Python reads it**: `quad` digits of the current
group have been read, of which `left` is not in a byte yet, and `pads` padding
characters since. -/
def readDigits (quad left pads : ℕ) : List Char → Option (List UInt8)
  | [] => if quad = 0 then some [] else none
  | c :: cs =>
    if c = '=' then
      if quad < 2 then readDigits quad left pads cs
      else if 4 ≤ quad + (pads + 1) then some []
      else readDigits quad left (pads + 1) cs
    else
      match value c with
      | none => readDigits quad left pads cs
      | some v =>
        match quad with
        | 0 => readDigits 1 v 0 cs
        | 1 => (readDigits 2 (v % 16) 0 cs).map (UInt8.ofNat (left * 4 + v / 16) :: ·)
        | 2 => (readDigits 3 (v % 4) 0 cs).map (UInt8.ofNat (left * 16 + v / 4) :: ·)
        | _ => (readDigits 0 0 0 cs).map (UInt8.ofNat (left * 64 + v) :: ·)

section Digits

variable {left pads n : ℕ} (h : n < 64) (cs : List Char)

include h

/-- A digit is read, as the first of its group. -/
theorem readDigits_first : readDigits 0 left pads (digit n :: cs) = readDigits 1 n 0 cs := by
  rw [readDigits, if_neg (digit_ne_pad h), value_digit h]
  rfl

theorem readDigits_second : readDigits 1 left pads (digit n :: cs)
    = (readDigits 2 (n % 16) 0 cs).map (UInt8.ofNat (left * 4 + n / 16) :: ·) := by
  rw [readDigits, if_neg (digit_ne_pad h), value_digit h]
  rfl

theorem readDigits_third : readDigits 2 left pads (digit n :: cs)
    = (readDigits 3 (n % 4) 0 cs).map (UInt8.ofNat (left * 16 + n / 4) :: ·) := by
  rw [readDigits, if_neg (digit_ne_pad h), value_digit h]
  rfl

theorem readDigits_fourth : readDigits 3 left pads (digit n :: cs)
    = (readDigits 0 0 0 cs).map (UInt8.ofNat (left * 64 + n) :: ·) := by
  rw [readDigits, if_neg (digit_ne_pad h), value_digit h]
  rfl

end Digits

/-- **Reading inverts encoding.** -/
theorem readDigits_encode (bytes : List UInt8) : readDigits 0 0 0 (encode bytes) = some bytes := by
  induction bytes using encode.induct with
  | case1 => rfl
  | case2 a =>
    have ha := a.toNat_lt
    have hpads : readDigits 2 (a.toNat % 4 * 16 % 16) 0 ['=', '='] = some [] := rfl
    rw [encode, readDigits_first (by omega), readDigits_second (by omega), hpads,
      ofNat_eq (a := a) (by omega)]
    rfl
  | case3 a b =>
    have ha := a.toNat_lt
    have hb := b.toNat_lt
    have hpad : readDigits 3 (b.toNat % 16 * 4 % 4) 0 ['='] = some [] := rfl
    rw [encode, readDigits_first (by omega), readDigits_second (by omega),
      readDigits_third (by omega), hpad, ofNat_eq (a := a) (by omega),
      ofNat_eq (a := b) (by omega)]
    rfl
  | case4 a b c rest ih =>
    have ha := a.toNat_lt
    have hb := b.toNat_lt
    have hc := c.toNat_lt
    rw [encode, readDigits_first (by omega), readDigits_second (by omega),
      readDigits_third (by omega), readDigits_fourth (by omega), ih, ofNat_eq (a := a) (by omega),
      ofNat_eq (a := b) (by omega), ofNat_eq (a := c) (by omega)]
    rfl

/-! ## Without the padding, in URLs -/

/-- The digit for URLs. -/
def urlDigit (c : Char) : Char := if c = '+' then '-' else if c = '/' then '_' else c

/-- The digit of a digit for URLs. -/
def ofUrlDigit (c : Char) : Char := if c = '-' then '+' else if c = '_' then '/' else c

/-- `urlsafe_b64encode(…).rstrip("=")`. -/
def encodeUrl (bytes : List UInt8) : List Char :=
  ((encode bytes).map urlDigit).rdropWhile (· = '=')

/-- `urlsafe_b64decode(… + "=" * (-len(…) % 4))`, of a text in ASCII. -/
def decodeUrl (cs : List Char) : Option (List UInt8) :=
  if cs.all (fun c => c.toNat < 128) then
    readDigits 0 0 0 ((cs ++ List.replicate ((4 - cs.length % 4) % 4) '=').map ofUrlDigit)
  else none

/-- **An encoded text is digits and padding**, in groups of four. -/
theorem encode_eq_append (bytes : List UInt8) : ∃ ns : List ℕ, ∃ k ≤ 2,
    (∀ n ∈ ns, n < 64) ∧ (ns.length + k) % 4 = 0
    ∧ encode bytes = ns.map digit ++ List.replicate k '=' := by
  induction bytes using encode.induct with
  | case1 => exact ⟨[], 0, by omega, fun n hn => absurd hn List.not_mem_nil, rfl, rfl⟩
  | case2 a =>
    have ha := a.toNat_lt
    refine ⟨[a.toNat / 4, a.toNat % 4 * 16], 2, by omega, ?_, by simp, rfl⟩
    simp only [List.mem_cons, List.not_mem_nil, or_false]
    rintro n (rfl | rfl) <;> omega
  | case3 a b =>
    have ha := a.toNat_lt
    have hb := b.toNat_lt
    refine ⟨[a.toNat / 4, a.toNat % 4 * 16 + b.toNat / 16, b.toNat % 16 * 4], 1, by omega, ?_,
      by simp, rfl⟩
    simp only [List.mem_cons, List.not_mem_nil, or_false]
    rintro n (rfl | rfl | rfl) <;> omega
  | case4 a b c rest ih =>
    have ha := a.toNat_lt
    have hb := b.toNat_lt
    have hc := c.toNat_lt
    obtain ⟨ns, k, hk, hns, hlength, heq⟩ := ih
    refine ⟨a.toNat / 4 :: (a.toNat % 4 * 16 + b.toNat / 16)
      :: (b.toNat % 16 * 4 + c.toNat / 64) :: c.toNat % 64 :: ns, k, hk, ?_, ?_, ?_⟩
    · simp only [List.mem_cons]
      rintro n (rfl | rfl | rfl | rfl | hn)
      · omega
      · omega
      · omega
      · omega
      · exact hns n hn
    · simp only [List.length_cons]
      omega
    · rw [encode, heq]
      rfl

/-- What the digits for URLs are: ASCII, no padding, and read back. -/
theorem urlDigit_digit {n : ℕ} (h : n < 64) : (urlDigit (digit n)).toNat < 128
    ∧ urlDigit (digit n) ≠ '=' ∧ ofUrlDigit (urlDigit (digit n)) = digit n := by
  have hall : ∀ n : Fin 64, (urlDigit (digit n.val)).toNat < 128
      ∧ urlDigit (digit n.val) ≠ '=' ∧ ofUrlDigit (urlDigit (digit n.val)) = digit n.val := by
    decide +kernel
  exact hall ⟨n, h⟩

/-- What is stripped is what was appended. -/
theorem rdropWhile_append_replicate {l : List Char} (h : ∀ c ∈ l, c ≠ '=') (k : ℕ) :
    (l ++ List.replicate k '=').rdropWhile (· = '=') = l := by
  induction k with
  | zero =>
    rw [List.replicate_zero, List.append_nil, List.rdropWhile_eq_self_iff]
    exact fun hl hlast => h _ (List.getLast_mem hl) (of_decide_eq_true hlast)
  | succ k ih =>
    have hpad : decide ('=' = '=') = true := decide_eq_true rfl
    rw [List.replicate_succ', ← List.append_assoc,
      List.rdropWhile_concat_pos (fun c => decide (c = '=')) _ _ hpad, ih]

/-- **Decoding inverts encoding**, in URLs. -/
theorem decodeUrl_encodeUrl (bytes : List UInt8) : decodeUrl (encodeUrl bytes) = some bytes := by
  obtain ⟨ns, k, hk, hns, hlength, heq⟩ := encode_eq_append bytes
  have hencode : encodeUrl bytes = ns.map (fun n => urlDigit (digit n)) := by
    rw [encodeUrl, heq, List.map_append, List.map_map, List.map_replicate]
    refine rdropWhile_append_replicate (fun c hc => ?_) k
    obtain ⟨n, hn, rfl⟩ := List.mem_map.mp hc
    exact (urlDigit_digit (hns n hn)).2.1
  have hpads : (4 - (ns.map (fun n => urlDigit (digit n))).length % 4) % 4 = k := by
    rw [List.length_map]
    omega
  rw [hencode, decodeUrl, hpads, if_pos, List.map_append, List.map_map, List.map_replicate]
  · have hback : ns.map (ofUrlDigit ∘ fun n => urlDigit (digit n)) = ns.map digit :=
      List.map_congr_left (fun n hn => (urlDigit_digit (hns n hn)).2.2)
    rw [hback]
    exact (congrArg _ heq.symm).trans (readDigits_encode bytes)
  · refine List.all_eq_true.mpr (fun c hc => ?_)
    obtain ⟨n, hn, rfl⟩ := List.mem_map.mp hc
    exact decide_eq_true (urlDigit_digit (hns n hn)).1

end Base64

/-! ## Identifiers as bytes -/

/-- The last `n` bytes of a number, the highest first. -/
def bytesBE : ℕ → ℕ → List UInt8
  | 0, _ => []
  | n + 1, v => bytesBE n (v / 256) ++ [UInt8.ofNat (v % 256)]

/-- The number of a list of bytes, the highest first. -/
def ofBytesBE (bytes : List UInt8) : ℕ := bytes.foldl (fun v b => v * 256 + b.toNat) 0

theorem length_bytesBE (n v : ℕ) : (bytesBE n v).length = n := by
  induction n generalizing v with
  | zero => rfl
  | succ n ih => rw [bytesBE, List.length_append, ih]; rfl

theorem ofBytesBE_bytesBE (n v : ℕ) : ofBytesBE (bytesBE n v) = v % 256 ^ n := by
  induction n generalizing v with
  | zero => rw [pow_zero, Nat.mod_one]; rfl
  | succ n ih =>
    have hfold : ofBytesBE (bytesBE (n + 1) v)
        = ofBytesBE (bytesBE n (v / 256)) * 256 + (UInt8.ofNat (v % 256)).toNat := by
      rw [ofBytesBE, bytesBE, List.foldl_append]
      rfl
    rw [hfold, ih, UInt8.toNat_ofNat', Nat.mod_mod, Nat.pow_succ', Nat.mod_mul, Nat.add_comm,
      Nat.mul_comm]

/-- `encode_cursor`. -/
def encodeCursor (identifier : Uuid) : String :=
  String.ofList (Base64.encodeUrl (bytesBE 16 identifier))

/-- **`decode_cursor`.** -/
def decodeCursor (cursor : Option String) : Except PyException (Option Uuid) :=
  match cursor with
  | none => .ok none
  | some cursor =>
    match Base64.decodeUrl cursor.toList with
    | none => .error (.value "invalid cursor")
    | some bytes =>
      if bytes.length = 16 then .ok (some (ofBytesBE bytes))
      else .error (.value "invalid cursor")

/-- **A cursor names the row it was made for.** -/
theorem decodeCursor_encodeCursor {identifier : Uuid} (h : identifier < 2 ^ 128) :
    decodeCursor (some (encodeCursor identifier)) = .ok (some identifier) := by
  have hvalue : ofBytesBE (bytesBE 16 identifier) = identifier := by
    rw [ofBytesBE_bytesBE]
    exact Nat.mod_eq_of_lt h
  rw [decodeCursor, encodeCursor, String.toList_ofList, Base64.decodeUrl_encodeUrl]
  exact (if_pos (length_bytesBE 16 identifier)).trans
    (congrArg (fun v => Except.ok (some v)) hvalue)
