import AgentPlatform.Base64
import AgentPlatform.ChannelInbound
import AgentPlatform.Utf8
import Mathlib.Logic.Equiv.Basic

/-!
# The callbacks of WeCom

A callback carries a frame – a random prefix, the length of the message in four
bytes, the message and the id of the receiver – padded to blocks of 32 bytes,
enciphered with AES in CBC mode and written in Base64. `WeComCrypto.encrypt`
builds a frame, `WeComCrypto.decrypt` takes it apart and `parseEvent` reads the
message as an event.

What is written is read back by the same receiver and by no other
(`frame_roundTrip`). What comes from outside is decoded less strictly than the
handlers around it expect. An empty ciphertext leaves no byte to read the
padding from, and the `IndexError` is none of the exceptions that are turned
into a `WeComProtocolError`; a message length beyond the frame cuts the message
short when no receiver is configured; a sender or a text that is neither an
object nor empty has no `get`. `callbacks_strict_iff` says that these, and what
`json.loads` and `str` raise themselves, are all.
-/

/-- The exceptions of Python a callback can meet. -/
inductive CallbackFault where
  | value
  | type
  | index
  | attribute
  | overflow
  | recursion
  deriving DecidableEq

/-- **What a callback raises**: a `WeComProtocolError` with its code, or an
exception that no handler turned into one. -/
inductive CallbackException where
  | protocol (code : String)
  | fault (f : CallbackFault)
  deriving DecidableEq

abbrev aesKeyBytes : ℕ := 32
abbrev randomPrefixBytes : ℕ := 16
abbrev lengthPrefixBytes : ℕ := 4

/-- The key of a bot. -/
abbrev AesKey := {bytes : List UInt8 // bytes.length = aesKeyBytes}

/-- What `os.urandom(RANDOM_PREFIX_BYTES)` gives. -/
abbrev RandomPrefix := {bytes : List UInt8 // bytes.length = randomPrefixBytes}

/-- **AES in CBC mode**, on whole blocks of 16 bytes: a key and an
initialization vector give two transformations that keep the length, and the
second undoes the first. -/
structure AesCbc where
  encipher : AesKey → List UInt8 → List UInt8 → List UInt8
  decipher : AesKey → List UInt8 → List UInt8 → List UInt8
  encipher_length : ∀ key iv bytes, bytes.length % 16 = 0 →
    (encipher key iv bytes).length = bytes.length
  decipher_length : ∀ key iv bytes, bytes.length % 16 = 0 →
    (decipher key iv bytes).length = bytes.length
  decipher_encipher : ∀ key iv bytes, bytes.length % 16 = 0 →
    decipher key iv (encipher key iv bytes) = bytes

/-- `update(bytes) + finalize()`, which refuses a last block that is not full. -/
def wholeBlocks (transform : List UInt8 → List UInt8) (bytes : List UInt8) :
    Except CallbackException (List UInt8) :=
  if bytes.length % 16 = 0 then .ok (transform bytes) else .error (.fault .value)

/-! ## Lengths and padding -/

/-- `n.to_bytes(width, "big")` of a number that fits. -/
def toBytes : ℕ → ℕ → List UInt8
  | 0, _ => []
  | width + 1, n => toBytes width (n / 256) ++ [UInt8.ofNat (n % 256)]

/-- `int.from_bytes(bytes, "big")`. -/
def fromBytes (bytes : List UInt8) : ℕ := bytes.foldl (fun n b => n * 256 + b.toNat) 0

@[simp] theorem toBytes_length (width n : ℕ) : (toBytes width n).length = width := by
  induction width generalizing n with
  | zero => rfl
  | succ width ih => rw [toBytes, List.length_append, ih, List.length_singleton]

theorem fromBytes_toBytes {width n : ℕ} (h : n < 256 ^ width) :
    fromBytes (toBytes width n) = n := by
  induction width generalizing n with
  | zero =>
    rw [Nat.pow_zero] at h
    show 0 = n
    omega
  | succ width ih =>
    have hhigh : n / 256 < 256 ^ width := by
      rw [Nat.pow_succ, Nat.mul_comm] at h
      exact Nat.div_lt_of_lt_mul h
    have hlow : (UInt8.ofNat (n % 256)).toNat = n % 256 := by simp
    have hfront := ih hhigh
    unfold fromBytes at hfront ⊢
    rw [toBytes, List.foldl_append, hfront, List.foldl_cons, List.foldl_nil, hlow]
    omega

/-- **`_pkcs7_pad`.** -/
def pkcs7Pad (payload : List UInt8) (block : ℕ) : List UInt8 :=
  let padding := block - payload.length % block
  payload ++ List.replicate padding (UInt8.ofNat padding)

/-- **`_pkcs7_unpad`.** The last byte of nothing is an `IndexError`. -/
def pkcs7Unpad (payload : List UInt8) (block : ℕ) : Except CallbackException (List UInt8) :=
  match payload.getLast? with
  | none => .error (.fault .index)
  | some last =>
    let padding := last.toNat
    if ¬(1 ≤ padding ∧ padding ≤ block) then .error (.protocol "WECOM_DECRYPT_FAILED")
    else if payload.drop (payload.length - padding) ≠ List.replicate padding last then
      .error (.protocol "WECOM_DECRYPT_FAILED")
    else .ok (payload.take (payload.length - padding))

theorem pkcs7Pad_length (payload : List UInt8) {block : ℕ} (h : 0 < block) :
    (pkcs7Pad payload block).length % block = 0 := by
  have hmod := Nat.mod_lt payload.length h
  have hdiv := Nat.div_add_mod payload.length block
  rw [pkcs7Pad, List.length_append, List.length_replicate,
    show payload.length + (block - payload.length % block)
      = block * (payload.length / block) + block by omega]
  simp

/-- **Padding is taken off again**, whatever the payload ends with. -/
theorem pkcs7Unpad_pad (payload : List UInt8) {block : ℕ} (h : 0 < block) (hb : block < 256) :
    pkcs7Unpad (pkcs7Pad payload block) block = .ok payload := by
  have hmod := Nat.mod_lt payload.length h
  obtain ⟨n, hn⟩ : ∃ n, block - payload.length % block = n + 1 :=
    ⟨block - payload.length % block - 1, by omega⟩
  have hlast : (pkcs7Pad payload block).getLast? = some (UInt8.ofNat (n + 1)) := by
    rw [pkcs7Pad, hn, List.replicate_succ', ← List.append_assoc, List.getLast?_concat]
  have hval : (UInt8.ofNat (n + 1)).toNat = n + 1 := by
    rw [UInt8.toNat_ofNat']
    exact Nat.mod_eq_of_lt (by omega)
  have hbody : (pkcs7Pad payload block).length - (n + 1) = payload.length := by
    rw [pkcs7Pad, hn, List.length_append, List.length_replicate, Nat.add_sub_cancel]
  unfold pkcs7Unpad
  simp only [hlast, hval, hbody]
  rw [if_neg (not_not.mpr ⟨by omega, by omega⟩), if_neg, pkcs7Pad, List.take_left]
  rw [pkcs7Pad, hn, List.drop_left]
  exact not_not.mpr rfl

/-- Only the empty payload lets an exception of Python out. -/
theorem pkcs7Unpad_fault (payload : List UInt8) (block : ℕ) (f : CallbackFault) :
    pkcs7Unpad payload block = .error (.fault f) ↔ payload = [] ∧ f = .index := by
  unfold pkcs7Unpad
  cases hlast : payload.getLast? with
  | none => simp [List.getLast?_eq_none_iff.mp hlast, eq_comm]
  | some last =>
    have hne : payload ≠ [] := by
      rintro rfl
      cases hlast
    simp only [hne, false_and, iff_false]
    split
    · simp
    · split <;> simp

/-! ## Frames -/

/-- **`WeComCrypto`**, with what frames depend on. -/
structure WeComCrypto where
  key : AesKey
  receiveId : List Char

namespace WeComCrypto

/-- `self._key[: AES_KEY_BYTES // 2]`. -/
def iv (c : WeComCrypto) : List UInt8 := c.key.val.take (aesKeyBytes / 2)

/-- The frame of a message. -/
def body (c : WeComCrypto) (random : RandomPrefix) (message : List UInt8) : List UInt8 :=
  random.val ++ toBytes lengthPrefixBytes message.length ++ message ++ Utf8.encode c.receiveId

/-- **`WeComCrypto.encrypt`.** -/
def encrypt (aes : AesCbc) (c : WeComCrypto) (random : RandomPrefix) (plaintext : List Char) :
    Except CallbackException (List Char) := do
  let message := Utf8.encode plaintext
  if 256 ^ lengthPrefixBytes ≤ message.length then throw (.fault .overflow)
  let encrypted ← wholeBlocks (aes.encipher c.key c.iv)
    (pkcs7Pad (c.body random message) aesKeyBytes)
  return Base64.encode encrypted

/-- The handler around the decoding: `except (ValueError, TypeError)`. -/
def converted {α : Type} : Except CallbackException α → Except CallbackException α
  | .error (.fault .value) => .error (.protocol "WECOM_DECRYPT_FAILED")
  | .error (.fault .type) => .error (.protocol "WECOM_DECRYPT_FAILED")
  | r => r

/-- The frame `decrypt` finds in a text. -/
def plain (aes : AesCbc) (c : WeComCrypto) (encrypted : List Char) :
    Except CallbackException (List UInt8) :=
  converted do
    let cipherText ← match Base64.b64decode encrypted with
      | some bytes => .ok bytes
      | none => .error (.fault .value)
    let padded ← wholeBlocks (aes.decipher c.key c.iv) cipherText
    pkcs7Unpad padded aesKeyBytes

/-- The length a frame declares for its message. -/
def messageLength (plain : List UInt8) : ℕ :=
  fromBytes ((plain.drop randomPrefixBytes).take lengthPrefixBytes)

/-- **`WeComCrypto.decrypt`.** -/
def decrypt (aes : AesCbc) (c : WeComCrypto) (encrypted : List Char) :
    Except CallbackException (List Char) := do
  let plain ← c.plain aes encrypted
  if plain.length < randomPrefixBytes + lengthPrefixBytes then
    throw (.protocol "WECOM_DECRYPT_FAILED")
  let body := plain.drop randomPrefixBytes
  let message := (body.drop lengthPrefixBytes).take (messageLength plain)
  let receiveId := body.drop (lengthPrefixBytes + messageLength plain)
  if c.receiveId ≠ [] ∧ Utf8.decodeReplace receiveId ≠ c.receiveId then
    throw (.protocol "WECOM_RECEIVE_ID_MISMATCH")
  return Utf8.decodeReplace message

variable (aes : AesCbc) (c : WeComCrypto)

/-- The frame of a text that is Base64. -/
theorem plain_of_b64decode {encrypted : List Char} {bytes : List UInt8}
    (h : Base64.b64decode encrypted = some bytes) :
    c.plain aes encrypted
      = converted (wholeBlocks (aes.decipher c.key c.iv) bytes
          >>= fun padded => pkcs7Unpad padded aesKeyBytes) := by
  simp only [plain, h]
  rfl

/-- What `decrypt` makes of a frame. -/
theorem decrypt_of_plain {encrypted : List Char} {plain : List UInt8}
    (h : c.plain aes encrypted = .ok plain) :
    c.decrypt aes encrypted
      = if plain.length < 20 then .error (.protocol "WECOM_DECRYPT_FAILED")
        else if c.receiveId ≠ []
            ∧ Utf8.decodeReplace (plain.drop (20 + messageLength plain)) ≠ c.receiveId then
          .error (.protocol "WECOM_RECEIVE_ID_MISMATCH")
        else .ok (Utf8.decodeReplace ((plain.drop 20).take (messageLength plain))) := by
  have hdrop : ∀ n, 16 + (4 + n) = 20 + n := by omega
  simp only [decrypt, h, List.drop_drop, hdrop]
  rfl

/-- **The frame of what `encrypt` writes**: every bot with the key finds it. -/
theorem plain_encrypt (random : RandomPrefix) {plaintext : List Char}
    (h : (Utf8.encode plaintext).length < 256 ^ lengthPrefixBytes) :
    ∃ encrypted, c.encrypt aes random plaintext = .ok encrypted
      ∧ ∀ d : WeComCrypto, d.key = c.key →
        d.plain aes encrypted = .ok (c.body random (Utf8.encode plaintext)) := by
  generalize hpadded : pkcs7Pad (c.body random (Utf8.encode plaintext)) aesKeyBytes = padded
  have hblock : padded.length % 16 = 0 := by
    have h32 := pkcs7Pad_length (c.body random (Utf8.encode plaintext))
      (by decide : 0 < aesKeyBytes)
    rw [hpadded] at h32
    unfold aesKeyBytes at h32
    omega
  refine ⟨Base64.encode (aes.encipher c.key c.iv padded), ?_, fun d hkey => ?_⟩
  · simp only [encrypt, if_neg (Nat.not_le.mpr h), hpadded, wholeBlocks, if_pos hblock]
    rfl
  · have hiv : d.iv = c.iv := congrArg (fun k : AesKey => k.val.take _) hkey
    have hcipher : (aes.encipher c.key c.iv padded).length % 16 = 0 := by
      rw [aes.encipher_length _ _ _ hblock, hblock]
    have hunpad : pkcs7Unpad padded aesKeyBytes
        = .ok (c.body random (Utf8.encode plaintext)) := by
      rw [← hpadded]
      exact pkcs7Unpad_pad _ (by decide) (by decide)
    rw [d.plain_of_b64decode aes (Base64.b64decode_encode _), wholeBlocks, if_pos hcipher, hkey,
      hiv, aes.decipher_encipher _ _ _ hblock]
    show converted (pkcs7Unpad padded aesKeyBytes) = _
    rw [hunpad]
    rfl

/-- The parts of a frame. -/
theorem body_parts (random : RandomPrefix) {message : List UInt8}
    (h : message.length < 256 ^ lengthPrefixBytes) :
    20 ≤ (c.body random message).length ∧ messageLength (c.body random message) = message.length
      ∧ ((c.body random message).drop 20).take message.length = message
      ∧ (c.body random message).drop (20 + message.length) = Utf8.encode c.receiveId := by
  have hfront : (random.val ++ toBytes lengthPrefixBytes message.length).length = 20 := by
    rw [List.length_append, random.property, toBytes_length]
    rfl
  have hrest : (c.body random message).drop 20 = message ++ Utf8.encode c.receiveId := by
    rw [body, List.append_assoc _ message, ← hfront, List.drop_left]
  refine ⟨?_, ?_, ?_, ?_⟩
  · rw [body, List.append_assoc _ message, List.length_append, hfront]
    omega
  · have hfour : ((c.body random message).drop randomPrefixBytes).take lengthPrefixBytes
        = toBytes lengthPrefixBytes message.length := by
      rw [body, List.append_assoc _ message, List.append_assoc,
        List.drop_left' random.property, List.take_left' (toBytes_length _ _)]
    rw [messageLength, hfour, fromBytes_toBytes h]
  · rw [hrest, List.take_left]
  · rw [← List.drop_drop, hrest, List.drop_left]

/-- **A frame is read back by its receiver only**: a bot with the key and the
receiver of the frame gets the plaintext, and one with another receiver refuses
the frame. -/
theorem frame_roundTrip (random : RandomPrefix) (plaintext : List Char)
    (h : (Utf8.encode plaintext).length < 2 ^ 32) :
    ∃ encrypted, c.encrypt aes random plaintext = .ok encrypted
      ∧ (∀ d : WeComCrypto, d.key = c.key → d.receiveId = c.receiveId →
        d.decrypt aes encrypted = .ok plaintext)
      ∧ ∀ d : WeComCrypto, d.key = c.key → d.receiveId ≠ [] → d.receiveId ≠ c.receiveId →
        d.decrypt aes encrypted = .error (.protocol "WECOM_RECEIVE_ID_MISMATCH") := by
  have hlength : (Utf8.encode plaintext).length < 256 ^ lengthPrefixBytes := h
  obtain ⟨encrypted, hwritten, hread⟩ := c.plain_encrypt aes random hlength
  obtain ⟨hlong, hdeclared, hmessage, htrailer⟩ := c.body_parts random hlength
  have htrailer' : Utf8.decodeReplace
      ((c.body random (Utf8.encode plaintext)).drop (20 + (Utf8.encode plaintext).length))
        = c.receiveId := by
    rw [htrailer, Utf8.decodeReplace_encode]
  refine ⟨encrypted, hwritten, fun d hkey hid => ?_, fun d hkey hne hid => ?_⟩
  · rw [d.decrypt_of_plain aes (hread d hkey), if_neg (Nat.not_lt.mpr hlong), hdeclared,
      htrailer', if_neg (fun hother => hother.2 hid.symm), hmessage, Utf8.decodeReplace_encode]
  · rw [d.decrypt_of_plain aes (hread d hkey), if_neg (Nat.not_lt.mpr hlong), hdeclared,
      htrailer', if_pos ⟨hne, fun hsame => hid hsame.symm⟩]

/-- A key. -/
def corpKey : AesKey := ⟨(List.range 32).map UInt8.ofNat, rfl⟩

/-- The padded frame of `hi` for `corp`, after sixteen zeros. -/
def corpPadded : List UInt8 :=
  List.replicate 16 0 ++ [0, 0, 0, 2, 104, 105, 99, 111, 114, 112, 6, 6, 6, 6, 6, 6]

/-- That frame under `corpKey`. -/
def corpCipherText : List UInt8 :=
  [90, 110, 4, 87, 8, 251, 113, 150, 240, 46, 85, 61, 2, 195, 166, 146,
    147, 149, 87, 130, 113, 77, 42, 44, 62, 234, 113, 161, 216, 213, 168, 167]

/-- The transformation that agrees with AES on `corpPadded`. -/
def corpTransform (key : AesKey) (iv bytes : List UInt8) : List UInt8 :=
  if key = corpKey ∧ iv = corpKey.val.take 16 then
    Equiv.swap corpPadded corpCipherText bytes
  else bytes

theorem corpTransform_length (key : AesKey) (iv bytes : List UInt8) :
    (corpTransform key iv bytes).length = bytes.length := by
  have hsame : corpPadded.length = corpCipherText.length := rfl
  unfold corpTransform
  split
  · rw [Equiv.swap_apply_def]
    split
    · simp [*]
    · split <;> simp [*]
  · rfl

theorem corpTransform_twice (key : AesKey) (iv bytes : List UInt8) :
    corpTransform key iv (corpTransform key iv bytes) = bytes := by
  unfold corpTransform
  split
  · exact Equiv.swap_apply_self _ _ _
  · rfl

def corpAes : AesCbc where
  encipher := corpTransform
  decipher := corpTransform
  encipher_length key iv bytes _ := corpTransform_length key iv bytes
  decipher_length key iv bytes _ := corpTransform_length key iv bytes
  decipher_encipher key iv bytes _ := corpTransform_twice key iv bytes

/-- `hi` for `corp` is read by `corp` and refused by `other`. -/
theorem frame_roundTrip_corp :
    ∃ encrypted,
      encrypt corpAes ⟨corpKey, "corp".toList⟩ ⟨List.replicate 16 0, rfl⟩ "hi".toList
          = .ok encrypted
        ∧ decrypt corpAes ⟨corpKey, "corp".toList⟩ encrypted = .ok "hi".toList
        ∧ decrypt corpAes ⟨corpKey, "other".toList⟩ encrypted
          = .error (.protocol "WECOM_RECEIVE_ID_MISMATCH") := by
  obtain ⟨encrypted, hwritten, hsame, hother⟩ :=
    frame_roundTrip corpAes ⟨corpKey, "corp".toList⟩ ⟨List.replicate 16 0, rfl⟩ "hi".toList
      (by decide)
  exact ⟨encrypted, hwritten, hsame ⟨corpKey, "corp".toList⟩ rfl rfl,
    hother ⟨corpKey, "other".toList⟩ rfl (by decide) (by decide)⟩

/-! ## What comes from outside -/

/-- No exception of Python gets out. -/
def Converts {α : Type} (r : Except CallbackException α) : Prop := ∀ f, r ≠ .error (.fault f)

/-- **A text is decoded strictly**: what is raised is a `WeComProtocolError`, and
what is returned was declared within its frame. -/
structure DecodesStrictly (encrypted : List Char) : Prop where
  converts : Converts (c.decrypt aes encrypted)
  fits : ∀ message, c.decrypt aes encrypted = .ok message →
    ∃ plain, c.plain aes encrypted = .ok plain ∧ 20 + messageLength plain ≤ plain.length

theorem converted_fault {α : Type} (r : Except CallbackException α) (f : CallbackFault) :
    converted r = .error (.fault f) ↔ r = .error (.fault f) ∧ f ≠ .value ∧ f ≠ .type := by
  match r with
  | .ok _ => simp [converted]
  | .error (.protocol _) => simp [converted]
  | .error (.fault g) => cases g <;> cases f <;> simp [converted]

/-- **The empty ciphertext alone lets an exception out.** -/
theorem plain_fault (encrypted : List Char) (f : CallbackFault) :
    c.plain aes encrypted = .error (.fault f)
      ↔ Base64.b64decode encrypted = some [] ∧ f = .index := by
  cases hbytes : Base64.b64decode encrypted with
  | none => simp [plain, hbytes, converted, Bind.bind, Except.bind]
  | some bytes =>
    rw [c.plain_of_b64decode aes hbytes, converted_fault, wholeBlocks, Option.some.injEq]
    by_cases hblock : bytes.length % 16 = 0
    · have hempty : aes.decipher c.key c.iv bytes = [] ↔ bytes = [] := by
        rw [← List.length_eq_zero_iff, aes.decipher_length _ _ _ hblock,
          List.length_eq_zero_iff]
      rw [if_pos hblock]
      show pkcs7Unpad _ _ = _ ∧ _ ↔ _
      rw [pkcs7Unpad_fault, hempty]
      refine ⟨fun h => h.1, fun h => ⟨h, ?_⟩⟩
      rw [h.2]
      decide
    · have hne : bytes ≠ [] := fun h => hblock (by rw [h]; rfl)
      rw [if_neg hblock]
      simp only [Bind.bind, Except.bind, Except.error.injEq, CallbackException.fault.injEq,
        hne, false_and, iff_false]
      exact fun h => h.2.1 h.1.symm

theorem decrypt_converts_iff (encrypted : List Char) :
    Converts (c.decrypt aes encrypted) ↔ Base64.b64decode encrypted ≠ some [] := by
  cases hplain : c.plain aes encrypted with
  | error e =>
    have hraised : c.decrypt aes encrypted = .error e := by
      simp only [decrypt, hplain]
      rfl
    have hfault := c.plain_fault aes encrypted
    simp only [hplain, Except.error.injEq] at hfault
    refine ⟨fun h hempty => ?_, fun hne f hf => ?_⟩
    · exact h .index (hraised.trans (congrArg _ ((hfault .index).mpr ⟨hempty, rfl⟩)))
    · exact hne ((hfault f).mp (Except.error.inj (hraised.symm.trans hf))).1
  | ok plain =>
    have hne : Base64.b64decode encrypted ≠ some [] := by
      intro hempty
      have hindex := (c.plain_fault aes encrypted .index).mpr ⟨hempty, rfl⟩
      rw [hplain] at hindex
      cases hindex
    refine iff_of_true (fun f hf => ?_) hne
    rw [c.decrypt_of_plain aes hplain] at hf
    split at hf
    · cases hf
    · split at hf <;> cases hf

/-- A length beyond the frame leaves no receiver to compare with. -/
theorem receiver_of_overrun {plain : List UInt8}
    (h : plain.length < 20 + messageLength plain) :
    Utf8.decodeReplace (plain.drop (20 + messageLength plain)) = [] := by
  rw [List.drop_of_length_le (by omega)]
  rfl

theorem decrypt_strict_iff (encrypted : List Char) :
    DecodesStrictly aes c encrypted
      ↔ Base64.b64decode encrypted ≠ some []
        ∧ (c.receiveId = [] → ∀ plain, c.plain aes encrypted = .ok plain → 20 ≤ plain.length →
          20 + messageLength plain ≤ plain.length) := by
  constructor
  · intro h
    refine ⟨(c.decrypt_converts_iff aes encrypted).mp h.converts, fun hid plain hplain hlong => ?_⟩
    have hread := c.decrypt_of_plain aes hplain
    rw [if_neg (Nat.not_lt.mpr hlong), if_neg (fun hother => hother.1 hid)] at hread
    obtain ⟨plain', hplain', hfits⟩ := h.fits _ hread
    rw [hplain] at hplain'
    cases hplain'
    exact hfits
  · intro ⟨hne, hfits⟩
    refine ⟨(c.decrypt_converts_iff aes encrypted).mpr hne, fun message hmessage => ?_⟩
    cases hplain : c.plain aes encrypted with
    | error e =>
      simp only [decrypt, hplain] at hmessage
      cases hmessage
    | ok plain =>
      refine ⟨plain, rfl, ?_⟩
      rw [c.decrypt_of_plain aes hplain] at hmessage
      split at hmessage
      · cases hmessage
      rename_i hlong
      split at hmessage
      · cases hmessage
      rename_i hreceiver
      -- a trailer that matches a receiver is not empty, so the frame was not overrun
      by_contra hover
      have hnone := receiver_of_overrun (Nat.not_le.mp hover)
      rw [hnone] at hreceiver
      have hid : c.receiveId = [] := by
        by_contra hsome
        exact hreceiver ⟨hsome, fun hsame => hsome hsame.symm⟩
      exact hover (hfits hid plain hplain (Nat.not_lt.mp hlong))

end WeComCrypto

/-! ## Events -/

/-- What `json.loads` raises: a `JSONDecodeError`, or what the interpreter refuses
of a text that is JSON – too deep a nesting, too long an integer. -/
inductive LoadsFailure where
  | malformed
  | refused (f : CallbackFault)

/-- **What the interpreter does with JSON**: parsing it, rendering a value with
`str`, and telling the number literals that are zero. -/
structure PyJson where
  loads : List Char → Except LoadsFailure Json
  str : Json → Except CallbackFault String
  isZero : String → Bool

/-- `WeComEvent`, with the fields that say what kind of message it is. -/
structure WeComCallback extends WeComEvent where
  msgtype : String
  responseUrl : String
  revokeMsgid : String
  timestamp : String

namespace PyJson

variable (py : PyJson)

/-- `bool(value)`. -/
def truth : Json → Bool
  | .null => false
  | .bool b => b
  | .num literal => !py.isZero literal
  | .str s => s ≠ ""
  | .arr items => !items.isEmpty
  | .obj fields => !fields.isEmpty

/-- `payload.get(key) or {}`. -/
def orEmpty (payload : List (String × Json)) (key : String) : Json :=
  match payload.lookup key with
  | some value => if py.truth value then value else .obj []
  | none => .obj []

/-- `str(fields.get(key, default))`. -/
def getStr (fields : List (String × Json)) (key : String) (otherwise : String) :
    Except CallbackFault String :=
  py.str ((fields.lookup key).getD (.str otherwise))

/-- `str(value.get(key, ""))`, which only an object answers. -/
def memberStr (value : Json) (key : String) : Except CallbackFault String :=
  match value with
  | .obj fields => py.getStr fields key ""
  | _ => .error .attribute

/-- `str(event.get("revoke_msgid", "")) if isinstance(event, dict) else ""`. -/
def revokeStr (event : Json) : Except CallbackFault String :=
  match event with
  | .obj fields => py.getStr fields "revoke_msgid" ""
  | _ => .ok ""

/-- The event of a payload. -/
def eventOf (payload : List (String × Json)) : Except CallbackFault WeComCallback := do
  let event := py.orEmpty payload "event"
  let fromField := py.orEmpty payload "from"
  let text := py.orEmpty payload "text"
  let msgtype ← py.getStr payload "msgtype" ""
  let msgid ← py.getStr payload "msgid" ""
  let aibotid ← py.getStr payload "aibotid" ""
  let chattype ← py.getStr payload "chattype" "single"
  let chatid ← py.getStr payload "chatid" ""
  let fromUserid ← py.memberStr fromField "userid"
  let textContent ← py.memberStr text "content"
  let responseUrl ← py.getStr payload "response_url" ""
  let revokeMsgid ← py.revokeStr event
  let timestamp ← py.getStr payload "timestamp" ""
  return { msgtype, msgid, aibotid, chattype, chatid, fromUserid, textContent, responseUrl,
           revokeMsgid, timestamp }

/-- **`parse_event`.** -/
def parseEvent (plaintext : List Char) : Except CallbackException WeComCallback :=
  match py.loads plaintext with
  | .error .malformed => .error (.protocol "WECOM_EVENT_INVALID")
  | .error (.refused f) => .error (.fault f)
  | .ok (.obj payload) => (py.eventOf payload).mapError .fault
  | .ok _ => .error (.protocol "WECOM_EVENT_INVALID")

/-- A value is returned. -/
def Returns {ε α : Type} (r : Except ε α) : Prop := ∃ a, r = .ok a

/-- **A payload that is read to its end**: the sender and the text are objects or
nothing, and the interpreter renders every member that is read. -/
structure Readable (payload : List (String × Json)) : Prop where
  own : ∀ key ∈ ["msgtype", "msgid", "aibotid", "chatid", "response_url", "timestamp"],
    Returns (py.getStr payload key "")
  chattype : Returns (py.getStr payload "chattype" "single")
  sender : ∃ fields, py.orEmpty payload "from" = .obj fields
    ∧ Returns (py.getStr fields "userid" "")
  text : ∃ fields, py.orEmpty payload "text" = .obj fields
    ∧ Returns (py.getStr fields "content" "")
  event : ∀ fields, py.orEmpty payload "event" = .obj fields →
    Returns (py.getStr fields "revoke_msgid" "")

/-- **A text `parse_event` answers without an exception of Python.** -/
def ReadsCleanly (plaintext : List Char) : Prop :=
  match py.loads plaintext with
  | .error .malformed => True
  | .error (.refused _) => False
  | .ok (.obj payload) => py.Readable payload
  | .ok _ => True

theorem returns_bind {ε α β : Type} (r : Except ε α) (g : α → Except ε β) :
    Returns (r >>= g) ↔ ∃ a, r = .ok a ∧ Returns (g a) := by
  cases r with
  | ok a =>
    show Returns (g a) ↔ _
    simp
  | error e =>
    refine iff_of_false (fun ⟨_, h⟩ => ?_) (fun ⟨_, h, _⟩ => ?_)
    · cases h
    · cases h

theorem returns_memberStr (value : Json) (key : String) :
    Returns (py.memberStr value key)
      ↔ ∃ fields, value = .obj fields ∧ Returns (py.getStr fields key "") := by
  cases value with
  | obj fields => simp [memberStr]
  | _ => simp [memberStr, Returns]

theorem returns_revokeStr (event : Json) :
    Returns (py.revokeStr event)
      ↔ ∀ fields, event = .obj fields → Returns (py.getStr fields "revoke_msgid" "") := by
  cases event with
  | obj fields => simp [revokeStr]
  | _ => simp [revokeStr, Returns]

theorem eventOf_returns_iff (payload : List (String × Json)) :
    Returns (py.eventOf payload) ↔ py.Readable payload := by
  have hpure : ∀ e : WeComCallback, Returns (pure e : Except CallbackFault WeComCallback) :=
    fun e => ⟨e, rfl⟩
  have hand : ∀ (r : Except CallbackFault String) (P : Prop),
      (∃ a, r = .ok a ∧ P) ↔ Returns r ∧ P := fun r P => exists_and_right
  simp only [eventOf, returns_bind, hpure, hand, and_true, returns_memberStr, returns_revokeStr]
  constructor
  · intro ⟨hmsgtype, hmsgid, haibotid, hchattype, hchatid, hsender, htext, hurl, hevent, hstamp⟩
    refine ⟨?_, hchattype, hsender, htext, hevent⟩
    simp only [List.mem_cons, List.not_mem_nil, or_false]
    rintro key (rfl | rfl | rfl | rfl | rfl | rfl) <;> assumption
  · intro h
    exact ⟨h.own _ (by simp), h.own _ (by simp), h.own _ (by simp), h.chattype,
      h.own _ (by simp), h.sender, h.text, h.own _ (by simp), h.event, h.own _ (by simp)⟩

theorem parseEvent_converts_iff (plaintext : List Char) :
    WeComCrypto.Converts (py.parseEvent plaintext) ↔ py.ReadsCleanly plaintext := by
  unfold parseEvent ReadsCleanly
  cases py.loads plaintext with
  | error failure =>
    cases failure with
    | malformed => exact iff_of_true (fun f h => by cases h) trivial
    | refused f => exact iff_of_false (fun h => h f rfl) id
  | ok value =>
    cases value with
    | obj payload =>
      show WeComCrypto.Converts ((py.eventOf payload).mapError _) ↔ py.Readable payload
      rw [← py.eventOf_returns_iff]
      cases py.eventOf payload with
      | ok event => exact iff_of_true (fun f h => by cases h) ⟨event, rfl⟩
      | error f => exact iff_of_false (fun h => h f rfl) (fun ⟨_, h⟩ => by cases h)
    | _ => exact iff_of_true (fun f h => by cases h) trivial

end PyJson

/-- **Where the callbacks are strict.** A ciphertext is decoded strictly if and
only if it is not empty and, for a bot with no receiver, its frame holds the
message it declares; a text is answered if and only if the interpreter itself
refuses neither the text nor a member that is read, and an object has a sender
and a text that are objects or nothing. -/
theorem callbacks_strict_iff (aes : AesCbc) (c : WeComCrypto) (py : PyJson) :
    (∀ encrypted, WeComCrypto.DecodesStrictly aes c encrypted
      ↔ Base64.b64decode encrypted ≠ some []
        ∧ (c.receiveId = [] → ∀ plain, c.plain aes encrypted = .ok plain → 20 ≤ plain.length →
          20 + WeComCrypto.messageLength plain ≤ plain.length))
      ∧ ∀ plaintext, WeComCrypto.Converts (py.parseEvent plaintext)
        ↔ py.ReadsCleanly plaintext :=
  ⟨c.decrypt_strict_iff aes, py.parseEvent_converts_iff⟩

/-- The empty text is an `IndexError`. -/
theorem emptyText_escapes :
    ¬WeComCrypto.DecodesStrictly WeComCrypto.corpAes ⟨WeComCrypto.corpKey, "corp".toList⟩ [] :=
  fun h => h.converts .index (by decide)
