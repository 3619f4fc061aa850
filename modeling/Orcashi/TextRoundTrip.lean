import Orcashi.TextEncryption

/-!
# Encrypted texts are read again

An encrypted text is read again as long as its base64 text is shorter than 2^31 characters.  A longer one is
not decoded, and a text of 2^32 bytes or more is encrypted in part.
-/

namespace Orcashi

open CMemory Stdio

/-! ## Lengths -/

theorem intOfSize_eq_self {n : UInt64} (h : n.toNat < 2147483648) : intOfSize n = n.toNat :=
  Int.bmod_eq_of_le (by omega) (by omega)

/-- Nothing is added by a conversion. -/
theorem intOfSize_le {n : UInt64} (h : 0 ≤ intOfSize n) :
    (intOfSize n).toNat ≤ n.toNat ∧ (intOfSize n).toNat < 2147483648 := by
  unfold intOfSize at h ⊢
  rw [Int.bmod_def] at h ⊢
  split_ifs at h ⊢ <;> omega

/-- The sizes from 2^31 to 2^32 become negative. -/
theorem intOfSize_of_ge {n : UInt64} (low : 2147483648 ≤ n.toNat) (high : n.toNat < 4294967296) :
    intOfSize n = n.toNat - 4294967296 := by
  unfold intOfSize
  rw [Int.bmod_def]
  split_ifs <;> omega

theorem toNat_sizeOfInt (n : ℤ) : (sizeOfInt n).toNat = (n % 18446744073709551616).toNat := by
  show (UInt64.ofNat (n % 2 ^ 64).toNat).toNat = _
  rw [UInt64.toNat_ofNat']
  omega

theorem intOfSize_sizeOfInt {n : ℤ} (h : IsInt n) : intOfSize (sizeOfInt n) = n := by
  obtain ⟨low, high⟩ := h
  unfold intOfSize
  rw [toNat_sizeOfInt, Int.bmod_def]
  split_ifs <;> omega

theorem sizeOfInt_natCast (n : ℕ) : sizeOfInt n = n.toUInt64 := by
  rw [← UInt64.toNat_inj, toNat_sizeOfInt, Nat.toUInt64_eq, UInt64.toNat_ofNat']
  omega

theorem toNat_strlen {s : CString} (h : s.length < 18446744073709551616) : (strlen s).toNat = s.length := by
  rw [strlen, Nat.toUInt64_eq, UInt64.toNat_ofNat']
  omega

theorem strlen_le (s : CString) : (strlen s).toNat ≤ s.length := by
  rw [strlen, Nat.toUInt64_eq, UInt64.toNat_ofNat']
  exact Nat.mod_le _ _

/-- The number of bytes of a text that a cipher is told to take. -/
def taken (text : CString) : ℕ := (intOfSize (strlen text)).toNat

theorem taken_eq_self {text : CString} (h : text.length < 2147483648) : taken text = text.length := by
  have length := @toNat_strlen text (by omega)
  rw [taken, intOfSize_eq_self (by omega), length]
  exact Int.toNat_natCast _

/-- Of a text of 2^31 bytes or more, something is left out. -/
theorem take_taken_eq_iff {text : CString} (h : 0 ≤ intOfSize (strlen text)) :
    text.take (taken text) = text ↔ text.length < 2147483648 := by
  have bounds := intOfSize_le h
  constructor
  · intro same
    have length := congrArg List.length same
    rw [List.length_take] at length
    unfold taken at length
    omega
  · intro short
    rw [taken_eq_self short, List.take_length]

theorem length_take_taken {text : CString} (h : 0 ≤ intOfSize (strlen text)) :
    (text.take (taken text)).length = taken text := by
  have bounds := (intOfSize_le h).1
  have length := strlen_le text
  rw [List.length_take]
  unfold taken
  omega

theorem updateInput_eq_some {data input : Bytes} {inl : ℤ} (h : updateInput data inl = some input) :
    0 ≤ inl ∧ input = data.take inl.toNat := by
  unfold updateInput at h
  split_ifs at h with negative
  exact ⟨by omega, (Option.some.inj h).symm⟩

theorem sizeOfInt_add_one {n : ℤ} (h : 0 ≤ n) : sizeOfInt n + 1 = (n.toNat + 1).toUInt64 := by
  have cast : n = n.toNat := (Int.toNat_of_nonneg h).symm
  rw [cast, sizeOfInt_natCast, Int.toNat_natCast, Nat.toUInt64_eq, Nat.toUInt64_eq, UInt64.ofNat_add]
  rfl

/-! ## What is assumed of OpenSSL and of memory -/

/-- Decryption undoes encryption and accepts nothing else, and base64 text is read as it was written. -/
structure TextCrypto.Ideal (crypto : TextCrypto) : Prop where
  gcm (key nonce tag c data : Bytes) :
    crypto.gcmDecrypt key nonce tag c = some data ↔ crypto.gcmEncrypt key nonce data = some (tag, c)
  gcmLengths (key nonce data tag c : Bytes) : crypto.gcmEncrypt key nonce data = some (tag, c) →
    tag.length = orcaAesGcmTagLen ∧ c.length = data.length
  cbc (key iv c data : Bytes) :
    crypto.cbcDecrypt key iv c = some data ↔ crypto.cbcEncrypt key iv data = some c
  /-- one to sixteen bytes are added, up to a whole block -/
  cbcLength (key iv data c : Bytes) : crypto.cbcEncrypt key iv data = some c →
    c.length = (data.length / 16 + 1) * 16
  base64 (c : Bytes) : (crypto.base64Encode c).length < 2147483648 →
    (crypto.base64Read (crypto.base64Encode c) (crypto.base64Encode c).length).bytes = c
  base64Length (c : Bytes) : (crypto.base64Encode c).length = (c.length + 2) / 3 * 4

/-- No array has 2^63 bytes. -/
def Malloc.Bounded (malloc : Malloc) : Prop := ∀ n : UInt64, 9223372036854775808 ≤ n.toNat → malloc n = none

/-- A ciphertext of `n` bytes can be read: its base64 text has fewer than 2^31 characters, and there is
memory for the two arrays. -/
structure Readable (malloc : Malloc) (n : ℕ) : Prop where
  short : n ≤ 1610612733
  buffer : (malloc ((n + 2) / 3 * 4 + 1).toUInt64).isSome
  plaintext : (malloc (n + 1).toUInt64).isSome

/-! ## What is encrypted is read again -/

section Both

variable {crypto : TextCrypto} {malloc : Malloc}

theorem orcaBase64Encode_eq_some {c : Bytes} {b64 : CString} (atMost : c.length ≤ 2147483648)
    (h : crypto.orcaBase64Encode malloc c (intOfSize (totalLen c)) = some b64) :
    b64 = crypto.base64Encode c ∧ 0 < c.length ∧ c.length < 2147483648 := by
  have len : intOfSize (totalLen c) = (c.length : ℤ).bmod 4294967296 := by
    have low := @Int.le_bmod c.length 4294967296 (by decide)
    have high := @Int.bmod_lt c.length 4294967296 (by decide)
    exact intOfSize_sizeOfInt ⟨by omega, by omega⟩
  unfold TextCrypto.orcaBase64Encode at h
  by_cases lt : c.length < 2147483648
  · rw [len, Int.bmod_eq_of_le (by omega) (by omega)] at h
    split_ifs at h with empty
    rw [Int.toNat_natCast, List.take_length] at h
    obtain ⟨-, text⟩ := Option.ite_none_right_eq_some.1 h
    exact ⟨(Option.some.inj text).symm, by omega, lt⟩
  · -- 2^31 is no `int`
    have full : c.length = 2147483648 := by omega
    rw [len, full, if_pos (by decide)] at h
    cases h

/-- The decoding of what was encoded. -/
theorem orcaBase64Decode_encode (ideal : crypto.Ideal) (bounded : malloc.Bounded) {c : Bytes}
    (pos : 0 < c.length) (lt : c.length < 2147483648) :
    (∀ read, crypto.orcaBase64Decode malloc (crypto.base64Encode c) = some read →
      read.bytes = c ∧ read.count = c.length) ∧
    ((crypto.orcaBase64Decode malloc (crypto.base64Encode c)).isSome ↔
      c.length ≤ 1610612733 ∧ (malloc ((c.length + 2) / 3 * 4 + 1).toUInt64).isSome) := by
  have length := ideal.base64Length c
  have size := @toNat_strlen (crypto.base64Encode c) (by omega)
  by_cases short : c.length ≤ 1610612733
  · have int : intOfSize (strlen (crypto.base64Encode c)) = (crypto.base64Encode c).length := by
      rw [intOfSize_eq_self (by omega), size]
    have room : sizeOfInt (decodeRoom (crypto.base64Encode c)) =
        ((c.length + 2) / 3 * 4 + 1).toUInt64 := by
      rw [← sizeOfInt_natCast, decodeRoom, int, Int.bmod_eq_of_le (by omega) (by omega), length]
      rfl
    have text : crypto.readText (crypto.base64Encode c) =
        crypto.base64Read (crypto.base64Encode c) (crypto.base64Encode c).length := by
      unfold TextCrypto.readText
      dsimp only
      rw [int, if_neg (by omega), Int.toNat_natCast, List.take_length]
    have back := ideal.base64 c (by omega)
    have stored := (crypto.base64Read (crypto.base64Encode c) (crypto.base64Encode c).length).stored
    rw [TextCrypto.orcaBase64Decode, room, text]
    split_ifs with memory
    · refine ⟨fun read h => ?_, iff_of_true rfl ⟨short, memory⟩⟩
      cases Option.some.inj h
      rw [back] at stored
      exact ⟨back, by omega⟩
    · refine ⟨fun read h => ?_, iff_of_false (fun h => ?_) fun h => memory h.2⟩
      · cases h
      · cases h
  · -- the length of the text is negative, and so is the size of the buffer
    have int := @intOfSize_of_ge (strlen (crypto.base64Encode c)) (by omega) (by omega)
    have room : decodeRoom (crypto.base64Encode c) = (crypto.base64Encode c).length - 4294967295 := by
      rw [decodeRoom, int, Int.bmod_eq_of_le (by omega) (by omega), size]
      omega
    have none_ : crypto.orcaBase64Decode malloc (crypto.base64Encode c) = none := by
      rw [TextCrypto.orcaBase64Decode, bounded _ (by rw [toNat_sizeOfInt, room]; omega)]
      rfl
    rw [none_]
    refine ⟨fun read h => ?_, iff_of_false (fun h => ?_) fun h => short h.1⟩
    · cases h
    · cases h

/-- `decrypt` gives a whole buffer to `cipher`. -/
def Gives (malloc : Malloc) (cipher : Bytes → Option Bytes)
    (decrypt : Bytes → UInt64 → Option Bytes) : Prop :=
  ∀ read : BioRead, decrypt read.bytes (sizeOfInt read.count) =
    if 0 ≤ read.count ∧ (malloc (read.bytes.length + 1).toUInt64).isSome then cipher read.bytes else none

theorem gives_update (malloc : Malloc) (cipher : Bytes → Option Bytes) :
    Gives malloc cipher fun c len =>
      if (malloc (len + 1)).isSome then (updateInput c (intOfSize len)).bind cipher else none := by
  intro read
  dsimp only
  rw [intOfSize_sizeOfInt read.int, updateInput]
  by_cases nonneg : 0 ≤ read.count
  · rw [if_neg (Int.not_lt.2 nonneg), sizeOfInt_add_one nonneg, ← read.stored, List.take_length]
    simp only [nonneg, true_and, Option.bind_some]
  · have refused : ¬ (0 ≤ read.count ∧ (malloc (read.bytes.length + 1).toUInt64).isSome) :=
      fun h => nonneg h.1
    rw [if_pos (Int.not_le.1 nonneg), if_neg refused]
    exact ite_self _

theorem gives_gcm (malloc : Malloc) (key nonce tag : Bytes) :
    Gives malloc (crypto.gcmDecrypt key nonce tag) fun c len =>
      crypto.orcaAesGcmDecrypt malloc c len key nonce tag :=
  gives_update malloc _

theorem gives_cbc (malloc : Malloc) (key iv : Bytes) :
    Gives malloc (crypto.cbcDecrypt key iv) fun c len => crypto.orcaAesCbcDecrypt malloc c len key iv :=
  gives_update malloc _

/-- The decryption of an encoded ciphertext. -/
theorem decryptText_encode (ideal : crypto.Ideal) (bounded : malloc.Bounded) {c data : Bytes}
    (pos : 0 < c.length) (lt : c.length < 2147483648) {cipher : Bytes → Option Bytes}
    {decrypt : Bytes → UInt64 → Option Bytes} (gives : Gives malloc cipher decrypt) :
    (crypto.decryptText malloc (crypto.base64Encode c) decrypt).plaintext = some data ↔
      (c.length ≤ 1610612733 ∧ (malloc ((c.length + 2) / 3 * 4 + 1).toUInt64).isSome) ∧
        (malloc (c.length + 1).toUInt64).isSome ∧ cipher c = some data := by
  obtain ⟨reads, decodes⟩ := orcaBase64Decode_encode ideal bounded pos lt
  rw [← decodes]
  unfold TextCrypto.decryptText
  cases decoded : crypto.orcaBase64Decode malloc (crypto.base64Encode c) with
  | none => exact iff_of_false (fun h => by cases h) fun h => by cases h.1
  | some read =>
    obtain ⟨bytes, count⟩ := reads read decoded
    dsimp only
    rw [gives, Option.ite_none_right_eq_some, bytes, count]
    exact ⟨fun h => ⟨rfl, h.1.2, h.2⟩, fun h => ⟨⟨Int.natCast_nonneg _, h.2.1⟩, h.2.2⟩⟩

/-- What a cipher is given of a text: both `orca_aes_.._encrypt` are of this form. -/
theorem encrypt_eq_some {α : Type} {text : CString} {size : UInt64} {cipher : Bytes → Option α} {x : α}
    (h : (if (malloc size).isSome then (updateInput text (intOfSize (strlen text))).bind cipher else none) =
      some x) :
    0 ≤ intOfSize (strlen text) ∧ taken text < 2147483648 ∧ cipher (text.take (taken text)) = some x := by
  obtain ⟨-, encrypted⟩ := Option.ite_none_right_eq_some.1 h
  obtain ⟨input, update, encrypted⟩ := Option.bind_eq_some_iff.1 encrypted
  obtain ⟨nonneg, front⟩ := updateInput_eq_some update
  rw [front] at encrypted
  exact ⟨nonneg, (intOfSize_le nonneg).2, encrypted⟩

/-- What `orca_aes_gcm_encrypt_string` returns. -/
theorem gcmEncryptString_eq_some (ideal : crypto.Ideal) {text keyHex : CString}
    {nonce : Option AesGcmNonce} {out : GcmText}
    (h : crypto.orcaAesGcmEncryptString malloc text keyHex nonce = some out) :
    ∃ (key : Bytes) (nonce' : AesGcmNonce) (tag c : Bytes),
      orcaHexToBytes keyHex orcaAesGcmKeyLen = some key ∧ 0 ≤ intOfSize (strlen text) ∧
      crypto.gcmEncrypt key nonce'.val (text.take (taken text)) = some (tag, c) ∧
      0 < c.length ∧ c.length < 2147483648 ∧
      out = ⟨orcaBytesToHex nonce'.val, orcaBytesToHex tag, crypto.base64Encode c⟩ := by
  obtain ⟨key, hkey, h⟩ := Option.bind_eq_some_iff.1 h
  obtain ⟨nonce', -, h⟩ := Option.bind_eq_some_iff.1 h
  obtain ⟨⟨tag, c⟩, encrypted, h⟩ := Option.bind_eq_some_iff.1 h
  obtain ⟨b64, encoded, h⟩ := Option.bind_eq_some_iff.1 h
  obtain ⟨nonneg, bound, encrypted⟩ := encrypt_eq_some encrypted
  have length : c.length = (text.take (taken text)).length := (ideal.gcmLengths _ _ _ _ _ encrypted).2
  rw [length_take_taken nonneg] at length
  obtain ⟨rfl, pos, lt⟩ := orcaBase64Encode_eq_some (by omega) encoded
  exact ⟨key, nonce', tag, c, hkey, nonneg, encrypted, pos, lt, (Option.some.inj h).symm⟩

/-- What `orca_aes_cbc_encrypt_string` returns. -/
theorem cbcEncryptString_eq_some (ideal : crypto.Ideal) {text keyHex : CString} {iv : Option AesIv}
    {out : CbcText} (h : crypto.orcaAesCbcEncryptString malloc text keyHex iv = some out) :
    ∃ (key : Bytes) (iv' : AesIv) (c : Bytes),
      orcaHexToBytes keyHex aesKeyLen = some key ∧ 0 ≤ intOfSize (strlen text) ∧
      crypto.cbcEncrypt key iv'.val (text.take (taken text)) = some c ∧
      0 < c.length ∧ c.length < 2147483648 ∧ out = ⟨orcaBytesToHex iv'.val, crypto.base64Encode c⟩ := by
  obtain ⟨key, hkey, h⟩ := Option.bind_eq_some_iff.1 h
  obtain ⟨iv', -, h⟩ := Option.bind_eq_some_iff.1 h
  obtain ⟨c, encrypted, h⟩ := Option.bind_eq_some_iff.1 h
  obtain ⟨b64, encoded, h⟩ := Option.bind_eq_some_iff.1 h
  obtain ⟨nonneg, bound, encrypted⟩ := encrypt_eq_some encrypted
  have length : c.length = ((text.take (taken text)).length / 16 + 1) * 16 :=
    ideal.cbcLength _ _ _ _ encrypted
  rw [length_take_taken nonneg] at length
  obtain ⟨rfl, pos, lt⟩ := orcaBase64Encode_eq_some (by omega) encoded
  exact ⟨key, iv', c, hkey, nonneg, encrypted, pos, lt, (Option.some.inj h).symm⟩

/-- A text is read again, if the part that was encrypted is the whole and can be read. -/
theorem restored_iff (size : ℕ → ℕ) (atLeast : ∀ n, n ≤ size n) {malloc' : Malloc} {text : CString}
    (nonneg : 0 ≤ intOfSize (strlen text)) {n : ℕ} (length : n = size (taken text)) :
    ((n ≤ 1610612733 ∧ (malloc' ((n + 2) / 3 * 4 + 1).toUInt64).isSome) ∧
      (malloc' (n + 1).toUInt64).isSome ∧ text.take (taken text) = text) ↔
      Readable malloc' (size text.length) := by
  rw [take_taken_eq_iff nonneg]
  constructor
  · rintro ⟨⟨short, buffer⟩, plaintext, all⟩
    rw [length, taken_eq_self all] at short buffer plaintext
    exact ⟨short, buffer, plaintext⟩
  · rintro ⟨short, buffer, plaintext⟩
    have all : text.length < 2147483648 := by
      have := atLeast text.length
      omega
    rw [length, taken_eq_self all]
    exact ⟨⟨short, buffer⟩, plaintext, all⟩

theorem gcm_restores_iff (ideal : crypto.Ideal) {malloc' : Malloc} (bounded : malloc'.Bounded)
    {text keyHex : CString} {nonce : Option AesGcmNonce} {out : GcmText}
    (h : crypto.orcaAesGcmEncryptString malloc text keyHex nonce = some out) :
    (crypto.orcaAesGcmDecryptString malloc' out.ciphertextB64 out.nonceHex out.tagHex keyHex).plaintext =
      some text ↔ Readable malloc' text.length := by
  obtain ⟨key, nonce', tag, c, hkey, nonneg, encrypted, pos, lt, rfl⟩ := gcmEncryptString_eq_some ideal h
  obtain ⟨tagLength, length⟩ := ideal.gcmLengths _ _ _ _ _ encrypted
  have back := (ideal.gcm _ _ _ _ _).2 encrypted
  rw [length_take_taken nonneg] at length
  unfold TextCrypto.orcaAesGcmDecryptString
  rw [hkey, orcaHexToBytes_orcaBytesToHex nonce'.property, orcaHexToBytes_orcaBytesToHex tagLength]
  dsimp only
  rw [decryptText_encode ideal bounded pos lt (gives_gcm malloc' key nonce'.val tag), back, Option.some_inj]
  exact restored_iff (fun n => n) Nat.le_refl nonneg length

theorem cbc_restores_iff (ideal : crypto.Ideal) {malloc' : Malloc} (bounded : malloc'.Bounded)
    {text keyHex : CString} {iv : Option AesIv} {out : CbcText}
    (h : crypto.orcaAesCbcEncryptString malloc text keyHex iv = some out) :
    (crypto.orcaAesCbcDecryptString malloc' out.ciphertextB64 out.ivHex keyHex).plaintext = some text ↔
      Readable malloc' ((text.length / 16 + 1) * 16) := by
  obtain ⟨key, iv', c, hkey, nonneg, encrypted, pos, lt, rfl⟩ := cbcEncryptString_eq_some ideal h
  have length := ideal.cbcLength _ _ _ _ encrypted
  have back := (ideal.cbc _ _ _ _).2 encrypted
  rw [length_take_taken nonneg] at length
  unfold TextCrypto.orcaAesCbcDecryptString
  rw [hkey, orcaHexToBytes_orcaBytesToHex iv'.property]
  dsimp only
  rw [decryptText_encode ideal bounded pos lt (gives_cbc malloc' key iv'.val), back, Option.some_inj]
  exact restored_iff (fun n => (n / 16 + 1) * 16) (fun n => by omega) nonneg length

end Both

end Orcashi
