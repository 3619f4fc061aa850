import Orcashi.Lib.Base64
import Orcashi.TextRoundTrip

/-!
# What a decryption refuses

The texts given to a decryption may be anything.  Three things get through that should not: a negative
length, hexadecimal text that is none, and base64 text that is none.
-/

namespace Orcashi

open CMemory Stdio

/-! ## What is not a text -/

/-- What a decryption owes if it is given something else: it is refused, and no negative number becomes a
size. -/
structure Refuses (malformed : Prop) (d : Decryption) : Prop where
  refused : malformed → d.plaintext = none
  sizes : malformed → ∀ n ∈ d.sizes, 0 ≤ n

/-- A text whose length, as an `int`, is `INT_MAX` or is below -1. -/
def Overlong (s : CString) : Prop :=
  2147483647 ≤ s.length % 4294967296 ∧ s.length % 4294967296 < 4294967295

namespace TextCrypto

variable (crypto : TextCrypto) (malloc : Malloc)

/-- A text that the encoder makes. -/
def IsBase64 (s : CString) : Prop := ∃ c, crypto.base64Encode c = s

/-- One of the texts is not one that the encryption makes, or has another length. -/
def GcmMalformed (b64 nonceHex tagHex keyHex : CString) : Prop :=
  ¬ (crypto.IsBase64 b64 ∧ HexText nonceHex orcaAesGcmNonceLen ∧ HexText tagHex orcaAesGcmTagLen ∧
    HexText keyHex orcaAesGcmKeyLen)

/-- The same for CBC. -/
def CbcMalformed (b64 ivHex keyHex : CString) : Prop :=
  ¬ (crypto.IsBase64 b64 ∧ HexText ivHex aesIvLen ∧ HexText keyHex aesKeyLen)

/-- A base64 text on whose way a negative number becomes a size, or which is taken for a ciphertext. -/
inductive GetsThrough (b64 : CString) (genuine : Bytes → Prop) : Prop
  | overlong (h : Overlong b64)
  | negative (memory : (malloc (sizeOfInt (decodeRoom b64))).isSome) (h : (crypto.readText b64).count < 0)
  | genuine (memory : (malloc (sizeOfInt (decodeRoom b64))).isSome)
      (nonneg : 0 ≤ (crypto.readText b64).count)
      (memory' : (malloc ((crypto.readText b64).bytes.length + 1).toUInt64).isSome)
      (h : genuine (crypto.readText b64).bytes)

/-- The key, the nonce and the tag are read, and the base64 text gets through with them. -/
def GcmGetsThrough (b64 nonceHex tagHex keyHex : CString) : Prop :=
  ∃ key nonce tag, orcaHexToBytes keyHex orcaAesGcmKeyLen = some key ∧
    orcaHexToBytes nonceHex orcaAesGcmNonceLen = some nonce ∧
    orcaHexToBytes tagHex orcaAesGcmTagLen = some tag ∧
    crypto.GetsThrough malloc b64 fun c => ∃ data, crypto.gcmEncrypt key nonce data = some (tag, c)

/-- The key and the IV are read, and the base64 text gets through with them. -/
def CbcGetsThrough (b64 ivHex keyHex : CString) : Prop :=
  ∃ key iv, orcaHexToBytes keyHex aesKeyLen = some key ∧ orcaHexToBytes ivHex aesIvLen = some iv ∧
    crypto.GetsThrough malloc b64 fun c => ∃ data, crypto.cbcEncrypt key iv data = some c

end TextCrypto

section Other

variable {crypto : TextCrypto} {malloc : Malloc}

theorem decodeRoom_neg_iff (s : CString) : decodeRoom s < 0 ↔ Overlong s := by
  have length : (strlen s).toNat % 4294967296 = s.length % 4294967296 := by
    rw [strlen, Nat.toUInt64_eq, UInt64.toNat_ofNat']
    omega
  unfold decodeRoom intOfSize Overlong
  rw [Int.bmod_def, Int.bmod_def]
  split_ifs <;> omega

/-- What is not refused. -/
def Decryption.Passes (d : Decryption) : Prop := d.plaintext.isSome ∨ ∃ n ∈ d.sizes, n < 0

theorem not_passes_of_unread : ¬ (⟨none, []⟩ : Decryption).Passes := by
  rintro (h | ⟨n, mem, -⟩)
  · cases h
  · cases mem

theorem refuses_iff {malformed : Prop} {d : Decryption} :
    Refuses malformed d ↔ ¬ (malformed ∧ d.Passes) := by
  constructor
  · rintro refuses ⟨none_, some_ | ⟨n, mem, negative⟩⟩
    · rw [refuses.refused none_] at some_
      cases some_
    · have := refuses.sizes none_ n mem
      omega
  · intro stops
    refine ⟨fun none_ => ?_, fun none_ n mem => ?_⟩
    · by_contra some_
      exact stops ⟨none_, Or.inl (Option.isSome_iff_ne_none.2 some_)⟩
    · by_contra negative
      exact stops ⟨none_, Or.inr ⟨n, mem, by omega⟩⟩

/-- Which base64 texts get through, for a cipher that takes what is genuine. -/
theorem decryptText_passes_iff {b64 : CString} {cipher : Bytes → Option Bytes}
    {decrypt : Bytes → UInt64 → Option Bytes} (gives : Gives malloc cipher decrypt)
    (genuine : Bytes → Prop) (takes : ∀ c, (cipher c).isSome ↔ genuine c) :
    (crypto.decryptText malloc b64 decrypt).Passes ↔ crypto.GetsThrough malloc b64 genuine := by
  have some_ (read : BioRead) : (decrypt read.bytes (sizeOfInt read.count)).isSome ↔
      (0 ≤ read.count ∧ (malloc (read.bytes.length + 1).toUInt64).isSome) ∧ genuine read.bytes := by
    rw [gives, ← takes]
    split_ifs with fits
    · exact (and_iff_right fits).symm
    · exact iff_of_false (fun h => by cases h) fun h => fits h.1
  have room := decodeRoom_neg_iff b64
  unfold TextCrypto.decryptText TextCrypto.orcaBase64Decode
  constructor
  · intro passes
    split_ifs at passes with memory
    · rcases passes with plaintext | ⟨n, mem, negative⟩
      · obtain ⟨⟨nonneg, memory'⟩, h⟩ := (some_ _).1 plaintext
        exact .genuine memory nonneg memory' h
      · rcases List.mem_pair.1 mem with first | second
        · exact .overlong (room.1 (first ▸ negative))
        · exact .negative memory (second ▸ negative)
    · rcases passes with plaintext | ⟨n, mem, negative⟩
      · cases plaintext
      · exact .overlong (room.1 (List.mem_singleton.1 mem ▸ negative))
  · rintro (long | ⟨memory, negative⟩ | ⟨memory, nonneg, memory', h⟩)
    · have negative := room.2 long
      split_ifs
      · exact Or.inr ⟨_, List.mem_cons_self, negative⟩
      · exact Or.inr ⟨_, List.mem_cons_self, negative⟩
    · rw [if_pos memory]
      exact Or.inr ⟨_, List.mem_pair.2 (Or.inr rfl), negative⟩
    · rw [if_pos memory]
      exact Or.inl ((some_ _).2 ⟨⟨nonneg, memory'⟩, h⟩)

theorem gcm_passes_iff (ideal : crypto.Ideal) (b64 nonceHex tagHex keyHex : CString) :
    (crypto.orcaAesGcmDecryptString malloc b64 nonceHex tagHex keyHex).Passes ↔
      crypto.GcmGetsThrough malloc b64 nonceHex tagHex keyHex := by
  unfold TextCrypto.orcaAesGcmDecryptString TextCrypto.GcmGetsThrough
  split
  · rename_i key nonce tag hkey hnonce htag
    rw [decryptText_passes_iff (gives_gcm malloc key nonce tag) _ fun c =>
      Option.isSome_iff_exists.trans (exists_congr (ideal.gcm key nonce tag c))]
    constructor
    · exact fun h => ⟨key, nonce, tag, hkey, hnonce, htag, h⟩
    · rintro ⟨key', nonce', tag', hkey', hnonce', htag', h⟩
      cases Option.some.inj (hkey.symm.trans hkey')
      cases Option.some.inj (hnonce.symm.trans hnonce')
      cases Option.some.inj (htag.symm.trans htag')
      exact h
  · rename_i unread
    refine iff_of_false not_passes_of_unread ?_
    rintro ⟨key, nonce, tag, hkey, hnonce, htag, -⟩
    exact unread key nonce tag hkey hnonce htag

theorem cbc_passes_iff (ideal : crypto.Ideal) (b64 ivHex keyHex : CString) :
    (crypto.orcaAesCbcDecryptString malloc b64 ivHex keyHex).Passes ↔
      crypto.CbcGetsThrough malloc b64 ivHex keyHex := by
  unfold TextCrypto.orcaAesCbcDecryptString TextCrypto.CbcGetsThrough
  split
  · rename_i key iv hkey hiv
    rw [decryptText_passes_iff (gives_cbc malloc key iv) _ fun c =>
      Option.isSome_iff_exists.trans (exists_congr (ideal.cbc key iv c))]
    constructor
    · exact fun h => ⟨key, iv, hkey, hiv, h⟩
    · rintro ⟨key', iv', hkey', hiv', h⟩
      cases Option.some.inj (hkey.symm.trans hkey')
      cases Option.some.inj (hiv.symm.trans hiv')
      exact h
  · rename_i unread
    refine iff_of_false not_passes_of_unread ?_
    rintro ⟨key, iv, hkey, hiv, -⟩
    exact unread key iv hkey hiv

/-- The crypto of an identity whose base64 and AES-256-CBC are these. -/
def TextCrypto.identity (crypto : TextCrypto) (malloc : Malloc) (other : IdentityCrypto) : IdentityCrypto :=
  { other with
    base64Decode := fun data => (crypto.orcaBase64Decode malloc data).bind fun read =>
      if 0 ≤ read.count then some read.bytes else none
    aesCbcDecrypt := fun c key iv =>
      if (malloc (c.length + 1).toUInt64).isSome then crypto.cbcDecrypt key iv c else none }

/-- An identity decrypts its key in this way. -/
theorem orcaAesCbcDecryptString_identity (other : IdentityCrypto) (b64 ivHex keyHex : CString) :
    orcaAesCbcDecryptString (crypto.identity malloc other) b64 ivHex keyHex =
      (crypto.orcaAesCbcDecryptString malloc b64 ivHex keyHex).plaintext.map (strAt · 0) := by
  unfold orcaAesCbcDecryptString TextCrypto.orcaAesCbcDecryptString TextCrypto.decryptText TextCrypto.identity
  cases orcaHexToBytes keyHex aesKeyLen with
  | none => rfl
  | some key =>
    cases orcaHexToBytes ivHex aesIvLen with
    | none => rfl
    | some iv =>
      cases decoded : crypto.orcaBase64Decode malloc b64 with
      | none => simp [decoded]
      | some read =>
        have gives := @gives_cbc crypto malloc key iv read
        dsimp only at gives
        simp only [decoded, gives, Option.bind_eq_bind, Option.bind_some]
        by_cases nonneg : 0 ≤ read.count
        · simp only [nonneg, if_true, true_and, Option.bind_some]
          split_ifs
          · cases crypto.cbcDecrypt key iv read.bytes <;> rfl
          · rfl
        · simp only [nonneg, if_false, false_and]
          rfl

end Other

/-- An encrypted text is read again exactly if its base64 text is shorter than 2^31 characters and there is
memory, and a decryption refuses what is no text exactly if it does not get through. -/
theorem text_encryption_iff {crypto : TextCrypto} (ideal : crypto.Ideal) (malloc : Malloc)
    {malloc' : Malloc} (bounded : malloc'.Bounded) (text keyHex : CString) (nonce : Option AesGcmNonce)
    (iv : Option AesIv) (b64 nonceHex ivHex tagHex keyHex' : CString) :
    (∀ out, crypto.orcaAesGcmEncryptString malloc text keyHex nonce = some out →
      ((crypto.orcaAesGcmDecryptString malloc' out.ciphertextB64 out.nonceHex out.tagHex keyHex).plaintext =
        some text ↔ Readable malloc' text.length)) ∧
    (∀ out, crypto.orcaAesCbcEncryptString malloc text keyHex iv = some out →
      ((crypto.orcaAesCbcDecryptString malloc' out.ciphertextB64 out.ivHex keyHex).plaintext = some text ↔
        Readable malloc' ((text.length / 16 + 1) * 16))) ∧
    (Refuses (crypto.GcmMalformed b64 nonceHex tagHex keyHex')
        (crypto.orcaAesGcmDecryptString malloc' b64 nonceHex tagHex keyHex') ↔
      ¬ (crypto.GcmMalformed b64 nonceHex tagHex keyHex' ∧
        crypto.GcmGetsThrough malloc' b64 nonceHex tagHex keyHex')) ∧
    (Refuses (crypto.CbcMalformed b64 ivHex keyHex')
        (crypto.orcaAesCbcDecryptString malloc' b64 ivHex keyHex') ↔
      ¬ (crypto.CbcMalformed b64 ivHex keyHex' ∧ crypto.CbcGetsThrough malloc' b64 ivHex keyHex')) := by
  refine ⟨fun out h => gcm_restores_iff ideal bounded h, fun out h => cbc_restores_iff ideal bounded h,
    ?_, ?_⟩
  · rw [refuses_iff, gcm_passes_iff ideal]
  · rw [refuses_iff, cbc_passes_iff ideal]

/-! ## One key, one nonce and one IV -/

namespace TextCrypto.Vectors

/-- A known key. -/
def key : Bytes :=
  [0x60, 0x3d, 0xeb, 0x10, 0x15, 0xca, 0x71, 0xbe, 0x2b, 0x73, 0xae, 0xf0, 0x85, 0x7d, 0x77, 0x81,
   0x1f, 0x35, 0x2c, 0x07, 0x3b, 0x61, 0x08, 0xd7, 0x2d, 0x98, 0x10, 0xa3, 0x09, 0x14, 0xdf, 0xf4]

/-- A known nonce. -/
def nonce : Bytes := [0xca, 0xfe, 0xba, 0xbe, 0xfa, 0xce, 0xdb, 0xad, 0xde, 0xca, 0xf8, 0x88]

/-- A known initial vector. -/
def iv : Bytes := [0, 1, 2, 3, 4, 5, 6, 7, 8, 9, 10, 11, 12, 13, 14, 15]

/-- `"hello"` under AES-256-GCM. -/
def gcm : Bytes × Bytes :=
  ([0x74, 0x89, 0x96, 0x36, 0x84, 0xf3, 0x2f, 0x9d, 0xd2, 0x7c, 0xce, 0xd8, 0x42, 0x90, 0x10, 0xac],
   [0xcf, 0x42, 0x84, 0x1c, 0x80])

/-- `"hello"` under AES-256-CBC. -/
def cbc : Bytes :=
  [0x11, 0x56, 0x7e, 0x23, 0x4f, 0xd4, 0x57, 0x5f, 0x68, 0x2c, 0xe3, 0x9d, 0xef, 0x00, 0x73, 0x07]

end TextCrypto.Vectors

/-- The end of a file. -/
def BioRead.eof : BioRead := ⟨0, [], ⟨by decide, by decide⟩, rfl⟩

/-- The bytes of a base64 text, and nothing of any other. -/
def BioRead.strict (text : CString) : BioRead :=
  match Base64.decode text with
  | none => .eof
  | some c =>
    if fits : c.length < 2147483648 ∧ Base64.encode c = text then
      ⟨c.length, c, ⟨by omega, by omega⟩, (Int.toNat_natCast _).symm⟩
    else .eof

open TextCrypto.Vectors in
/-- Ciphers that know `"hello"` and refuse everything else. -/
def TextCrypto.vectors : TextCrypto where
  gcmEncrypt k n data := if k = key ∧ n = nonce ∧ data = ascii "hello" then some gcm else none
  gcmDecrypt k n t c := if k = key ∧ n = nonce ∧ (t, c) = gcm then some (ascii "hello") else none
  cbcEncrypt k i data := if k = key ∧ i = iv ∧ data = ascii "hello" then some cbc else none
  cbcDecrypt k i c := if k = key ∧ i = iv ∧ c = cbc then some (ascii "hello") else none
  base64Encode := Base64.encode
  base64Read text _ := BioRead.strict text

theorem strict_encode {c : Bytes} (h : c.length < 2147483648) :
    (BioRead.strict (Base64.encode c)).bytes = c := by
  unfold BioRead.strict
  rw [Base64.decode_encode]
  dsimp only
  rw [dif_pos ⟨h, rfl⟩]

/-- Nothing is read from what is no base64 text. -/
theorem strict_count {text : CString} (h : ¬ TextCrypto.vectors.IsBase64 text) :
    (BioRead.strict text).count = 0 := by
  unfold BioRead.strict
  cases Base64.decode text with
  | none => rfl
  | some c =>
    dsimp only
    rw [dif_neg fun fits => h ⟨c, fits.2⟩]
    rfl

/-- Where one text is known, it is decrypted exactly from what it is encrypted to. -/
theorem one_text_iff {α : Type*} [DecidableEq α] {k key n nonce data hello : Bytes} {c known : α} :
    (if k = key ∧ n = nonce ∧ c = known then some hello else none) = some data ↔
      (if k = key ∧ n = nonce ∧ data = hello then some known else none) = some c := by
  simp only [Option.ite_none_right_eq_some, Option.some_inj]
  constructor
  · rintro ⟨⟨hkey, hnonce, text⟩, same⟩
    exact ⟨⟨hkey, hnonce, same.symm⟩, text.symm⟩
  · rintro ⟨⟨hkey, hnonce, same⟩, text⟩
    exact ⟨⟨hkey, hnonce, text.symm⟩, same.symm⟩

theorem vectors_ideal : TextCrypto.vectors.Ideal where
  gcm k n t c data := one_text_iff
  gcmLengths k n data t c h := by
    obtain ⟨⟨-, -, rfl⟩, same⟩ := Option.ite_none_right_eq_some.1 h
    cases Option.some.inj same
    exact ⟨rfl, rfl⟩
  cbc k i c data := one_text_iff
  cbcLength k i data c h := by
    obtain ⟨⟨-, -, rfl⟩, same⟩ := Option.ite_none_right_eq_some.1 h
    cases Option.some.inj same
    rfl
  base64 c short := by
    have length := Base64.length_encode c
    have short' : (Base64.encode c).length < 2147483648 := short
    exact strict_encode (by omega)
  base64Length := Base64.length_encode

/-- Memory for every array there can be. -/
def Malloc.plenty : Malloc := fun n => if n.toNat < 9223372036854775808 then Malloc.always n else none

theorem plenty_bounded : Malloc.plenty.Bounded := fun _ h => if_neg (Nat.not_lt.2 h)

theorem plenty_isSome {n : ℕ} (h : n < 9223372036854775808) : (Malloc.plenty n.toUInt64).isSome := by
  have small : n.toUInt64.toNat < 9223372036854775808 := by
    rw [Nat.toUInt64_eq, UInt64.toNat_ofNat']
    omega
  rw [Malloc.plenty, if_pos small]
  rfl

/-- What `"hello"` is encrypted to. -/
def GcmText.hello : GcmText where
  nonceHex := orcaBytesToHex TextCrypto.Vectors.nonce
  tagHex := orcaBytesToHex TextCrypto.Vectors.gcm.1
  ciphertextB64 := ascii "z0KEHIA="

/-- A text that was encrypted with them. -/
def CbcText.hello : CbcText where
  ivHex := orcaBytesToHex TextCrypto.Vectors.iv
  ciphertextB64 := ascii "EVZ+I0/UV19oLOOd7wBzBw=="

theorem count_exclamation : (TextCrypto.vectors.readText (ascii "!")).count = 0 := by decide +kernel

theorem bytes_exclamation : (TextCrypto.vectors.readText (ascii "!")).bytes = [] := by decide +kernel

/-- `"hello"` comes back, and `"!"` for a ciphertext is refused. -/
theorem hello_restored :
    (TextCrypto.vectors.orcaAesGcmDecryptString .plenty GcmText.hello.ciphertextB64 GcmText.hello.nonceHex
      GcmText.hello.tagHex (orcaBytesToHex TextCrypto.Vectors.key)).plaintext = some (ascii "hello") ∧
    (TextCrypto.vectors.orcaAesCbcDecryptString .plenty CbcText.hello.ciphertextB64 CbcText.hello.ivHex
      (orcaBytesToHex TextCrypto.Vectors.key)).plaintext = some (ascii "hello") ∧
    (TextCrypto.vectors.orcaAesGcmDecryptString .plenty (ascii "!") GcmText.hello.nonceHex
      GcmText.hello.tagHex (orcaBytesToHex TextCrypto.Vectors.key)).plaintext = none ∧
    (TextCrypto.vectors.orcaAesCbcDecryptString .plenty (ascii "!") CbcText.hello.ivHex
      (orcaBytesToHex TextCrypto.Vectors.key)).plaintext = none := by
  obtain ⟨gcm, cbc, gcmRefuses, cbcRefuses⟩ := text_encryption_iff vectors_ideal .plenty plenty_bounded
    (ascii "hello") (orcaBytesToHex TextCrypto.Vectors.key) (some ⟨TextCrypto.Vectors.nonce, rfl⟩)
    (some ⟨TextCrypto.Vectors.iv, rfl⟩) (ascii "!") GcmText.hello.nonceHex CbcText.hello.ivHex
    GcmText.hello.tagHex (orcaBytesToHex TextCrypto.Vectors.key)
  have none_ : ¬ TextCrypto.vectors.IsBase64 (ascii "!") := by
    rintro ⟨c, same⟩
    have length := Base64.length_encode c
    have one : (Base64.encode c).length = 1 := congrArg List.length same
    omega
  have stopped {genuine : Bytes → Prop} (empty : ¬ genuine []) :
      ¬ TextCrypto.vectors.GetsThrough .plenty (ascii "!") genuine := by
    rintro (long | ⟨-, negative⟩ | ⟨-, -, -, h⟩)
    · exact absurd long.1 (by decide)
    · rw [count_exclamation] at negative
      exact absurd negative (by decide)
    · rw [bytes_exclamation] at h
      exact empty h
  refine ⟨(gcm .hello ?_).2 ?_, (cbc .hello ?_).2 ?_, (gcmRefuses.2 ?_).refused fun h => none_ h.1,
    (cbcRefuses.2 ?_).refused fun h => none_ h.1⟩
  · decide +kernel
  · exact ⟨by decide, plenty_isSome (by decide), plenty_isSome (by decide)⟩
  · decide +kernel
  · exact ⟨by decide, plenty_isSome (by decide), plenty_isSome (by decide)⟩
  · rintro ⟨-, key, nonce, tag, -, -, -, through⟩
    refine stopped ?_ through
    rintro ⟨data, encrypted⟩
    have same := (Option.ite_none_right_eq_some.1 encrypted).2
    cases Option.some.inj same
  · rintro ⟨-, key, iv, -, -, through⟩
    refine stopped ?_ through
    rintro ⟨data, encrypted⟩
    have same := (Option.ite_none_right_eq_some.1 encrypted).2
    cases Option.some.inj same

/-- The key of the examples, with `+7` for `07`. -/
def plusSeven : CString := ascii "603deb1015ca71be2b73aef0857d77811f352c+73b6108d72d9810a30914dff4"

/-- Of a text of 2^32 + 5 bytes the first five are encrypted. -/
theorem encrypt_five {text : CString} (length : text.length = 4294967301)
    (front : text.take 5 = ascii "hello") :
    TextCrypto.vectors.orcaAesGcmEncryptString .plenty text (orcaBytesToHex TextCrypto.Vectors.key)
      (some ⟨TextCrypto.Vectors.nonce, rfl⟩) = some .hello := by
  have size : strlen text = 4294967301 := by rw [strlen, length]; rfl
  have input : updateInput text (intOfSize 4294967301) = some (ascii "hello") := by
    have five : intOfSize 4294967301 = 5 := by decide +kernel
    rw [five, updateInput, if_neg (by decide)]
    exact congrArg some front
  unfold TextCrypto.orcaAesGcmEncryptString TextCrypto.orcaAesGcmEncrypt
  rw [size, input]
  decide +kernel

/-- A text of 2^32 + 5 bytes is encrypted and not given back, and a key that is no hexadecimal text is
accepted, also where nothing is read from what is no base64 text. -/
theorem strings_not_exact :
    (∀ s len, ¬ TextCrypto.vectors.IsBase64 s → (TextCrypto.vectors.base64Read s len).count ≤ 0) ∧
    (∃ text out, TextCrypto.vectors.orcaAesGcmEncryptString .plenty text
        (orcaBytesToHex TextCrypto.Vectors.key) (some ⟨TextCrypto.Vectors.nonce, rfl⟩) = some out ∧
      (TextCrypto.vectors.orcaAesGcmDecryptString .plenty out.ciphertextB64 out.nonceHex out.tagHex
        (orcaBytesToHex TextCrypto.Vectors.key)).plaintext ≠ some text) ∧
    (¬ HexText plusSeven orcaAesGcmKeyLen ∧
      (TextCrypto.vectors.orcaAesGcmDecryptString .plenty GcmText.hello.ciphertextB64
        GcmText.hello.nonceHex GcmText.hello.tagHex plusSeven).plaintext = some (ascii "hello")) := by
  have lost {text : CString} (length : text.length = 4294967301) (front : text.take 5 = ascii "hello") :
      (TextCrypto.vectors.orcaAesGcmDecryptString .plenty GcmText.hello.ciphertextB64 GcmText.hello.nonceHex
        GcmText.hello.tagHex (orcaBytesToHex TextCrypto.Vectors.key)).plaintext ≠ some text := by
    intro restored
    have encrypted := encrypt_five length front
    have short := ((gcm_restores_iff vectors_ideal plenty_bounded encrypted).1 restored).short
    omega
  refine ⟨fun s _ none_ => Int.le_of_eq (strict_count none_), ?_, fun text => ?_, by decide +kernel⟩
  · have length : (ascii "hello" ++ List.replicate 4294967296 65).length = 4294967301 := by
      rw [List.length_append, List.length_replicate]
      rfl
    have front : (ascii "hello" ++ List.replicate 4294967296 65).take 5 = ascii "hello" := List.take_left' rfl
    exact ⟨_, _, encrypt_five length front, lost length front⟩
  · exact absurd (text.2 43 (by decide)) (by decide)

end Orcashi
