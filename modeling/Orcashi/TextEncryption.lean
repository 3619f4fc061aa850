import Orcashi.AesGcmMessage
import Orcashi.HexCodec
import Orcashi.Lib.Stdio

/-!
# Encrypted texts

`orca_aes_gcm_encrypt_string` and `orca_aes_cbc_encrypt_string` encrypt a C string and give everything the
reader needs as text: the nonce or the IV and the tag in hexadecimal digits, the ciphertext in base64.
Lengths go from `size_t` to `int` and back on the way, unchecked.  `orca_base64_decode` returns its buffer
whatever `BIO_read` says, and the decryptions look only for `NULL`.
-/

namespace Orcashi

open CMemory Stdio

/-! ## Lengths -/

/-- A `size_t` where an `int` is asked for: the low 32 bits. -/
def intOfSize (n : UInt64) : ℤ := (n.toNat : ℤ).bmod 4294967296

/-- An `int` where a `size_t` is asked for. -/
def sizeOfInt (n : ℤ) : UInt64 := UInt64.ofInt n

/-- `strlen` -/
def strlen (s : CString) : UInt64 := s.length.toUInt64

/-! ## OpenSSL -/

/-- What `BIO_read` returns and stores. -/
structure BioRead where
  count : ℤ
  bytes : Bytes
  int : IsInt count
  stored : bytes.length = count.toNat

/-- The ciphers and the base64 filter; `none` stands for failure. -/
structure TextCrypto where
  /-- AES-256-GCM of data under a key and a nonce: tag and ciphertext -/
  gcmEncrypt : Bytes → Bytes → Bytes → Option (Bytes × Bytes)
  /-- of a ciphertext, under a key and a nonce and with a tag -/
  gcmDecrypt : Bytes → Bytes → Bytes → Bytes → Option Bytes
  /-- AES-256-CBC of data under a key and an IV -/
  cbcEncrypt : Bytes → Bytes → Bytes → Option Bytes
  cbcDecrypt : Bytes → Bytes → Bytes → Option Bytes
  /-- the text that `BIO_write` to the filter leaves, without newlines -/
  base64Encode : Bytes → CString
  /-- `BIO_read` from the filter over a text, for at most so many bytes -/
  base64Read : CString → ℤ → BioRead

/-- The `inl` bytes an update of a cipher takes.  A negative number is refused. -/
def updateInput (data : Bytes) (inl : ℤ) : Option Bytes :=
  if inl < 0 then none else some (data.take inl.toNat)

/-- `EVP_MAX_BLOCK_LENGTH` -/
def evpMaxBlockLength : UInt64 := 32

/-- `ORCA_AES_GCM_KEY_LEN` -/
def orcaAesGcmKeyLen : ℕ := 32

/-- `iv` -/
abbrev AesIv := { b : Bytes // b.length = aesIvLen }

/-- `*ciphertext_len = total_len`, of the lengths OpenSSL gives, which are of type `int`. -/
def totalLen (ciphertext : Bytes) : UInt64 := sizeOfInt ((ciphertext.length : ℤ).bmod 4294967296)

/-- `len + 1` in `orca_base64_decode`, an `int` -/
def decodeRoom (data : CString) : ℤ := (intOfSize (strlen data) + 1).bmod 4294967296

/-- What `orca_aes_gcm_encrypt_string` stores. -/
structure GcmText where
  nonceHex : CString
  tagHex : CString
  ciphertextB64 : CString
  deriving DecidableEq

/-- What `orca_aes_cbc_encrypt_string` stores. -/
structure CbcText where
  ivHex : CString
  ciphertextB64 : CString
  deriving DecidableEq

/-- A call of a decryption. -/
structure Decryption where
  /-- the plaintext; none where -1 is returned -/
  plaintext : Option Bytes
  /-- the values of type `int` that were passed on as `size_t` -/
  sizes : List ℤ

namespace TextCrypto

variable (crypto : TextCrypto) (malloc : Malloc)

/-! ## Base64 -/

/-- `orca_base64_encode` -/
def orcaBase64Encode (data : Bytes) (len : ℤ) : Option CString :=
  if len ≤ 0 then none
  else
    let mem := crypto.base64Encode (data.take len.toNat)
    if (malloc (strlen mem + 1)).isSome then some mem else none

/-- `BIO_new_mem_buf(data, strlen(data))` and `BIO_read(bio, buffer, len)`.  A memory BIO with a negative
length looks for the end itself. -/
def readText (data : CString) : BioRead :=
  let len := intOfSize (strlen data)
  crypto.base64Read (if len < 0 then data else data.take len.toNat) len

/-- `orca_base64_decode`: the buffer and `*out_len`, or `NULL`. -/
def orcaBase64Decode (data : CString) : Option BioRead :=
  if (malloc (sizeOfInt (decodeRoom data))).isSome then some (crypto.readText data) else none

/-! ## Encryption -/

/-- `orca_aes_gcm_encrypt`: tag and ciphertext. -/
def orcaAesGcmEncrypt (plaintext : Bytes) (plaintextLen : UInt64) (key nonce : Bytes) :
    Option (Bytes × Bytes) :=
  if (malloc (plaintextLen + evpMaxBlockLength)).isSome then
    (updateInput plaintext (intOfSize plaintextLen)).bind (crypto.gcmEncrypt key nonce)
  else none

/-- `orca_aes_cbc_encrypt`, with the IV `RAND_bytes` gave. -/
def orcaAesCbcEncrypt (data : Bytes) (dataLen : UInt64) (key iv : Bytes) : Option Bytes :=
  if (malloc (dataLen + evpMaxBlockLength)).isSome then
    (updateInput data (intOfSize dataLen)).bind (crypto.cbcEncrypt key iv)
  else none

/-- `orca_aes_gcm_encrypt_string`, with the nonce `RAND_bytes` gave. -/
def orcaAesGcmEncryptString (plaintext keyHex : CString) (nonce : Option AesGcmNonce) :
    Option GcmText := do
  let key ← orcaHexToBytes keyHex orcaAesGcmKeyLen
  let nonce ← nonce
  let (tag, ciphertext) ← crypto.orcaAesGcmEncrypt malloc plaintext (strlen plaintext) key nonce.val
  let b64 ← crypto.orcaBase64Encode malloc ciphertext (intOfSize (totalLen ciphertext))
  return ⟨orcaBytesToHex nonce.val, orcaBytesToHex tag, b64⟩

/-- `orca_aes_cbc_encrypt_string`, with the IV `RAND_bytes` gave. -/
def orcaAesCbcEncryptString (str keyHex : CString) (iv : Option AesIv) : Option CbcText := do
  let key ← orcaHexToBytes keyHex aesKeyLen
  let iv ← iv
  let ciphertext ← crypto.orcaAesCbcEncrypt malloc str (strlen str) key iv.val
  let b64 ← crypto.orcaBase64Encode malloc ciphertext (intOfSize (totalLen ciphertext))
  return ⟨orcaBytesToHex iv.val, b64⟩

/-! ## Decryption -/

/-- `orca_aes_gcm_decrypt` -/
def orcaAesGcmDecrypt (ciphertext : Bytes) (ciphertextLen : UInt64) (key nonce tag : Bytes) :
    Option Bytes :=
  if (malloc (ciphertextLen + 1)).isSome then
    (updateInput ciphertext (intOfSize ciphertextLen)).bind (crypto.gcmDecrypt key nonce tag)
  else none

/-- `orca_aes_cbc_decrypt` -/
def orcaAesCbcDecrypt (ciphertext : Bytes) (ciphertextLen : UInt64) (key iv : Bytes) : Option Bytes :=
  if (malloc (ciphertextLen + 1)).isSome then
    (updateInput ciphertext (intOfSize ciphertextLen)).bind (crypto.cbcDecrypt key iv)
  else none

/-- A base64 text, decoded and given to a cipher: the end of both `.._decrypt_string`. -/
def decryptText (ciphertextB64 : CString) (decrypt : Bytes → UInt64 → Option Bytes) : Decryption :=
  match crypto.orcaBase64Decode malloc ciphertextB64 with
  | none => ⟨none, [decodeRoom ciphertextB64]⟩
  | some read => ⟨decrypt read.bytes (sizeOfInt read.count), [decodeRoom ciphertextB64, read.count]⟩

/-- `orca_aes_gcm_decrypt_string` -/
def orcaAesGcmDecryptString (ciphertextB64 nonceHex tagHex keyHex : CString) : Decryption :=
  match orcaHexToBytes keyHex orcaAesGcmKeyLen, orcaHexToBytes nonceHex orcaAesGcmNonceLen,
    orcaHexToBytes tagHex orcaAesGcmTagLen with
  | some key, some nonce, some tag =>
    crypto.decryptText malloc ciphertextB64 fun ciphertext len =>
      crypto.orcaAesGcmDecrypt malloc ciphertext len key nonce tag
  | _, _, _ => ⟨none, []⟩

/-- `orca_aes_cbc_decrypt_string` -/
def orcaAesCbcDecryptString (ciphertextB64 ivHex keyHex : CString) : Decryption :=
  match orcaHexToBytes keyHex aesKeyLen, orcaHexToBytes ivHex aesIvLen with
  | some key, some iv =>
    crypto.decryptText malloc ciphertextB64 fun ciphertext len =>
      crypto.orcaAesCbcDecrypt malloc ciphertext len key iv
  | _, _ => ⟨none, []⟩

end TextCrypto

end Orcashi
