import Orcashi.Env

/-!
# The key of a passcode

The private key of an identity is stored encrypted with AES-256-CBC.  The key comes from the passcode and
a salt by PBKDF2, and two functions derive it: `orca_derive_key_from_passcode` stores the 32 bytes,
`orca_derive_key_from_passcode_hex` their hexadecimal text and a NUL.  The callers in `orca_identity.c`
all take the second and let it store into a `key[ORCA_AES_KEY_LEN]`.
-/

namespace Orcashi

open CMemory

/-! ## Hexadecimal text -/

/-- The digit `%x` prints. -/
def hexChar (n : ℕ) : UInt8 := if n < 10 then (48 + n).toUInt8 else (87 + n).toUInt8

/-- `%02x` -/
def byteHex (b : UInt8) : CString := [hexChar (b.toNat / 16), hexChar (b.toNat % 16)]

/-- `orca_bytes_to_hex` -/
def orcaBytesToHex (bytes : Bytes) : CString := bytes.flatMap byteHex

/-- `orca_hex_to_bytes`, for a length that the text has to have. -/
def orcaHexToBytes (hex : CString) (len : ℕ) : Option Bytes :=
  if hex.length = len * 2 then hexPairs hex else none

theorem hexDigit_hexChar {n : ℕ} (h : n < 16) : hexDigit (hexChar n) = some n.toUInt8 := by
  have all : ∀ n < 16, hexDigit (hexChar n) = some n.toUInt8 := by decide
  exact all n h

theorem strtolPair_byteHex (b : UInt8) :
    strtolPair (hexChar (b.toNat / 16)) (hexChar (b.toNat % 16)) = some b := by
  have small := b.toNat_lt
  unfold strtolPair
  rw [hexDigit_hexChar (by omega), hexDigit_hexChar (by omega)]
  dsimp only
  have sixteen : (16 : UInt8).toNat = 16 := rfl
  rw [Option.some_inj, ← UInt8.toNat_inj, UInt8.toNat_add, UInt8.toNat_mul, sixteen, Nat.toUInt8_eq,
    Nat.toUInt8_eq, UInt8.toNat_ofNat', UInt8.toNat_ofNat']
  omega

theorem length_orcaBytesToHex (bytes : Bytes) : (orcaBytesToHex bytes).length = bytes.length * 2 := by
  induction bytes with
  | nil => rfl
  | cons b bytes ih =>
    have cons : orcaBytesToHex (b :: bytes) = byteHex b ++ orcaBytesToHex bytes := List.flatMap_cons
    rw [cons, List.length_append, ih, List.length_cons, Nat.succ_mul, Nat.add_comm]
    rfl

/-- What was printed is read again. -/
theorem hexPairs_orcaBytesToHex (bytes : Bytes) : hexPairs (orcaBytesToHex bytes) = some bytes := by
  induction bytes with
  | nil => rfl
  | cons b bytes ih =>
    have cons : orcaBytesToHex (b :: bytes) =
      hexChar (b.toNat / 16) :: hexChar (b.toNat % 16) :: orcaBytesToHex bytes := List.flatMap_cons
    rw [cons, hexPairs, strtolPair_byteHex, ih]
    rfl

theorem orcaHexToBytes_orcaBytesToHex {bytes : Bytes} {len : ℕ} (h : bytes.length = len) :
    orcaHexToBytes (orcaBytesToHex bytes) len = some bytes := by
  unfold orcaHexToBytes
  rw [if_pos (by rw [length_orcaBytesToHex, h]), hexPairs_orcaBytesToHex]

/-! ## Cryptography -/

/-- The OpenSSL operations an identity needs besides those of a session. -/
structure IdentityCrypto extends Crypto where
  /-- `SHA256`, 32 bytes -/
  sha256 : Bytes → Bytes
  /-- AES-256-CBC of data under a key and an IV -/
  aesCbcEncrypt : Bytes → Bytes → Bytes → Option Bytes
  /-- `orca_aes_cbc_decrypt(ciphertext, key, iv)` -/
  aesCbcDecrypt : Bytes → Bytes → Bytes → Option Bytes
  /-- `orca_base64_encode` -/
  base64Encode : Bytes → CString
  /-- `orca_base64_decode`; none where it gives a negative length, which the decryption refuses -/
  base64Decode : CString → Option Bytes

/-- `ORCA_AES_KEY_LEN` -/
def aesKeyLen : ℕ := 32

/-- `ORCA_AES_IV_LEN` -/
def aesIvLen : ℕ := 16

/-- `ORCA_SALT_LEN` -/
def saltLen : ℕ := 16

/-- `orca_aes_cbc_decrypt_string`: the plaintext as the C string its callers take it for. -/
def orcaAesCbcDecryptString (crypto : IdentityCrypto) (ciphertextB64 ivHex keyHex : CString) :
    Option CString := do
  let key ← orcaHexToBytes keyHex aesKeyLen
  let iv ← orcaHexToBytes ivHex aesIvLen
  let ciphertext ← crypto.base64Decode ciphertextB64
  let plaintext ← crypto.aesCbcDecrypt ciphertext key iv
  return strAt plaintext 0

/-- `orca_derive_key_from_passcode` with the salt of 16 bytes: the bytes stored at `key_out`. -/
def orcaDeriveKeyFromPasscode (crypto : IdentityCrypto) (passcode : CString) (salt : Bytes) :
    Option Bytes :=
  crypto.pbkdf2 passcode salt

/-- `orca_derive_key_from_passcode_hex`: the bytes stored at `key_hex_out`. -/
def orcaDeriveKeyFromPasscodeHex (crypto : IdentityCrypto) (passcode saltHex : CString) :
    Option Bytes := do
  let salt ← orcaHexToBytes saltHex saltLen
  let key ← orcaDeriveKeyFromPasscode crypto passcode salt
  return orcaBytesToHex key ++ [0]

/-- A call of a derivation, and the key its caller goes on with. -/
structure KeyUse where
  /-- the bytes stored at the destination -/
  stored : Bytes
  key : Bytes
  deriving DecidableEq

/-- `orca_derive_key_from_passcode_hex(passcode, salt_hex, .., (char*)key)` for a
`key[ORCA_AES_KEY_LEN]`.  What is stored behind the array is not followed. -/
def deriveIntoKey (crypto : IdentityCrypto) (passcode saltHex : CString) : Option KeyUse :=
  (orcaDeriveKeyFromPasscodeHex crypto passcode saltHex).map fun stored =>
    ⟨stored, stored.take aesKeyLen⟩

end Orcashi
