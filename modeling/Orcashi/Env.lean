import Orcashi.PeerId

/-!
# What the node asks of its surroundings

The library functions of OpenSSL, the identity on disk, the clock, the sockets, the DHT and the
random draws are values the environment supplies.  An `Env` fixes them for the length of one call
into the node; different calls may see different ones.

The conversions the program makes itself between these are here too: hexadecimal text, and the
salt of the key derivation.
-/

namespace Orcashi

open CMemory

/-! ## Cryptography -/

/-- The OpenSSL operations behind `orca_crypto.c` and `aes_gcm.c`; `none` and `false` stand for
failure. -/
structure Crypto where
  /-- `orca_rsa_sign_string(data, private_key_pem, &signature)` -/
  rsaSignString : CString → CString → Option CString
  /-- `orca_rsa_verify_string(data, signature, public_key_pem)` -/
  rsaVerifyString : CString → CString → CString → Bool
  /-- `orca_x25519_compute_shared_secret(private_key, peer_public_key, ..)` -/
  x25519ComputeSharedSecret : Bytes → Bytes → Option Bytes
  /-- `PKCS5_PBKDF2_HMAC` with SHA-256 and 100000 iterations, of a password and a salt -/
  pbkdf2 : Bytes → Bytes → Option Bytes
  /-- `orca_aes_gcm_encrypt(data, key, nonce)`: tag and ciphertext -/
  aesGcmEncrypt : Bytes → Bytes → Bytes → Option (Bytes × Bytes)
  /-- `orca_aes_gcm_decrypt(ciphertext, key, nonce, tag)` -/
  aesGcmDecrypt : Bytes → Bytes → Bytes → Bytes → Option Bytes

/-- The value of a hexadecimal digit. -/
def hexDigit (c : UInt8) : Option UInt8 :=
  if 48 ≤ c ∧ c ≤ 57 then some (c - 48)
  else if 97 ≤ c ∧ c ≤ 102 then some (c - 87)
  else if 65 ≤ c ∧ c ≤ 70 then some (c - 55)
  else none

/-- `strtol` in base 16 on a text of two characters, where it reads the text to its end: two
digits, or one digit after a sign or white space. -/
def strtolPair (a b : UInt8) : Option UInt8 :=
  match hexDigit a, hexDigit b with
  | some x, some y => some (16 * x + y)
  | none, some y =>
    if a = 45 then some (0 - y)
    else if a = 43 ∨ a = 32 ∨ (9 ≤ a ∧ a ≤ 13) then some y
    else none
  | _, none => none

/-- The loop of `orca_hex_to_bytes` over the pairs of characters. -/
def hexPairs : CString → Option Bytes
  | a :: b :: s => do
    let x ← strtolPair a b
    let xs ← hexPairs s
    return x :: xs
  | [] => some []
  | [_] => none

/-- `orca_x25519_hex_to_public_key`: `orca_hex_to_bytes` for 32 bytes. -/
def orcaX25519HexToPublicKey (hex : CString) : Option Bytes :=
  if hex.length = 64 then hexPairs hex else none

/-- `orca_aes_gcm_derive_key_from_shared_secret` with the 16 bytes of salt and the first 10 bytes of
`"orcashi-p2p"` that `generate_session_keys` passes. -/
def orcaAesGcmDeriveKey (crypto : Crypto) (sharedSecret salt : Bytes) : Option Bytes :=
  crypto.pbkdf2 sharedSecret (salt ++ (ascii "orcashi-p2p").take 10)

/-! ## The environment -/

/-- `OrcaIdentityMode` -/
inductive OrcaIdentityMode where
  | normal
  | secure
  deriving DecidableEq

/-- `OrcaIdentity`, as far as the node reads it. -/
structure OrcaIdentity where
  id : CString
  name : CString
  mode : OrcaIdentityMode
  publicKey : CString
  privateKeyEncrypted : CString
  signature : CString
  deriving DecidableEq

/-- What a call gets from outside. -/
structure Env where
  crypto : Crypto
  /-- `time(NULL)` -/
  now : Time
  /-- `getpid()` -/
  pid : ℤ
  /-- `orca_identity_load(.., NULL)` -/
  identity : Option OrcaIdentity
  /-- `orca_x25519_generate_keypair`: public and private key -/
  keypair : Option (Bytes × Bytes)
  /-- the 16 bytes `orca_random_bytes` leaves in `salt` -/
  salt : Bytes
  /-- the 12 bytes `orca_random_bytes` leaves in `nonce` -/
  nonce : Bytes
  /-- `rand()` -/
  rand : ℕ
  /-- `create_udp_socket(0)` -/
  createUdpSocket : ℤ
  /-- whether `sendto(fd, datagram, addr)` succeeds -/
  sendto : ℤ → Bytes → SockAddrIn → Bool
  /-- `dht_node_lookup` of a node that was created and started, if that worked -/
  dhtNodeLookup : Option (CString → Option (IpText × ℤ))
  /-- `punch_multi_strategy(ip, port, ..)` -/
  punchMultiStrategy : CString → ℤ → ℤ

/-- Cryptography that refuses everything. -/
def Crypto.failing : Crypto where
  rsaSignString _ _ := none
  rsaVerifyString _ _ _ := false
  x25519ComputeSharedSecret _ _ := none
  pbkdf2 _ _ := none
  aesGcmEncrypt _ _ _ := none
  aesGcmDecrypt _ _ _ _ := none

/-- Surroundings in which nothing succeeds. -/
def Env.failing : Env where
  crypto := .failing
  now := 0
  pid := 0
  identity := none
  keypair := none
  salt := []
  nonce := []
  rand := 0
  createUdpSocket := -1
  sendto _ _ _ := false
  dhtNodeLookup := none
  punchMultiStrategy _ _ := -1

/-! ## Hexadecimal text -/

theorem strtolPair_eq_some {a b x : UInt8} (h : strtolPair a b = some x) :
    ∃ y, hexDigit b = some y := by
  unfold strtolPair at h
  cases hb : hexDigit b with
  | some y => exact ⟨y, rfl⟩
  | none =>
    rw [hb] at h
    cases ha : hexDigit a <;> rw [ha] at h <;> cases h

/-- In a text that parses, every second character is a hexadecimal digit. -/
theorem hexDigit_of_hexPairs {s : CString} {bs : Bytes} (h : hexPairs s = some bs) {i : ℕ}
    {c : UInt8} (hc : s[2 * i + 1]? = some c) : ∃ y, hexDigit c = some y := by
  induction s using hexPairs.induct generalizing bs i with
  | case1 a b s ih =>
    unfold hexPairs at h
    obtain ⟨x, hx, h⟩ := Option.bind_eq_some_iff.1 h
    obtain ⟨xs, hxs, -⟩ := Option.bind_eq_some_iff.1 h
    cases i with
    | zero =>
      obtain rfl : b = c := by simpa using hc
      exact strtolPair_eq_some hx
    | succ i =>
      have hs : s[2 * i + 1]? = some c := by simpa [Nat.mul_succ] using hc
      exact ih hxs hs
  | case2 => simp at hc
  | case3 => simp at hc

end Orcashi
