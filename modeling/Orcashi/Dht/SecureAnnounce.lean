import Orcashi.Dht.Node
import Orcashi.Identity.SignedText

/-!
# Secure announcement

`dht_node_announce_secure` asks for a signature of the id, the port and the key, joined by colons.  What an
identity has is the signature of its id without brackets, its name, its role and its time, joined by bars.
The two texts differ in their first character, so no identity can be announced with its own signature.
-/

namespace Orcashi

open CMemory Stdio

variable {env : IdentityEnv} {id passcode : CString} {name role : Option CString} {r : IdentityRecord}

/-- The announcement passes the check and starts the search that announces the id. -/
def AnnouncedBy (id : IdText) (port ret : ℤ) (result : ℤ × DhtNode × Option DhtSearch) : Prop :=
  result.1 = ret ∧ result.2.2 = some ⟨dhtHash id.val, port⟩

/-- An announcement is made exactly where the signature is one of the text for this id. -/
theorem announced_iff {crypto : Crypto} {ret port : ℤ} {id : IdText} {publicKey signature : CString}
    {node : DhtNode} :
    AnnouncedBy id port ret (dhtNodeAnnounceSecure crypto ret id port publicKey signature node) ↔
      crypto.rsaVerifyString (announceText id.val port publicKey) signature publicKey = true := by
  unfold AnnouncedBy dhtNodeAnnounceSecure
  cases crypto.rsaVerifyString (announceText id.val port publicKey) signature publicKey with
  | false => simp
  | true => simp

/-- The first character that is signed is a digit of the id. -/
theorem head_signedText (created : orcaIdentityCreateSecure3digit env id passcode name role = some r) :
    ∃ c, r.signedText.head? = some c ∧ isDigit c = true := by
  obtain ⟨hid, p, -, record⟩ := create_eq_some_iff.1 created
  obtain ⟨a, b, c, normal, digit⟩ := normalizeId_threeDigitId hid
  have id_eq : r.id = id := by rw [record]; rfl
  refine ⟨a, ?_, digit⟩
  unfold IdentityRecord.signedText signedText
  rw [id_eq, normal]
  rfl

/-- The first character that is announced is a bracket. -/
theorem head_announceText (created : orcaIdentityCreateSecure3digit env id passcode name role = some r)
    (port : ℤ) (publicKey : CString) : (announceText r.id port publicKey).head? = some 60 := by
  obtain ⟨hid, p, -, record⟩ := create_eq_some_iff.1 created
  obtain ⟨a, b, c, rfl, -⟩ := threeDigitId hid
  have id_eq : r.id = [60, a, b, c, 62] := by rw [record]; rfl
  unfold announceText
  rw [id_eq]
  rfl

theorem announceText_ne (created : orcaIdentityCreateSecure3digit env id passcode name role = some r)
    (port : ℤ) (publicKey : CString) : announceText r.id port publicKey ≠ r.signedText := by
  intro same
  obtain ⟨c, head, digit⟩ := head_signedText created
  rw [← same, head_announceText created] at head
  obtain rfl := Option.some.inj head
  exact absurd digit (by decide)

/-- If the signature of an identity verifies nothing but the text it was made for, the node refuses to
announce the identity with it, on every port; and an announcement is made exactly where the signature is one
of the text for the id, the port and the key. -/
theorem genuine_identity_refused
    (created : orcaIdentityCreateSecure3digit env id passcode name role = some r)
    (unforged : ∀ text, env.crypto.rsaVerifyString text r.signature r.publicKey = true →
      text = r.signedText) :
    (∀ (own : IdText) (port ret : ℤ) (node : DhtNode), own.val = r.id →
      dhtNodeAnnounceSecure env.crypto.toCrypto ret own port r.publicKey r.signature node =
        (-1, node, none)) ∧
    ∀ (any : IdText) (port ret : ℤ) (publicKey signature : CString) (node : DhtNode),
      AnnouncedBy any port ret
          (dhtNodeAnnounceSecure env.crypto.toCrypto ret any port publicKey signature node) ↔
        env.crypto.rsaVerifyString (announceText any.val port publicKey) signature publicKey = true := by
  refine ⟨?_, fun _ _ _ _ _ _ => announced_iff⟩
  intro own port ret node here
  have refused : env.crypto.rsaVerifyString (announceText own.val port r.publicKey) r.signature
      r.publicKey = false := by
    by_contra accepted
    rw [Bool.not_eq_false] at accepted
    have same := unforged _ accepted
    rw [here] at same
    exact announceText_ne created port r.publicKey same
  unfold dhtNodeAnnounceSecure
  rw [refused]
  rfl

/-- An id of three digits. -/
def IdText.three : IdText := ⟨ascii "<075>", by decide⟩

theorem ann_refused :
    ∃ r, orcaIdentityCreateSecure3digit .transparent (ascii "<075>") (ascii "passcode")
        (some (ascii "Ann")) none = some r ∧
      ∀ port ret node, dhtNodeAnnounceSecure IdentityCrypto.transparent.toCrypto ret .three port r.publicKey
        r.signature node = (-1, node, none) := by
  let r := (orcaIdentityCreateSecure3digit .transparent (ascii "<075>") (ascii "passcode")
    (some (ascii "Ann")) none).get (by decide)
  have created : orcaIdentityCreateSecure3digit .transparent (ascii "<075>") (ascii "passcode")
      (some (ascii "Ann")) none = some r := (Option.some_get _).symm
  have signature : r.signature = orcaBytesToHex r.signedText := by decide
  obtain ⟨refused, -⟩ := genuine_identity_refused created (transparent_unforged signature)
  exact ⟨r, created, fun port ret node => refused .three port ret node rfl⟩

/-- Ann is not announced on port 9000. -/
theorem ann_not_announced :
    ∃ r, orcaIdentityCreateSecure3digit .transparent (ascii "<075>") (ascii "passcode")
        (some (ascii "Ann")) none = some r ∧
      ¬ AnnouncedBy .three 9000 0
        (dhtNodeAnnounceSecure IdentityCrypto.transparent.toCrypto 0 .three 9000 r.publicKey r.signature .create) := by
  refine ⟨_, (Option.some_get (by decide)).symm, ?_⟩
  rw [announced_iff]
  decide

end Orcashi
