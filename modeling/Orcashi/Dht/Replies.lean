import Orcashi.Dht.ClosestNodes
import Orcashi.Dht.Parsing
import Orcashi.Dht.Service

/-!
# The answer to a datagram

A datagram is answered with at most one reply.  It goes to where the datagram came from, under the
transaction id that is in it, and always fits into its array.  Only a request to announce with a token of the
sender changes what is stored.
-/

namespace Orcashi

/-- The transaction id of a message. -/
def DhtMessage.tid : DhtMessage → Bytes
  | ping tid | pong tid | findNode tid _ _ | nodesPeers tid _ _ _ _ | getPeers tid _ _ => tid
  | announcePeer tid _ _ _ | peerAnnounced tid | error tid _ _ => tid

/-! ## Lengths -/

theorem length_compactPeer (ip : Bytes) (port : UInt16) : (compactPeer ip port).length = ip.length + 2 := by
  simp [compactPeer]

theorem SockAddr.length_ip (sa : SockAddr) : sa.ip.length = if sa.family = .inet then 4 else 16 := by
  cases sa with
  | inet addr port => exact addr.property
  | inet6 addr port => exact addr.property

theorem length_compactNodes {l : List (DhtId × SockAddr)} {af : Family} (h : ∀ x ∈ l, x.2.family = af) :
    (l.flatMap compactNode).length = l.length * (22 + if af = .inet then 4 else 16) := by
  induction l with
  | nil => simp
  | cons x l ih =>
    have id := x.1.property
    rw [List.flatMap_cons, List.length_append, ih fun y mem => h y (List.mem_cons_of_mem x mem), List.length_cons,
      compactNode, List.length_append, length_compactPeer, SockAddr.length_ip, h x List.mem_cons_self, id,
      Nat.add_mul]
    omega

theorem peerValues_small (af : Family) (j0 : ℕ) (peers : List StoredPeer) :
    (peerValues af j0 peers).length ≤ 50 ∧ ∀ v ∈ peerValues af j0 peers, v.length ≤ 18 := by
  unfold peerValues
  dsimp only
  refine ⟨by simp, fun v mem => ?_⟩
  obtain ⟨p, hp, rfl⟩ := List.mem_map.1 mem
  have length := (List.mem_filter.1 (List.mem_of_mem_take hp)).2
  rw [length_compactPeer, of_decide_eq_true length]
  split_ifs <;> decide

namespace Dht

section Replies

variable {s : Dht} {sender : SockAddr} {tid token : Bytes} {k : ℕ} {m : ParsedMessage}
  {P : DhtId × StoredPeer → Prop}

theorem closestNodes_small (sound : s.Sound) (af : Family) (id : DhtId) :
    ((closestNodes s.now id (s.table af)).flatMap compactNode).length ≤ 8 * (22 + if af = .inet then 4 else 16) := by
  have family : ∀ x ∈ closestNodes s.now id (s.table af), x.2.family = af := by
    intro x mem
    obtain ⟨n, hn, -, rfl⟩ := mem_closestNodes mem
    have some : s.table af ≠ [] := by
      intro empty
      rw [empty] at hn
      cases hn
    obtain ⟨d, table⟩ := sound.table af some
    exact (table.peer_ok hn).family
  rw [length_compactNodes family]
  exact Nat.mul_le_mul_right _ (closestNodes_length_le s.now id _)

/-! ## Requests -/

/-- At most one reply, to `sender` and under `tid`. -/
def Answered (sender : SockAddr) (tid : Bytes) (rs : List Sending) : Prop :=
  rs.length ≤ 1 ∧ ∀ x ∈ rs, x.call.dest = sender ∧ x.call.message.tid = tid

theorem answered_nil : Answered sender tid [] := ⟨Nat.zero_le _, fun _ mem => by cases mem⟩

theorem answered_one {o : Outgoing} (dest : o.dest = sender) (same : o.message.tid = tid) (r : SendResult) :
    Answered sender tid [⟨o, r⟩] := by
  refine ⟨le_rfl, fun x mem => ?_⟩
  obtain rfl := List.mem_singleton.1 mem
  exact ⟨dest, same⟩

theorem Serves.reply (sound : s.Sound) {o : Outgoing} (reply : o.message.isQuery = false)
    (small : o.message.Small) : Serves [⟨o, s.sendResult o⟩] [] s (s.send o) := by
  refine ⟨⟨?_, rfl, ⟨[⟨o, s.sendResult o⟩], rfl, ?_, ?_⟩, fun _ => rfl, fun _ _ has => Or.inl has⟩, rfl⟩
  · exact sound.of_core rfl rfl (fun _ => Or.inl rfl) sound.searches
  · exact List.filter_eq_self.2 fun x mem => by simp [List.mem_singleton.1 mem, reply]
  · intro x mem
    obtain rfl := List.mem_singleton.1 mem
    exact sendResult_ne_tooLong small

/-- What is done for a request: at most one reply, and only some peers are stored. -/
def Handles (sender : SockAddr) (tid : Bytes) (P : DhtId × StoredPeer → Prop) (s s' : Dht) : Prop :=
  ∃ rs ps, Answered sender tid rs ∧ (∀ x ∈ ps, P x) ∧ Serves rs ps s s'

theorem Handles.refl (sound : s.Sound) : Handles sender tid P s s :=
  ⟨[], [], answered_nil, by simp, .refl sound⟩

theorem Handles.reply (sound : s.Sound) (message : DhtMessage) (reply : message.isQuery = false)
    (small : message.Small) : Handles sender message.tid P s (s.send ⟨sender, message⟩) :=
  ⟨_, [], answered_one rfl rfl _, by simp, .reply sound reply small⟩

theorem Handles.after {s₁ s' : Dht} (h : Serves [] [] s s₁) (h' : Handles sender tid P s₁ s') :
    Handles sender tid P s s' := by
  obtain ⟨rs, ps, answered, some, serves⟩ := h'
  exact ⟨rs, ps, answered, some, h.next serves⟩

/-- `send_error` -/
theorem Handles.sendError (sound : s.Sound) (small : tid.length < 16) {message : String}
    (short : (CMemory.ascii message).length < 100) : Handles sender tid P s (s.sendError sender tid message) :=
  .reply sound (.error tid 203 (CMemory.ascii message)) rfl ⟨small, by decide, short⟩

/-- `send_closest_nodes` -/
theorem Handles.sendClosestNodes (sound : s.Sound) (small : tid.length < 16) (short : token.length ≤ 8)
    (id : DhtId) (want : ℕ) (st : Option Storage) :
    Handles sender tid P s (s.sendClosestNodes sender tid id want st token) := by
  have nodes (want i : ℕ) (af : Family) :
      ((if want.testBit i then closestNodes s.now id (s.table af) else []).flatMap compactNode).length ≤
        8 * (22 + if af = .inet then 4 else 16) := by
    by_cases wanted : want.testBit i = true
    · rw [if_pos wanted]
      exact closestNodes_small sound af id
    · rw [if_neg wanted]
      exact Nat.zero_le _
  have fits (want : ℕ) (values : Option (List Bytes))
      (h : ∀ vs, values = some vs → vs.length ≤ 50 ∧ ∀ v ∈ vs, v.length ≤ 18) :
      (DhtMessage.nodesPeers tid
        ((if want.testBit 0 then closestNodes s.now id s.buckets else []).flatMap compactNode)
        ((if want.testBit 1 then closestNodes s.now id s.buckets6 else []).flatMap compactNode) token
        values).Small := ⟨small, nodes want 0 .inet, nodes want 1 .inet6, short, h⟩
  unfold Dht.sendClosestNodes
  generalize (if want = 0 then if sender.family = .inet then 1 else 2 else want) = want
  cases st with
  | none => exact .reply sound (.nodesPeers tid _ _ token none) rfl (fits want none fun _ h => by cases h)
  | some st =>
    dsimp only
    by_cases nobody : st.peers = []
    · rw [if_pos nobody]
      exact .reply sound (.nodesPeers tid _ _ token none) rfl (fits want none fun _ h => by cases h)
    · have drawn := Evolves.draw sound
      rw [if_neg nobody]
      refine .after drawn.serves (.reply drawn.sound (.nodesPeers tid _ _ token (some _)) rfl
        (fits want _ fun vs h => ?_))
      obtain rfl := Option.some.inj h
      exact peerValues_small _ _ _

/-- The end of a request of `announce_peer`. -/
theorem Handles.store (sound : s.Sound) (small : tid.length < 16) (id : DhtId) (port : UInt16)
    (shown : P (id, ⟨s.now, sender.ip, port⟩)) :
    Handles sender tid P s
      ({ s with stored := (storageStore s.now id sender port s.stored).1 }.send ⟨sender, .peerAnnounced tid⟩) := by
  have stored : Serves [] [(id, ⟨s.now, sender.ip, port⟩)] s
      { s with stored := (storageStore s.now id sender port s.stored).1 } := by
    refine ⟨⟨?_, rfl, ⟨[], by simp⟩, fun _ => rfl, fun id' p has => ?_⟩, rfl⟩
    · exact sound.of_fixed rfl rfl sound.stored.store rfl (fun af => Or.inl (by cases af <;> rfl)) sound.searches
    · exact (sound.stored.has_of_store has).imp_right List.mem_singleton.2
  have replied := Serves.reply (o := ⟨sender, .peerAnnounced tid⟩) stored.sound rfl small
  refine ⟨_, _, answered_one rfl rfl _, fun x mem => ?_, stored.does.trans replied.does,
    replied.fixed.trans stored.fixed⟩
  obtain rfl := List.mem_singleton.1 mem
  exact shown

/-- The peer of a request to announce with a token that was sent to its sender. -/
def Shown (kind : MessageKind) (m : ParsedMessage) (sender : SockAddr) (s : Dht) (x : DhtId × StoredPeer) : Prop :=
  kind = .announcePeer ∧ tokenMatch s.secret s.oldsecret m.token sender = true ∧
    x = (m.infoHash, ⟨s.now, sender.ip, if m.impliedPort ≠ 0 then sender.port else m.port⟩)

theorem Handles.getPeers (sound : s.Sound) (small : m.tid.length < 16) :
    Handles sender m.tid P s (s.getPeers m sender) := by
  unfold Dht.getPeers
  split_ifs
  · exact .sendError sound small (by decide)
  · exact .sendClosestNodes sound small (by simp [makeToken]) _ _ _

theorem Handles.announcePeer (sound : s.Sound) (small : m.tid.length < 16) :
    Handles sender m.tid (Shown .announcePeer m sender s) s (s.announcePeer m sender) := by
  unfold Dht.announcePeer
  by_cases nothing : m.infoHash = .zeroes
  · rw [if_pos nothing]
    exact .sendError sound small (by decide)
  rw [if_neg nothing]
  cases shown : tokenMatch s.secret s.oldsecret m.token sender with
  | false => exact .sendError sound small (by decide)
  | true =>
    generalize hport : (if m.impliedPort ≠ 0 then sender.port else m.port) = port
    by_cases forbidden : port = 0
    · simp only [Bool.not_true, Bool.false_eq_true, if_false, if_pos forbidden]
      exact .sendError sound small (by decide)
    · simp only [Bool.not_true, Bool.false_eq_true, if_false, if_neg forbidden]
      exact .store sound small _ _ ⟨rfl, shown, by rw [hport]⟩

/-- A request is answered with one reply. -/
theorem Handles.request (kind : MessageKind) (sender : SockAddr) (sound : s.Sound) (small : m.tid.length < 16) :
    Handles sender m.tid (Shown kind m sender s) s (s.request kind m sender) := by
  have heard := Evolves.newNode sound m.id sender 1
  have same (kind : MessageKind) : Shown kind m sender (s.newNode m.id sender 1).1 = Shown kind m sender s := by
    unfold Shown
    rw [heard.secret, heard.oldsecret, heard.now]
  refine .after heard.serves ?_
  rw [← same]
  unfold Dht.request
  cases kind with
  | ping => exact .reply heard.sound (.pong m.tid) rfl small
  | findNode => exact .sendClosestNodes heard.sound small (by decide) _ _ _
  | getPeers => exact .getPeers heard.sound small
  | announcePeer => exact .announcePeer heard.sound small
  | reply => exact .refl heard.sound
  | error => exact .refl heard.sound

/-! ## Replies -/

/-- Events that are not the end of a search. -/
theorem Serves.events (sound : s.Sound) {l : List DhtEvent} (other : ∀ e ∈ l, ∀ key, e ≠ doneEventOf key) :
    Serves [] [] s { s with events := s.events ++ l } := by
  refine ⟨⟨?_, rfl, ⟨[], by simp⟩, fun key => ?_, fun _ _ has => Or.inl has⟩, rfl⟩
  · exact sound.of_fixed rfl rfl sound.stored rfl (fun af => Or.inl (by cases af <;> rfl)) sound.searches
  · have none : l.count (doneEventOf key) = 0 := List.count_eq_zero.2 fun mem => other _ mem key rfl
    show (s.events ++ l).count (doneEventOf key) + _ = _
    rw [List.count_append, none, Nat.add_zero]
    rfl

theorem Serves.event (sound : s.Sound) {e : DhtEvent} (other : ∀ key, e ≠ doneEventOf key) :
    Serves [] [] s (s.event e) :=
  .events sound fun _ mem => List.mem_singleton.1 mem ▸ other

/-- Values are not the end of a search. -/
theorem values_ne_done {e : DhtEvent} (h : e.kind = .values ∨ e.kind = .values6) (key : Family × DhtId) :
    e ≠ doneEventOf key := by
  rintro rfl
  unfold doneEventOf at h
  split_ifs at h <;> simp at h

theorem Serves.searchReplied (sound : s.Sound) (other : m.id ≠ s.myid) (k : ℕ) :
    Serves [] [] s (s.searchReplied k m sender) := by
  unfold Dht.searchReplied
  split
  · exact .refl sound
  · rename_i sr _
    have inserted := (Evolves.insert (k := k) sound sender true (some m.token) other).serves
    dsimp only
    split_ifs
    · have first := inserted.next (.event (e := ⟨.values, sr.id.val, m.values⟩) inserted.sound (values_ne_done (Or.inl rfl)))
      exact first.next (.event first.sound (values_ne_done (Or.inr rfl)))
    · exact inserted.next (.event inserted.sound (values_ne_done (Or.inr rfl)))
    · exact inserted.next (.event inserted.sound (values_ne_done (Or.inl rfl)))
    · exact inserted

theorem Serves.nodesReply (sound : s.Sound) (other : m.id ≠ s.myid) :
    Serves [] [] s (s.nodesReply m sender) := by
  unfold Dht.nodesReply
  dsimp only
  generalize (if tidMatch m.tid "gp" then s.findSearch (tidSeqno m.tid) sender.family else none) = k
  have heard : Evolves s (if m.nodes.length % 26 ≠ 0 ∨ m.nodes6.length % 38 ≠ 0 then s.blacklistNode m.id sender
      else if tidMatch m.tid "gp" && k.isNone then (s.newNode m.id sender 1).1
      else s.foundNodes k m sender) := by
    split_ifs
    · exact .blacklistNode sound _ _
    · exact .newNode sound _ _ _
    · exact .foundNodes sound _ _ _
  cases k with
  | none => exact heard.serves
  | some k => exact heard.serves.next (.searchReplied heard.sound (heard.myid ▸ other) k)

theorem Serves.answer (sound : s.Sound) (other : m.id ≠ s.myid) : Serves [] [] s (s.reply m sender) := by
  unfold Dht.reply
  split_ifs
  · exact (Evolves.blacklistNode sound _ _).serves
  · exact (Evolves.newNode sound _ _ _).serves
  · exact .nodesReply sound other
  · exact (Evolves.announceReply sound _ _).serves
  · exact .refl sound

/-! ## Datagrams -/

/-- What `token_bucket` does to a state. -/
theorem Does.tokenBucket (sound : s.Sound) : Does [] [] s s.tokenBucket.1 := by
  unfold Dht.tokenBucket
  dsimp only
  split_ifs <;>
    exact .of_same ⟨fun af => sound.table af, fun af => sound.sockets af, sound.searches, sound.distinct,
      sound.numsearches, sound.numsearches_le, sound.stored⟩ rfl rfl rfl rfl rfl

/-- The secrets, and when they change. -/
def secrets (s : Dht) : Bytes × Bytes × Time := (s.secret, s.oldsecret, s.rotateSecretsTime)

/-- The state of the token bucket. -/
def tokens (s : Dht) : ℤ × Time := (s.tokenBucketTokens, s.tokenBucketTime)

theorem Serves.secrets {s' : Dht} {rs : List Sending} {ps : List (DhtId × StoredPeer)} (h : Serves rs ps s s') :
    s'.secrets = s.secrets := (congrArg Dht.secrets h.fixed :)

theorem Serves.tokens {s' : Dht} {rs : List Sending} {ps : List (DhtId × StoredPeer)} (h : Serves rs ps s s') :
    s'.tokens = s.tokens := (congrArg Dht.tokens h.fixed :)

theorem secrets_tokenBucket : s.tokenBucket.1.secrets = s.secrets ∧ s.tokenBucket.1.now = s.now := by
  unfold Dht.tokenBucket
  dsimp only
  split_ifs <;> exact ⟨rfl, rfl⟩

/-- At most one reply, which `R` holds of and for which there was a token in the bucket, and only peers are stored
that `P` holds of. -/
structure Receives (R : Sending → Prop) (P : DhtId × StoredPeer → Prop) (rs : List Sending)
    (ps : List (DhtId × StoredPeer)) (s s' : Dht) : Prop where
  does : Does rs ps s s'
  one : rs.length ≤ 1
  replies : ∀ x ∈ rs, R x
  shown : ∀ p ∈ ps, P p
  now : s'.now = s.now
  secrets : s'.secrets = s.secrets
  tokens : (s'.tokens = s.tokens ∧ rs = []) ∨
    (s'.tokens = s.tokenBucket.1.tokens ∧ (s.tokenBucket.2 = false → rs = []))

theorem Receives.quiet {R : Sending → Prop} {s' : Dht} (h : Serves [] [] s s') : Receives R P [] [] s s' where
  does := h.does
  one := Nat.zero_le _
  replies := by simp
  shown := by simp
  now := h.now
  secrets := h.secrets
  tokens := Or.inl ⟨h.tokens, rfl⟩

/-- A reply to a request of another node, to where it came from. -/
structure RepliesTo (kind : MessageKind) (m : ParsedMessage) (sender : SockAddr) (s : Dht) (x : Sending) : Prop where
  request : kind ≠ .reply ∧ kind ≠ .error
  other : m.id ≠ .zeroes ∧ m.id ≠ s.myid
  dest : x.call.dest = sender
  tid : x.call.message.tid = m.tid

theorem receives_understood (kind : MessageKind) (sender : SockAddr) (sound : s.Sound) (small : m.tid.length < 16) :
    ∃ rs ps, Receives (RepliesTo kind m sender s) (Shown kind m sender s) rs ps s (s.understood kind m sender) := by
  have refl := Serves.refl sound
  unfold Dht.understood
  split_ifs with nothing own reply
  · exact ⟨[], [], .quiet refl⟩
  · exact ⟨[], [], .quiet refl⟩
  · exact ⟨[], [], .quiet (Serves.answer sound own)⟩
  · have bucket := Does.tokenBucket sound
    have same := secrets_tokenBucket (s := s)
    rw [not_or] at nothing
    split
    · rename_i s' h
      rw [h] at bucket same
      exact ⟨[], [],
        { does := bucket
          one := Nat.zero_le _
          replies := by simp
          shown := by simp
          now := same.2
          secrets := same.1
          tokens := by rw [h]; exact Or.inr ⟨rfl, fun _ => rfl⟩ }⟩
    · rename_i s' h
      rw [h] at bucket same
      obtain ⟨rs, ps, answered, some, serves⟩ := Handles.request kind sender bucket.sound small
      have shown : Shown kind m sender s' = Shown kind m sender s := by
        have secret : s'.secret = s.secret := congrArg Prod.fst same.1
        have oldsecret : s'.oldsecret = s.oldsecret := congrArg (fun x => x.2.1) same.1
        unfold Shown
        rw [secret, oldsecret, same.2]
      exact ⟨rs, ps,
        { does := bucket.next serves.does
          one := answered.1
          replies := fun x mem => ⟨⟨reply, nothing.1⟩, ⟨nothing.2, own⟩, (answered.2 x mem).1, (answered.2 x mem).2⟩
          shown := shown ▸ some
          now := serves.now.trans same.2
          secrets := serves.secrets.trans same.1
          tokens := by rw [h]; exact Or.inr ⟨serves.tokens, fun empty => by cases empty⟩ }⟩

/-- A message that is listened to. -/
structure Heard (d : DhtDatagram) (kind : MessageKind) (m : ParsedMessage) (s : Dht) : Prop where
  address : isMartian d.sender = false
  listed : s.nodeBlacklisted d.sender = false
  parsed : parseMessage (d.bytes ++ [0]) d.bytes.length = .ok (some kind, m)

/-- The first part of `dht_periodic`. -/
theorem receives_receive (d : DhtDatagram) (sound : s.Sound)
    (terminated : isMartian d.sender = false → s.nodeBlacklisted d.sender = false → d.terminator = 0) :
    ∃ rs ps, Receives (fun x => ∃ kind m, Heard d kind m s ∧ RepliesTo kind m d.sender s x)
      (fun p => ∃ kind m, Heard d kind m s ∧ Shown kind m d.sender s p) rs ps s (s.receive d) := by
  have refl := Serves.refl sound
  unfold Dht.receive
  split_ifs with ignored
  · exact ⟨[], [], .quiet refl⟩
  · rw [Bool.or_eq_true, not_or, Bool.not_eq_true, Bool.not_eq_true] at ignored
    rw [terminated ignored.1 ignored.2]
    have fits := reads_parseMessage d.bytes
    split
    · rename_i kind m parsed
      rw [parsed] at fits
      have heard : Heard d kind m s := ⟨ignored.1, ignored.2, parsed⟩
      obtain ⟨rs, ps, h⟩ := receives_understood kind d.sender sound fits.tid.1
      exact ⟨rs, ps, h.does, h.one, fun x mem => ⟨kind, m, heard, h.replies x mem⟩,
        fun p mem => ⟨kind, m, heard, h.shown p mem⟩, h.now, h.secrets, h.tokens⟩
    · exact ⟨[], [], .quiet refl⟩

end Replies

end Dht

end Orcashi
