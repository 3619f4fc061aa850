import Orcashi.ChatLog
import Orcashi.HandshakeExchange
import Orcashi.ReceiveBounds

/-!
# The way of a text

A text that `p2p_send` takes travels as the payload of one datagram, sealed on a secure session, to
the listener of the other side, whose `handle_data` puts it into an event and into the log.  Each of
the arrays on the way has its own size.
-/

namespace Orcashi

open CMemory

/-! ## Two linked parties -/

/-- What one side seals the other opens, and a tag has sixteen bytes. -/
def Crypto.Opens (sealing opening : Crypto) : Prop :=
  ∀ data key nonce tag ciphertext, sealing.aesGcmEncrypt data key nonce = some (tag, ciphertext) →
    tag.length = 16 ∧ ciphertext.length = data.length ∧
      opening.aesGcmDecrypt ciphertext key nonce tag = some data

/-- Both sides have an ESTABLISHED record of each other, both secure with one key or both not. -/
structure Linked (a b : Party) (toId : CString) (ca cb : Cursor P2PPeer) : Prop where
  outgoing : findPeer toId a.node.peers = some ca
  incoming : findAddr a.source b.node.peers = some cb
  address : ca.val.addr = b.listen
  established : ca.val.state = .established ∧ cb.val.state = .established
  secure : ca.val.isSecure = cb.val.isSecure
  key : ca.val.isSecure = true → ca.val.aesKey = cb.val.aesKey

/-- `p2p_send` at `a`, and the listener of `b` on what arrives. -/
def sendText (a b : Party) (toId text : CString) : ℤ × Node :=
  let r := p2pSend a.env toId text a.node
  (r.1, (receiveAll b.env a.source (datagramsTo b.listen (news a.node r.2)) b.buffer b.node).2)

/-- The text, and nothing but the text, is put into an event and into the log. -/
def TextArrives (b : Party) (peer : P2PPeer) (text : CString) (after : Node) : Prop :=
  after.shared.queue.toList = b.node.shared.queue.toList ++ [textEvent b.env peer text] ∧
    after.shared.sm.messages =
      b.node.shared.sm.messages ++ [peer.id.val ++ ascii "|" ++ text]

/-- The bytes that a session adds to a text. -/
def sealOf (peer : P2PPeer) : ℕ := if peer.isSecure then sealSize else 0

/-- The text fits all arrays on its way, and there is room for it where it goes. -/
structure WayIsClear (node : Node) (peer : P2PPeer) (text : CString) : Prop where
  datagram : headerSize + sealOf peer + text.length ≤ bufferSize
  entry : peer.id.val.length + 1 + text.length < messageSize
  queue : node.shared.queue.count < eventQueueSize
  log : node.shared.sm.messages.length < maxMessages

/-! ## What is sent -/

/-- The payload that carries the text. -/
def Carries (env : Env) (peer : P2PPeer) (text : CString) (payload : Bytes) : Prop :=
  if peer.isSecure then
    ∃ tag ciphertext, env.crypto.aesGcmEncrypt text peer.aesKey env.nonce = some (tag, ciphertext) ∧
      payload = env.nonce ++ tag ++ ciphertext
  else payload = text

/-- A message that is sent leaves as one datagram. -/
theorem sendMessage_sent {env : Env} {peer : P2PPeer} {payload : Bytes} {sh : Shared}
    (sent : (sendMessage env peer .data payload sh).ret = 0) :
    sendMessage env peer .data payload sh = ⟨0, { peer with lastActivity := env.now },
      sh.record [.sendto peer.udpSocket (P2PMessage.make env.now .data payload).toBytes peer.addr,
        .sent peer.id.val payload]⟩ := by
  rcases sendMessage_cases env peer .data payload sh with h | ⟨-, h⟩
  · rw [h] at sent
    cases sent
  · exact h

theorem sendSecure_accepted {env : Env} {c : Cursor P2PPeer} {text : Bytes} {node : Node}
    (accepted : (sendSecure env c.val text node.shared).ret = 0) :
    ∃ tag ciphertext, env.crypto.aesGcmEncrypt text c.val.aesKey env.nonce = some (tag, ciphertext) ∧
      datagramsTo c.val.addr (news node (node.write c (sendSecure env c.val text node.shared))) =
        [(P2PMessage.make env.now .data (env.nonce ++ tag ++ ciphertext)).toBytes] := by
  unfold sendSecure at accepted ⊢
  split_ifs at accepted ⊢ with closed
  · cases accepted
  cases sealed : env.crypto.aesGcmEncrypt text c.val.aesKey env.nonce with
  | none =>
    rw [sealed] at accepted
    cases accepted
  | some s =>
    obtain ⟨tag, ciphertext⟩ := s
    rw [sealed] at accepted
    refine ⟨tag, ciphertext, rfl, ?_⟩
    dsimp only at accepted ⊢
    have sent : (sendMessage env c.val .data (env.nonce ++ tag ++ ciphertext) node.shared).ret = 0 := by
      split_ifs at accepted <;> exact accepted
    rw [sendMessage_sent sent]
    simp [datagramsTo, news, Node.write]

theorem p2pSend_accepted {env : Env} {toId text : CString} {node : Node} {c : Cursor P2PPeer}
    (found : findPeer toId node.peers = some c) (accepted : (p2pSend env toId text node).1 = 0) :
    ∃ payload, Carries env c.val text payload ∧
      datagramsTo c.val.addr (news node (p2pSend env toId text node).2) =
        [(P2PMessage.make env.now .data payload).toBytes] := by
  unfold p2pSend p2pSendSecure at accepted ⊢
  rw [found] at accepted ⊢
  dsimp only at accepted ⊢
  split_ifs at accepted ⊢ with closed secure empty
  · cases accepted
  · cases accepted
  · obtain ⟨tag, ciphertext, sealed, sent⟩ := sendSecure_accepted accepted
    refine ⟨env.nonce ++ tag ++ ciphertext, ?_, sent⟩
    unfold Carries
    rw [if_pos secure]
    exact ⟨tag, ciphertext, sealed, rfl⟩
  · refine ⟨text, ?_, ?_⟩
    · unfold Carries
      rw [if_neg secure]
    · rw [sendMessage_sent accepted]
      simp [datagramsTo, news, Node.write]

/-! ## What is received -/

/-- The message in the buffer of the listener, before what was in it already. -/
def inBuffer (now : Time) (payload rest : Bytes) : P2PMessage :=
  { P2PMessage.make now .data payload with
    payload := payload.take (bufferSize - headerSize) ++ rest }

theorem ofBuffer_data (now : Time) (payload rest : Bytes) :
    P2PMessage.ofBuffer ((P2PMessage.make now .data payload).toBytes.take bufferSize ++ rest) =
      inBuffer now payload rest := by
  rw [P2PMessage.take_toBytes_append _ (by decide), P2PMessage.ofBuffer_toBytes]
  rfl

/-- The listener handles a DATA message of a known sender. -/
theorem listenerReceive_data {env : Env} {sender : SockAddrIn} {node : Node} {c : Cursor P2PPeer}
    (found : findAddr sender node.peers = some c) (now : Time) (payload rest : Bytes) {n : ℕ}
    (long : headerSize ≤ n) :
    (listenerReceive env sender
        ((P2PMessage.make now .data payload).toBytes.take bufferSize ++ rest) n node).2 =
      node.write c (handleData env c.val (inBuffer now payload rest) node.shared) := by
  have header : headerOk (inBuffer now payload rest) n = true := by
    unfold headerOk
    rw [decide_eq_true long]
    rfl
  have type : (inBuffer now payload rest).type = P2PMessageType.data.code := rfl
  rw [listenerReceive_known found (by rw [ofBuffer_data]; exact header), ofBuffer_data]
  dsimp only
  rw [dispatch_data type]

/-- What a datagram leaves of the buffer it is received into. -/
theorem receiveAll_data {env : Env} {sender : SockAddrIn} {node : Node} {c : Cursor P2PPeer}
    (found : findAddr sender node.peers = some c) (now : Time) (payload : Bytes) {buffer : Bytes}
    (size : buffer.length = bufferSize) :
    (receiveAll env sender [(P2PMessage.make now .data payload).toBytes] buffer node).2 =
      node.write c (handleData env c.val
        (inBuffer now payload (buffer.drop (headerSize + payload.length))) node.shared) := by
  have length : (P2PMessage.make now .data payload).toBytes.length = headerSize + payload.length :=
    P2PMessage.length_toBytes _
  have rest : buffer.drop (min bufferSize (headerSize + payload.length)) =
      buffer.drop (headerSize + payload.length) := by
    rcases Nat.le_total bufferSize (headerSize + payload.length) with long | short
    · rw [Nat.min_eq_left long, List.drop_of_length_le (Nat.le_of_eq size),
        List.drop_of_length_le (Nat.le_trans (Nat.le_of_eq size) long)]
    · rw [Nat.min_eq_right short]
  unfold receiveAll
  dsimp only
  rw [List.length_take, length, rest]
  apply listenerReceive_data found
  simp only [bufferSize, headerSize]
  omega

/-! ## Which texts survive -/

/-- A text at the start of a buffer, and a NUL behind it. -/
theorem strAt_of_prefix {text rest : Bytes} (str : 0 ∉ text) (ends : ∀ c ∈ rest.head?, c = 0) :
    strAt (text ++ rest) 0 = text := by
  have clean : ∀ c ∈ text, (c != 0) = true := by
    intro c hc
    rw [bne_iff_ne]
    rintro rfl
    exact str hc
  unfold strAt
  rw [List.drop_zero, List.takeWhile_append_of_pos clean]
  cases rest with
  | nil => exact List.append_nil text
  | cons c rest =>
    rw [ends c rfl]
    exact List.append_nil text

theorem length_strAt_le (mem : Bytes) : (strAt mem 0).length ≤ mem.length := by
  unfold strAt
  rw [List.drop_zero]
  exact (List.takeWhile_prefix _).length_le

theorem payloadLen_inBuffer (now : Time) (payload : Bytes) (short : payload.length < 65536)
    (rest : Bytes) : (inBuffer now payload rest).payloadLen.toNat = payload.length := by
  show payload.length.toUInt32.toNat = payload.length
  rw [Nat.toUInt32_eq, UInt32.toNat_ofNat']
  omega

/-- Without a seal a text survives if its datagram fits the buffer of the listener. -/
theorem payloadText_inBuffer (now : Time) {text : CString} (str : 0 ∉ text)
    (short : text.length < 4096) {buffer : Bytes} (size : buffer.length = bufferSize) :
    payloadText (inBuffer now text (buffer.drop (headerSize + text.length))) = text ↔
      headerSize + text.length ≤ bufferSize := by
  have length := payloadLen_inBuffer now text (by omega)
    (buffer.drop (headerSize + text.length))
  unfold payloadText terminated
  rw [length]
  show strAt ((text.take (bufferSize - headerSize) ++ buffer.drop (headerSize + text.length)).set
    text.length 0) 0 = text ↔ _
  constructor
  · intro h
    by_contra long
    have all := length_strAt_le ((text.take (bufferSize - headerSize) ++
      buffer.drop (headerSize + text.length)).set text.length 0)
    rw [h, List.length_set, List.length_append, List.length_take, List.length_drop, size] at all
    simp only [bufferSize, headerSize] at long all
    omega
  · intro fits
    rw [List.take_of_length_le (by omega), List.set_append_right _ _ (Nat.le_refl _), Nat.sub_self]
    apply strAt_of_prefix str
    cases buffer.drop (headerSize + text.length) with
    | nil => exact fun c hc => by cases hc
    | cons d rest =>
      rintro c hc
      exact (Option.some.inj hc).symm

/-- On a secure session a text survives if its sealed datagram fits the buffer of the listener. -/
theorem openPayload_inBuffer {env env' : Env} {peer : P2PPeer} (now : Time)
    (opens : env.crypto.Opens env'.crypto) (keeps : env'.crypto.KeepsLength)
    (nonce : env.nonce.length = 12) {text : CString} (str : 0 ∉ text) (short : text.length < 4096)
    {tag ciphertext : Bytes}
    (sealed : env.crypto.aesGcmEncrypt text peer.aesKey env.nonce = some (tag, ciphertext))
    {buffer : Bytes} (size : buffer.length = bufferSize) {payload : Bytes}
    (carried : payload = env.nonce ++ tag ++ ciphertext) :
    ((openPayload env' peer (inBuffer now payload (buffer.drop (headerSize + payload.length)))).map
        fun plaintext => strAt plaintext 0) = some text ↔
      headerSize + sealSize + text.length ≤ bufferSize := by
  obtain ⟨tagSize, textSize, opened⟩ := opens _ _ _ _ _ sealed
  have payloadSize : payload.length = sealSize + text.length := by
    rw [carried, List.length_append, List.length_append, nonce, tagSize, textSize]
    rfl
  have length := payloadLen_inBuffer now payload (by simp only [sealSize] at *; omega)
    (buffer.drop (headerSize + payload.length))
  unfold openPayload
  rw [length]
  have seen : (inBuffer now payload (buffer.drop (headerSize + payload.length))).payload =
      payload.take (bufferSize - headerSize) ++ buffer.drop (headerSize + payload.length) := rfl
  rw [seen]
  constructor
  · intro h
    by_contra long
    obtain ⟨plaintext, decrypted, rfl⟩ := Option.map_eq_some_iff.1 h
    have all := length_strAt_le plaintext
    rw [keeps _ _ _ _ _ decrypted, List.length_take, List.length_drop, List.length_append,
      List.length_take, List.length_drop, size, payloadSize] at all
    simp only [bufferSize, headerSize, sealSize] at long all
    omega
  · intro fits
    have whole : payload.take (bufferSize - headerSize) = payload :=
      List.take_of_length_le (by omega)
    rw [whole, carried]
    have ciphertext_ : (((env.nonce ++ tag ++ ciphertext) ++
        buffer.drop (headerSize + (env.nonce ++ tag ++ ciphertext).length)).drop sealSize).take
          ((env.nonce ++ tag ++ ciphertext).length - sealSize) = ciphertext := by
      rw [List.append_assoc _ ciphertext, List.drop_left' (by rw [List.length_append, nonce, tagSize]; rfl)]
      apply List.take_left'
      rw [List.length_append, List.length_append, nonce, tagSize]
      simp only [sealSize]
      omega
    have nonce_ : ((env.nonce ++ tag ++ ciphertext) ++
        buffer.drop (headerSize + (env.nonce ++ tag ++ ciphertext).length)).take 12 = env.nonce := by
      rw [List.append_assoc, List.append_assoc]
      exact List.take_left' nonce
    have tag_ : (((env.nonce ++ tag ++ ciphertext) ++
        buffer.drop (headerSize + (env.nonce ++ tag ++ ciphertext).length)).drop 12).take 16 = tag := by
      rw [List.append_assoc, List.append_assoc, List.drop_left' nonce]
      exact List.take_left' tagSize
    rw [ciphertext_, nonce_, tag_, opened, Option.map_some]
    have ends : ∀ c ∈ ([] : Bytes).head?, c = 0 := fun c hc => by cases hc
    have read := strAt_of_prefix str ends
    rw [List.append_nil] at read
    rw [read]

/-! ## The round trip -/

/-- A text arrives if it is the one that is accepted, its log entry is not cut, and there is room. -/
theorem textArrives_iff (b : Party) (c : Cursor P2PPeer) (text : CString) (msg : P2PMessage) :
    TextArrives b c.val text (b.node.write c (handleData b.env c.val msg b.node.shared)) ↔
      acceptedText b.env c.val msg = some text ∧
        c.val.id.val.length + 1 + text.length < messageSize ∧
        b.node.shared.queue.count < eventQueueSize ∧
        b.node.shared.sm.messages.length < maxMessages := by
  cases accepted : acceptedText b.env c.val msg with
  | none =>
    obtain ⟨es, refused⟩ := handleData_refused accepted b.node.shared
    refine iff_of_false ?_ fun h => by cases h.1
    rintro ⟨queue, -⟩
    have kept : (b.node.write c (handleData b.env c.val msg b.node.shared)).shared.queue =
        b.node.shared.queue := by
      rw [refused]
      rfl
    rw [kept] at queue
    simp at queue
  | some heard =>
    obtain ⟨es, handled⟩ := handleData_accepted accepted b.node.shared
    have queue := receiveText_queue b.env c.val heard (b.node.shared.record es)
    have log := receiveText_messages b.env c.val heard (b.node.shared.record es)
    have after : (b.node.write c (handleData b.env c.val msg b.node.shared)).shared =
        receiveText b.env c.val heard (b.node.shared.record es) := by
      rw [handled]
      rfl
    have before : (b.node.shared.record es).toStore = b.node.shared.toStore := rfl
    have entry : (c.val.id.val ++ ascii "|" ++ text).length = c.val.id.val.length + 1 + text.length := by
      rw [List.length_append, List.length_append]
      rfl
    unfold TextArrives
    rw [after, queue, log, before, List.append_cancel_left_eq, List.append_cancel_left_eq]
    constructor
    · rintro ⟨event, logged⟩
      have room : b.node.shared.queue.count < eventQueueSize := by
        by_contra full
        rw [Nat.sub_eq_zero_of_le (Nat.not_lt.1 full)] at event
        cases event
      have space : ¬ maxMessages ≤ b.node.shared.sm.messages.length := by
        intro full
        rw [if_pos full] at logged
        cases logged
      obtain ⟨k, hk⟩ : ∃ k, eventQueueSize - b.node.shared.queue.count = k + 1 :=
        ⟨eventQueueSize - b.node.shared.queue.count - 1, by omega⟩
      rw [hk] at event
      obtain rfl : heard = text := congrArg Event.message (List.cons.inj event).1
      rw [if_neg space] at logged
      have whole := congrArg List.length (List.cons.inj logged).1
      unfold logEntry cut at whole
      rw [List.length_take, entry] at whole
      refine ⟨rfl, ?_, room, Nat.not_le.1 space⟩
      simp only [messageSize] at whole ⊢
      omega
    · rintro ⟨same, fits, room, space⟩
      obtain rfl := Option.some.inj same
      rw [List.take_of_length_le (by rw [List.length_singleton]; omega),
        if_neg (Nat.not_le.2 space)]
      refine ⟨rfl, ?_⟩
      unfold logEntry cut
      rw [List.take_of_length_le (by omega)]

/-- What a text that is sent meets in the buffer of the listener. -/
def arriving (a b : Party) (payload : Bytes) : P2PMessage :=
  inBuffer a.env.now payload (b.buffer.drop (headerSize + payload.length))

/-- The text that is accepted is the one that was sent if header, seal and text fit the buffer. -/
theorem acceptedText_arriving {a b : Party} {toId text : CString} {ca cb : Cursor P2PPeer}
    (linked : Linked a b toId ca cb) (opens : a.env.crypto.Opens b.env.crypto)
    (keeps : b.env.crypto.KeepsLength) (nonce : a.env.nonce.length = 12)
    (size : b.buffer.length = bufferSize) (str : 0 ∉ text) (some_ : text ≠ [])
    (short : text.length < 4096) {payload : Bytes} (carries : Carries a.env ca.val text payload) :
    acceptedText b.env cb.val (arriving a b payload) = some text ↔
      headerSize + sealOf cb.val + text.length ≤ bufferSize := by
  unfold Carries at carries
  unfold acceptedText sealOf
  rw [linked.secure] at carries
  by_cases secure : cb.val.isSecure = true
  · rw [if_pos secure] at carries
    obtain ⟨tag, ciphertext, sealed, carried⟩ := carries
    rw [linked.key (linked.secure.trans secure)] at sealed
    obtain ⟨tagSize, textSize, -⟩ := opens _ _ _ _ _ sealed
    have payloadSize : payload.length = sealSize + text.length := by
      rw [carried, List.length_append, List.length_append, nonce, tagSize, textSize]
      rfl
    have long : sealSize < (arriving a b payload).payloadLen.toNat := by
      have := List.length_pos_iff.2 some_
      unfold arriving
      rw [payloadLen_inBuffer _ _ (by simp only [sealSize] at payloadSize; omega)]
      omega
    rw [if_pos ⟨secure, long⟩, if_pos secure]
    exact openPayload_inBuffer _ opens keeps nonce str short sealed size carried
  · rw [if_neg secure] at carries
    subst carries
    rw [if_neg fun h => secure h.1, if_neg secure, Option.some_inj, Nat.add_zero]
    exact payloadText_inBuffer _ str short size

theorem sendText_arrives_iff {a b : Party} {toId text : CString} {ca cb : Cursor P2PPeer}
    (linked : Linked a b toId ca cb) (size : b.buffer.length = bufferSize)
    (accepted : (sendText a b toId text).1 = 0) :
    ∃ payload, Carries a.env ca.val text payload ∧
      (TextArrives b cb.val text (sendText a b toId text).2 ↔
        acceptedText b.env cb.val (arriving a b payload) = some text ∧
          cb.val.id.val.length + 1 + text.length < messageSize ∧
          b.node.shared.queue.count < eventQueueSize ∧
          b.node.shared.sm.messages.length < maxMessages) := by
  obtain ⟨payload, carries, sent⟩ := p2pSend_accepted linked.outgoing accepted
  refine ⟨payload, carries, ?_⟩
  unfold sendText
  dsimp only
  rw [linked.address] at sent
  rw [sent, receiveAll_data linked.incoming _ _ size, textArrives_iff]
  rfl

/-- A text that `p2p_send` accepts arrives whole, exactly if with header and seal it fits the buffer
of the listener, with the id of the sender it fits an entry of the log, and there is room in the event
queue and in the log. -/
theorem chat_round_trip_iff {a b : Party} {toId text : CString} {ca cb : Cursor P2PPeer}
    (linked : Linked a b toId ca cb) (opens : a.env.crypto.Opens b.env.crypto)
    (keeps : b.env.crypto.KeepsLength) (nonce : a.env.nonce.length = 12)
    (size : b.buffer.length = bufferSize) (str : 0 ∉ text) (some_ : text ≠ [])
    (short : text.length < 4096) (accepted : (sendText a b toId text).1 = 0) :
    TextArrives b cb.val text (sendText a b toId text).2 ↔ WayIsClear b.node cb.val text := by
  obtain ⟨payload, carries, arrives⟩ := sendText_arrives_iff linked size accepted
  rw [arrives, acceptedText_arriving linked opens keeps nonce size str some_ short carries]
  exact ⟨fun h => ⟨h.1, h.2.1, h.2.2.1, h.2.2.2⟩, fun h => ⟨h.1, h.2, h.3, h.4⟩⟩

/-- Surroundings with a cipher that hides nothing. -/
def plainCipher : Env :=
  { reachesBob with
    crypto :=
      { reachesBob.crypto with
        aesGcmEncrypt := fun data _ _ => some (List.replicate 16 0, data)
        aesGcmDecrypt := fun ciphertext _ _ _ => some ciphertext }
    nonce := List.replicate 12 0 }

theorem plainCipher_opens : plainCipher.crypto.Opens plainCipher.crypto := by
  intro data key nonce tag ciphertext sealed
  obtain ⟨rfl, rfl⟩ := Prod.mk.inj (Option.some.inj sealed)
  exact ⟨rfl, rfl, rfl⟩

theorem plainCipher_keepsLength : plainCipher.crypto.KeepsLength := by
  intro ciphertext key nonce tag plaintext opened
  exact congrArg List.length (Option.some.inj opened).symm

/-- An ESTABLISHED record of a peer. -/
def peerAt (id : CString) (addr : SockAddrIn) (secure : Bool) : P2PPeer :=
  { P2PPeer.fresh .failing (.of id) with
    ip := addr.ip
    port := addr.port
    addr := addr
    state := .established
    udpSocket := 3
    isSecure := secure }

/-- A party at an address whose table holds one record. -/
def partyAt (addr : SockAddrIn) (peer : P2PPeer) : Party :=
  ⟨plainCipher, addr, addr, List.replicate bufferSize 0, { Node.init with peers := [peer] }⟩

/-- Amy, with a record of bob. -/
def amyParty (secure : Bool) : Party := partyAt amyAddr (peerAt (ascii "bob") bobAddr secure)

/-- Bob, with a record of amy. -/
def bobParty (secure : Bool) : Party := partyAt bobAddr (peerAt (ascii "amy") amyAddr secure)

theorem amy_linked_bob (secure : Bool) :
    Linked (amyParty secure) (bobParty secure) (ascii "bob") ⟨[], peerAt (ascii "bob") bobAddr secure, []⟩
      ⟨[], peerAt (ascii "amy") amyAddr secure, []⟩ :=
  ⟨rfl, rfl, rfl, ⟨rfl, rfl⟩, rfl, fun _ => rfl⟩

theorem chat_round_trip_iff_hi :
    TextArrives (bobParty true) (peerAt (ascii "amy") amyAddr true) (ascii "hi")
        (sendText (amyParty true) (bobParty true) (ascii "bob") (ascii "hi")).2 ↔
      WayIsClear (bobParty true).node (peerAt (ascii "amy") amyAddr true) (ascii "hi") :=
  chat_round_trip_iff (amy_linked_bob true) plainCipher_opens plainCipher_keepsLength rfl
    List.length_replicate (by decide) (by decide) (by decide) rfl

/-- Of a text of 4077 bytes the last one is lost, although it is accepted. -/
theorem text_truncated :
    (sendText (amyParty false) (bobParty false) (ascii "bob") (List.replicate 4077 97)).1 = 0 ∧
      ¬ TextArrives (bobParty false) (peerAt (ascii "amy") amyAddr false) (List.replicate 4077 97)
        (sendText (amyParty false) (bobParty false) (ascii "bob") (List.replicate 4077 97)).2 := by
  have accepted :
      (sendText (amyParty false) (bobParty false) (ascii "bob") (List.replicate 4077 97)).1 = 0 := rfl
  refine ⟨accepted, fun arrives => ?_⟩
  obtain ⟨payload, carries, arrives_iff⟩ :=
    sendText_arrives_iff (amy_linked_bob false) List.length_replicate accepted
  have str : (0 : UInt8) ∉ List.replicate 4077 (97 : UInt8) := by
    rw [List.mem_replicate]
    exact fun h => absurd h.2 (by decide)
  have fits := (acceptedText_arriving (amy_linked_bob false) plainCipher_opens plainCipher_keepsLength
    rfl List.length_replicate str (List.cons_ne_nil _ _) (by rw [List.length_replicate]; decide)
    carries).1 (arrives_iff.1 arrives).1
  rw [List.length_replicate] at fits
  exact absurd fits (by decide)

end Orcashi
