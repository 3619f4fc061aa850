import Orcashi.ReceiveGate

/-!
# DATA messages of a secure session

On a session that is secure, a DATA message is a nonce, a tag and a ciphertext, and its text should
reach the user only if the ciphertext opens under the session key.  `handle_data` opens payloads of
more than 28 bytes only; shorter ones it takes for plain text.
-/

namespace Orcashi

open CMemory

/-- The plaintext of a payload that authenticates under the key of the peer. -/
def authenticated (env : Env) (peer : P2PPeer) (msg : P2PMessage) : Option Bytes :=
  if sealSize ≤ msg.payloadLen.toNat then openPayload env peer msg else none

/-- The entry `state_add_message` writes. -/
def logEntry (fromId text : CString) : CString := cut messageSize (fromId ++ ascii "|" ++ text)

/-- A step from `s` to `s'` delivers nothing but the plaintext of an authenticated payload, and
without one it changes nothing. -/
structure Authentic (fromId : CString) (plaintext : Option Bytes) (s s' : Store) : Prop where
  unauthenticated : plaintext = none → s' = s
  events : ∀ p, plaintext = some p →
    ∀ ev ∈ s'.queue.toList.drop s.queue.count, ev.message = strAt p 0
  log : ∀ p, plaintext = some p →
    ∀ entry ∈ s'.sm.messages.drop s.sm.messages.length, entry = logEntry fromId (strAt p 0)

theorem Authentic.refl (fromId : CString) (plaintext : Option Bytes) (s : Store) :
    Authentic fromId plaintext s s where
  unauthenticated _ := rfl
  events p _ ev hev := by
    rw [← RingBuffer.length_toList, List.drop_length] at hev
    cases hev
  log p _ entry hentry := by
    rw [List.drop_length] at hentry
    cases hentry

/-! ## Delivering a text -/

/-- The event of a received text. -/
def textEvent (env : Env) (peer : P2PPeer) (text : CString) : Event :=
  { eventCreate env.now .messageReceived peer.id.val with fromId := peer.id.val, message := text }

theorem receiveText_queue (env : Env) (peer : P2PPeer) (text : CString) (sh : Shared) :
    (receiveText env peer text sh).queue.toList =
      sh.queue.toList ++ [textEvent env peer text].take (eventQueueSize - sh.queue.count) := by
  show (eventQueuePush (textEvent env peer text) sh.queue).2.toList = _
  rw [eventQueuePush_snd]
  exact toList_offer _ _

theorem receiveText_messages (env : Env) (peer : P2PPeer) (text : CString) (sh : Shared) :
    (receiveText env peer text sh).sm.messages =
      sh.sm.messages ++ if maxMessages ≤ sh.sm.messages.length then []
        else [logEntry peer.id.val text] := by
  show (stateAddMessage peer.id.val text sh.sm).2.messages = _
  unfold stateAddMessage
  split_ifs
  · rw [List.append_nil]
  · rfl

/-- Both the queue and the log are full, so nothing can be delivered. -/
def Store.Stuffed (s : Store) : Prop :=
  eventQueueSize ≤ s.queue.count ∧ maxMessages ≤ s.sm.messages.length

theorem receiveText_stuffed {s : Shared} (stuffed : s.Stuffed) (env : Env) (peer : P2PPeer)
    (text : CString) : (receiveText env peer text s).toStore = s.toStore := by
  have queue : (eventQueuePush (textEvent env peer text) s.queue).2 = s.queue := by
    unfold eventQueuePush
    rw [(RingBuffer.push_eq_none_iff _ _).2 stuffed.1]
  have log : (stateAddMessage peer.id.val text s.sm).2 = s.sm := by
    unfold stateAddMessage
    rw [if_pos stuffed.2]
  show (⟨(stateAddMessage peer.id.val text s.sm).2,
    (eventQueuePush (textEvent env peer text) s.queue).2⟩ : Store) = _
  rw [queue, log]

theorem receiveText_authentic {env : Env} {peer : P2PPeer} {p : Bytes} {text : CString}
    (same : text = strAt p 0) (sh : Shared) :
    Authentic peer.id.val (some p) sh.toStore (receiveText env peer text sh).toStore where
  unauthenticated h := by cases h
  events q hq ev hev := by
    obtain rfl := Option.some.inj hq
    rw [receiveText_queue, ← RingBuffer.length_toList, List.drop_left] at hev
    obtain rfl := List.mem_singleton.1 (List.mem_of_mem_take hev)
    exact same
  log q hq entry hentry := by
    obtain rfl := Option.some.inj hq
    rw [receiveText_messages, List.drop_left] at hentry
    split_ifs at hentry
    · cases hentry
    · rw [List.mem_singleton.1 hentry, same]

/-- A log entry shows its text, if the text is short. -/
theorem logEntry_inj {id t u : CString} (hid : id.length < idSize) (ht : t.length ≤ sealSize)
    (h : logEntry id t = logEntry id u) : t = u := by
  unfold logEntry cut at h
  simp only [messageSize, idSize, sealSize] at h hid ht
  have hlen := congrArg List.length h
  simp only [List.length_take, List.length_append] at hlen
  have one : (ascii "|").length = 1 := rfl
  rw [List.take_of_length_le (by simp only [List.length_append]; omega),
    List.take_of_length_le (by simp only [List.length_append]; omega)] at h
  exact List.append_cancel_left h

/-- Where a text can be delivered, it is authentic only if it is the authenticated one. -/
theorem receiveText_authentic_iff {env : Env} {peer : P2PPeer} {text : CString} {sh : Shared}
    (room : ¬ sh.Stuffed) (short : text.length ≤ sealSize) {plaintext : Option Bytes} :
    Authentic peer.id.val plaintext sh.toStore (receiveText env peer text sh).toStore ↔
      ∃ p, plaintext = some p ∧ text = strAt p 0 := by
  constructor
  · intro h
    cases plaintext with
    | none =>
      have same := h.unauthenticated rfl
      exfalso
      apply room
      have hq := receiveText_queue env peer text sh
      have hm := receiveText_messages env peer text sh
      rw [same] at hq hm
      rw [List.self_eq_append_right, List.take_eq_nil_iff] at hq
      rw [List.self_eq_append_right] at hm
      refine ⟨?_, ?_⟩
      · rcases hq with hq | hq
        · omega
        · cases hq
      · by_contra hroom
        rw [if_neg hroom] at hm
        cases hm
    | some p =>
      refine ⟨p, rfl, ?_⟩
      by_cases hq : eventQueueSize ≤ sh.queue.count
      · have hm : ¬ maxMessages ≤ sh.sm.messages.length := fun hm => room ⟨hq, hm⟩
        have entry := h.log p rfl (logEntry peer.id.val text)
        rw [receiveText_messages, if_neg hm, List.drop_left] at entry
        exact logEntry_inj peer.id.length_lt short (entry List.mem_cons_self)
      · have event := h.events p rfl (textEvent env peer text)
        rw [receiveText_queue, ← RingBuffer.length_toList, List.drop_left] at event
        apply event
        obtain ⟨k, hk⟩ : ∃ k, eventQueueSize - sh.queue.toList.length = k + 1 := by
          rw [RingBuffer.length_toList]
          exact ⟨eventQueueSize - sh.queue.count - 1, by omega⟩
        rw [hk, List.take_succ_cons]
        exact List.mem_cons_self
  · rintro ⟨p, rfl, same⟩
    exact receiveText_authentic same sh

/-! ## The handler -/

/-- On a secure session only authenticated text is delivered, and only it has an effect, exactly if
the header is rejected, the payload is longer than nonce and tag, there is no room for any text, or
the payload is an authenticated empty ciphertext whose text is the one that is delivered. -/
theorem data_authentic_iff {peer : P2PPeer} (secure : peer.isSecure = true) {msg : P2PMessage}
    (data : msg.type = P2PMessageType.data.code) (env : Env) (msgLen : ℕ) (sh : Shared) :
    Authentic peer.id.val (authenticated env peer msg) sh.toStore
        (processMessage env peer msg msgLen sh).shared.toStore ↔
      headerOk msg msgLen = false ∨ sealSize < msg.payloadLen.toNat ∨ sh.Stuffed ∨
        (msg.payloadLen.toNat = sealSize ∧
          ∃ p, openPayload env peer msg = some p ∧ payloadText msg = strAt p 0) := by
  by_cases header : headerOk msg msgLen = true
  · rw [processMessage_accepted header, dispatch_data data, header]
    simp only [Bool.true_eq_false, false_or]
    by_cases long : sealSize < msg.payloadLen.toNat
    · refine iff_of_true ?_ (Or.inl long)
      have opened : authenticated env peer msg = openPayload env peer msg := by
        unfold authenticated
        rw [if_pos (Nat.le_of_lt long)]
      unfold handleData
      rw [if_pos ⟨secure, long⟩, opened]
      cases openPayload env peer msg with
      | none => exact .refl _ _ _
      | some p => exact receiveText_authentic rfl _
    · have plain : handleData env peer msg sh =
          ⟨0, { peer with lastActivity := env.now },
            receiveText env peer (payloadText msg) (sh.record (textEffects msg))⟩ := by
        unfold handleData
        rw [if_neg fun h => long h.2]
      have short : (payloadText msg).length ≤ sealSize :=
        Nat.le_trans (length_payloadText_le msg) (Nat.le_of_not_lt long)
      rw [plain]
      by_cases room : sh.Stuffed
      · refine iff_of_true ?_ (Or.inr (Or.inl room))
        have full : (sh.record (textEffects msg)).Stuffed := room
        have same := receiveText_stuffed full env peer (payloadText msg)
        dsimp only
        rw [same]
        exact .refl _ _ _
      · have room' : ¬ (sh.record (textEffects msg)).Stuffed := room
        refine (receiveText_authentic_iff room' short).trans ?_
        have exact_len : sealSize ≤ msg.payloadLen.toNat ↔ msg.payloadLen.toNat = sealSize := by
          omega
        unfold authenticated
        simp only [long, room, false_or, exact_len]
        by_cases hlen : msg.payloadLen.toNat = sealSize
        · simp only [hlen, if_true, true_and]
        · simp only [hlen, if_false, false_and, reduceCtorEq, exists_false]
  · have rejected : headerOk msg msgLen = false := by simpa using header
    refine iff_of_true ?_ (Or.inl rejected)
    rw [processMessage_rejected header]
    exact .refl _ _ _

/-- A secure session, as a HANDSHAKE_RESPONSE leaves it. -/
def secureBob : P2PPeer :=
  { P2PPeer.fresh .failing (.of (ascii "bob")) with state := .established, isSecure := true }

theorem data_authentic_iff_short :
    Authentic secureBob.id.val (authenticated .failing secureBob (.make 0 .data (ascii "hi")))
        Shared.init.toStore
        (processMessage .failing secureBob (.make 0 .data (ascii "hi")) 22 .init).shared.toStore ↔
      headerOk (.make 0 .data (ascii "hi")) 22 = false ∨
      sealSize < (P2PMessage.make 0 .data (ascii "hi")).payloadLen.toNat ∨ Shared.init.Stuffed ∨
        ((P2PMessage.make 0 .data (ascii "hi")).payloadLen.toNat = sealSize ∧
          ∃ p, openPayload .failing secureBob (.make 0 .data (ascii "hi")) = some p ∧
            payloadText (.make 0 .data (ascii "hi")) = strAt p 0) :=
  data_authentic_iff rfl rfl .failing 22 .init

/-- On a secure session a short message that nobody encrypted is delivered. -/
theorem plaintext_on_secure_session :
    let secure := History.run p2pStep .init
      [(reachesBob, .connect (ascii "bob")), (reachesBob, datagramOf .handshakeResponse [1])]
    let after := p2pStep secure (reachesBob, datagramOf .data (ascii "hi"))
    secure.peers.map P2PPeer.isSecure = [true] ∧
      secure.peers.map (fun p => authenticated reachesBob p (.make 0 .data (ascii "hi"))) = [none] ∧
      after.shared.sm.messages = [ascii "bob|hi"] ∧ after.shared.queue.count = 1 := by
  decide

end Orcashi
