import Orcashi.FailedHandshake

/-!
# Accesses to a received message

The handlers of `process_message` should read and write the payload only where bytes were received,
store their terminator inside the receive buffer, and copy only strings that fit.  `payload_len` is
what the sender says, so none of this is checked against the length of the datagram.
-/

namespace Orcashi

open CMemory

/-! ## Bounds -/

/-- Of a message with `m` bytes of payload, an access stays inside what was received, the terminator
inside the buffer, and a string is shorter than the array it is copied into. -/
def Effect.InBounds (m : ℕ) : Effect → Prop
  | .load _ hi => hi ≤ m
  | .store i => i < m
  | .terminate i => i < bufferSize - headerSize
  | .copy size len => len < size
  | _ => True

/-- What was added to a history is in bounds. -/
def Within (m : ℕ) (t t' : List Effect) : Prop := ∀ e ∈ t'.drop t.length, e.InBounds m

theorem within_append {m : ℕ} {t es : List Effect} :
    Within m t (t ++ es) ↔ ∀ e ∈ es, e.InBounds m := by
  unfold Within
  rw [List.drop_left]

theorem within_refl (m : ℕ) (t : List Effect) : Within m t t := by
  unfold Within
  simp

section

variable {m i j : ℕ}

@[simp] theorem load_inBounds : (Effect.load i j).InBounds m ↔ j ≤ m := Iff.rfl

@[simp] theorem store_inBounds : (Effect.store i).InBounds m ↔ i < m := Iff.rfl

@[simp] theorem terminate_inBounds :
    (Effect.terminate i).InBounds m ↔ i < bufferSize - headerSize := Iff.rfl

@[simp] theorem copy_inBounds : (Effect.copy i j).InBounds m ↔ j < i := Iff.rfl

@[simp] theorem loadField_inBounds {payload : Bytes} :
    (loadField payload i).InBounds m ↔ scan separator payload i < m := Iff.rfl

@[simp] theorem loadStr_inBounds {payload : Bytes} :
    (loadStr payload i).InBounds m ↔ scan 0 payload i < m := Iff.rfl

end

/-! ## Handshakes -/

/-- Two separators are among the bytes. -/
def TwoSeparators (r : Bytes) : Prop :=
  ∃ i j : ℕ, i < j ∧ r[i]? = some separator ∧ r[j]? = some separator

theorem twoSeparators_take_iff {mem : Bytes} {m : ℕ} :
    TwoSeparators (mem.take m) ↔ ∃ i j : ℕ, i < j ∧ j < m ∧ mem[i]? = some separator ∧
      mem[j]? = some separator := by
  unfold TwoSeparators
  constructor
  · rintro ⟨i, j, hij, hi, hj⟩
    obtain ⟨hj', -⟩ := List.getElem?_eq_some_iff.1 hj
    rw [List.length_take] at hj'
    have hjm : j < m := by omega
    rw [List.getElem?_take_of_lt (Nat.lt_trans hij hjm)] at hi
    rw [List.getElem?_take_of_lt hjm] at hj
    exact ⟨i, j, hij, hjm, hi, hj⟩
  · rintro ⟨i, j, hij, hjm, hi, hj⟩
    refine ⟨i, j, hij, ?_, ?_⟩
    · rw [List.getElem?_take_of_lt (Nat.lt_trans hij hjm)]
      exact hi
    · rw [List.getElem?_take_of_lt hjm]
      exact hj

theorem acceptHandshake_trace (env : Env) (peer : P2PPeer) (identity : OrcaIdentity)
    (id signature : CString) {pubkey : CString} (short : pubkey.length < 4096) (sh : Shared) (m : ℕ) :
    ∃ es, (acceptHandshake env peer identity id pubkey signature sh).shared.trace = sh.trace ++ es ∧
      ∀ e ∈ es, e.InBounds m := by
  rcases acceptHandshake_cases env peer identity id pubkey signature sh with
    ⟨-, h⟩ | ⟨-, ⟨-, h⟩ | ⟨sharedSecret, aesKey, -, h | ⟨datagram, h⟩⟩⟩ <;> rw [h]
  · exact ⟨[], by simp, by simp⟩
  · exact ⟨[.copy 4096 pubkey.length], rfl, by simpa [Effect.InBounds] using short⟩
  · exact ⟨[.copy 4096 pubkey.length, .keyed peer.id aesKey], by simp,
      by simpa [Effect.InBounds] using short⟩
  · exact ⟨[.copy 4096 pubkey.length, .keyed peer.id aesKey,
      .sendto peer.udpSocket datagram peer.addr, .sent peer.id.val [1]], by simp,
      by simpa [Effect.InBounds] using short⟩

/-- A separator found first leaves the payload behind it as it was. -/
theorem getElem?_set_of_lt {mem : Bytes} {i j : ℕ} (h : i < j) : (mem.set i 0)[j]? = mem[j]? :=
  List.getElem?_set_ne (Nat.ne_of_lt h)

section Fields

variable {mem : Bytes} {m bar bar' : ℕ}

/-- A NUL or a second separator stops the second search. -/
theorem second_scan_lt (received : m ≤ mem.length) (found : strchr mem 0 separator = some bar)
    (h : 0 ∈ mem.take m ∨ TwoSeparators (mem.take m)) :
    scan separator (mem.set bar 0) (bar + 1) < m := by
  obtain ⟨bar_eq, -⟩ := strchr_eq_some found
  have stopped : ∀ j < m, bar < j → mem[j]? = some 0 ∨ mem[j]? = some separator →
      scan separator (mem.set bar 0) (bar + 1) < m := by
    intro j hj hbj stop
    rw [← getElem?_set_of_lt hbj] at stop
    exact (scan_lt_iff (by simpa using received)).2 ⟨j, hj, hbj, stop⟩
  rcases h with h | h
  · obtain ⟨z, hz, nul⟩ := mem_take_iff.1 h
    exact stopped z hz (lt_of_strchr found (by decide) nul (Nat.zero_le z)) (Or.inl nul)
  · obtain ⟨i, j, hij, hj, hi, hsep⟩ := twoSeparators_take_iff.1 h
    have first : bar ≤ i := bar_eq ▸ scan_le (Nat.zero_le i) hi (Or.inr rfl)
    exact stopped j hj (by omega) (Or.inr hsep)

/-- Where the second search fails, it ends among the bytes received only at a NUL. -/
theorem nul_of_second_scan (received : m ≤ mem.length)
    (missing : strchr (mem.set bar 0) (bar + 1) separator = none)
    (h : scan separator (mem.set bar 0) (bar + 1) < m) : 0 ∈ mem.take m := by
  have inside : scan separator (mem.set bar 0) (bar + 1) < (mem.set bar 0).length := by
    rw [List.length_set]
    exact Nat.lt_of_lt_of_le h received
  have nul := getElem?_of_strchr_eq_none missing inside
  rw [getElem?_set_of_lt (Nat.lt_of_succ_le le_scan_self)] at nul
  exact mem_take_iff.2 ⟨_, h, nul⟩

/-- The second search finds a second separator. -/
theorem twoSeparators_of_found (found : strchr mem 0 separator = some bar)
    (found' : strchr (mem.set bar 0) (bar + 1) separator = some bar')
    (h : bar' < m) : TwoSeparators (mem.take m) := by
  obtain ⟨-, sep⟩ := strchr_eq_some found
  obtain ⟨-, sep'⟩ := strchr_eq_some found'
  have beyond : bar < bar' := le_of_strchr found'
  rw [getElem?_set_of_lt beyond] at sep'
  exact twoSeparators_take_iff.2 ⟨bar, bar', beyond, h, sep, sep'⟩

/-- With both separators replaced by NULs, the first two strings end there, and the third one ends
among the bytes received exactly if a NUL is there. -/
theorem fields_end (received : m ≤ mem.length) (found : strchr mem 0 separator = some bar)
    (found' : strchr (mem.set bar 0) (bar + 1) separator = some bar') :
    scan 0 ((mem.set bar 0).set bar' 0) 0 ≤ bar ∧
      scan 0 ((mem.set bar 0).set bar' 0) (bar + 1) ≤ bar' ∧
      (scan 0 ((mem.set bar 0).set bar' 0) (bar' + 1) < m ↔ 0 ∈ mem.take m) := by
  have beyond : bar < bar' := le_of_strchr found'
  have nul : ((mem.set bar 0).set bar' 0)[bar]? = some 0 := by
    rw [List.getElem?_set_ne (Nat.ne_of_gt beyond)]
    exact List.getElem?_set_self (lt_length_of_strchr found)
  have nul' : ((mem.set bar 0).set bar' 0)[bar']? = some 0 :=
    List.getElem?_set_self (lt_length_of_strchr found')
  refine ⟨scan_le (Nat.zero_le bar) nul (Or.inl rfl), scan_le beyond nul' (Or.inl rfl), ?_⟩
  rw [scan_lt_iff (by simpa using received), mem_take_iff]
  constructor
  · rintro ⟨z, hz, hbz, h⟩
    rw [getElem?_set_of_lt hbz, getElem?_set_of_lt (Nat.lt_trans beyond hbz), or_self] at h
    exact ⟨z, hz, h⟩
  · rintro ⟨z, hz, h⟩
    have behind : bar < z := lt_of_strchr found (by decide) h (Nat.zero_le z)
    have h' : (mem.set bar 0)[z]? = some 0 := by
      rw [getElem?_set_of_lt behind]
      exact h
    have behind' : bar' < z := lt_of_strchr found' (by decide) h' behind
    refine ⟨z, hz, behind', Or.inl ?_⟩
    rw [getElem?_set_of_lt behind']
    exact h'

end Fields

/-- `handle_handshake` stays in bounds exactly if a NUL was received, or two separators were and it
gives up for want of an identity. -/
theorem handleHandshake_within_iff (env : Env) (peer : P2PPeer) {msg : P2PMessage} (sh : Shared)
    {m : ℕ} (received : m ≤ msg.payload.length) (fits : msg.payload.length ≤ bufferSize) :
    Within m sh.trace (handleHandshake env peer msg sh).shared.trace ↔
      0 ∈ msg.payload.take m ∨ (env.identity = none ∧ TwoSeparators (msg.payload.take m)) := by
  unfold handleHandshake
  dsimp only
  cases found : strchr msg.payload 0 separator with
  | none =>
    show Within m sh.trace (sh.trace ++ [loadField msg.payload 0]) ↔ _
    rw [within_append, List.forall_mem_singleton, loadField_inBounds]
    constructor
    · intro h
      have nul := getElem?_of_strchr_eq_none found (Nat.lt_of_lt_of_le h received)
      exact Or.inl (mem_take_iff.2 ⟨_, h, nul⟩)
    · rw [scan_start_lt_iff received]
      rintro (nul | ⟨-, i, j, -, sep, -⟩)
      · exact Or.inl nul
      · exact Or.inr (List.mem_of_getElem? sep)
  | some bar =>
    obtain ⟨bar_eq, -⟩ := strchr_eq_some found
    have stops := second_scan_lt received found
    dsimp only
    cases found' : strchr (msg.payload.set bar 0) (bar + 1) separator with
    | none =>
      have beyond : bar + 1 ≤ scan separator (msg.payload.set bar 0) (bar + 1) := le_scan_self
      dsimp only
      simp only [Shared.record_trace, List.append_assoc, within_append, List.forall_mem_append,
        List.forall_mem_cons, List.not_mem_nil, false_implies, implies_true, and_true,
        loadField_inBounds, store_inBounds, ← bar_eq]
      constructor
      · rintro ⟨-, -, h⟩
        exact Or.inl (nul_of_second_scan received found' h)
      · intro h
        have inside := stops (h.imp_right And.right)
        exact ⟨by omega, by omega, inside⟩
    | some bar' =>
      obtain ⟨bar'_eq, -⟩ := strchr_eq_some found'
      have beyond : bar + 1 ≤ bar' := le_of_strchr found'
      rw [← bar'_eq] at stops
      cases env.identity with
      | none =>
        dsimp only
        simp only [Shared.record_trace, List.append_assoc, within_append, List.forall_mem_append,
          List.forall_mem_cons, List.not_mem_nil, false_implies, implies_true, and_true,
          loadField_inBounds, store_inBounds, ← bar_eq, ← bar'_eq, true_and]
        constructor
        · rintro ⟨-, -, h⟩
          exact Or.inr (twoSeparators_of_found found found' h)
        · intro h
          have inside := stops h
          exact ⟨by omega, ⟨by omega, inside⟩, inside⟩
      | some identity =>
        obtain ⟨id_end, key_end, signature_end⟩ := fields_end received found found'
        have short : (strAt ((msg.payload.set bar 0).set bar' 0) (bar + 1)).length < 4096 := by
          have bound : bar' < (msg.payload.set bar 0).length := lt_length_of_strchr found'
          rw [scan_zero_eq] at key_end
          rw [List.length_set] at bound
          unfold bufferSize at fits
          omega
        obtain ⟨es, accepted, bounded⟩ := acceptHandshake_trace env peer identity
          (strAt ((msg.payload.set bar 0).set bar' 0) 0)
          (strAt ((msg.payload.set bar 0).set bar' 0) (bar' + 1)) short
          ((((sh.record [loadField msg.payload 0]).record
            [.store bar, loadField (msg.payload.set bar 0) (bar + 1)]).record [.store bar']).record
              [loadStr ((msg.payload.set bar 0).set bar' 0) 0,
                loadStr ((msg.payload.set bar 0).set bar' 0) (bar + 1),
                loadStr ((msg.payload.set bar 0).set bar' 0) (bar' + 1)]) m
        dsimp only
        rw [accepted]
        simp only [Shared.record_trace, List.append_assoc, within_append, List.forall_mem_append,
          List.forall_mem_cons, List.not_mem_nil, false_implies, implies_true, and_true,
          loadField_inBounds, store_inBounds, loadStr_inBounds, ← bar_eq, ← bar'_eq, reduceCtorEq,
          false_and, or_false, signature_end]
        constructor
        · rintro ⟨-, -, -, ⟨-, -, nul⟩, -⟩
          exact nul
        · intro nul
          have inside := stops (Or.inl nul)
          exact ⟨by omega, ⟨by omega, inside⟩, inside, ⟨by omega, by omega, nul⟩, bounded⟩

/-! ## Texts -/

/-- A decrypted text is as long as the encrypted one. -/
def Crypto.KeepsLength (crypto : Crypto) : Prop :=
  ∀ ciphertext key nonce tag plaintext,
    crypto.aesGcmDecrypt ciphertext key nonce tag = some plaintext →
      plaintext.length = ciphertext.length

/-- The terminator is stored inside the buffer, and the text ends among the bytes received. -/
def TextFits (msg : P2PMessage) (m : ℕ) : Prop :=
  msg.payloadLen.toNat < bufferSize - headerSize ∧
    (msg.payloadLen.toNat ≤ m ∨ 0 ∈ msg.payload.take m)

theorem textEffects_inBounds_iff {msg : P2PMessage} {m : ℕ}
    (received : m ≤ msg.payload.length) :
    (∀ e ∈ textEffects msg, e.InBounds m) ↔ TextFits msg m := by
  unfold textEffects TextFits
  simp only [List.forall_mem_cons, List.not_mem_nil, false_implies, implies_true, and_true,
    terminate_inBounds, load_inBounds]
  refine and_congr_right fun _ => ?_
  by_cases short : msg.payloadLen.toNat ≤ m
  · exact iff_of_true (Nat.le_trans (Nat.min_le_right _ _) short) (Or.inl short)
  have unchanged : (terminated msg).take m = msg.payload.take m :=
    List.take_set_of_le (Nat.le_of_not_le short)
  have text_end : scan 0 (terminated msg) 0 < m ↔ 0 ∈ msg.payload.take m := by
    rw [scan_start_lt_iff (by simpa [terminated] using received), unchanged, or_self]
  rw [or_iff_right short, ← text_end]
  omega

theorem handleData_within_iff {env : Env} (keeps : env.crypto.KeepsLength) (peer : P2PPeer)
    {msg : P2PMessage} (sh : Shared) {m : ℕ} (received : m ≤ msg.payload.length)
    (buffer : msg.payload.length = bufferSize - headerSize) :
    Within m sh.trace (handleData env peer msg sh).shared.trace ↔
      if peer.isSecure ∧ sealSize < msg.payloadLen.toNat then msg.payloadLen.toNat ≤ m
      else TextFits msg m := by
  have own_id : peer.id.val.length < idSize := peer.id.length_lt
  have size : bufferSize - headerSize < 4096 := by decide
  unfold handleData
  by_cases secure : peer.isSecure ∧ sealSize < msg.payloadLen.toNat
  · rw [if_pos secure, if_pos secure]
    dsimp only
    cases opened : openPayload env peer msg with
    | none =>
      dsimp only
      rw [Shared.record_trace, within_append]
      simp only [List.forall_mem_cons, List.not_mem_nil, false_implies, implies_true, and_true,
        load_inBounds]
      have := secure.2
      unfold sealSize at this
      omega
    | some plaintext =>
      have short : (strAt plaintext 0).length < 4096 := by
        have length := keeps _ _ _ _ _ opened
        have whole : (strAt plaintext 0).length ≤ plaintext.length - 0 := length_strAt_le_length
        rw [length, List.length_take, List.length_drop] at whole
        omega
      dsimp only [receiveText]
      simp only [Shared.onStore_trace, Shared.record_trace, List.append_assoc, within_append,
        List.forall_mem_append, List.forall_mem_cons, List.not_mem_nil, false_implies, implies_true,
        and_true, load_inBounds, copy_inBounds]
      have := secure.2
      unfold sealSize at this
      omega
  · rw [if_neg secure, if_neg secure]
    dsimp only [receiveText]
    simp only [Shared.onStore_trace, Shared.record_trace, List.append_assoc, within_append,
      List.forall_mem_append, List.forall_mem_cons, List.not_mem_nil, false_implies, implies_true,
      and_true, copy_inBounds, textEffects_inBounds_iff received]
    constructor
    · exact And.left
    · intro h
      have text := length_payloadText_le msg
      have := h.1
      exact ⟨h, own_id, by omega⟩

/-! ## Messages -/

/-- What a message that passes the checks has to be so that its handler stays in bounds. -/
def Bounded (env : Env) (peer : P2PPeer) (msg : P2PMessage) (m : ℕ) : Prop :=
  match P2PMessageType.ofCode msg.type with
  | some .handshake =>
    0 ∈ msg.payload.take m ∨ (env.identity = none ∧ TwoSeparators (msg.payload.take m))
  | some .data =>
    if peer.isSecure ∧ sealSize < msg.payloadLen.toNat then msg.payloadLen.toNat ≤ m
    else TextFits msg m
  | some .addRequest => TextFits msg m ∧ (payloadText msg).length < idSize
  | some .acceptConfirm | some .rejectConfirm => TextFits msg m
  | _ => True

theorem processMessage_within_iff {env : Env} (keeps : env.crypto.KeepsLength) (peer : P2PPeer)
    {msg : P2PMessage} (msgLen : ℕ) (sh : Shared) {m : ℕ} (received : m ≤ msg.payload.length)
    (buffer : msg.payload.length = bufferSize - headerSize) :
    Within m sh.trace (processMessage env peer msg msgLen sh).shared.trace ↔
      (headerOk msg msgLen = true → Bounded env peer msg m) := by
  have fits : msg.payload.length ≤ bufferSize := by
    rw [buffer]
    exact Nat.sub_le _ _
  by_cases header : headerOk msg msgLen = true
  swap
  · rw [processMessage_rejected header]
    exact iff_of_true (within_refl m sh.trace) fun h => absurd h header
  rw [processMessage_accepted header]
  simp only [header, true_implies]
  unfold dispatch Bounded
  cases P2PMessageType.ofCode msg.type with
  | none => exact iff_of_true (within_refl m sh.trace) trivial
  | some type =>
    cases type with
    | handshake => exact handleHandshake_within_iff env peer sh received fits
    | handshakeResponse => exact iff_of_true (within_refl m sh.trace) trivial
    | data => exact handleData_within_iff keeps peer sh received buffer
    | keepalive => exact iff_of_true (within_refl m sh.trace) trivial
    | close =>
      refine iff_of_true ?_ trivial
      show Within m sh.trace (sh.trace ++ [.disconnected peer.id])
      rw [within_append]
      simp [Effect.InBounds]
    | addRequest =>
      show Within m sh.trace (sh.trace ++ (textEffects msg ++ [.copy idSize (payloadText msg).length])) ↔ _
      rw [within_append, List.forall_mem_append, textEffects_inBounds_iff received]
      simp
    | acceptConfirm =>
      show Within m sh.trace (sh.trace ++ textEffects msg) ↔ _
      rw [within_append, textEffects_inBounds_iff received]
    | rejectConfirm =>
      show Within m sh.trace (sh.trace ++ textEffects msg) ↔ _
      rw [within_append, textEffects_inBounds_iff received]

/-! ## Datagrams -/

theorem addPeer_trace {env : Env} {id : CString} {peers : List P2PPeer} {sh sh' : Shared}
    {c : Cursor P2PPeer} (h : addPeer env id peers sh = some (c, sh')) (m : ℕ) :
    ∃ es, sh'.trace = sh.trace ++ es ∧ ∀ e ∈ es, e.InBounds m := by
  rcases addPeer_cases h with ⟨-, rfl⟩ | ⟨-, -, rfl⟩
  · exact ⟨[], by simp, by simp⟩
  · exact ⟨[.disconnected (.of id)], rfl, by simp [Effect.InBounds]⟩

/-- The listener's own parsing of a HANDSHAKE from an unknown address, and what follows it, stay in
bounds exactly if a NUL or a separator was received. -/
theorem listenerHandshake_within_iff (env : Env) (sender : SockAddrIn) {msg : P2PMessage} (n : ℕ)
    (node : Node) {m : ℕ} (type : msg.type = P2PMessageType.handshake.code)
    (received : m ≤ msg.payload.length) :
    Within m node.shared.trace (listenerHandshake env sender msg n node).2.shared.trace ↔
      0 ∈ msg.payload.take m ∨ separator ∈ msg.payload.take m := by
  rw [← scan_start_lt_iff received]
  unfold listenerHandshake
  cases split : strchr msg.payload 0 separator with
  | none =>
    show Within m node.shared.trace (node.shared.trace ++ [loadField msg.payload 0]) ↔ _
    rw [within_append]
    simp
  | some bar =>
    obtain ⟨bar_eq, -⟩ := strchr_eq_some split
    have nul : (msg.payload.set bar 0)[bar]? = some 0 :=
      List.getElem?_set_self (lt_length_of_strchr split)
    have id_end : scan 0 (msg.payload.set bar 0) 0 ≤ bar :=
      scan_le (Nat.zero_le bar) nul (Or.inl rfl)
    have field_end : scan separator (msg.payload.set bar 0) 0 ≤ bar :=
      scan_le (Nat.zero_le bar) nul (Or.inl rfl)
    -- once the separator is inside, so is all that follows
    have enough : ∀ (t : List Effect) es, t = node.shared.trace ++
        ([loadField msg.payload 0, .store bar, loadStr (msg.payload.set bar 0) 0] ++ es) →
        (bar < m → ∀ e ∈ es, e.InBounds m) →
        (Within m node.shared.trace t ↔ scan separator msg.payload 0 < m) := by
      rintro t es rfl rest
      rw [within_append, List.forall_mem_append]
      simp only [List.forall_mem_cons, List.not_mem_nil, false_implies, implies_true, and_true,
        loadField_inBounds, store_inBounds, loadStr_inBounds, ← bar_eq]
      constructor
      · exact fun h => h.1.1
      · exact fun h => ⟨⟨h, h, by omega⟩, rest h⟩
    dsimp only
    cases added : addPeer env (strAt (msg.payload.set bar 0) 0) node.peers
        ((node.shared.record [loadField msg.payload 0]).record
          [.store bar, loadStr (msg.payload.set bar 0) 0]) with
    | none => exact enough _ [] (by simp) (by simp)
    | some r =>
      obtain ⟨c, sh⟩ := r
      obtain ⟨es, trace, bounded⟩ := addPeer_trace added m
      have address : (Effect.copy inetAddrStrLen sender.ip.val.length).InBounds m :=
        sender.ip.property
      dsimp only [Node.write]
      rcases processMessage_after_split env (handshakeFrom env sender c.val) n
        (sh.record [.copy inetAddrStrLen sender.ip.val.length]) type split with h | h <;> rw [h]
      · refine enough _ (es ++ [.copy inetAddrStrLen sender.ip.val.length]) (by simp [trace]) ?_
        intro _
        rw [List.forall_mem_append, List.forall_mem_singleton]
        exact ⟨bounded, address⟩
      · refine enough _ (es ++ [.copy inetAddrStrLen sender.ip.val.length,
          loadField (msg.payload.set bar 0) 0]) (by simp [trace]) ?_
        intro inside
        have parsed : (loadField (msg.payload.set bar 0) 0).InBounds m :=
          Nat.lt_of_le_of_lt field_end inside
        rw [List.forall_mem_append, List.forall_mem_cons, List.forall_mem_singleton]
        exact ⟨bounded, address, parsed⟩

/-- The accesses to a datagram of `n` bytes are in bounds exactly if, from a known address, the
message is bounded or rejected, and from an unknown one, a HANDSHAKE has a NUL or a separator in what
was received. -/
theorem receive_bounds_iff {env : Env} (keeps : env.crypto.KeepsLength) (sender : SockAddrIn)
    {buffer : Bytes} (whole : buffer.length = bufferSize) {n : ℕ} (arrived : n ≤ bufferSize)
    (accepted : headerSize ≤ n) (magic : (P2PMessage.ofBuffer buffer).magic = p2pMagic)
    (node : Node) :
    (∀ e ∈ news node (listenerReceive env sender buffer n node).2, e.InBounds (n - headerSize)) ↔
      match findAddr sender node.peers with
      | some c =>
        headerOk (P2PMessage.ofBuffer buffer) n = true →
          Bounded env c.val (P2PMessage.ofBuffer buffer) (n - headerSize)
      | none =>
        (P2PMessage.ofBuffer buffer).type = P2PMessageType.handshake.code →
          0 ∈ (P2PMessage.ofBuffer buffer).payload.take (n - headerSize) ∨
            separator ∈ (P2PMessage.ofBuffer buffer).payload.take (n - headerSize) := by
  have length : (P2PMessage.ofBuffer buffer).payload.length = bufferSize - headerSize := by
    show (buffer.drop headerSize).length = _
    rw [List.length_drop, whole]
  have received : n - headerSize ≤ (P2PMessage.ofBuffer buffer).payload.length := by omega
  show Within (n - headerSize) node.shared.trace _ ↔ _
  unfold listenerReceive
  dsimp only
  rw [if_neg (Nat.not_lt.2 accepted), if_neg (not_not.2 magic)]
  cases findAddr sender node.peers with
  | some c => exact processMessage_within_iff keeps c.val n node.shared received length
  | none =>
    dsimp only
    by_cases type : (P2PMessage.ofBuffer buffer).type = P2PMessageType.handshake.code
    · rw [if_pos type]
      simp only [type, true_implies]
      exact listenerHandshake_within_iff env sender n node type received
    · rw [if_neg type]
      exact iff_of_true (within_refl _ _) fun h => absurd h type

/-! ## A terminator outside the buffer -/

/-- An ADD_REQUEST that fills the receive buffer and claims a payload of 2^32 - 1 bytes. -/
def overlongRequest : Bytes :=
  ({ P2PMessage.make 0 .addRequest [] with payloadLen := 4294967295 } : P2PMessage).toBytes ++
    List.replicate 4076 98

theorem length_overlongRequest : overlongRequest.length = bufferSize := by
  unfold overlongRequest
  rw [List.length_append, List.length_replicate]
  rfl

theorem reachesBob_keepsLength : reachesBob.crypto.KeepsLength := by
  intro _ _ _ _ _ h
  cases h

theorem receive_bounds_iff_overlong :
    (∀ e ∈ news bobConnected (listenerReceive reachesBob bobAddr overlongRequest 4096 bobConnected).2,
        e.InBounds (4096 - headerSize)) ↔
      match findAddr bobAddr bobConnected.peers with
      | some c =>
        headerOk (P2PMessage.ofBuffer overlongRequest) 4096 = true →
          Bounded reachesBob c.val (P2PMessage.ofBuffer overlongRequest) (4096 - headerSize)
      | none =>
        (P2PMessage.ofBuffer overlongRequest).type = P2PMessageType.handshake.code →
          0 ∈ (P2PMessage.ofBuffer overlongRequest).payload.take (4096 - headerSize) ∨
            separator ∈ (P2PMessage.ofBuffer overlongRequest).payload.take (4096 - headerSize) :=
  receive_bounds_iff reachesBob_keepsLength bobAddr length_overlongRequest (by decide) (by decide)
    (by decide) bobConnected

/-- The terminator of that request is stored 4 GiB behind the payload. -/
theorem terminator_outside_buffer :
    overlongRequest.length = bufferSize ∧
      Effect.terminate 4294967295 ∈
        news bobConnected (listenerReceive reachesBob bobAddr overlongRequest 4096 bobConnected).2 ∧
      ¬ (Effect.terminate 4294967295).InBounds (4096 - headerSize) := by
  refine ⟨length_overlongRequest, ?_, ?_⟩
  · decide
  · rw [terminate_inBounds]
    decide

end Orcashi
