import Orcashi.Relay.SessionTable

/-!
# Who a relay handshake is for and from

`relay_connect` writes the id of its target, the number of its session and its own id into a text with
colons between.  The listener splits the text at the colons and makes a session of what it finds.
-/

namespace Orcashi

open CMemory Stdio

/-! ## The text -/

theorem zero_not_mem_digits (n : ℕ) : 0 ∉ digits n := fun h =>
  absurd (isDigit_of_mem_digits h) (by decide)

theorem colon_not_mem_digits (n : ℕ) : 58 ∉ digits n := fun h =>
  absurd (isDigit_of_mem_digits h) (by decide)

theorem length_decimal_u32 (x : UInt32) : (decimal x.toNat).length ≤ 10 := by
  have small := x.toNat_lt
  exact length_digits_lt (by decide) (by omega)

/-- The text is never cut. -/
theorem relayHandshakeText_eq {peerId myId : CString} (sid : UInt32)
    (hp : peerId.length < idSize) (hm : myId.length < idSize) :
    relayHandshakeText peerId sid myId =
      ascii "RELAY_HANDSHAKE" ++ 58 :: (peerId ++ 58 :: (decimal sid.toNat ++ 58 :: myId)) := by
  have number := length_decimal_u32 sid
  have tag : (ascii "RELAY_HANDSHAKE").length = 15 := by decide
  unfold idSize at hp hm
  unfold relayHandshakeText cut
  refine List.take_of_length_le ?_
  simp only [List.length_append, List.length_cons]
  omega

theorem length_relayHandshakeText {peerId myId : CString} (sid : UInt32)
    (hp : peerId.length < idSize) (hm : myId.length < idSize) :
    (relayHandshakeText peerId sid myId).length =
      18 + (peerId.length + (decimal sid.toNat).length + myId.length) := by
  have tag : (ascii "RELAY_HANDSHAKE").length = 15 := by decide
  rw [relayHandshakeText_eq sid hp hm]
  simp only [List.length_append, List.length_cons]
  omega

/-- The ids the listener reads have no colon. -/
theorem colon_not_mem_of_parse {mem : Bytes} {h : RelayHandshake}
    (parsed : relayParseHandshake mem = some (some h)) :
    58 ∉ h.targetId.val ∧ 58 ∉ h.fromId.val := by
  unfold relayParseHandshake at parsed
  split at parsed
  · cases parsed
  · cases parsed
  split at parsed
  · cases parsed
  split at parsed
  · cases parsed
  · cases parsed
  rename_i peerId _ target
  obtain ⟨targetId, copied, parsed⟩ := Option.bind_eq_some_iff.1 parsed
  split at parsed
  · cases parsed
  · cases parsed
  split at parsed
  · cases parsed
  · cases parsed
  rename_i from_ _ initiator
  obtain ⟨fromId, copied', parsed⟩ := Option.bind_eq_some_iff.1 parsed
  cases parsed
  rw [← IdText.copy_eq_some_iff.1 copied, ← IdText.copy_eq_some_iff.1 copied']
  exact ⟨(of_strtok_eq_some target).2.1, (of_strtok_eq_some initiator).2.1⟩

/-- The first three tokens of a text without further colons. -/
theorem relayParseHandshake_text {targetId : IdText} {myId : CString} (sid : UInt32)
    (ne : targetId.val ≠ []) (noColon : 58 ∉ targetId.val) (noNul : 0 ∉ targetId.val) (stale : Bytes) :
    relayParseHandshake (ascii "RELAY_HANDSHAKE" ++ 58 ::
        (targetId.val ++ 58 :: (decimal sid.toNat ++ 58 :: (myId ++ stale)))) =
      match strtok 58 (myId ++ stale) with
      | .outside => none
      | .none => some none
      | .some from_ _ => (IdText.copy from_).map fun fromId => some ⟨targetId, sid, fromId⟩ := by
  have printed : decimal sid.toNat = digits sid.toNat := rfl
  have tag (mem : Bytes) : strtok 58 (ascii "RELAY_HANDSHAKE" ++ 58 :: mem) =
      .some (ascii "RELAY_HANDSHAKE") mem :=
    strtok_append_sep (by decide) (by decide) (by decide) (by decide) mem
  have target (mem : Bytes) : strtok 58 (targetId.val ++ 58 :: mem) = .some targetId.val mem :=
    strtok_append_sep (by decide) ne noColon noNul mem
  have number (mem : Bytes) : strtok 58 (decimal sid.toNat ++ 58 :: mem) =
      .some (decimal sid.toNat) mem :=
    strtok_append_sep (by decide) (digits_ne_nil _) (colon_not_mem_digits _) (zero_not_mem_digits _) mem
  unfold relayParseHandshake
  rw [tag]
  dsimp only
  rw [if_neg (not_not_intro rfl), target]
  dsimp only
  rw [IdText.copy_val, Option.bind_eq_bind, Option.bind_some, number]
  dsimp only
  rw [ofInt_atoi_decimal]
  cases strtok 58 (myId ++ stale) with
  | outside => rfl
  | none => rfl
  | some from_ rest =>
    dsimp only
    cases IdText.copy from_ <;> rfl

/-- The listener reads the ids and the number back exactly if the ids have no colon and a colon or a
NUL follows. -/
theorem relayParseHandshake_iff {targetId myId : IdText} (sid : UInt32) (neTarget : targetId.val ≠ [])
    (neMine : myId.val ≠ []) (noNulTarget : 0 ∉ targetId.val) (noNulMine : 0 ∉ myId.val)
    (stale : Bytes) :
    relayParseHandshake (relayHandshakeText targetId.val sid myId.val ++ stale) =
        some (some ⟨targetId, sid, myId⟩) ↔
      58 ∉ targetId.val ∧ 58 ∉ myId.val ∧ (stale.head? = some 58 ∨ stale.head? = some 0) := by
  have text : relayHandshakeText targetId.val sid myId.val ++ stale = ascii "RELAY_HANDSHAKE" ++ 58 ::
      (targetId.val ++ 58 :: (decimal sid.toNat ++ 58 :: (myId.val ++ stale))) := by
    rw [relayHandshakeText_eq sid targetId.property myId.property]
    simp only [List.append_assoc, List.cons_append]
  constructor
  · intro parsed
    obtain ⟨noTarget, noMine⟩ := colon_not_mem_of_parse parsed
    refine ⟨noTarget, noMine, (exists_strtok_append_iff neMine noMine noNulMine stale).1 ?_⟩
    rw [text, relayParseHandshake_text sid neTarget noTarget noNulTarget] at parsed
    cases token : strtok 58 (myId.val ++ stale) with
    | outside =>
      rw [token] at parsed
      cases parsed
    | none =>
      rw [token] at parsed
      cases parsed
    | some from_ rest =>
      rw [token] at parsed
      obtain ⟨fromId, copied, same⟩ := Option.map_eq_some_iff.1 parsed
      cases same
      exact ⟨rest, by rw [IdText.copy_eq_some_iff.1 copied]⟩
  · rintro ⟨noTarget, noMine, ends⟩
    obtain ⟨rest, token⟩ := (exists_strtok_append_iff neMine noMine noNulMine stale).2 ends
    rw [text, relayParseHandshake_text sid neTarget noTarget noNulTarget, token]
    dsimp only
    rw [IdText.copy_val, Option.map_some]

/-! ## The initiator's end -/

/-- The number `relay_connect` gives the session. -/
def relayNumberFor (env : RelayEnv) (peerId : CString) (mgr : RelayManager) : UInt32 :=
  match relayFindSession peerId mgr with
  | some c => c.val.sessionId
  | none => relayDrawSessionId env

/-- A search finds the session that was added or changed. -/
theorem relayFindSession_write {peerId : CString} {mgr : RelayManager} {c : Cursor RelaySession}
    (before : ∀ s ∈ c.before, (s.peerId.val == peerId) = false) {s : RelaySession}
    (same : s.peerId.val = peerId) :
    relayFindSession peerId (mgr.write c s) = some (c.set s) := by
  unfold relayFindSession RelayManager.write
  exact Cursor.find_toList (beq_iff_eq.2 same) before

/-- When `relay_connect` goes on to wait, its handshake names the session a search for the peer
finds. -/
theorem relayConnect_waiting {env : RelayEnv} {peerId : CString} {relayId : Option CString}
    {relayIp : CString} {relayPort : ℤ} {mgr mgr' : RelayManager} {slot : ℕ} {datagram : Bytes}
    {target : SockAddrIn}
    (h : relayConnect env peerId relayId relayIp relayPort mgr =
      some (.waiting slot datagram target mgr')) :
    datagram = relayHandshakeText peerId (relayNumberFor env peerId mgr) (relayOwnId env mgr) ∧
      ∃ c, relayFindSession peerId mgr' = some c ∧ slot = c.before.length ∧
        c.val.sessionId = relayNumberFor env peerId mgr := by
  have started (c : Cursor RelaySession) (before : ∀ s ∈ c.before, (s.peerId.val == peerId) = false)
      (same : c.val.peerId.val = peerId) (number : c.val.sessionId = relayNumberFor env peerId mgr)
      (h : relayStartDial env peerId relayId relayIp relayPort mgr c =
        some (.waiting slot datagram target mgr')) :
      datagram = relayHandshakeText peerId (relayNumberFor env peerId mgr) (relayOwnId env mgr) ∧
        ∃ c, relayFindSession peerId mgr' = some c ∧ slot = c.before.length ∧
          c.val.sessionId = relayNumberFor env peerId mgr := by
    unfold relayStartDial at h
    obtain ⟨s, copied, h⟩ := Option.bind_eq_some_iff.1 h
    obtain ⟨ip, -, h⟩ := Option.bind_eq_some_iff.1 h
    cases h
    have key : s.peerId = c.val.peerId ∧ s.sessionId = c.val.sessionId := by
      rcases copyRelayId_cases relayId { c.val with state := .connecting } with ⟨h, -⟩ | ⟨id, h, -⟩
      · rw [h] at copied
        cases copied
      · rw [h] at copied
        cases copied
        exact ⟨rfl, rfl⟩
    rw [key.2, number]
    refine ⟨rfl, _, relayFindSession_write before ?_, rfl, rfl⟩
    show s.peerId.val = peerId
    rw [key.1, same]
  unfold relayConnect at h
  split at h
  · cases h
  rcases relayFindOrAdd_cases env peerId mgr with ⟨c, found, begun, -⟩ | ⟨-, -, begun, -⟩ |
    ⟨-, -, -, begun⟩ | ⟨id, absent, room, fits, begun, added⟩
  · rw [begun] at h
    dsimp only at h
    split at h
    · cases h
    have number : c.val.sessionId = relayNumberFor env peerId mgr := by
      unfold relayNumberFor
      rw [found]
    obtain ⟨-, named, before⟩ := Cursor.find_eq_some found
    exact started c before (beq_iff_eq.1 named) number h
  · rw [begun] at h
    cases h
  · rw [begun] at h
    cases h
  · rw [begun] at h
    dsimp only at h
    split at h
    · cases h
    have number : (RelaySession.fresh env id).sessionId = relayNumberFor env peerId mgr := by
      unfold relayNumberFor
      rw [absent]
      rfl
    have named : id.val = peerId := by
      unfold addedByCall at added
      split_ifs at added
      obtain ⟨id', copied, same⟩ := Option.map_eq_some_iff.1 added
      rw [← (Prod.mk.inj same).1]
      exact (IdText.copy_eq_some_iff.1 copied).symm
    exact started ⟨mgr.sessions, .fresh env id, []⟩ (Cursor.find_eq_none_iff.1 absent) named number h

/-! ## The target's end -/

/-- The listener takes the handshake, which it says with an answer, and makes a session for the id of it,
of this number and behind this address: one it adds where there is none, else the one there is.  All other
sessions stay what they are. -/
def MakesEnd (id : CString) (sid : UInt32) (sender : SockAddrIn) (mgr : RelayManager)
    (heard : RelayHeard) : Prop :=
  heard.answer.isSome ∧ ∃ c, relayFindSession id heard.mgr = some c ∧ c.val.sessionId = sid ∧
    c.val.ip = sender.ip ∧ c.val.port = sender.port ∧
      (relayFindSession id mgr = none ∧ mgr.sessions = c.before ++ c.after ∨
        ∃ s, relayFindSession id mgr = some (c.set s))

/-- The listener makes the session of the target's own id. -/
theorem makesEnd_takeHandshake_iff (env : RelayEnv) (sender : SockAddrIn) (h : RelayHandshake)
    (mgr : RelayManager) :
    MakesEnd h.fromId.val h.sessionId sender mgr (relayTakeHandshake env sender h mgr) ↔
      h.targetId = h.fromId ∧ relayFindSession h.fromId.val mgr = none ∧
        mgr.sessions.length < relayMaxPeers := by
  unfold relayTakeHandshake relayAddSession
  by_cases full : relayMaxPeers ≤ mgr.sessions.length
  · rw [if_pos full]
    refine iff_of_false ?_ fun room => absurd full (Nat.not_le.2 room.2.2)
    rintro ⟨answered, -⟩
    cases answered
  · rw [if_neg full]
    have room := Nat.lt_of_not_le full
    dsimp only
    generalize hs : (RelaySession.fresh env h.targetId).accepted env sender h = s
    have named : (s.peerId.val == h.fromId.val) = true ↔ h.targetId = h.fromId := by
      rw [beq_iff_eq, ← hs]
      exact Subtype.ext_iff.symm
    have table : relayFindSession h.fromId.val
        (mgr.write ⟨mgr.sessions, .fresh env h.targetId, []⟩ s) =
          Cursor.find (fun s => s.peerId.val == h.fromId.val) (mgr.sessions ++ [s]) := rfl
    unfold MakesEnd
    rw [table, Cursor.find_concat]
    constructor
    · rintro ⟨-, c, found, -, -, -, ⟨absent, -⟩ | ⟨old, there⟩⟩
      · have absent' : Cursor.find (fun s => s.peerId.val == h.fromId.val) mgr.sessions = none := absent
        rw [absent'] at found
        dsimp only at found
        split_ifs at found with same
        exact ⟨named.1 same, absent, room⟩
      · -- a session that was there stays, and one more is added
        have there' : Cursor.find (fun s => s.peerId.val == h.fromId.val) mgr.sessions =
            some (c.set old) := there
        rw [there'] at found
        have after := congrArg (fun c => c.after.length) (Option.some.inj found)
        dsimp only at after
        rw [List.length_append, Cursor.set_after, List.length_singleton] at after
        omega
    · rintro ⟨same, absent, -⟩
      have absent' : Cursor.find (fun s => s.peerId.val == h.fromId.val) mgr.sessions = none := absent
      rw [absent']
      dsimp only
      rw [if_pos (named.2 same)]
      refine ⟨rfl, _, rfl, ?_, ?_, ?_, Or.inl ⟨absent, (List.append_nil _).symm⟩⟩ <;> rw [← hs] <;> rfl

/-- A datagram of `relay_connect` is taken for a handshake exactly if it has the size of a packet. -/
theorem relayDispatch_text {peerId myId : CString} (sid : UInt32) (hp : peerId.length < idSize)
    (hm : myId.length < idSize) (stale : Bytes) (mgr : RelayManager) :
    relayDispatch (relayHandshakeText peerId sid myId ++ stale)
        (relayHandshakeText peerId sid myId).length mgr =
      if 6 ≤ peerId.length + (decimal sid.toNat).length + myId.length then
        .handshake (relayHandshakeText peerId sid myId ++ stale)
      else .ignored := by
  have size := length_relayHandshakeText sid hp hm
  unfold relayDispatch
  dsimp only
  by_cases long : 6 ≤ peerId.length + (decimal sid.toNat).length + myId.length
  · have packet : ¬ (relayHandshakeText peerId sid myId).length < relayPacketSize := by
      rw [size]
      unfold relayPacketSize
      omega
    have noMagic (mem : Bytes) :
        (RelayPacket.ofBuffer (ascii "RELAY_HANDSHAKE" ++ mem)).magic ≠ relayMagic :=
      show readLe32 (ascii "RELA") 0 ≠ relayMagic by decide
    rw [if_pos long, if_neg packet, relayHandshakeText_eq sid hp hm, List.append_assoc,
      if_neg (noMagic _)]
    exact if_pos rfl
  · have short : (relayHandshakeText peerId sid myId).length < relayPacketSize := by
      rw [size]
      unfold relayPacketSize
      omega
    rw [if_neg long, if_pos short]

/-! ## Both ends -/

/-- A search for the peer finds the session at the initiator; the listener takes the datagram for a
handshake with the ids and the number it was made of, and makes the session that a search for the
initiator finds at the target. -/
def Addressed (env : RelayEnv) (sender : SockAddrIn) (stale : Bytes) (peerId ownId : CString)
    (sid : UInt32) (datagram : Bytes) (initiator target : RelayManager) : Prop :=
  (∃ c, relayFindSession peerId initiator = some c ∧ c.val.sessionId = sid) ∧
    ∃ heard h, relayListen env sender (datagram ++ stale) datagram.length target = some heard ∧
      heard.handshake = some h ∧ h.targetId.val = peerId ∧ h.sessionId = sid ∧
      h.fromId.val = ownId ∧ MakesEnd ownId sid sender target heard

/-- The datagram has the size of a packet, neither id has a colon, a colon or a NUL lies behind the
datagram, and the initiator has the id of the target, which has no session for it and can take one. -/
def AddressedWhen (stale : Bytes) (peerId ownId : CString) (sid : UInt32) (target : RelayManager) :
    Prop :=
  6 ≤ peerId.length + (decimal sid.toNat).length + ownId.length ∧ 58 ∉ peerId ∧ 58 ∉ ownId ∧
    (stale.head? = some 58 ∨ stale.head? = some 0) ∧
    peerId = ownId ∧ relayFindSession ownId target = none ∧ target.sessions.length < relayMaxPeers

/-- What the listener does with the handshake of `relay_connect`. -/
theorem relayListen_text_iff (env : RelayEnv) (sender : SockAddrIn) {peerId myId : IdText} (sid : UInt32)
    (neTarget : peerId.val ≠ []) (neMine : myId.val ≠ []) (noNulTarget : 0 ∉ peerId.val)
    (noNulMine : 0 ∉ myId.val) (stale : Bytes) (target : RelayManager) :
    (∃ heard h, relayListen env sender (relayHandshakeText peerId.val sid myId.val ++ stale)
        (relayHandshakeText peerId.val sid myId.val).length target = some heard ∧
      heard.handshake = some h ∧ h.targetId.val = peerId.val ∧ h.sessionId = sid ∧
      h.fromId.val = myId.val ∧ MakesEnd myId.val sid sender target heard) ↔
    AddressedWhen stale peerId.val myId.val sid target := by
  have dispatched := relayDispatch_text sid peerId.property myId.property stale target
  have parses := relayParseHandshake_iff sid neTarget neMine noNulTarget noNulMine stale
  have ends := makesEnd_takeHandshake_iff env sender ⟨peerId, sid, myId⟩ target
  have ids : peerId = myId ↔ peerId.val = myId.val := Subtype.ext_iff
  unfold relayListen AddressedWhen
  rw [dispatched]
  by_cases long : 6 ≤ peerId.val.length + (decimal sid.toNat).length + myId.val.length
  · rw [if_pos long, and_iff_right long, ← ids]
    dsimp only at ends ⊢
    constructor
    · rintro ⟨heard, h, heardIt, read, target_, number, initiator, found⟩
      obtain ⟨parsed, isParsed, heardIt⟩ := Option.map_eq_some_iff.1 heardIt
      cases parsed with
      | none =>
        cases heardIt
        cases read
      | some h' =>
        have same : h' = ⟨peerId, sid, myId⟩ := by
          have kept : heard.handshake = some h' := by
            rw [← heardIt]
            dsimp only
            unfold relayTakeHandshake
            split <;> rfl
          obtain rfl := Option.some.inj (kept.symm.trans read)
          obtain ⟨targetId, sessionId, fromId⟩ := h'
          obtain rfl := Subtype.ext target_
          obtain rfl := Subtype.ext initiator
          obtain rfl := number
          rfl
        rw [same] at isParsed heardIt
        obtain ⟨noTarget, noMine, after⟩ := parses.1 isParsed
        refine ⟨noTarget, noMine, after, ends.1 ?_⟩
        rw [← heardIt] at found
        exact found
    · rintro ⟨noTarget, noMine, after, makesEnd⟩
      rw [parses.2 ⟨noTarget, noMine, after⟩]
      refine ⟨_, ⟨peerId, sid, myId⟩, rfl, ?_, rfl, rfl, rfl, ends.2 makesEnd⟩
      dsimp only
      unfold relayTakeHandshake
      split <;> rfl
  · rw [if_neg long]
    refine iff_of_false ?_ fun h => long h.1
    rintro ⟨heard, h, heardIt, read, -⟩
    cases heardIt
    cases read

/-- The datagram of `relay_connect` sets up the other end of its session exactly where `AddressedWhen`
holds. -/
theorem relay_addressed_iff {env : RelayEnv} {peerId : CString} {relayId : Option CString}
    {relayIp : CString} {relayPort : ℤ} {initiator initiator' : RelayManager} {slot : ℕ}
    {datagram : Bytes} {address : SockAddrIn}
    (dialled : relayConnect env peerId relayId relayIp relayPort initiator =
      some (.waiting slot datagram address initiator'))
    (neTarget : peerId ≠ []) (fitsTarget : peerId.length < idSize) (noNulTarget : 0 ∉ peerId)
    (neOwn : relayOwnId env initiator ≠ []) (fitsOwn : (relayOwnId env initiator).length < idSize)
    (noNulOwn : 0 ∉ relayOwnId env initiator) (env' : RelayEnv) (sender : SockAddrIn) (stale : Bytes)
    (target : RelayManager) :
    Addressed env' sender stale peerId (relayOwnId env initiator) (relayNumberFor env peerId initiator)
        datagram initiator' target ↔
      AddressedWhen stale peerId (relayOwnId env initiator) (relayNumberFor env peerId initiator)
        target := by
  obtain ⟨rfl, c, found, -, number⟩ := relayConnect_waiting dialled
  rw [Addressed, and_iff_right ⟨c, found, number⟩]
  exact @relayListen_text_iff env' sender ⟨peerId, fitsTarget⟩ ⟨relayOwnId env initiator, fitsOwn⟩ _
    neTarget neOwn noNulTarget noNulOwn stale target

/-- A session that carries the id of both ends. -/
theorem relay_addressed_to_itself :
    ∃ slot datagram address initiator,
      relayConnect .failing (ascii "alice") none (ascii "192.0.2.1") 9000
          (.init ⟨ascii "alice", by decide⟩ 3) = some (.waiting slot datagram address initiator) ∧
        Addressed .failing ⟨(192, 0, 2, 7), 9000⟩ [0] (ascii "alice") (ascii "alice") 0 datagram
          initiator (.init ⟨ascii "alice", by decide⟩ 4) := by
  refine ⟨_, _, _, _, rfl, ?_⟩
  refine (@relay_addressed_iff .failing (ascii "alice") none (ascii "192.0.2.1") 9000
    (.init ⟨ascii "alice", by decide⟩ 3) _ _ _ _ rfl (by decide) (by decide) (by decide) (by decide)
    (by decide) (by decide) .failing ⟨(192, 0, 2, 7), 9000⟩ [0]
    (.init ⟨ascii "alice", by decide⟩ 4)).2 ?_
  exact ⟨by decide, by decide, by decide, Or.inr rfl, rfl, rfl, by decide⟩

/-- Alice makes a session for Alice of the handshake that Bob sends her. -/
theorem relay_handshake_keyed_by_target :
    ∃ slot datagram address initiator,
      relayConnect .failing (ascii "alice") none (ascii "192.0.2.1") 9000
          (.init ⟨ascii "bob", by decide⟩ 3) = some (.waiting slot datagram address initiator) ∧
        ¬ Addressed .failing ⟨(192, 0, 2, 7), 9000⟩ [0] (ascii "alice") (ascii "bob") 0 datagram
          initiator (.init ⟨ascii "alice", by decide⟩ 4) := by
  refine ⟨_, _, _, _, rfl, ?_⟩
  rintro ⟨-, listened⟩
  obtain ⟨-, -, -, -, same, -⟩ :=
    (@relayListen_text_iff .failing ⟨(192, 0, 2, 7), 9000⟩ ⟨ascii "alice", by decide⟩
      ⟨ascii "bob", by decide⟩ 0 (by decide) (by decide) (by decide) (by decide) [0]
      (.init ⟨ascii "alice", by decide⟩ 4)).1 listened
  exact absurd same (by decide)

end Orcashi
