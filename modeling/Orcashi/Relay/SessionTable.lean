import Mathlib.Data.List.Nodup
import Orcashi.Lib.History
import Orcashi.Relay.Manager

/-!
# The table of relay sessions

Both lookups of a session, by the id of the peer and by the number of the session, take the first that
fits.  Here is what each call does to these two keys of the table, and which calls keep them unique.
-/

namespace Orcashi

open CMemory History

/-! ## Keys -/

/-- What a session is looked up by. -/
def RelaySession.key (s : RelaySession) : IdText × UInt32 := (s.peerId, s.sessionId)

/-- What the sessions are told apart by. -/
def RelayManager.keys (mgr : RelayManager) : List (IdText × UInt32) :=
  mgr.sessions.map RelaySession.key

/-- No two sessions share an id or a number, and there are at most `RELAY_MAX_PEERS`. -/
structure TidyKeys (keys : List (IdText × UInt32)) : Prop where
  ids : (keys.map Prod.fst).Nodup
  numbers : (keys.map Prod.snd).Nodup
  room : keys.length ≤ relayMaxPeers

/-- Neither the id nor the number is in the table. -/
def Unused (keys : List (IdText × UInt32)) (k : IdText × UInt32) : Prop :=
  k.1 ∉ keys.map Prod.fst ∧ k.2 ∉ keys.map Prod.snd

theorem tidyKeys_nil : TidyKeys [] := ⟨List.nodup_nil, List.nodup_nil, Nat.zero_le _⟩

theorem TidyKeys.sublist {keys keys' : List (IdText × UInt32)} (h : TidyKeys keys)
    (sub : keys'.Sublist keys) : TidyKeys keys' :=
  ⟨(sub.map Prod.fst).nodup h.ids, (sub.map Prod.snd).nodup h.numbers,
    sub.length_le.trans h.room⟩

/-- A new entry keeps the table tidy exactly if its keys are unused. -/
theorem TidyKeys.concat_iff {keys : List (IdText × UInt32)} (h : TidyKeys keys)
    (room : keys.length < relayMaxPeers) (k : IdText × UInt32) :
    TidyKeys (keys ++ [k]) ↔ Unused keys k := by
  have unique {α : Type} {l : List α} (nodup : l.Nodup) (a : α) : (l ++ [a]).Nodup ↔ a ∉ l := by
    rw [List.nodup_append]
    constructor
    · rintro ⟨-, -, apart⟩ mem
      exact apart a mem a (List.mem_singleton_self a) rfl
    · intro new
      refine ⟨nodup, List.nodup_singleton a, ?_⟩
      rintro b hb c hc rfl
      rw [List.mem_singleton.1 hc] at hb
      exact new hb
  constructor
  · rintro ⟨ids, numbers, -⟩
    rw [List.map_append] at ids numbers
    exact ⟨(unique h.ids _).1 ids, (unique h.numbers _).1 numbers⟩
  · rintro ⟨id, number⟩
    refine ⟨?_, ?_, ?_⟩
    · rw [List.map_append]
      exact (unique h.ids _).2 id
    · rw [List.map_append]
      exact (unique h.numbers _).2 number
    · rw [List.length_append]
      exact room

/-! ## Calls -/

/-- A step of the manager: a call, or a pass of the listener on the `n` bytes at the front of its
buffer.  `relay_connect` is two steps, since it waits without the lock. -/
inductive RelayCall where
  | connect (peerId : CString) (relayId : Option CString) (relayIp : CString) (relayPort : ℤ)
  | connectEnd (slot : ℕ) (received : Option Bytes)
  | accept (peerId : CString) (relayId : Option CString)
  | disconnect (peerId : CString)
  | listen (sender : SockAddrIn) (buffer : Bytes) (n : ℕ)

/-- The manager after it. -/
def RelayDial.mgr : RelayDial → RelayManager
  | .returned _ mgr => mgr
  | .waiting _ _ _ mgr => mgr

/-- The manager after a call, if no step of it is undefined. -/
def relayExec (env : RelayEnv) (mgr : RelayManager) : RelayCall → Option RelayManager
  | .connect peerId relayId relayIp relayPort =>
    (relayConnect env peerId relayId relayIp relayPort mgr).map RelayDial.mgr
  | .connectEnd slot received => some (relayConnectEnd env slot received mgr).2
  | .accept peerId relayId => (relayAccept env peerId relayId mgr).map Prod.snd
  | .disconnect peerId => some (relayDisconnect peerId mgr).2
  | .listen sender buffer n => (relayListen env sender buffer n mgr).map RelayHeard.mgr

/-- After an undefined step nothing is defined. -/
def relayStep (state : Option RelayManager) (l : RelayEnv × RelayCall) : Option RelayManager :=
  state.bind fun mgr => relayExec l.1 mgr l.2

/-- The handshake the listener reads in its buffer. -/
def heardHandshake (buffer : Bytes) (n : ℕ) (mgr : RelayManager) : Option RelayHandshake :=
  match relayDispatch buffer n mgr with
  | .handshake mem => (relayParseHandshake mem).join
  | _ => none

/-- The texts fit the arrays of a session. -/
def RelayTextsFit (relayId : Option CString) (relayIp : CString) : Prop :=
  (∀ text ∈ relayId, text.length < idSize) ∧ relayIp.length < inetAddrStrLen

/-- What `relay_connect` copies into the session fits. -/
def ConnectFits (peerId : CString) (relayId : Option CString) (relayIp : CString) (relayPort : ℤ)
    (mgr : RelayManager) : Prop :=
  0 < relayPort →
    match relayFindSession peerId mgr with
    | some c => c.val.state ≠ .established → RelayTextsFit relayId relayIp
    | none =>
      mgr.sessions.length < relayMaxPeers → peerId.length < idSize ∧ RelayTextsFit relayId relayIp

/-- What `relay_accept` copies into the session fits. -/
def AcceptFits (peerId : CString) (relayId : Option CString) (mgr : RelayManager) : Prop :=
  match relayFindSession peerId mgr with
  | some _ => ∀ text ∈ relayId, text.length < idSize
  | none =>
    mgr.sessions.length < relayMaxPeers →
      peerId.length < idSize ∧ ∀ text ∈ relayId, text.length < idSize

/-- The ids of a handshake fit, and it ends within the memory. -/
def ListenFits (buffer : Bytes) (n : ℕ) (mgr : RelayManager) : Prop :=
  ∀ mem, relayDispatch buffer n mgr = .handshake mem → relayParseHandshake mem ≠ none

/-- What a call copies into a session fits. -/
def RelayCall.Fits (mgr : RelayManager) : RelayCall → Prop
  | connect peerId relayId relayIp relayPort => ConnectFits peerId relayId relayIp relayPort mgr
  | accept peerId relayId => AcceptFits peerId relayId mgr
  | listen _ buffer n => ListenFits buffer n mgr
  | connectEnd _ _ => True
  | disconnect _ => True

/-- The keys of the session that `relay_connect` and `relay_accept` add. -/
def addedByCall (env : RelayEnv) (peerId : CString) (mgr : RelayManager) : Option (IdText × UInt32) :=
  if relayMaxPeers ≤ mgr.sessions.length ∨ (relayFindSession peerId mgr).isSome then none
  else (IdText.copy peerId).map fun id => (id, relayDrawSessionId env)

/-- The keys of the session a handshake adds. -/
def addedByHandshake (buffer : Bytes) (n : ℕ) (mgr : RelayManager) : Option (IdText × UInt32) :=
  if relayMaxPeers ≤ mgr.sessions.length then none
  else (heardHandshake buffer n mgr).map fun h => (h.targetId, h.sessionId)

/-- The keys of the session a call adds. -/
def RelayCall.added (env : RelayEnv) (mgr : RelayManager) : RelayCall → Option (IdText × UInt32)
  | connect peerId _ _ relayPort => if relayPort ≤ 0 then none else addedByCall env peerId mgr
  | accept peerId _ => addedByCall env peerId mgr
  | listen _ buffer n => addedByHandshake buffer n mgr
  | connectEnd _ _ => none
  | disconnect _ => none

/-! ## What a call does to the keys -/

/-- The keys are those there were, fewer, or one more where there was room. -/
def KeysAfter (added : Option (IdText × UInt32)) (mgr mgr' : RelayManager) : Prop :=
  match added with
  | none => mgr'.keys.Sublist mgr.keys
  | some k => mgr.sessions.length < relayMaxPeers ∧ mgr'.keys = mgr.keys ++ [k]

theorem keysAfter_of_eq {mgr mgr' : RelayManager} (same : mgr'.keys = mgr.keys) :
    KeysAfter none mgr mgr' := by
  rw [KeysAfter, same]

theorem keys_write {mgr : RelayManager} {c : Cursor RelaySession} (table : c.toList = mgr.sessions)
    {s : RelaySession} (same : s.key = c.val.key) : (mgr.write c s).keys = mgr.keys := by
  unfold RelayManager.keys RelayManager.write
  rw [Cursor.map_toList_set same, table]

theorem keys_write_new {mgr : RelayManager} (fresh s : RelaySession) :
    (mgr.write ⟨mgr.sessions, fresh, []⟩ s).keys = mgr.keys ++ [s.key] := by
  unfold RelayManager.keys RelayManager.write Cursor.toList Cursor.set
  rw [List.map_append]
  rfl

/-- How `relay_connect` and `relay_accept` begin. -/
theorem relayFindOrAdd_cases (env : RelayEnv) (peerId : CString) (mgr : RelayManager) :
    (∃ c, relayFindSession peerId mgr = some c ∧ relayFindOrAdd env peerId mgr = some (some c) ∧
      addedByCall env peerId mgr = none) ∨
    (relayFindSession peerId mgr = none ∧ relayMaxPeers ≤ mgr.sessions.length ∧
      relayFindOrAdd env peerId mgr = some none ∧ addedByCall env peerId mgr = none) ∨
    (relayFindSession peerId mgr = none ∧ mgr.sessions.length < relayMaxPeers ∧
      idSize ≤ peerId.length ∧ relayFindOrAdd env peerId mgr = none) ∨
    ∃ id : IdText, relayFindSession peerId mgr = none ∧ mgr.sessions.length < relayMaxPeers ∧
      peerId.length < idSize ∧
      relayFindOrAdd env peerId mgr = some (some ⟨mgr.sessions, .fresh env id, []⟩) ∧
      addedByCall env peerId mgr = some (id, relayDrawSessionId env) := by
  unfold relayFindOrAdd addedByCall
  cases found : relayFindSession peerId mgr with
  | some c => exact Or.inl ⟨c, rfl, rfl, by simp⟩
  | none =>
    dsimp only
    by_cases full : relayMaxPeers ≤ mgr.sessions.length
    · rw [if_pos full, if_pos (Or.inl full)]
      exact Or.inr (Or.inl ⟨rfl, full, rfl, rfl⟩)
    · have room := Nat.lt_of_not_le full
      have noneFound : ¬ (relayMaxPeers ≤ mgr.sessions.length ∨
          (none : Option (Cursor RelaySession)).isSome = true) := by simp [room]
      have added (id : IdText) : relayAddSession env id mgr =
          some ⟨mgr.sessions, .fresh env id, []⟩ := if_neg full
      rw [if_neg full, if_neg noneFound]
      unfold IdText.copy
      by_cases fits : peerId.length < idSize
      · rw [dif_pos fits]
        exact Or.inr (Or.inr (Or.inr
          ⟨⟨peerId, fits⟩, rfl, room, fits, congrArg some (added _), rfl⟩))
      · rw [dif_neg fits]
        exact Or.inr (Or.inr (Or.inl ⟨rfl, room, Nat.le_of_not_lt fits, rfl⟩))

theorem copyRelayId_cases (relayId : Option CString) (s : RelaySession) :
    (copyRelayId relayId s = none ∧ ¬ ∀ text ∈ relayId, text.length < idSize) ∨
    ∃ id, copyRelayId relayId s = some { s with relayId := id } ∧
      ∀ text ∈ relayId, text.length < idSize := by
  unfold copyRelayId IdText.copy
  cases relayId with
  | none => exact Or.inr ⟨s.relayId, rfl, by simp⟩
  | some text =>
    dsimp only
    by_cases fits : text.length < idSize
    · rw [dif_pos fits]
      exact Or.inr ⟨⟨text, fits⟩, rfl, by simpa using fits⟩
    · rw [dif_neg fits]
      exact Or.inl ⟨rfl, by simpa using fits⟩

theorem relayStartDial_keys (env : RelayEnv) (peerId : CString) (relayId : Option CString)
    (relayIp : CString) (relayPort : ℤ) {mgr : RelayManager} (c : Cursor RelaySession)
    {added : Option (IdText × UInt32)}
    (after : ∀ s : RelaySession, s.key = c.val.key → KeysAfter added mgr (mgr.write c s)) :
    (relayStartDial env peerId relayId relayIp relayPort mgr c = none ∧
      ¬ RelayTextsFit relayId relayIp) ∨
    ∃ dial, relayStartDial env peerId relayId relayIp relayPort mgr c = some dial ∧
      RelayTextsFit relayId relayIp ∧ KeysAfter added mgr dial.mgr := by
  unfold relayStartDial
  rcases copyRelayId_cases relayId { c.val with state := .connecting } with
    ⟨h, overlong⟩ | ⟨id, h, fits⟩
  · rw [h]
    exact Or.inl ⟨rfl, fun texts => overlong texts.1⟩
  · rw [h]
    unfold IpText.copy
    by_cases short : relayIp.length < inetAddrStrLen
    · rw [dif_pos short]
      exact Or.inr ⟨_, rfl, ⟨fits, short⟩, after _ rfl⟩
    · rw [dif_neg short]
      exact Or.inl ⟨rfl, fun texts => short texts.2⟩

/-- `relay_connect` before it waits. -/
theorem relayConnect_keys (env : RelayEnv) (peerId : CString) (relayId : Option CString)
    (relayIp : CString) (relayPort : ℤ) (mgr : RelayManager) :
    (relayConnect env peerId relayId relayIp relayPort mgr = none ∧
      ¬ ConnectFits peerId relayId relayIp relayPort mgr) ∨
    ∃ dial, relayConnect env peerId relayId relayIp relayPort mgr = some dial ∧
      ConnectFits peerId relayId relayIp relayPort mgr ∧
      KeysAfter (if relayPort ≤ 0 then none else addedByCall env peerId mgr) mgr dial.mgr := by
  unfold relayConnect ConnectFits
  by_cases port : relayPort ≤ 0
  · rw [if_pos port, if_pos port]
    exact Or.inr ⟨_, rfl, fun h => absurd h (Int.not_lt.2 port), List.Sublist.refl _⟩
  rw [if_neg port, if_neg port]
  have positive := Int.not_le.1 port
  rcases relayFindOrAdd_cases env peerId mgr with ⟨c, found, h, old⟩ | ⟨absent, full, h, old⟩ |
    ⟨absent, room, long, h⟩ | ⟨id, absent, room, fits, h, new⟩
  · rw [h, found, old]
    dsimp only
    by_cases established : c.val.state = .established
    · rw [if_pos established]
      exact Or.inr ⟨_, rfl, fun _ open_ => absurd established open_, List.Sublist.refl _⟩
    · rw [if_neg established]
      rcases relayStartDial_keys env peerId relayId relayIp relayPort c fun s same =>
          keysAfter_of_eq (keys_write (Cursor.toList_of_find found) same) with
        ⟨undefined, overlong⟩ | ⟨dial, h, fits, keys⟩
      · exact Or.inl ⟨undefined, fun h => overlong (h positive established)⟩
      · exact Or.inr ⟨dial, h, fun _ _ => fits, keys⟩
  · rw [h, absent, old]
    exact Or.inr ⟨_, rfl, fun _ room => absurd full (Nat.not_le.2 room), List.Sublist.refl _⟩
  · rw [h, absent]
    exact Or.inl ⟨rfl, fun h => absurd (h positive room).1 (Nat.not_lt.2 long)⟩
  · have idle : ¬ (RelaySession.fresh env id).state = .established := fun h => by cases h
    rw [h, absent, new]
    dsimp only
    rw [if_neg idle]
    have after (s : RelaySession) (same : s.key = (RelaySession.fresh env id).key) :
        KeysAfter (some (id, relayDrawSessionId env)) mgr
          (mgr.write ⟨mgr.sessions, .fresh env id, []⟩ s) :=
      ⟨room, by rw [keys_write_new, same]; rfl⟩
    rcases relayStartDial_keys env peerId relayId relayIp relayPort
        ⟨mgr.sessions, .fresh env id, []⟩ after with
      ⟨undefined, overlong⟩ | ⟨dial, h, texts, keys⟩
    · exact Or.inl ⟨undefined, fun h => overlong (h positive room).2⟩
    · exact Or.inr ⟨dial, h, fun _ _ => ⟨fits, texts⟩, keys⟩

theorem relayAccept_keys (env : RelayEnv) (peerId : CString) (relayId : Option CString)
    (mgr : RelayManager) :
    (relayAccept env peerId relayId mgr = none ∧ ¬ AcceptFits peerId relayId mgr) ∨
    ∃ r, relayAccept env peerId relayId mgr = some r ∧ AcceptFits peerId relayId mgr ∧
      KeysAfter (addedByCall env peerId mgr) mgr r.2 := by
  unfold relayAccept AcceptFits
  rcases relayFindOrAdd_cases env peerId mgr with ⟨c, found, h, old⟩ | ⟨absent, full, h, old⟩ |
    ⟨absent, room, long, h⟩ | ⟨id, absent, room, fits, h, new⟩
  · rw [h, found, old]
    dsimp only
    rcases copyRelayId_cases relayId c.val with ⟨h, overlong⟩ | ⟨_, h, texts⟩
    · rw [h]
      exact Or.inl ⟨rfl, overlong⟩
    · rw [h]
      exact Or.inr ⟨_, rfl, texts, keysAfter_of_eq (keys_write (Cursor.toList_of_find found) rfl)⟩
  · rw [h, absent, old]
    exact Or.inr ⟨_, rfl, fun room => absurd full (Nat.not_le.2 room), List.Sublist.refl _⟩
  · rw [h, absent]
    exact Or.inl ⟨rfl, fun h => absurd (h room).1 (Nat.not_lt.2 long)⟩
  · rw [h, absent, new]
    dsimp only
    rcases copyRelayId_cases relayId (.fresh env id) with ⟨h, overlong⟩ | ⟨_, h, texts⟩
    · rw [h]
      exact Or.inl ⟨rfl, fun h => overlong (h room).2⟩
    · rw [h]
      exact Or.inr ⟨_, rfl, fun _ => ⟨fits, texts⟩, room, keys_write_new _ _⟩

theorem relayConnectEnd_keys (env : RelayEnv) (slot : ℕ) (received : Option Bytes)
    (mgr : RelayManager) : (relayConnectEnd env slot received mgr).2.keys = mgr.keys := by
  have same (f : RelaySession → RelaySession) (kept : ∀ s, (f s).key = s.key) :
      (mgr.sessions.modify slot f).map RelaySession.key = mgr.sessions.map RelaySession.key := by
    refine List.ext_getElem? fun i => ?_
    rw [List.getElem?_map, List.getElem?_modify, List.getElem?_map, Option.map_eq_map, Option.map_map]
    split_ifs
    · exact congrArg (fun g => Option.map g _) (funext kept)
    · rfl
  unfold relayConnectEnd RelayManager.keys
  split_ifs
  · exact same _ fun _ => rfl
  · exact same _ fun _ => rfl

theorem relayDisconnect_keys (peerId : CString) (mgr : RelayManager) :
    (relayDisconnect peerId mgr).2.keys.Sublist mgr.keys := by
  unfold relayDisconnect
  cases found : relayFindSession peerId mgr with
  | none => exact List.Sublist.refl _
  | some c =>
    have erased : c.erase.Sublist mgr.sessions := by
      rw [← Cursor.toList_of_find found]
      exact List.Sublist.append_left (List.sublist_cons_self _ _) _
    exact erased.map RelaySession.key

theorem relayProcessPacket_key (env : RelayEnv) (packet : RelayPacket) (n : ℕ) (s : RelaySession) :
    (relayProcessPacket env packet n s).2.2.key = s.key := by
  unfold relayProcessPacket
  dsimp only
  split_ifs <;> rfl

theorem relayDispatch_packet {buffer : Bytes} {n : ℕ} {mgr : RelayManager} {c : Cursor RelaySession}
    (h : relayDispatch buffer n mgr = .packet c) : c.toList = mgr.sessions := by
  unfold relayDispatch at h
  dsimp only at h
  cases found : Cursor.find (fun s => s.sessionId == (RelayPacket.ofBuffer buffer).sessionId)
    mgr.sessions with
  | some d =>
    rw [found] at h
    dsimp only at h
    split_ifs at h
    cases h
    exact Cursor.toList_of_find found
  | none =>
    rw [found] at h
    dsimp only at h
    split_ifs at h

theorem relayListen_keys (env : RelayEnv) (sender : SockAddrIn) (buffer : Bytes) (n : ℕ)
    (mgr : RelayManager) :
    (relayListen env sender buffer n mgr = none ∧ ¬ ListenFits buffer n mgr) ∨
    ∃ heard, relayListen env sender buffer n mgr = some heard ∧ ListenFits buffer n mgr ∧
      KeysAfter (addedByHandshake buffer n mgr) mgr heard.mgr := by
  unfold relayListen ListenFits addedByHandshake heardHandshake
  cases input : relayDispatch buffer n mgr with
  | ignored =>
    refine Or.inr ⟨_, rfl, by simp, ?_⟩
    rw [Option.map_none, ite_self]
    exact List.Sublist.refl _
  | packet c =>
    refine Or.inr ⟨_, rfl, by simp, ?_⟩
    rw [Option.map_none, ite_self]
    exact keysAfter_of_eq (keys_write (relayDispatch_packet input)
      (relayProcessPacket_key env _ n c.val))
  | handshake mem =>
    dsimp only
    cases parsed : relayParseHandshake mem with
    | none => exact Or.inl ⟨rfl, fun h => h mem rfl parsed⟩
    | some read =>
      refine Or.inr ⟨_, rfl, ?_, ?_⟩
      · rintro _ same
        cases same
        rw [parsed]
        simp
      · cases read with
        | none =>
          rw [Option.join_some, Option.map_none, ite_self]
          exact List.Sublist.refl _
        | some h =>
          rw [Option.join_some, Option.map_some]
          show KeysAfter _ mgr (relayTakeHandshake env sender h mgr).mgr
          unfold relayTakeHandshake relayAddSession
          by_cases full : relayMaxPeers ≤ mgr.sessions.length
          · rw [if_pos full, if_pos full]
            exact List.Sublist.refl _
          · rw [if_neg full, if_neg full]
            exact ⟨Nat.lt_of_not_le full, keys_write_new _ _⟩

/-- A call is undefined, or adds what it adds to the keys. -/
theorem relayExec_keys (env : RelayEnv) (mgr : RelayManager) (call : RelayCall) :
    (relayExec env mgr call = none ∧ ¬ call.Fits mgr) ∨
    ∃ mgr', relayExec env mgr call = some mgr' ∧ call.Fits mgr ∧
      KeysAfter (call.added env mgr) mgr mgr' := by
  cases call with
  | connect peerId relayId relayIp relayPort =>
    rcases relayConnect_keys env peerId relayId relayIp relayPort mgr with
      ⟨undefined, unfit⟩ | ⟨dial, h, fits, keys⟩
    · exact Or.inl ⟨congrArg (Option.map RelayDial.mgr) undefined, unfit⟩
    · exact Or.inr ⟨dial.mgr, congrArg (Option.map RelayDial.mgr) h, fits, keys⟩
  | connectEnd slot received =>
    exact Or.inr ⟨_, rfl, trivial, keysAfter_of_eq (relayConnectEnd_keys env slot received mgr)⟩
  | accept peerId relayId =>
    rcases relayAccept_keys env peerId relayId mgr with ⟨undefined, unfit⟩ | ⟨r, h, fits, keys⟩
    · exact Or.inl ⟨congrArg (Option.map Prod.snd) undefined, unfit⟩
    · exact Or.inr ⟨r.2, congrArg (Option.map Prod.snd) h, fits, keys⟩
  | disconnect peerId => exact Or.inr ⟨_, rfl, trivial, relayDisconnect_keys peerId mgr⟩
  | listen sender buffer n =>
    rcases relayListen_keys env sender buffer n mgr with ⟨undefined, unfit⟩ | ⟨heard, h, fits, keys⟩
    · exact Or.inl ⟨congrArg (Option.map RelayHeard.mgr) undefined, unfit⟩
    · exact Or.inr ⟨heard.mgr, congrArg (Option.map RelayHeard.mgr) h, fits, keys⟩

/-! ## Runs -/

/-- The call is a handshake for a session that is in the table. -/
def RelayCall.Repeats (mgr : RelayManager) : RelayCall → Prop
  | listen _ buffer n => ∃ h, heardHandshake buffer n mgr = some h ∧ (h.targetId, h.sessionId) ∈ mgr.keys
  | _ => False

/-- The state is defined and its table tidy. -/
def TidyState (state : Option RelayManager) : Prop := ∃ mgr, state = some mgr ∧ TidyKeys mgr.keys

/-- The step leads to a tidy table, and a handshake it repeats takes no entry. -/
def KeepsTidy (state : Option RelayManager) (l : RelayEnv × RelayCall) : Prop :=
  TidyState (relayStep state l) ∧
    ∀ mgr ∈ state, l.2.Repeats mgr → ∀ mgr' ∈ relayStep state l,
      mgr'.sessions.length ≤ mgr.sessions.length

/-- The texts of the call fit, and the keys of a session it adds are not in the table. -/
def AddsUnused (state : Option RelayManager) (l : RelayEnv × RelayCall) : Prop :=
  ∀ mgr ∈ state, l.2.Fits mgr ∧ ∀ k ∈ l.2.added l.1 mgr, Unused mgr.keys k

theorem keepsTidy_iff {state : Option RelayManager} (tidy : TidyState state)
    (l : RelayEnv × RelayCall) : KeepsTidy state l ↔ AddsUnused state l := by
  obtain ⟨mgr, rfl, tidy⟩ := tidy
  have size (m : RelayManager) : m.keys.length = m.sessions.length := List.length_map _
  have only {p : RelayManager → Prop} : (∀ m ∈ some mgr, p m) ↔ p mgr := by simp
  unfold KeepsTidy AddsUnused
  rw [only, only]
  show (TidyState (relayExec l.1 mgr l.2) ∧ (_ → ∀ mgr' ∈ relayExec l.1 mgr l.2, _)) ↔ _
  rcases relayExec_keys l.1 mgr l.2 with ⟨undefined, unfit⟩ | ⟨mgr', h, fits, keys⟩
  · rw [undefined]
    refine iff_of_false ?_ fun h => unfit h.1
    rintro ⟨⟨_, h, -⟩, -⟩
    cases h
  · have after : TidyState (some mgr') ↔ TidyKeys mgr'.keys := by simp [TidyState]
    have only' {p : RelayManager → Prop} : (∀ m ∈ some mgr', p m) ↔ p mgr' := by simp
    rw [h, after, only', and_iff_right fits]
    cases added : l.2.added l.1 mgr with
    | none =>
      rw [added] at keys
      refine iff_of_true ⟨tidy.sublist keys, fun _ => ?_⟩ (by simp)
      rw [← size, ← size]
      exact keys.length_le
    | some k =>
      rw [added] at keys
      obtain ⟨room, keys⟩ := keys
      rw [keys, tidy.concat_iff (by rw [size]; exact room)]
      constructor
      · rintro ⟨unused, -⟩ _ same
        obtain rfl := Option.some.inj same
        exact unused
      · intro unused
        refine ⟨unused k rfl, fun repeats => ?_⟩
        -- a repeated handshake would add keys that are there
        obtain ⟨env, call⟩ := l
        cases call with
        | listen sender buffer n =>
          obtain ⟨handshake, heard, there⟩ := repeats
          unfold RelayCall.added addedByHandshake at added
          dsimp only at added
          rw [heard] at added
          split_ifs at added
          rw [Option.map_some] at added
          rw [Option.some.inj added] at there
          exact absurd (List.mem_map_of_mem there) (unused k rfl).1
        | _ => exact repeats.elim

/-- The table of a manager is tidy in every state of a run, and no repeated handshake takes an entry,
exactly if in every step the texts fit and the keys of an added session are unused. -/
theorem relay_table_iff (myId : IdText) (relaySocket : ℤ) (ls : List (RelayEnv × RelayCall)) :
    Meets relayStep KeepsTidy (some (.init myId relaySocket)) ls ↔
      Meets relayStep AddsUnused (some (.init myId relaySocket)) ls :=
  meets_iff_of_invariant TidyState (fun _ => True) (fun _ l tidy _ => keepsTidy_iff tidy l)
    (fun _ _ _ _ kept => kept.1) ⟨.init myId relaySocket, rfl, tidyKeys_nil⟩ fun _ _ => trivial

/-- Surroundings in which nothing succeeds. -/
def RelayEnv.failing : RelayEnv where
  toEnv := .failing
  secret := .zero
  heap := (0, 0, 0, 0)

/-- Bob's handshake to Alice in the listener's buffer. -/
def handshakeOfBob : RelayCall :=
  .listen ⟨(192, 0, 2, 7), 9000⟩ (relayHandshakeText (ascii "alice") 7 (ascii "bob") ++ [0]) 27

/-- The same handshake twice makes two sessions. -/
theorem repeated_handshake_adds_session :
    ¬ Meets relayStep KeepsTidy (some (.init ⟨ascii "alice", by decide⟩ 3))
      [(.failing, handshakeOfBob), (.failing, handshakeOfBob)] := by
  rintro ⟨-, ⟨⟨mgr, after, tidy⟩, -⟩, -⟩
  have keys : (relayStep (relayStep (some (.init ⟨ascii "alice", by decide⟩ 3))
      (.failing, handshakeOfBob)) (.failing, handshakeOfBob)).map RelayManager.keys =
        some [(⟨ascii "alice", by decide⟩, 7), (⟨ascii "alice", by decide⟩, 7)] := by
    decide
  rw [after, Option.map_some] at keys
  have ids := tidy.ids
  rw [Option.some.inj keys] at ids
  exact absurd ids (by decide)

end Orcashi
