import Orcashi.Lib.OrderedMap
import Orcashi.Lib.Refinement
import Orcashi.StateManager

/-!
# The peer table is a finite map

Seen from outside, the table of the state manager is a map from ids to records that remembers the
order in which the ids came.  A key of the map is an id as `normalize_id` leaves it, and is not
empty; an id with brackets, or longer than an array holds, names the same key as the id that is
stored for it.  `PeerMap.Allows` says what each call means on the map, `Represents` when a table is
the list of the map's records, and `peer_table_refines_map` that every run of calls keeps them
together.
-/

namespace Orcashi

/-! ## The map -/

/-- A key of the map: a normalized id that is not empty, as the table stores it. -/
structure PeerKey where
  text : CString
  normal : normalizeId text = text
  ne_nil : text ≠ []
  deriving DecidableEq

namespace PeerKey

/-- The key an argument names; an empty id names none. -/
def ofId (id : CString) : Option PeerKey :=
  if h : normalizeId id = [] then none else some ⟨normalizeId id, normalizeId_normalizeId id, h⟩

theorem ofId_eq_none {id : CString} (h : normalizeId id = []) : ofId id = none := dif_pos h

theorem ofId_eq_some {id : CString} (h : normalizeId id ≠ []) :
    ∃ k : PeerKey, ofId id = some k ∧ k.text = normalizeId id :=
  ⟨_, dif_neg h, rfl⟩

/-- What is asked of the map for an argument depends on the key it names. -/
theorem bind_congr {α : Type*} {f g : PeerKey → Option α} {id : CString}
    (h : ∀ k : PeerKey, k.text = normalizeId id → f k = g k) :
    (ofId id).bind f = (ofId id).bind g := by
  by_cases hid : normalizeId id = []
  · rw [ofId_eq_none hid, Option.bind_none, Option.bind_none]
  · obtain ⟨k, hk, text⟩ := ofId_eq_some hid
    rw [hk, Option.bind_some, Option.bind_some, h k text]

theorem text_injective {j k : PeerKey} (h : j.text = k.text) : j = k := by
  cases j
  cases k
  cases h
  rfl

/-- The comparison the table's scans make is equality of keys. -/
theorem isSameId_text_iff {j k : PeerKey} : isSameId j.text k.text = true ↔ j = k := by
  rw [isSameId_iff, j.normal, k.normal]
  exact ⟨text_injective, congrArg text⟩

end PeerKey

/-- The table as a map. -/
abbrev PeerMap := OrderedMap PeerKey Peer

/-! ## Calls -/

/-- A string that fits a `char[size]`. -/
def FieldText (size : ℕ) := { s : CString // s.length < size }

/-- A call about the table. -/
inductive TableCall where
  | addPeer (now : Time) (id : CString)
  | updatePeer (now : Time) (id : CString) (state : PeerState)
  | removePeer (id : CString)
  | setOnline (now : Time) (id : CString) (online : Bool)
  | setBusy (id : CString) (busy : Bool)
  | setSecure (id : CString) (secure : Bool)
  | setIp (id : CString) (ip : IpText)
  | setPort (id : CString) (port : ℤ)
  | setName (id : CString) (name : FieldText 128)
  | setPublicKey (id : CString) (pubkey : FieldText 4096)
  | updateLastSeen (now : Time) (id : CString)
  | getPeer (id : CString)
  | getPeers (max : ℤ)
  | getCount
  | isOnline (id : CString)
  | isFriend (id : CString)
  | isBusy (id : CString)
  | getState (id : CString)
  | getPending (max : ℤ)
  | getPendingCount
  | hasPendingRequest (id : CString)
  | getFriends (max : ℤ)
  | getFriendCount

/-- What a call returns: a status, or what a query found. -/
inductive TableReply where
  | ret (r : ℤ)
  | count (n : ℕ)
  | flag (b : Bool)
  | state (s : PeerState)
  | peer (p : Option Peer)
  | peers (ps : List Peer)

/-- A call that returns a status. -/
def status (r : ℤ × StateManager) : TableReply × StateManager := (.ret r.1, r.2)

/-- What a call returns and leaves. -/
def TableCall.exec (sm : StateManager) : TableCall → TableReply × StateManager
  | .addPeer now id => status (stateAddPeer now id sm)
  | .updatePeer now id state => status (stateUpdatePeer now id state sm)
  | .removePeer id => status (stateRemovePeer id sm)
  | .setOnline now id online => status (stateSetOnline now id online sm)
  | .setBusy id busy => status (stateSetBusy id busy sm)
  | .setSecure id secure => status (stateSetSecure id secure sm)
  | .setIp id ip => status (stateSetIp id ip.val sm)
  | .setPort id port => status (stateSetPort id port sm)
  | .setName id name => status (stateSetName id name.val sm)
  | .setPublicKey id pubkey => status (stateSetPublicKey id pubkey.val sm)
  | .updateLastSeen now id => status (stateUpdateLastSeen now id sm)
  | .getPeer id => (.peer (stateGetPeer id sm), sm)
  | .getPeers max => (.peers (stateGetPeers max sm), sm)
  | .getCount => (.count (stateGetCount sm), sm)
  | .isOnline id => (.flag (stateIsOnline id sm), sm)
  | .isFriend id => (.flag (stateIsFriend id sm), sm)
  | .isBusy id => (.flag (stateIsBusy id sm), sm)
  | .getState id => (.state (stateGetState id sm), sm)
  | .getPending max => (.peers (stateGetPending max sm), sm)
  | .getPendingCount => (.count (stateGetPendingCount sm), sm)
  | .hasPendingRequest id => (.flag (stateHasPendingRequest id sm), sm)
  | .getFriends max => (.peers (stateGetFriends max sm), sm)
  | .getFriendCount => (.count (stateGetFriendCount sm), sm)

/-! ## What the calls mean on the map -/

namespace PeerMap

/-- The record an argument names. -/
def get (m : PeerMap) (id : CString) : Option Peer := (PeerKey.ofId id).bind m.lookup

/-- Change the record an argument names by `f`; without one, fail and change nothing. -/
def write (m : PeerMap) (id : CString) (f : Peer → Peer) : TableReply × PeerMap :=
  match PeerKey.ofId id with
  | none => (.ret (-1), m)
  | some k => if k ∈ m.keys then (.ret 0, m.modify k f) else (.ret (-1), m)

/-- A key is removed, if it is there. -/
def remove (m : PeerMap) (id : CString) : TableReply × PeerMap :=
  match PeerKey.ofId id with
  | none => (.ret (-1), m)
  | some k => if k ∈ m.keys then (.ret 0, m.erase k) else (.ret (-1), m)

/-- A record for `k` made at `now`.  The times of requests and of friendship are not set. -/
def IsNew (now : Time) (k : PeerKey) (p : Peer) : Prop :=
  p = { Peer.zero with
    id := k.text
    createdAt := now
    lastSeen := now
    requestSentAt := p.requestSentAt
    requestReceivedAt := p.requestReceivedAt
    friendSince := p.friendSince }

/-- A new key gets a new record, if there is room. -/
def AllowsAdd (m : PeerMap) (now : Time) (id : CString) (r : TableReply) (m' : PeerMap) : Prop :=
  match PeerKey.ofId id with
  | none => r = .ret (-1) ∧ m' = m
  | some k =>
    if new : k ∉ m.keys then
      if maxPeers ≤ m.size then r = .ret (-1) ∧ m' = m
      else r = .ret 0 ∧ ∃ p, IsNew now k p ∧ m' = m.insert k p new
    else r = .ret 0 ∧ m' = m

/-- A query changes nothing. -/
def AllowsQuery (m : PeerMap) (answer r : TableReply) (m' : PeerMap) : Prop := r = answer ∧ m' = m

/-- What a call may return and leave. -/
def Allows (m : PeerMap) : TableCall → TableReply → PeerMap → Prop
  | .addPeer now id, r, m' => m.AllowsAdd now id r m'
  | .updatePeer now id state, r, m' =>
    (r, m') = m.write id fun p =>
      { p with
        state := state
        lastSeen := now
        friendSince := if state = .friend then now else p.friendSince }
  | .removePeer id, r, m' => (r, m') = m.remove id
  | .setOnline now id online, r, m' =>
    (r, m') = m.write id fun p => { p with online := online, lastSeen := now }
  | .setBusy id busy, r, m' => (r, m') = m.write id fun p => { p with busy := busy }
  | .setSecure id secure, r, m' => (r, m') = m.write id fun p => { p with isSecure := secure }
  | .setIp id ip, r, m' => (r, m') = m.write id fun p => { p with ip := ip.val }
  | .setPort id port, r, m' => (r, m') = m.write id fun p => { p with port := port }
  | .setName id name, r, m' => (r, m') = m.write id fun p => { p with name := name.val }
  | .setPublicKey id pubkey, r, m' =>
    (r, m') = m.write id fun p => { p with publicKey := pubkey.val }
  | .updateLastSeen now id, r, m' => (r, m') = m.write id fun p => { p with lastSeen := now }
  | .getPeer id, r, m' => m.AllowsQuery (.peer (m.get id)) r m'
  | .getPeers max, r, m' => m.AllowsQuery (.peers (m.values.take max.toNat)) r m'
  | .getCount, r, m' => m.AllowsQuery (.count m.size) r m'
  | .isOnline id, r, m' => m.AllowsQuery (.flag ((m.get id).any fun p => p.online)) r m'
  | .isFriend id, r, m' => m.AllowsQuery (.flag ((m.get id).any fun p => p.state == .friend)) r m'
  | .isBusy id, r, m' => m.AllowsQuery (.flag ((m.get id).any fun p => p.busy)) r m'
  | .getState id, r, m' =>
    m.AllowsQuery (.state ((m.get id).elim .unknown fun p => p.state)) r m'
  | .getPending max, r, m' =>
    m.AllowsQuery (.peers ((m.values.filter Peer.isPending).take max.toNat)) r m'
  | .getPendingCount, r, m' =>
    m.AllowsQuery (.count (m.values.filter Peer.isPending).length) r m'
  | .hasPendingRequest id, r, m' => m.AllowsQuery (.flag ((m.get id).any Peer.isPending)) r m'
  | .getFriends max, r, m' =>
    m.AllowsQuery (.peers ((m.values.filter fun p => p.state == .friend).take max.toNat)) r m'
  | .getFriendCount, r, m' =>
    m.AllowsQuery (.count (m.values.filter fun p => p.state == .friend).length) r m'

/-- Where only the record of one key changes, other ids are found as before. -/
theorem get_of_others {m m' : PeerMap} {k : PeerKey} {id x : CString} (text : k.text = normalizeId id)
    (h : normalizeId id ≠ normalizeId x) (others : ∀ j, j ≠ k → m'.lookup j = m.lookup j) :
    m'.get x = m.get x := by
  apply PeerKey.bind_congr
  intro j hj
  apply others
  rintro rfl
  exact h (text.symm.trans hj)

theorem get_write_of_ne {m : PeerMap} {id x : CString} {f : Peer → Peer}
    (h : normalizeId id ≠ normalizeId x) : (m.write id f).2.get x = m.get x := by
  unfold write get
  by_cases hid : normalizeId id = []
  · rw [PeerKey.ofId_eq_none hid]
  · obtain ⟨k, hk, text⟩ := PeerKey.ofId_eq_some hid
    rw [hk]
    dsimp only
    by_cases mem : k ∈ m.keys
    · rw [if_pos mem]
      apply get_of_others text h
      intro j other
      exact OrderedMap.lookup_modify_ne other
    · rw [if_neg mem]

theorem get_remove_self (m : PeerMap) (id : CString) : (m.remove id).2.get id = none := by
  unfold remove get
  by_cases hid : normalizeId id = []
  · rw [PeerKey.ofId_eq_none hid, Option.bind_none]
  · obtain ⟨k, hk, -⟩ := PeerKey.ofId_eq_some hid
    rw [hk, Option.bind_some]
    dsimp only
    by_cases mem : k ∈ m.keys
    · rw [if_pos mem]
      exact OrderedMap.lookup_erase_self
    · rw [if_neg mem]
      exact OrderedMap.lookup_eq_none_iff.2 mem

theorem get_remove_of_ne {m : PeerMap} {id x : CString} (h : normalizeId id ≠ normalizeId x) :
    (m.remove id).2.get x = m.get x := by
  unfold remove get
  by_cases hid : normalizeId id = []
  · rw [PeerKey.ofId_eq_none hid]
  · obtain ⟨k, hk, text⟩ := PeerKey.ofId_eq_some hid
    rw [hk]
    dsimp only
    by_cases mem : k ∈ m.keys
    · rw [if_pos mem]
      apply get_of_others text h
      intro j other
      exact OrderedMap.lookup_erase_ne other
    · rw [if_neg mem]

theorem get_add_of_ne {m m' : PeerMap} {now : Time} {id x : CString} {r : TableReply}
    (added : m.AllowsAdd now id r m') (h : normalizeId id ≠ normalizeId x) :
    m'.get x = m.get x := by
  unfold AllowsAdd at added
  by_cases hid : normalizeId id = []
  · rw [PeerKey.ofId_eq_none hid] at added
    rw [added.2]
  · obtain ⟨k, hk, text⟩ := PeerKey.ofId_eq_some hid
    rw [hk] at added
    dsimp only at added
    split_ifs at added with new full
    · rw [added.2]
    · rw [added.2]
    · obtain ⟨-, p, -, rfl⟩ := added
      apply get_of_others text h
      intro j other
      exact OrderedMap.lookup_insert_ne other

end PeerMap

/-- The id a call is about; a call about no single record names nobody. -/
def TableCall.subject : TableCall → CString
  | .addPeer _ id | .updatePeer _ id _ | .removePeer id | .setOnline _ id _ | .setBusy id _
  | .setSecure id _ | .setIp id _ | .setPort id _ | .setName id _ | .setPublicKey id _
  | .updateLastSeen _ id => id
  | _ => []

/-! ## The table and the map -/

/-- The table lists the records of the map, each under its key, and has at most 256 of them. -/
structure Represents (sm : StateManager) (m : PeerMap) : Prop where
  values : m.values = sm.peers
  ids : ∀ e ∈ m.entries, e.2.id = e.1.text
  size_le : m.size ≤ maxPeers

namespace Represents

variable {sm : StateManager} {m : PeerMap}

theorem length_peers (rep : Represents sm m) : sm.peers.length = m.size := by
  rw [← rep.values]
  exact List.length_map _

/-- The search for the id of a key. -/
theorem find (rep : Represents sm m) (k : PeerKey) :
    (m.lookup k = none ∧ findRecord k.text sm.peers = none) ∨
      ∃ c, m.lookup k = some c.val ∧ findRecord k.text sm.peers = some c ∧
        (∀ f : Peer → Peer, (c.set (f c.val)).toList = (m.modify k f).values) ∧
        c.erase = (m.erase k).values := by
  rw [← rep.values]
  apply OrderedMap.find_values
  intro e he
  rw [rep.ids e he]
  exact PeerKey.isSameId_text_iff

/-- The ids of the table are normalized, not empty and pairwise distinct. -/
theorem wellFormed (rep : Represents sm m) :
    (sm.peers.map Peer.id).Nodup ∧ ∀ p ∈ sm.peers, normalizeId p.id = p.id ∧ p.id ≠ [] := by
  have ids : sm.peers.map Peer.id = m.keys.map PeerKey.text := by
    rw [← rep.values]
    unfold OrderedMap.values OrderedMap.keys
    rw [List.map_map, List.map_map]
    exact List.map_congr_left fun e he => rep.ids e he
  constructor
  · rw [ids]
    exact m.nodup.map fun j k => PeerKey.text_injective
  · intro p hp
    have hid : p.id ∈ m.keys.map PeerKey.text := ids ▸ List.mem_map_of_mem hp
    obtain ⟨k, -, hk⟩ := List.mem_map.1 hid
    rw [← hk]
    exact ⟨k.normal, k.ne_nil⟩

/-- A table with such ids is represented. -/
theorem exists_of_wellFormed (nodup : (sm.peers.map Peer.id).Nodup)
    (ids : ∀ p ∈ sm.peers, normalizeId p.id = p.id ∧ p.id ≠ [])
    (few : sm.peers.length ≤ maxPeers) : ∃ m, Represents sm m := by
  let entries : List (PeerKey × Peer) :=
    sm.peers.pmap (fun p h => (⟨p.id, h.1, h.2⟩, p)) ids
  have texts : entries.map (fun e => e.1.text) = sm.peers.map Peer.id := by
    rw [List.map_pmap, List.pmap_eq_map]
  have distinct : (entries.map Prod.fst).Nodup := by
    rw [← texts, ← Function.comp_def PeerKey.text Prod.fst, ← List.map_map] at nodup
    exact nodup.of_map _
  refine ⟨⟨entries, distinct⟩, ?_, ?_, ?_⟩
  · show entries.map Prod.snd = sm.peers
    rw [List.map_pmap, List.pmap_eq_map, List.map_id']
  · intro e he
    obtain ⟨p, hp, rfl⟩ := List.mem_pmap.1 he
    rfl
  · show entries.length ≤ maxPeers
    rw [List.length_pmap]
    exact few

/-- Adjusting a count is a write to the map. -/
theorem adjust (rep : Represents sm m) (k : PeerKey) (f : ℤ → ℤ) (ghosts : List GhostMessage) :
    Represents { sm with peers := adjustGhostCount k.text f sm.peers, ghosts := ghosts }
      (m.modify k fun p => { p with ghostCount := f p.ghostCount }) := by
  refine ⟨?_, ?_, ?_⟩
  · show _ = adjustGhostCount k.text f sm.peers
    unfold adjustGhostCount
    rcases rep.find k with ⟨none, hf⟩ | ⟨c, some, hf, hset, -⟩
    · rw [hf, ← rep.values, OrderedMap.modify_of_not_mem (OrderedMap.lookup_eq_none_iff.1 none)]
    · rw [hf]
      exact (hset fun p => { p with ghostCount := f p.ghostCount }).symm
  · intro e he
    obtain ⟨e', he', rfl⟩ := List.mem_map.1 he
    dsimp only
    split_ifs <;> exact rep.ids e' he'
  · show (m.entries.map _).length ≤ maxPeers
    rw [List.length_map]
    exact rep.size_le

theorem getPeer (rep : Represents sm m) (id : CString) : stateGetPeer id sm = m.get id := by
  unfold stateGetPeer PeerMap.get
  by_cases hid : normalizeId id = []
  · rw [if_pos hid, PeerKey.ofId_eq_none hid, Option.bind_none]
  · obtain ⟨k, hk, text⟩ := PeerKey.ofId_eq_some hid
    rw [if_neg hid, hk, Option.bind_some, ← text]
    rcases rep.find k with ⟨none, hf⟩ | ⟨c, some, hf, -⟩
    · rw [none, hf, Option.map_none]
    · rw [some, hf, Option.map_some]

/-- A write through `state_get_peer` is a write to the map. -/
theorem modify (rep : Represents sm m) (id : CString) {f : Peer → Peer}
    (keeps : ∀ p, (f p).id = p.id) :
    TableReply.ret (modifyPeer id f sm).1 = (m.write id f).1 ∧
      Represents (modifyPeer id f sm).2 (m.write id f).2 := by
  unfold modifyPeer PeerMap.write
  by_cases hid : normalizeId id = []
  · rw [if_pos hid, PeerKey.ofId_eq_none hid]
    exact ⟨rfl, rep⟩
  · obtain ⟨k, hk, text⟩ := PeerKey.ofId_eq_some hid
    rw [if_neg hid, hk, ← text]
    rcases rep.find k with ⟨none, hf⟩ | ⟨c, some, hf, hset, -⟩
    · rw [hf]
      dsimp only
      rw [if_neg (OrderedMap.lookup_eq_none_iff.1 none)]
      exact ⟨rfl, rep⟩
    · rw [hf]
      dsimp only
      rw [if_pos (OrderedMap.mem_keys_of_lookup some)]
      refine ⟨rfl, (hset f).symm, ?_, ?_⟩
      · intro e he
        obtain ⟨e', he', rfl⟩ := List.mem_map.1 he
        dsimp only
        split_ifs
        · rw [keeps, rep.ids e' he']
        · exact rep.ids e' he'
      · show (m.entries.map _).length ≤ maxPeers
        rw [List.length_map]
        exact rep.size_le

theorem remove (rep : Represents sm m) (id : CString) :
    TableReply.ret (stateRemovePeer id sm).1 = (m.remove id).1 ∧
      Represents (stateRemovePeer id sm).2 (m.remove id).2 := by
  unfold stateRemovePeer PeerMap.remove
  by_cases hid : normalizeId id = []
  · rw [if_pos hid, PeerKey.ofId_eq_none hid]
    exact ⟨rfl, rep⟩
  · obtain ⟨k, hk, text⟩ := PeerKey.ofId_eq_some hid
    rw [if_neg hid, hk, ← text]
    rcases rep.find k with ⟨none, hf⟩ | ⟨c, some, hf, -, herase⟩
    · rw [hf]
      dsimp only
      rw [if_neg (OrderedMap.lookup_eq_none_iff.1 none)]
      exact ⟨rfl, rep⟩
    · rw [hf]
      dsimp only
      rw [if_pos (OrderedMap.mem_keys_of_lookup some)]
      refine ⟨rfl, herase.symm, ?_, ?_⟩
      · intro e he
        exact rep.ids e (List.mem_of_mem_filter he)
      · exact le_trans (List.length_filter_le _ _) rep.size_le

theorem add (rep : Represents sm m) (now : Time) (id : CString) :
    ∃ m', m.AllowsAdd now id (.ret (stateAddPeer now id sm).1) m' ∧
      Represents (stateAddPeer now id sm).2 m' := by
  unfold PeerMap.AllowsAdd
  rcases stateAddPeer_cases now id sm with ⟨hid, hadd⟩ | ⟨hid, found⟩
  · rw [hadd, PeerKey.ofId_eq_none hid]
    exact ⟨m, ⟨rfl, rfl⟩, rep⟩
  obtain ⟨k, hk, text⟩ := PeerKey.ofId_eq_some hid
  rw [← text] at found
  rw [hk]
  dsimp only
  rcases rep.find k with ⟨none, hf⟩ | ⟨c, some, hf, -⟩
  · have new := OrderedMap.lookup_eq_none_iff.1 none
    rw [hf, rep.length_peers] at found
    rcases found with ⟨c, hc, -⟩ | ⟨-, full, hadd⟩ | ⟨-, room, hadd⟩
    · cases hc
    · refine ⟨m, ?_, hadd ▸ rep⟩
      rw [dif_pos new, if_pos full, hadd]
      exact ⟨rfl, rfl⟩
    · refine ⟨m.insert k ((sm.stale.headD Peer.zero).renewed now k.text) new, ?_, ?_⟩
      · rw [dif_pos new, if_neg (Nat.not_le.2 room), hadd]
        exact ⟨rfl, (sm.stale.headD Peer.zero).renewed now k.text, rfl, rfl⟩
      · rw [hadd]
        refine ⟨?_, ?_, ?_⟩
        · rw [OrderedMap.values_insert, rep.values]
        · intro e he
          rcases List.mem_append.1 he with he | he
          · exact rep.ids e he
          · obtain rfl := List.mem_singleton.1 he
            rfl
        · have size : m.entries.length = m.size := rfl
          show (m.entries ++ [_]).length ≤ maxPeers
          rw [List.length_append, List.length_singleton, size]
          omega
  · rw [hf] at found
    rcases found with ⟨-, -, hadd⟩ | ⟨absent, -⟩ | ⟨absent, -⟩
    · refine ⟨m, ?_, hadd ▸ rep⟩
      rw [dif_neg (not_not_intro (OrderedMap.mem_keys_of_lookup some)), hadd]
      exact ⟨rfl, rfl⟩
    · cases absent
    · cases absent

/-- A setter, as the map sees it. -/
theorem setter (rep : Represents sm m) (id : CString) (f : Peer → Peer)
    (keeps : ∀ p, (f p).id = p.id) :
    ∃ m', ((status (modifyPeer id f sm)).1, m') = m.write id f ∧
      Represents (status (modifyPeer id f sm)).2 m' := by
  obtain ⟨ret, rep'⟩ := rep.modify id keeps
  exact ⟨(m.write id f).2, Prod.ext ret rfl, rep'⟩

/-- A query that answers from the record of an id. -/
theorem query (rep : Represents sm m) {answer r : TableReply} (h : r = answer) :
    ∃ m', m.AllowsQuery answer r m' ∧ Represents sm m' :=
  ⟨m, ⟨h, rfl⟩, rep⟩

/-- Every call does to the table what it means on the map, and gets the map's answer. -/
theorem exec (rep : Represents sm m) (call : TableCall) :
    ∃ m', m.Allows call (call.exec sm).1 m' ∧ Represents (call.exec sm).2 m' := by
  -- a loop with room for `max` entries, over the table or a part of it
  have copied (q : Peer → Bool) (max : ℤ) :
      (if max ≤ 0 then [] else collect q max.toNat sm.peers) =
        (m.values.filter q).take max.toNat := by
    rw [rep.values]
    split_ifs with hmax
    · rw [Int.toNat_of_nonpos hmax, List.take_zero]
    · exact collect_eq q _ _
  cases call with
  | addPeer now id => exact rep.add now id
  | updatePeer now id state => exact rep.setter id _ fun _ => rfl
  | removePeer id =>
    obtain ⟨ret, rep'⟩ := rep.remove id
    exact ⟨(m.remove id).2, Prod.ext ret rfl, rep'⟩
  | setOnline now id online => exact rep.setter id _ fun _ => rfl
  | setBusy id busy => exact rep.setter id _ fun _ => rfl
  | setSecure id secure => exact rep.setter id _ fun _ => rfl
  | setIp id ip => exact rep.setter id _ fun _ => rfl
  | setPort id port => exact rep.setter id _ fun _ => rfl
  | setName id name => exact rep.setter id _ fun _ => rfl
  | setPublicKey id pubkey => exact rep.setter id _ fun _ => rfl
  | updateLastSeen now id => exact rep.setter id _ fun _ => rfl
  | getPeer id => exact rep.query (congrArg TableReply.peer (rep.getPeer id))
  | getPeers max =>
    apply rep.query
    have all := copied (fun _ => true) max
    rw [List.filter_true] at all
    exact congrArg TableReply.peers all
  | getCount => exact rep.query (congrArg TableReply.count rep.length_peers)
  | isOnline id =>
    exact rep.query (congrArg (fun p => TableReply.flag (Option.any _ p)) (rep.getPeer id))
  | isFriend id =>
    exact rep.query (congrArg (fun p => TableReply.flag (Option.any _ p)) (rep.getPeer id))
  | isBusy id =>
    exact rep.query (congrArg (fun p => TableReply.flag (Option.any _ p)) (rep.getPeer id))
  | getState id =>
    apply rep.query
    show TableReply.state (stateGetState id sm) = _
    unfold stateGetState
    rw [rep.getPeer id]
    cases m.get id <;> rfl
  | getPending max => exact rep.query (congrArg TableReply.peers (copied _ max))
  | getPendingCount =>
    apply rep.query
    rw [rep.values, ← List.countP_eq_length_filter]
    rfl
  | hasPendingRequest id =>
    exact rep.query (congrArg (fun p => TableReply.flag (Option.any _ p)) (rep.getPeer id))
  | getFriends max => exact rep.query (congrArg TableReply.peers (copied _ max))
  | getFriendCount =>
    apply rep.query
    rw [rep.values, ← List.countP_eq_length_filter]
    rfl

/-- A call leaves the records of all other ids as they were. -/
theorem getPeer_exec_of_ne (rep : Represents sm m) (call : TableCall) {x : CString}
    (h : normalizeId call.subject ≠ normalizeId x) :
    stateGetPeer x (call.exec sm).2 = stateGetPeer x sm := by
  obtain ⟨m', allows, rep'⟩ := rep.exec call
  rw [rep'.getPeer x, rep.getPeer x]
  -- setters and removals determine the map that follows; queries leave it
  cases call with
  | addPeer now id => exact PeerMap.get_add_of_ne allows h
  | removePeer id =>
    obtain rfl := (Prod.mk.inj allows).2
    exact PeerMap.get_remove_of_ne h
  | updatePeer | setOnline | setBusy | setSecure | setIp | setPort | setName | setPublicKey
  | updateLastSeen =>
    obtain rfl := (Prod.mk.inj allows).2
    exact PeerMap.get_write_of_ne h
  | _ => rw [allows.2]

end Represents

theorem represents_empty (sm : StateManager) :
    Represents { sm with peers := [] } OrderedMap.empty where
  values := rfl
  ids := by
    intro e he
    cases he
  size_le := Nat.zero_le _

/-- From an empty table on, whatever its slots held before, every sequence of calls is answered as
by the map and leaves the table that lists it. -/
theorem peer_table_refines_map (sm : StateManager) (calls : List TableCall) :
    Refinement.Refines TableCall.exec PeerMap.Allows Represents { sm with peers := [] }
      OrderedMap.empty calls := by
  apply Refinement.refines_of_step fun _ _ => True
  · intro sm m call rep _
    exact rep.exec call
  · exact represents_empty sm
  · exact History.meets_of_forall fun _ _ => trivial

end Orcashi
