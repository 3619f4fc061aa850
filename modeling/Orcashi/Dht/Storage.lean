import Mathlib.Data.List.Perm.Basic
import Orcashi.Dht.Node
import Orcashi.Dht.RoutingTable

/-!
# What is stored for others

For each hash there is a list of the peers that announced themselves, each with the time at which it did so
last.  A peer has to show the token that was sent to its address, which is made of a secret that changes.
-/

namespace Orcashi

/-! ## The code -/

/-- `struct peer`; `len` is the length of `ip`. -/
structure StoredPeer where
  time : Time
  ip : Bytes
  port : UInt16
  deriving DecidableEq

/-- `struct storage`; `peers` has `numpeers` of them. -/
structure Storage where
  id : DhtId
  peers : List StoredPeer
  maxpeers : ℕ
  deriving DecidableEq

/-- `storage` and `numstorage`. -/
structure PeerStorage where
  storage : List Storage
  numstorage : ℤ
  deriving DecidableEq

/-- Nothing is stored. -/
def PeerStorage.empty : PeerStorage where
  storage := []
  numstorage := 0

/-- `find_storage` -/
def findStorage (id : DhtId) (s : PeerStorage) : Option Storage := s.storage.find? fun st => st.id = id

/-- `storage_store` from the loop over the peers on, where its `realloc` succeeds. -/
def storePeer (now : Time) (ip : Bytes) (port : UInt16) (st : Storage) : Storage × ℤ :=
  match st.peers.findIdx? fun p => p.port = port ∧ p.ip = ip with
  | some i => ({ st with peers := st.peers.modify i fun p => { p with time := now } }, 0)
  | none =>
    if st.maxpeers ≤ st.peers.length then
      if 2048 ≤ st.maxpeers then (st, 0)
      else
        ({ st with
            maxpeers := min (if st.maxpeers = 0 then 2 else 2 * st.maxpeers) 2048
            peers := st.peers ++ [⟨now, ip, port⟩] }, 1)
    else ({ st with peers := st.peers ++ [⟨now, ip, port⟩] }, 1)

/-- `storage_store`, where its `calloc` succeeds. -/
def storageStore (now : Time) (id : DhtId) (sa : SockAddr) (port : UInt16) (s : PeerStorage) : PeerStorage × ℤ :=
  match s.storage.findIdx? fun st => st.id = id with
  | some i =>
    ({ s with storage := s.storage.modify i fun st => (storePeer now sa.ip port st).1 },
      (s.storage[i]?.map fun st => (storePeer now sa.ip port st).2).getD (-1))
  | none =>
    if 16384 ≤ s.numstorage then (s, -1)
    else
      let r := storePeer now sa.ip port ⟨id, [], 0⟩
      (⟨r.1 :: s.storage, s.numstorage + 1⟩, r.2)

/-- The inner loop of `expire_storage` at position `i`; it ends after at most as many iterations as there are
peers. -/
def expirePeersLoop (now : Time) : ℕ → ℕ → List StoredPeer → List StoredPeer
  | 0, _, peers => peers
  | fuel + 1, i, peers =>
    match peers[i]? with
    | none => peers
    | some p =>
      if p.time < now - 32 * 60 then
        let moved := if i ≠ peers.length - 1 then peers.set i (peers.getLast?.getD p) else peers
        expirePeersLoop now fuel i moved.dropLast
      else expirePeersLoop now fuel (i + 1) peers

/-- The inner loop of `expire_storage`. -/
def expirePeers (now : Time) (peers : List StoredPeer) : List StoredPeer :=
  expirePeersLoop now peers.length 0 peers

/-- The outer loop of `expire_storage`. -/
def expireStorageLoop (now : Time) : List Storage → ℤ → PeerStorage
  | [], numstorage => ⟨[], numstorage⟩
  | st :: storage, numstorage =>
    let peers := expirePeers now st.peers
    if peers = [] then
      expireStorageLoop now storage (if numstorage - 1 < 0 then 0 else numstorage - 1)
    else
      let r := expireStorageLoop now storage numstorage
      { r with storage := { st with peers := peers } :: r.storage }

/-- `expire_storage` -/
def expireStorage (now : Time) (s : PeerStorage) : PeerStorage := expireStorageLoop now s.storage s.numstorage

/-! ### Tokens -/

/-- `make_token` with the secret to use.  The port is in the order of the machine, the low byte first. -/
def makeToken (secret : Bytes) (sa : SockAddr) : Bytes :=
  let port := [(sa.port.toNat % 256).toUInt8, (sa.port.toNat / 256).toUInt8]
  let h := (secret ++ sa.ip ++ port).foldl fnvHash 0x811c9dc5c8f5e5dd
  (List.range 8).map fun i => (h >>> (i * 8).toUInt64).toUInt8

/-- `token_match` -/
def tokenMatch (secret oldsecret token : Bytes) (sa : SockAddr) : Bool :=
  token.length = 8 && (makeToken secret sa == token || makeToken oldsecret sa == token)

/-! ## The invariant -/

/-- The address and the port, by which peers are told apart. -/
def StoredPeer.key (p : StoredPeer) : Bytes × UInt16 := (p.ip, p.port)

/-- What holds of the peers of a hash. -/
structure Storage.Ok (st : Storage) : Prop where
  length_le : st.peers.length ≤ st.maxpeers
  maxpeers_le : st.maxpeers ≤ 2048
  nodup : (st.peers.map StoredPeer.key).Nodup

/-- What holds of all that is stored. -/
structure PeerStorage.Ok (s : PeerStorage) : Prop where
  nodup : (s.storage.map Storage.id).Nodup
  numstorage : s.numstorage = s.storage.length
  length_le : s.storage.length ≤ 16384
  storage : ∀ st ∈ s.storage, st.Ok

theorem peerStorage_empty_ok : PeerStorage.empty.Ok :=
  ⟨List.nodup_nil, rfl, Nat.zero_le _, fun _ mem => by cases mem⟩

/-! ## Announcing -/

section Store

variable {now : Time} {ip : Bytes} {port : UInt16} {st : Storage} {s : PeerStorage} {id : DhtId} {sa : SockAddr}

/-- What is stored: a peer that is known gets a new time, and one that is not is the last one, if there is
room. -/
theorem storePeer_cases (now : Time) (ip : Bytes) (port : UInt16) (ok : st.Ok) :
    (∃ front p back, st.peers = front ++ p :: back ∧ p.key = (ip, port) ∧
      (storePeer now ip port st).1 =
        { st with peers := front ++ { p with time := now } :: back }) ∨
    ((ip, port) ∉ st.peers.map StoredPeer.key ∧ st.peers.length = 2048 ∧
      (storePeer now ip port st).1 = st) ∨
    ((ip, port) ∉ st.peers.map StoredPeer.key ∧
      ∃ maxpeers, st.peers.length < maxpeers ∧ maxpeers ≤ 2048 ∧ (storePeer now ip port st).1 =
        { st with peers := st.peers ++ [⟨now, ip, port⟩], maxpeers := maxpeers }) := by
  unfold storePeer
  cases found : st.peers.findIdx? fun p => p.port = port ∧ p.ip = ip with
  | some i =>
    obtain ⟨inside, same, -⟩ := List.findIdx?_eq_some_iff_getElem.1 found
    have same := of_decide_eq_true same
    refine Or.inl ⟨st.peers.take i, st.peers[i], st.peers.drop (i + 1), ?_, ?_, ?_⟩
    · rw [List.cons_getElem_drop_succ, List.take_append_drop]
    · simp [StoredPeer.key, same.1, same.2]
    · dsimp only
      rw [List.modify_eq_take_cons_drop inside]
  | none =>
    have new : (ip, port) ∉ st.peers.map StoredPeer.key := by
      intro mem
      obtain ⟨p, mem, same⟩ := List.mem_map.1 mem
      have other := List.findIdx?_eq_none_iff.1 found p mem
      rw [StoredPeer.key, Prod.mk.injEq] at same
      simp [same.1, same.2] at other
    dsimp only
    have := ok.length_le
    have := ok.maxpeers_le
    by_cases full : st.maxpeers ≤ st.peers.length
    · rw [if_pos full]
      by_cases most : 2048 ≤ st.maxpeers
      · rw [if_pos most]
        exact Or.inr (Or.inl ⟨new, by omega, rfl⟩)
      · rw [if_neg most]
        refine Or.inr (Or.inr ⟨new, _, ?_, ?_, rfl⟩)
        · split_ifs <;> omega
        · exact Nat.min_le_right _ _
    · rw [if_neg full]
      exact Or.inr (Or.inr ⟨new, st.maxpeers, by omega, by omega, rfl⟩)

theorem Storage.Ok.store (ok : st.Ok) : (storePeer now ip port st).1.Ok := by
  rcases storePeer_cases now ip port ok with ⟨front, p, back, peers, -, e⟩ | ⟨-, -, e⟩ | ⟨new, m, lt, le, e⟩
  · rw [e]
    have h := ok
    rw [show st = { st with peers := front ++ p :: back } by rw [← peers]] at h
    exact ⟨by simpa using h.length_le, h.maxpeers_le, by simpa [StoredPeer.key] using h.nodup⟩
  · rw [e]
    exact ok
  · rw [e]
    refine ⟨by simpa using lt, le, ?_⟩
    show ((st.peers ++ [_]).map StoredPeer.key).Nodup
    rw [List.map_append, List.nodup_append]
    refine ⟨ok.nodup, List.nodup_singleton _, fun x hx y hy same => new ?_⟩
    rw [same, List.mem_singleton.1 hy] at hx
    exact hx

theorem storePeer_id : (storePeer now ip port st).1.id = st.id := by
  unfold storePeer
  split
  · rfl
  · split_ifs <;> rfl

theorem PeerStorage.Ok.store (ok : s.Ok) : (storageStore now id sa port s).1.Ok := by
  unfold storageStore
  cases found : s.storage.findIdx? fun st => st.id = id with
  | some i =>
    have ids : (s.storage.modify i fun st => (storePeer now sa.ip port st).1).map Storage.id =
        s.storage.map Storage.id := by
      refine List.ext_getElem? fun j => ?_
      simp only [List.getElem?_map, List.getElem?_modify]
      cases s.storage[j]? with
      | none => rfl
      | some st => by_cases here : i = j <;> simp [here, storePeer_id]
    refine ⟨ids ▸ ok.nodup, by simpa using ok.numstorage, by simpa using ok.length_le, fun st mem => ?_⟩
    obtain ⟨j, hj⟩ := List.mem_iff_getElem?.1 mem
    rw [List.getElem?_modify] at hj
    cases hst : s.storage[j]? with
    | none => simp [hst] at hj
    | some st' =>
      have good := ok.storage st' (List.mem_of_getElem? hst)
      by_cases here : i = j
      · simp only [hst, Option.map_eq_map, Option.map_some, if_pos here, Option.some_inj] at hj
        exact hj ▸ good.store
      · simp only [hst, Option.map_eq_map, Option.map_some, if_neg here, Option.some_inj] at hj
        exact hj ▸ good
  | none =>
    dsimp only
    have := ok.numstorage
    have := ok.length_le
    split_ifs with full
    · exact ok
    · refine ⟨?_, ?_, ?_, fun st mem => ?_⟩
      · rw [List.map_cons, storePeer_id, List.nodup_cons]
        refine ⟨fun mem => ?_, ok.nodup⟩
        obtain ⟨st, mem, same⟩ := List.mem_map.1 mem
        simpa [same] using List.findIdx?_eq_none_iff.1 found st mem
      · simp [ok.numstorage]
      · simp only [List.length_cons]
        omega
      · rcases List.mem_cons.1 mem with rfl | mem
        · exact Storage.Ok.store ⟨Nat.zero_le _, Nat.zero_le _, List.nodup_nil⟩
        · exact ok.storage st mem

/-- A peer is stored for a hash. -/
def PeerStorage.Has (s : PeerStorage) (id : DhtId) (p : StoredPeer) : Prop :=
  ∃ st ∈ s.storage, st.id = id ∧ p ∈ st.peers

theorem mem_storePeer (ok : st.Ok) {p : StoredPeer} (mem : p ∈ (storePeer now ip port st).1.peers) :
    p ∈ st.peers ∨ p = ⟨now, ip, port⟩ := by
  rcases storePeer_cases now ip port ok with ⟨front, p', back, peers, same, e⟩ | ⟨-, -, e⟩ | ⟨-, _, -, -, e⟩
  · rw [e, List.mem_append, List.mem_cons] at mem
    rw [peers, List.mem_append, List.mem_cons]
    rcases mem with mem | rfl | mem
    · exact Or.inl (Or.inl mem)
    · rw [StoredPeer.key, Prod.mk.injEq] at same
      rw [← same.1, ← same.2]
      exact Or.inr rfl
    · exact Or.inl (Or.inr (Or.inr mem))
  · rw [e] at mem
    exact Or.inl mem
  · rw [e, List.mem_append, List.mem_singleton] at mem
    exact mem

/-- Nothing else is stored than what is announced. -/
theorem PeerStorage.Ok.has_of_store (ok : s.Ok) {id' : DhtId} {p : StoredPeer}
    (has : (storageStore now id sa port s).1.Has id' p) :
    s.Has id' p ∨ (id', p) = (id, ⟨now, sa.ip, port⟩) := by
  obtain ⟨st, mem, rfl, hp⟩ := has
  unfold storageStore at mem
  cases found : s.storage.findIdx? fun st => st.id = id with
  | some i =>
    simp only [found] at mem
    obtain ⟨j, hj⟩ := List.mem_iff_getElem?.1 mem
    rw [List.getElem?_modify] at hj
    cases hst : s.storage[j]? with
    | none => simp [hst] at hj
    | some st' =>
      have mem' := List.mem_of_getElem? hst
      by_cases here : i = j
      · simp only [hst, Option.map_eq_map, Option.map_some, if_pos here, Option.some_inj] at hj
        subst hj
        rw [storePeer_id]
        rcases mem_storePeer (ok.storage st' mem') hp with old | rfl
        · exact Or.inl ⟨st', mem', rfl, old⟩
        · obtain ⟨inside, same, -⟩ := List.findIdx?_eq_some_iff_getElem.1 found
          subst here
          rw [List.getElem?_eq_getElem inside, Option.some_inj] at hst
          rw [← hst, of_decide_eq_true same]
          exact Or.inr rfl
      · simp only [hst, Option.map_eq_map, Option.map_some, if_neg here, Option.some_inj] at hj
        subst hj
        exact Or.inl ⟨st', mem', rfl, hp⟩
  | none =>
    simp only [found] at mem
    split_ifs at mem
    · exact Or.inl ⟨st, mem, rfl, hp⟩
    · rcases List.mem_cons.1 mem with rfl | mem
      · have empty : Storage.Ok ⟨id, [], 0⟩ := ⟨Nat.zero_le _, Nat.zero_le _, List.nodup_nil⟩
        rcases mem_storePeer empty hp with old | rfl
        · cases old
        · rw [storePeer_id]
          exact Or.inr rfl
      · exact Or.inl ⟨st, mem, rfl, hp⟩

end Store

/-! ## Expiry -/

section Expiry

variable {now : Time}

/-- A peer that announced itself in the last 32 minutes. -/
def StoredPeer.fresh (now : Time) (p : StoredPeer) : Bool := now - 32 * 60 ≤ p.time

theorem expirePeersLoop_perm {fuel : ℕ} (front rest : List StoredPeer) (enough : rest.length ≤ fuel) :
    (expirePeersLoop now fuel front.length (front ++ rest)).Perm
      (front ++ rest.filter (StoredPeer.fresh now)) := by
  induction fuel generalizing front rest with
  | zero =>
    obtain rfl := List.length_eq_zero_iff.1 (Nat.le_zero.1 enough)
    exact List.Perm.refl _
  | succ fuel ih =>
    rw [expirePeersLoop]
    obtain _ | ⟨p, rest⟩ := rest
    · simp
    rw [List.getElem?_append_right le_rfl, Nat.sub_self, List.getElem?_cons_zero]
    dsimp only
    rw [List.length_cons] at enough
    by_cases old : p.time < now - 32 * 60
    · have stale : StoredPeer.fresh now p = false := decide_eq_false (not_le.2 old)
      rw [if_pos old, List.filter_cons_of_neg (by simp [stale])]
      rcases List.eq_nil_or_concat rest with rfl | ⟨rest, last, rfl⟩
      · simpa using ih front [] (by simp)
      · have regroup (x : StoredPeer) :
            front ++ x :: rest.concat last = (front ++ x :: rest) ++ [last] := by
          simp [List.concat_eq_append]
        have moved : (if front.length ≠ (front ++ p :: rest.concat last).length - 1 then
            (front ++ p :: rest.concat last).set front.length
              ((front ++ p :: rest.concat last).getLast?.getD p)
            else front ++ p :: rest.concat last).dropLast = front ++ last :: rest := by
          rw [if_pos (by simp), regroup, List.getLast?_concat, Option.getD_some, ← regroup,
            List.set_append_right _ _ le_rfl, Nat.sub_self, List.set_cons_zero, regroup, List.dropLast_concat]
        rw [moved]
        refine (ih front (last :: rest) (by simpa using enough)).trans ?_
        refine List.Perm.append_left front (List.Perm.filter _ ?_)
        rw [List.concat_eq_append]
        exact @List.perm_append_comm _ [last] _
    · have fresh : StoredPeer.fresh now p = true := decide_eq_true (not_lt.1 old)
      rw [if_neg old, List.filter_cons_of_pos fresh]
      have := ih (front ++ [p]) rest (by omega)
      simpa using this

/-- `expire_storage` gives up exactly the peers that are too old; their order may change. -/
theorem expirePeers_perm (now : Time) (peers : List StoredPeer) :
    (expirePeers now peers).Perm (peers.filter (StoredPeer.fresh now)) :=
  expirePeersLoop_perm [] peers le_rfl

/-- What is left of a list of hashes. -/
def unexpired (now : Time) (storage : List Storage) : List Storage :=
  (storage.map fun st => { st with peers := expirePeers now st.peers }).filter fun st => st.peers ≠ []

theorem unexpired_cons_of_nil {st : Storage} (none : expirePeers now st.peers = []) (storage : List Storage) :
    unexpired now (st :: storage) = unexpired now storage := by
  rw [unexpired, List.map_cons, List.filter_cons_of_neg (by simpa using none)]
  rfl

theorem unexpired_cons_of_ne {st : Storage} (some : expirePeers now st.peers ≠ []) (storage : List Storage) :
    unexpired now (st :: storage) = { st with peers := expirePeers now st.peers } :: unexpired now storage := by
  rw [unexpired, List.map_cons, List.filter_cons_of_pos (by simpa using some)]
  rfl

theorem expireStorageLoop_eq (now : Time) (storage : List Storage) (more : ℕ) :
    expireStorageLoop now storage (storage.length + more : ℕ) =
      ⟨unexpired now storage, ((unexpired now storage).length + more : ℕ)⟩ := by
  induction storage generalizing more with
  | nil => rfl
  | cons st storage ih =>
    rw [expireStorageLoop]
    dsimp only
    by_cases none : expirePeers now st.peers = []
    · have fewer : (if (((st :: storage).length + more : ℕ) : ℤ) - 1 < 0 then 0
          else (((st :: storage).length + more : ℕ) : ℤ) - 1) = ((storage.length + more : ℕ) : ℤ) := by
        rw [List.length_cons]
        split_ifs <;> push_cast at * <;> omega
      rw [if_pos none, fewer, ih, unexpired_cons_of_nil none]
    · have next := ih (more + 1)
      rw [← Nat.add_assoc, Nat.add_right_comm] at next
      rw [if_neg none, List.length_cons, next, unexpired_cons_of_ne none, List.length_cons,
        Nat.add_right_comm _ 1, Nat.add_assoc _ more]

/-- `expire_storage`, with the number of hashes. -/
theorem PeerStorage.Ok.expireStorage_eq {s : PeerStorage} (ok : s.Ok) :
    expireStorage now s = ⟨unexpired now s.storage, (unexpired now s.storage).length⟩ := by
  unfold expireStorage
  rw [ok.numstorage]
  simpa using expireStorageLoop_eq now s.storage 0

theorem Storage.Ok.expire {st : Storage} (ok : st.Ok) :
    Storage.Ok { st with peers := expirePeers now st.peers } := by
  have perm := expirePeers_perm now st.peers
  have sub : (st.peers.filter (StoredPeer.fresh now)).Sublist st.peers := List.filter_sublist
  refine ⟨(perm.length_eq.trans_le sub.length_le).trans ok.length_le, ok.maxpeers_le, ?_⟩
  exact (perm.map StoredPeer.key).nodup_iff.2 (ok.nodup.sublist (sub.map _))

theorem PeerStorage.Ok.expire {s : PeerStorage} (ok : s.Ok) : (expireStorage now s).Ok := by
  rw [ok.expireStorage_eq]
  have ids : (s.storage.map fun st => { st with peers := expirePeers now st.peers }).map Storage.id =
      s.storage.map Storage.id := by
    simp [Function.comp_def]
  have sub : (unexpired now s.storage).Sublist
      (s.storage.map fun st => { st with peers := expirePeers now st.peers }) := List.filter_sublist
  refine ⟨?_, rfl, ?_, fun st mem => ?_⟩
  · exact (ids ▸ ok.nodup).sublist (sub.map Storage.id)
  · exact (sub.length_le.trans_eq (List.length_map ..)).trans ok.length_le
  · obtain ⟨st', mem', rfl⟩ := List.mem_map.1 (sub.subset mem)
    exact (ok.storage st' mem').expire

end Expiry

end Orcashi
