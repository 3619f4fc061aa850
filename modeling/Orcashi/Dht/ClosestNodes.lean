import Orcashi.Dht.NewNode
import Orcashi.Dht.Periodic

/-!
# The nodes in a reply

A reply has the eight good nodes that are nearest to an id, among those in its bucket and in the two buckets
beside this.  Nodes in the bucket of the id are nearer to it than all other ones.
-/

namespace Orcashi

open KClosest

section Insertion

variable {now : Time} {target : DhtId} {n : DhtPeer} {nodes : List (DhtId × SockAddr)} {ns : List DhtPeer}
  {bs : Buckets}

/-- A buffer that has the nearest of some nodes. -/
structure Buffered (target : DhtId) (ns : List DhtPeer) (nodes : List (DhtId × SockAddr)) : Prop where
  closest : Closest (fun x => x.dist target) 8 (ns.map DhtPeer.id).toFinset (nodes.map Prod.fst)
  from_nodes : ∀ x ∈ nodes, ∃ n ∈ ns, x = (n.id, n.ss)

theorem buffered_nil (target : DhtId) : Buffered target [] [] :=
  ⟨closest_nil _ 8, fun _ mem => by cases mem⟩

theorem Buffered.insert (h : Buffered target ns nodes) (n : DhtPeer) :
    Buffered target (n :: ns) (insertClosestNode target n nodes) := by
  have more : ((n :: ns).map DhtPeer.id).toFinset = Insert.insert n.id (ns.map DhtPeer.id).toFinset := by
    simp
  have old : ∀ x ∈ nodes, ∃ n' ∈ n :: ns, x = (n'.id, n'.ss) := fun x mem => by
    obtain ⟨n', mem', e⟩ := h.from_nodes x mem
    exact ⟨n', List.mem_cons_of_mem n mem', e⟩
  have here := getElem?_place (x := n.id) h.closest.sorted
  have known : (∃ y ∈ nodes.map Prod.fst, y.dist target = n.id.dist target) ↔ n.id ∈ nodes.map Prod.fst := by
    simp only [DhtId.dist_inj, exists_eq_right]
  rw [known] at here
  unfold insertClosestNode
  rw [closestPlace_eq]
  dsimp only
  rw [← List.getElem?_map]
  by_cases mem : n.id ∈ nodes.map Prod.fst
  · obtain ⟨y, hy, same⟩ := here.2 mem
    obtain rfl := DhtId.dist_inj.1 same
    rw [if_pos hy]
    exact ⟨more ▸ h.closest.insert_known ⟨_, mem, rfl⟩, old⟩
  · have new : ∀ y ∈ nodes.map Prod.fst, y.dist target ≠ n.id.dist target :=
      fun y hy same => mem (DhtId.dist_inj.1 same ▸ hy)
    have closest := h.closest.insert_new new
    rw [if_neg fun found => mem (here.1 ⟨n.id, found, rfl⟩)]
    split_ifs with full
    · -- the buffer is full of nearer nodes
      have length : (nodes.map Prod.fst).length = 8 := by
        have := place_le (fun x : DhtId => x.dist target) n.id (nodes.map Prod.fst)
        have := h.closest.length_le
        omega
      rw [full, ← length, List.insertIdx_length_self, List.take_left, length] at closest
      exact ⟨more ▸ closest, old⟩
    · refine ⟨?_, fun x mem => ?_⟩
      · rw [more, List.map_take, List.map_insertIdx]
        exact closest
      · rcases List.eq_or_mem_of_mem_insertIdx (List.mem_of_mem_take mem) with rfl | mem
        · exact ⟨n, List.mem_cons_self, rfl⟩
        · exact old x mem

theorem Buffered.congr {ns' : List DhtPeer} (h : Buffered target ns nodes) (same : ∀ n, n ∈ ns ↔ n ∈ ns') :
    Buffered target ns' nodes := by
  have ids : (ns.map DhtPeer.id).toFinset = (ns'.map DhtPeer.id).toFinset := by
    ext x
    simp [same]
  refine ⟨ids ▸ h.closest, fun x mem => ?_⟩
  obtain ⟨n, mem, e⟩ := h.from_nodes x mem
  exact ⟨n, (same n).1 mem, e⟩

/-- `buffer_closest_nodes` -/
theorem Buffered.buffer (h : Buffered target ns nodes) (now : Time) (bs : Buckets) (i : ℕ) :
    Buffered target (ns ++ (nodesAt bs i).filter (nodeGood now)) (bufferClosestNodes now target bs i nodes) := by
  unfold bufferClosestNodes
  generalize nodesAt bs i = more
  induction more generalizing ns nodes with
  | nil => simpa using h
  | cons n more ih =>
    rw [List.foldl_cons]
    by_cases good : nodeGood now n = true
    · rw [if_pos good, List.filter_cons_of_pos good]
      refine (ih (h.insert n)).congr fun x => ?_
      simp only [List.mem_append, List.mem_cons]
      tauto
    · rw [if_neg good, List.filter_cons_of_neg good]
      exact ih h

end Insertion

/-! ## The three buckets -/

section Closest

variable {me target x y : DhtId} {af : Family} {d i : ℕ} {bs : Buckets} {b : Bucket} {now : Time}

/-- The good nodes of the bucket of an id and of those beside it. -/
def nearbyNodes (now : Time) (target : DhtId) (bs : Buckets) : List DhtPeer :=
  match findBucket target bs with
  | none => []
  | some i =>
    let beside := match previousBucket i with
      | none => []
      | some p => nodesAt bs p
    (nodesAt bs i ++ nodesAt bs (i + 1) ++ beside).filter (nodeGood now)

theorem nodesAt_of_le (h : bs.length ≤ i) : nodesAt bs i = [] := by
  rw [nodesAt, List.getElem?_eq_none_iff.2 h]
  rfl

/-- A reply has the eight nearest of the good nodes in these buckets. -/
theorem buffered_closestNodes (now : Time) (target : DhtId) (bs : Buckets) :
    Buffered target (nearbyNodes now target bs) (closestNodes now target bs) := by
  unfold closestNodes nearbyNodes
  cases findBucket target bs with
  | none => exact buffered_nil target
  | some i =>
    have first := (buffered_nil target).buffer now bs i
    have second : Buffered target ((nodesAt bs i ++ nodesAt bs (i + 1)).filter (nodeGood now))
        (if i + 1 < bs.length then bufferClosestNodes now target bs (i + 1) (bufferClosestNodes now target bs i [])
          else bufferClosestNodes now target bs i []) := by
      split_ifs with next
      · rw [List.filter_append]
        exact first.buffer now bs (i + 1)
      · rw [nodesAt_of_le (not_lt.1 next), List.append_nil]
        exact first
    dsimp only
    cases previousBucket i with
    | none =>
      rw [List.append_nil]
      exact second
    | some p =>
      rw [List.filter_append]
      exact second.buffer now bs p

theorem closestNodes_length_le (now : Time) (target : DhtId) (bs : Buckets) :
    (closestNodes now target bs).length ≤ 8 := by
  simpa using (buffered_closestNodes now target bs).closest.length_le

theorem mem_nodesAt {n : DhtPeer} (mem : n ∈ nodesAt bs i) : n ∈ tableNodes bs := by
  unfold nodesAt at mem
  cases h : bs[i]? with
  | none => simp [h] at mem
  | some b =>
    rw [h] at mem
    exact List.mem_flatMap.2 ⟨b, List.mem_of_getElem? h, mem⟩

theorem mem_nearbyNodes {n : DhtPeer} (mem : n ∈ nearbyNodes now target bs) :
    n ∈ tableNodes bs ∧ nodeGood now n = true := by
  unfold nearbyNodes at mem
  split at mem
  · cases mem
  · obtain ⟨mem, good⟩ := List.mem_filter.1 mem
    refine ⟨?_, good⟩
    rw [List.mem_append, List.mem_append] at mem
    rcases mem with (mem | mem) | mem
    · exact mem_nodesAt mem
    · exact mem_nodesAt mem
    · split at mem
      · cases mem
      · exact mem_nodesAt mem

/-- Every node in a reply is a good one of the table, with its address. -/
theorem mem_closestNodes {x : DhtId × SockAddr} (mem : x ∈ closestNodes now target bs) :
    ∃ n ∈ tableNodes bs, nodeGood now n = true ∧ x = (n.id, n.ss) := by
  obtain ⟨n, mem, e⟩ := (buffered_closestNodes now target bs).from_nodes x mem
  exact ⟨n, (mem_nearbyNodes mem).1, (mem_nearbyNodes mem).2, e⟩

/-- Nodes in the bucket of an id are nearer to it than nodes in other buckets. -/
theorem SoundTable.dist_lt (sound : SoundTable me af d bs) (hb : bs[i]? = some b)
    (here : inBucket target bs i = true) (inside : inBucket x bs i = true) (outside : ¬ inBucket y bs i = true) :
    x.dist target < y.dist target := by
  rw [sound.inBucket_iff hb] at here inside outside
  rw [← here, nearness_eq, nearness_eq] at inside outside
  exact KBuckets.xor_lt_of_near sound.depth_le me.number_lt target.number_lt x.number_lt y.number_lt inside outside

/-- If there are eight good nodes in the bucket of an id, a reply has the eight nearest of the table. -/
theorem SoundTable.closest_of_eight (sound : SoundTable me af d bs) (found : Orcashi.findBucket target bs = some i)
    (eight : 8 ≤ ((nodesAt bs i).filter (nodeGood now)).length) :
    Closest (fun x => x.dist target) 8 (((tableNodes bs).filter (nodeGood now)).map DhtPeer.id).toFinset
      ((closestNodes now target bs).map Prod.fst) := by
  obtain ⟨j, b, found', hb, here, -⟩ := sound.findBucket target
  obtain rfl : j = i := Option.some.inj (found'.symm.trans found)
  have nodes : nodesAt bs j = b.nodes := by
    rw [nodesAt, hb]
    rfl
  have buffered := buffered_closestNodes now target bs
  have closest := buffered.closest
  -- the ids of the good nodes in the bucket
  generalize hB : ((b.nodes.filter (nodeGood now)).map DhtPeer.id).toFinset = B
  have card : 8 ≤ B.card := by
    have nodup : ((b.nodes.filter (nodeGood now)).map DhtPeer.id).Nodup :=
      (sound.bucket hb).nodup.sublist (List.filter_sublist.map _)
    rwa [← hB, List.toFinset_card_of_nodup nodup, List.length_map, ← nodes]
  have inside : ∀ x ∈ B, inBucket x bs j = true := by
    intro x mem
    rw [← hB, List.mem_toFinset] at mem
    obtain ⟨n, hn, rfl⟩ := List.mem_map.1 mem
    exact ((sound.mem_nodesAt_iff hb).1 (List.mem_filter.1 hn).1).2
  have B_sub : B ⊆ ((nearbyNodes now target bs).map DhtPeer.id).toFinset := by
    intro x mem
    rw [← hB, List.mem_toFinset] at mem
    rw [List.mem_toFinset]
    refine List.map_subset _ (fun n mem => ?_) mem
    rw [nearbyNodes, found]
    obtain ⟨mem, good⟩ := List.mem_filter.1 mem
    refine List.mem_filter.2 ⟨?_, good⟩
    simp [nodes, mem]
  -- whatever is in the reply is in the bucket, since the eight nodes there are nearer than any other
  have reply_inside : ∀ y ∈ (closestNodes now target bs).map Prod.fst, inBucket y bs j = true := by
    intro y mem
    by_contra outside
    have few := ((closest.mem_iff (dist_injective target)).1 mem).2
    have sub : B ⊆ ((nearbyNodes now target bs).map DhtPeer.id).toFinset.filter
        fun z => z.dist target < y.dist target := fun z hz =>
      Finset.mem_filter.2 ⟨B_sub hz, sound.dist_lt hb here (inside z hz) outside⟩
    have := Finset.card_le_card sub
    omega
  refine ⟨closest.sorted, closest.length_le, fun x mem => ?_, fun x mem => ?_⟩
  · have mem := closest.subset x mem
    rw [List.mem_toFinset] at mem ⊢
    refine List.map_subset _ (fun n mem => ?_) mem
    exact List.mem_filter.2 (mem_nearbyNodes mem)
  · rw [List.mem_toFinset] at mem
    obtain ⟨n, hn, rfl⟩ := List.mem_map.1 mem
    obtain ⟨mem, good⟩ := List.mem_filter.1 hn
    by_cases n_inside : inBucket n.id bs j = true
    · refine closest.nearest n.id (B_sub ?_)
      rw [← hB, List.mem_toFinset]
      exact List.mem_map_of_mem (List.mem_filter.2 ⟨(sound.mem_nodesAt_iff hb).2 ⟨mem, n_inside⟩, good⟩)
    · refine Or.inr ⟨?_, fun y hy => sound.dist_lt hb here (reply_inside y hy) n_inside⟩
      by_contra short
      -- a reply that is not full has all nodes of the bucket
      have all : B ⊆ ((closestNodes now target bs).map Prod.fst).toFinset := by
        intro x hx
        rw [List.mem_toFinset]
        rcases closest.nearest x (B_sub hx) with ⟨y, hy, same⟩ | ⟨full, -⟩
        · exact DhtId.dist_inj.1 same ▸ hy
        · exact absurd full short
      have := Finset.card_le_card all
      have := List.toFinset_card_le ((closestNodes now target bs).map Prod.fst)
      have := closest.length_le
      omega

end Closest

end Orcashi
