import Mathlib.Algebra.Order.BigOperators.Group.List
import Orcashi.Dht.Buckets

/-!
# New nodes and old ones

`new_node` puts a node into its bucket, if this has room, a node that does not answer, or can be split.  A
good node is given up only by a split, if its own bucket is full afterwards.
-/

namespace Orcashi

open KBuckets XorMetric

section Nodes

variable {me id : DhtId} {af : Family} {d i j : ℕ} {bs : Buckets} {b : Bucket} {n : DhtPeer}

/-! ## Changes of one bucket -/

/-- The ids of all nodes. -/
def tableIds (bs : Buckets) : List DhtId := (tableNodes bs).map DhtPeer.id

theorem Bucket.Ok.congr {b' : Bucket} (ok : b.Ok me af d) (first : b'.first = b.first)
    (count : b'.count = b.count) (maxCount : b'.maxCount = b.maxCount) (nodes : b'.nodes = b.nodes) :
    b'.Ok me af d where
  count := by rw [count, nodes, ok.count]
  maxCount := by rw [maxCount, first, ok.maxCount]
  count_le := by rw [count, maxCount]; exact ok.count_le
  nodup := by rw [nodes]; exact ok.nodup
  nodes := by rw [nodes, first]; exact ok.nodes

/-- What a change of one bucket needs to keep for a node without room to stay without. -/
theorem Crowded.modify (h : Crowded me d n bs) {f : Bucket → Bucket}
    (keeps : ∀ b, bs[i]? = some b →
      (f b).first = b.first ∧ (f b).maxCount = b.maxCount ∧ b.count ≤ (f b).count) :
    Crowded me d n (bs.modify i f) := by
  obtain ⟨b, mem, near, far, full⟩ := h
  obtain ⟨j, hj⟩ := List.mem_iff_getElem?.1 mem
  have found : (bs.modify i f)[j]? = some (if i = j then f b else b) := by
    rw [List.getElem?_modify, hj, Option.map_eq_map, Option.map_some]
  refine ⟨_, List.mem_of_getElem? found, ?_⟩
  split_ifs with here
  · subst here
    obtain ⟨first, maxCount, count⟩ := keeps b hj
    rw [first, maxCount]
    exact ⟨near, far, by omega⟩
  · exact ⟨near, far, full⟩

/-- The nodes of a table stay as they are. -/
structure Untouched (me : DhtId) (af : Family) (d : ℕ) (bs bs' : Buckets) : Prop where
  sound : SoundTable me af d bs'
  starts : bucketStarts bs' = bucketStarts bs
  nodes : tableNodes bs' = tableNodes bs
  crowded : ∀ n, Crowded me d n bs → Crowded me d n bs'

theorem Untouched.refl (sound : SoundTable me af d bs) : Untouched me af d bs bs :=
  ⟨sound, rfl, rfl, fun _ h => h⟩

theorem Untouched.trans {bs₁ bs₂ : Buckets} (h₁ : Untouched me af d bs bs₁)
    (h₂ : Untouched me af d bs₁ bs₂) : Untouched me af d bs bs₂ :=
  ⟨h₂.sound, h₂.starts.trans h₁.starts, h₂.nodes.trans h₁.nodes, fun n h => h₂.crowded n (h₁.crowded n h)⟩

theorem Untouched.inBucket {x : DhtId} {bs' : Buckets} (h : Untouched me af d bs bs') (i : ℕ) :
    inBucket x bs' i = inBucket x bs i := by
  rw [Bool.eq_iff_iff, inBucket_iff, inBucket_iff, h.starts]

theorem tableNodes_modify {f : Bucket → Bucket} (h : ∀ b, (f b).nodes = b.nodes) :
    tableNodes (bs.modify i f) = tableNodes bs := by
  cases hb : bs[i]? with
  | none => rw [List.modify_eq_self (List.getElem?_eq_none_iff.1 hb)]
  | some b =>
    obtain ⟨front, back, rfl, rfl⟩ := exists_append hb
    simp only [modify_append, tableNodes_append, tableNodes_cons, h]

theorem SoundTable.untouched (sound : SoundTable me af d bs) {f : Bucket → Bucket}
    (h : ∀ b, (f b).first = b.first ∧ (f b).count = b.count ∧ (f b).maxCount = b.maxCount ∧
      (f b).nodes = b.nodes) : Untouched me af d bs (bs.modify i f) where
  sound := sound.modify fun b _ ok => ⟨(h b).1, ok.congr (h b).1 (h b).2.1 (h b).2.2.1 (h b).2.2.2⟩
  starts := starts_modify fun b _ => (h b).1
  nodes := tableNodes_modify fun b => (h b).2.2.2
  crowded _ full := full.modify fun b _ => ⟨(h b).1, (h b).2.2.1, (h b).2.1.ge⟩

theorem SoundTable.touch (sound : SoundTable me af d bs) (now : Time) (confirm : ℕ) :
    Untouched me af d bs (touch now confirm i bs) := by
  unfold Orcashi.touch
  split_ifs
  · exact sound.untouched fun _ => ⟨rfl, rfl, rfl, rfl⟩
  · exact .refl sound

theorem SoundTable.setCached (sound : SoundTable me af d bs) (sa : SockAddr) :
    Untouched me af d bs (setCached i sa bs) :=
  sound.untouched fun _ => ⟨rfl, rfl, rfl, rfl⟩

theorem SoundTable.sendCachedPingAt (sound : SoundTable me af d bs) :
    Untouched me af d bs (sendCachedPingAt i bs).1 := by
  apply sound.untouched
  intro b
  unfold sendCachedPing
  cases b.cached <;> exact ⟨rfl, rfl, rfl, rfl⟩

/-! ## Changes of one node -/

/-- One node of a table is exchanged. -/
structure Exchanged (me : DhtId) (af : Family) (d : ℕ) (n n' : DhtPeer) (bs bs' : Buckets) : Prop where
  sound : SoundTable me af d bs'
  nodes : ∃ front back, tableNodes bs = front ++ n :: back ∧ tableNodes bs' = front ++ n' :: back
  crowded : ∀ n, Crowded me d n bs → Crowded me d n bs'

theorem Exchanged.untouched {n' : DhtPeer} {bs₁ bs₂ : Buckets} (h : Exchanged me af d n n' bs bs₁)
    (h' : Untouched me af d bs₁ bs₂) : Exchanged me af d n n' bs bs₂ where
  sound := h'.sound
  nodes := by rw [h'.nodes]; exact h.nodes
  crowded n full := h'.crowded n (h.crowded n full)

theorem nodup_modify {f : DhtPeer → DhtPeer} {nodes : List DhtPeer} (nodup : (nodes.map DhtPeer.id).Nodup)
    (hj : nodes[j]? = some n) (new : (f n).id = n.id ∨ (f n).id ∉ nodes.map DhtPeer.id) :
    ((nodes.modify j f).map DhtPeer.id).Nodup := by
  obtain ⟨inside, rfl⟩ := List.getElem?_eq_some_iff.1 hj
  have set : (nodes.modify j f).map DhtPeer.id = (nodes.map DhtPeer.id).set j (f nodes[j]).id := by
    rw [List.modify_eq_set_getElem? , List.getElem?_eq_getElem inside, Option.map_eq_map, Option.map_some,
      Option.getD_some, List.map_set]
  rw [set]
  rcases new with same | new
  · rw [same, ← List.map_set, List.set_getElem_self]
    exact nodup
  · exact nodup.set new

theorem SoundTable.modifyNode (sound : SoundTable me af d bs) {f : DhtPeer → DhtPeer} (hb : bs[i]? = some b)
    (hj : b.nodes[j]? = some n) (good : (f n).Ok me af)
    (new : (f n).id = n.id ∨ (f n).id ∉ b.nodes.map DhtPeer.id ∧ inBucket (f n).id bs i = true) :
    Exchanged me af d n (f n) bs (modifyNode i j f bs) where
  sound := sound.modify fun b' hb' ok => by
    obtain rfl := Option.some.inj (hb.symm.trans hb')
    have mem := List.mem_of_getElem? hj
    have near : nearness me d (f n).id = nearness me d b.first := by
      rcases new with same | ⟨-, inside⟩
      · rw [same]
        exact (ok.nodes n mem).2
      · exact (sound.inBucket_iff hb).1 inside
    refine ⟨rfl, ?_, ok.maxCount, ok.count_le, nodup_modify ok.nodup hj (new.imp_right And.left), ?_⟩
    · show b.count = ((b.nodes.modify j f).length : ℤ)
      rw [List.length_modify, ok.count]
    · intro n' mem'
      obtain ⟨k, hk⟩ := List.mem_iff_getElem?.1 mem'
      rw [List.getElem?_modify] at hk
      by_cases here : j = k
      · subst here
        rw [hj, Option.map_eq_map, Option.map_some, if_pos rfl] at hk
        exact Option.some.inj hk ▸ ⟨good, near⟩
      · obtain ⟨n'', hn'', rfl⟩ : ∃ n'', b.nodes[k]? = some n'' ∧ n'' = n' := by
          simpa [here] using hk
        exact ok.nodes n'' (List.mem_of_getElem? hn'')
  nodes := by
    obtain ⟨front, back, rfl, rfl⟩ := exists_append hb
    obtain ⟨inside, rfl⟩ := List.getElem?_eq_some_iff.1 hj
    refine ⟨tableNodes front ++ b.nodes.take j, b.nodes.drop (j + 1) ++ tableNodes back, ?_, ?_⟩
    · have split := List.take_append_drop j b.nodes
      rw [← List.cons_getElem_drop_succ (h := inside)] at split
      conv_lhs => rw [tableNodes_append, tableNodes_cons, ← split]
      simp only [List.append_assoc, List.cons_append]
    · rw [Orcashi.modifyNode, modify_append, tableNodes_append, tableNodes_cons,
        List.modify_eq_take_cons_drop inside]
      simp only [List.append_assoc, List.cons_append]
  crowded n full := full.modify fun _ _ => ⟨rfl, rfl, le_rfl⟩

/-- `pinged`, with a bucket or without. -/
theorem SoundTable.pinged (sound : SoundTable me af d bs) (now : Time) (hb : bs[i]? = some b)
    (hj : b.nodes[j]? = some n) (k : Option ℕ) :
    Exchanged me af d n { n with pinged := n.pinged + 1, pingedTime := now } bs
      (pinged now i j k bs).1 := by
  have here : (nodesAt bs i)[j]? = some n := by
    rw [nodesAt, hb]
    exact hj
  have ok := ((sound.bucket hb).nodes n (List.mem_of_getElem? hj)).1
  have changed := sound.modifyNode (f := fun n => { n with pinged := n.pinged + 1, pingedTime := now }) hb hj
    ⟨ok.ne_me, ok.family, ok.address⟩ (Or.inl rfl)
  unfold Orcashi.pinged
  rw [here]
  dsimp only
  split_ifs
  · split
    · exact changed
    · exact changed.untouched changed.sound.sendCachedPingAt
  · exact changed

theorem exists_of_nodesAt (h : (nodesAt bs i)[j]? = some n) : ∃ b, bs[i]? = some b ∧ b.nodes[j]? = some n := by
  unfold nodesAt at h
  cases hb : bs[i]? with
  | none => simp [hb] at h
  | some b => exact ⟨b, rfl, by simpa [hb] using h⟩

theorem modifyNode_of_none {f : DhtPeer → DhtPeer} (h : (nodesAt bs i)[j]? = none) :
    modifyNode i j f bs = bs := by
  unfold modifyNode
  cases hb : bs[i]? with
  | none => rw [List.modify_eq_self (List.getElem?_eq_none_iff.1 hb)]
  | some b =>
    rw [nodesAt, hb, Option.map_some, Option.getD_some, List.getElem?_eq_none_iff] at h
    obtain ⟨front, back, rfl, rfl⟩ := exists_append hb
    rw [modify_append, List.modify_eq_self h]

/-- A node may be changed as long as it keeps its id and its address. -/
theorem SoundTable.modifyAny (sound : SoundTable me af d bs) {f : DhtPeer → DhtPeer}
    (keeps : ∀ n, n.Ok me af → (f n).id = n.id ∧ (f n).Ok me af) (i j : ℕ) :
    SoundTable me af d (Orcashi.modifyNode i j f bs) := by
  cases h : (nodesAt bs i)[j]? with
  | none => rwa [modifyNode_of_none h]
  | some n =>
    obtain ⟨b, hb, hj⟩ := exists_of_nodesAt h
    have ok := ((sound.bucket hb).nodes n (List.mem_of_getElem? hj)).1
    exact (sound.modifyNode hb hj (keeps n ok).2 (Or.inl (keeps n ok).1)).sound

theorem SoundTable.pingedAny (sound : SoundTable me af d bs) (now : Time) (i j : ℕ) (k : Option ℕ) :
    SoundTable me af d (Orcashi.pinged now i j k bs).1 := by
  cases h : (nodesAt bs i)[j]? with
  | none => simpa [Orcashi.pinged, h] using sound
  | some n =>
    obtain ⟨b, hb, hj⟩ := exists_of_nodesAt h
    exact (sound.pinged now hb hj k).sound

/-! ## One round of `new_node` -/

/-- A node that is pinged once more. -/
def DhtPeer.again (now : Time) (n : DhtPeer) : DhtPeer := { n with pinged := n.pinged + 1, pingedTime := now }

theorem Exchanged.mem_left {n' x : DhtPeer} {bs' : Buckets} (h : Exchanged me af d n n' bs bs')
    (mem : x ∈ tableNodes bs) : x = n ∨ x ∈ tableNodes bs' := by
  obtain ⟨front, back, before, after⟩ := h.nodes
  simp only [before, after, List.mem_append, List.mem_cons] at mem ⊢
  tauto

theorem Exchanged.mem_right {n' x : DhtPeer} {bs' : Buckets} (h : Exchanged me af d n n' bs bs')
    (mem : x ∈ tableNodes bs') : x = n' ∨ x ∈ tableNodes bs := by
  obtain ⟨front, back, before, after⟩ := h.nodes
  simp only [before, after, List.mem_append, List.mem_cons] at mem ⊢
  tauto

theorem Exchanged.mem_new {n' : DhtPeer} {bs' : Buckets} (h : Exchanged me af d n n' bs bs') :
    n' ∈ tableNodes bs' := by
  obtain ⟨front, back, -, after⟩ := h.nodes
  simp [after]

theorem Exchanged.mem_old {n' : DhtPeer} {bs' : Buckets} (h : Exchanged me af d n n' bs bs') :
    n ∈ tableNodes bs := by
  obtain ⟨front, back, before, -⟩ := h.nodes
  simp [before]

/-- What `new_node` makes of a table of depth `d`. -/
structure Learnt (me : DhtId) (af : Family) (d e : ℕ) (now : Time) (id : DhtId) (bs : Buckets) (r : NewNode) :
    Prop where
  deeper : d ≤ e
  sound : SoundTable me af e r.buckets
  found : r.found = true ↔ id ∈ tableIds r.buckets
  origin : ∀ n ∈ tableNodes r.buckets, n.id = id ∨ n ∈ tableNodes bs ∨
    ∃ n₀ ∈ tableNodes bs, nodeGood now n₀ = false ∧ n = n₀.again now
  kept : ∀ n ∈ tableNodes bs, n.id ≠ id → n ∈ tableNodes r.buckets ∨
    (nodeGood now n = false ∧ n.again now ∈ tableNodes r.buckets) ∨ expendable now n = true ∨
      (d < e ∧ Crowded me e n r.buckets)
  crowded : ∀ n, Crowded me d n bs → Crowded me e n r.buckets

section Round

variable {sa : SockAddr} {now : Time} {confirm : ℕ}

theorem heardAgain_id : (heardAgain now sa confirm n).id = n.id := by
  unfold heardAgain
  split_ifs <;> rfl

theorem DhtPeer.Ok.heardAgain (ok : n.Ok me af) (family : sa.family = af) (address : isMartian sa = false) :
    (heardAgain now sa confirm n).Ok me af := by
  unfold Orcashi.heardAgain
  by_cases h : confirm ≠ 0 ∨ n.time < now - 15 * 60
  · rw [if_pos h]
    exact ⟨ok.ne_me, family, address⟩
  · rw [if_neg h]
    exact ok

/-- A node that is not in its bucket is not in the table. -/
theorem SoundTable.notMem_tableIds (sound : SoundTable me af d bs) (hb : bs[i]? = some b)
    (inside : inBucket id bs i = true) (unknown : (b.nodes.findIdx? fun n => n.id = id) = none) :
    id ∉ tableIds bs := by
  intro known
  obtain ⟨n, mem, rfl⟩ := List.mem_map.1 known
  have here := (sound.mem_nodesAt_iff hb).2 ⟨mem, inside⟩
  simpa using List.findIdx?_eq_none_iff.1 unknown n here

theorem SoundTable.pingDubious (sound : SoundTable me af d bs) (now : Time) (i : ℕ) :
    Untouched me af d bs (pingDubious now i bs).1 ∨
      ∃ n, nodeGood now n = false ∧ Exchanged me af d n (n.again now) bs (pingDubious now i bs).1 := by
  unfold Orcashi.pingDubious
  dsimp only
  split
  · exact Or.inl (.refl sound)
  · rename_i j found
    obtain ⟨inside, dubious, -⟩ := List.findIdx?_eq_some_iff_getElem.1 found
    rw [Bool.and_eq_true] at dubious
    refine Or.inr ⟨(nodesAt bs i)[j], by simpa using dubious.1, ?_⟩
    have here : nodesAt bs i = ((bs[i]?.map Bucket.nodes).getD []) := rfl
    cases hb : bs[i]? with
    | none => simp [here, hb] at inside
    | some b =>
      have nodes : nodesAt bs i = b.nodes := by simp [here, hb]
      have hj : b.nodes[j]? = some (nodesAt bs i)[j] := by rw [← nodes, List.getElem?_eq_getElem inside]
      have ok := ((sound.bucket hb).nodes _ (List.mem_of_getElem? hj)).1
      exact sound.modifyNode hb hj ⟨ok.ne_me, ok.family, ok.address⟩ (Or.inl rfl)

/-- The bucket is full and not split: no node comes or goes. -/
theorem SoundTable.learnt_full (sound : SoundTable me af d bs) (unknown : id ∉ tableIds bs) {r : NewNode}
    (notFound : r.found = false) (h : Untouched me af d (Orcashi.pingDubious now i bs).1 r.buckets) :
    Learnt me af d d now id bs r := by
  rcases sound.pingDubious now i with same | ⟨n, dubious, changed⟩
  · have same := same.trans h
    refine ⟨le_rfl, h.sound, ?_, fun n mem => ?_, fun n mem _ => Or.inl ?_, same.crowded⟩
    · simpa [notFound, tableIds, same.nodes] using unknown
    · exact Or.inr (Or.inl (same.nodes ▸ mem))
    · exact same.nodes ▸ mem
  · have changed := changed.untouched h
    have old := changed.mem_old
    refine ⟨le_rfl, h.sound, ?_, fun x mem => ?_, fun x mem _ => ?_, changed.crowded⟩
    · rw [notFound]
      refine iff_of_false (by decide) fun known => unknown ?_
      obtain ⟨x, mem, rfl⟩ := List.mem_map.1 known
      rcases changed.mem_right mem with rfl | mem
      · exact List.mem_map.2 ⟨n, old, rfl⟩
      · exact List.mem_map_of_mem mem
    · rcases changed.mem_right mem with rfl | mem
      · exact Or.inr (Or.inr ⟨n, old, dubious, rfl⟩)
      · exact Or.inr (Or.inl mem)
    · rcases changed.mem_left mem with rfl | mem
      · exact Or.inr (Or.inl ⟨dubious, changed.mem_new⟩)
      · exact Or.inl mem

/-- A node is put in the place of another one, or heard of again. -/
theorem SoundTable.learnt_exchanged {n' : DhtPeer} {r : NewNode} (h : Exchanged me af d n n' bs r.buckets)
    (found : r.found = true) (same : n'.id = id) (gone : n.id = id ∨ expendable now n = true) :
    Learnt me af d d now id bs r := by
  refine ⟨le_rfl, h.sound, ?_, fun x mem => ?_, fun x mem other => ?_, h.crowded⟩
  · exact iff_of_true found (same ▸ List.mem_map_of_mem h.mem_new)
  · rcases h.mem_right mem with rfl | mem
    · exact Or.inl same
    · exact Or.inr (Or.inl mem)
  · rcases h.mem_left mem with rfl | mem
    · exact Or.inr (Or.inr (Or.inl (gone.resolve_left other)))
    · exact Or.inl mem

/-- There is room for the node. -/
theorem SoundTable.learnt_push (sound : SoundTable me af d bs) (hb : bs[i]? = some b)
    (inside : inBucket n.id bs i = true) (unknown : n.id ∉ tableIds bs) (good : n.Ok me af)
    (room : b.count < b.maxCount) {r : NewNode} (found : r.found = true)
    (pushed : r.buckets = bs.modify i (Bucket.push n)) : Learnt me af d d now n.id bs r := by
  have perm : (tableNodes r.buckets).Perm (n :: tableNodes bs) := pushed ▸ tableNodes_push hb
  refine ⟨le_rfl, ?_, ?_, fun x mem => ?_, fun x mem _ => Or.inl ?_, fun x full => ?_⟩
  · rw [pushed]
    refine sound.modify fun b' hb' ok => ?_
    obtain rfl := Option.some.inj (hb.symm.trans hb')
    refine ⟨rfl, ok.push good ((sound.inBucket_iff hb).1 inside) (fun mem => unknown ?_) room⟩
    obtain ⟨x, mem, same⟩ := List.mem_map.1 mem
    exact same ▸ List.mem_map_of_mem ((sound.mem_nodesAt_iff hb).1 mem).1
  · exact iff_of_true found (List.mem_map_of_mem (perm.mem_iff.2 List.mem_cons_self))
  · rcases List.mem_cons.1 (perm.mem_iff.1 mem) with rfl | mem
    · exact Or.inl rfl
    · exact Or.inr (Or.inl mem)
  · exact perm.mem_iff.2 (List.mem_cons_of_mem n mem)
  · exact pushed ▸ full.push

theorem Redistributed.of_untouched {e : ℕ} {bs₁ bs' : Buckets} (h : Untouched me af d bs bs₁)
    (h' : Redistributed True me af d e [] bs₁ [] bs') : Redistributed True me af d e [] bs [] bs' where
  deeper := h'.deeper
  sound := h'.sound
  subset n mem := by
    have := h'.subset n mem
    rwa [h.nodes] at this
  kept has n mem := h'.kept has n (by rwa [h.nodes])
  crowded n full := h'.crowded n (h.crowded n full)

theorem Learnt.of_untouched {e : ℕ} {bs₁ : Buckets} {r : NewNode} (h : Untouched me af d bs bs₁)
    (h' : Learnt me af d e now id bs₁ r) : Learnt me af d e now id bs r where
  deeper := h'.deeper
  sound := h'.sound
  found := h'.found
  origin := by
    rw [← h.nodes]
    exact h'.origin
  kept := by
    rw [← h.nodes]
    exact h'.kept
  crowded n full := h'.crowded n (h.crowded n full)

/-- A round after a split. -/
theorem Learnt.of_redistributed {e e' : ℕ} {bs₁ : Buckets} {r : NewNode} (lt : d < e)
    (h : Redistributed True me af d e [] bs [] bs₁) (h' : Learnt me af e e' now id bs₁ r) :
    Learnt me af d e' now id bs r where
  deeper := h.deeper.trans h'.deeper
  sound := h'.sound
  found := h'.found
  origin n mem := by
    rcases h'.origin n mem with here | mem | ⟨n₀, mem₀, dubious, rfl⟩
    · exact Or.inl here
    · exact Or.inr (Or.inl (h.subset n mem))
    · exact Or.inr (Or.inr ⟨n₀, h.subset n₀ mem₀, dubious, rfl⟩)
  kept n mem other := by
    have deeper : d < e' := lt.trans_le h'.deeper
    rcases h.kept trivial n mem with mem | full
    · rcases h'.kept n mem other with mem | dubious | gone | ⟨-, full⟩
      · exact Or.inl mem
      · exact Or.inr (Or.inl dubious)
      · exact Or.inr (Or.inr (Or.inl gone))
      · exact Or.inr (Or.inr (Or.inr ⟨deeper, full⟩))
    · exact Or.inr (Or.inr (Or.inr ⟨deeper, h'.crowded n full⟩))
  crowded n full := h'.crowded n (h.crowded n full)

/-- A round of `new_node` ends it, or splits the own bucket. -/
theorem SoundTable.newNodeRound (sound : SoundTable me af d bs) (now : Time) (id : DhtId) (confirm : ℕ)
    (family : sa.family = af) (address : isMartian sa = false) :
    ((newNodeRound me now id sa confirm bs).2 = false ∧
      Learnt me af d d now id bs (newNodeRound me now id sa confirm bs).1) ∨
    ((newNodeRound me now id sa confirm bs).2 = true ∧
      ∃ e, d < e ∧ Redistributed True me af d e [] bs [] (newNodeRound me now id sa confirm bs).1.buckets) := by
  obtain ⟨i, b₀, found, hb₀, inside₀, -⟩ := sound.findBucket id
  unfold Orcashi.newNodeRound
  rw [found]
  dsimp only
  by_cases self : id = me
  · rw [if_pos self]
    refine Or.inl ⟨rfl, le_rfl, sound, ?_, fun n mem => Or.inr (Or.inl mem), fun n mem _ => Or.inl mem,
      fun n full => full⟩
    refine iff_of_false Bool.false_ne_true fun known => ?_
    obtain ⟨n, mem, same⟩ := List.mem_map.1 known
    exact (sound.peer_ok mem).ne_me (same.trans self)
  rw [if_neg self]
  have touched := sound.touch (i := i) now confirm
  generalize Orcashi.touch now confirm i bs = bs₁ at touched
  have inside : inBucket id bs₁ i = true := by rw [touched.inBucket, inside₀]
  rw [← touched.inBucket]
  have sound₁ := touched.sound
  obtain ⟨b, hb⟩ := SoundTable.exists_getElem? inside
  rw [hb]
  dsimp only
  have fresh : (newPeer now id sa confirm).Ok me af := ⟨self, family, address⟩
  cases known : b.nodes.findIdx? fun n => n.id = id with
  | some j =>
    obtain ⟨inside', same, -⟩ := List.findIdx?_eq_some_iff_getElem.1 known
    have same : b.nodes[j].id = id := of_decide_eq_true same
    have ok := ((sound₁.bucket hb).nodes _ (List.getElem_mem inside')).1
    have changed := sound₁.modifyNode (f := Orcashi.heardAgain now sa confirm) hb
      (List.getElem?_eq_getElem inside') (ok.heardAgain family address) (Or.inl heardAgain_id)
    exact Or.inl ⟨rfl, .of_untouched touched
      (SoundTable.learnt_exchanged changed rfl (heardAgain_id.trans same) (Or.inl same))⟩
  | none =>
    have unknown := sound₁.notMem_tableIds hb inside known
    cases gone : b.nodes.findIdx? (expendable now) with
    | some j =>
      obtain ⟨inside', bad, -⟩ := List.findIdx?_eq_some_iff_getElem.1 gone
      have new : id ∉ b.nodes.map DhtPeer.id := by simpa using List.findIdx?_eq_none_iff.1 known
      have changed := sound₁.modifyNode (f := fun _ => newPeer now id sa confirm) hb
        (List.getElem?_eq_getElem inside') fresh (Or.inr ⟨new, inside⟩)
      exact Or.inl ⟨rfl, .of_untouched touched (SoundTable.learnt_exchanged changed rfl rfl (Or.inr bad))⟩
    | none =>
      dsimp only
      by_cases full : b.maxCount ≤ b.count
      · rw [if_pos full]
        by_cases splits : (inBucket me bs₁ i && b.nodes.all (nodeGood now)) = true
        · rw [if_pos splits]
          have mine := (Bool.and_eq_true_iff.1 splits).1
          obtain ⟨bs', out, e, split, lt, done⟩ :=
            @SoundTable.splitBucket _ _ _ _ _ _ sound₁ hb mine (sound₁.depth_lt hb mine inside self)
              (fun _ => true) rfl
          rw [split]
          exact Or.inr ⟨rfl, e, lt, .of_untouched touched (done.with_memory fun _ => rfl)⟩
        · rw [if_neg splits]
          refine Or.inl ⟨rfl, .of_untouched touched ?_⟩
          unfold newNodeFull
          dsimp only
          split_ifs
          · exact sound₁.learnt_full unknown rfl
              (((sound₁.pingDubious _ _).elim Untouched.sound fun ⟨_, _, h⟩ => h.sound).setCached sa)
          · exact sound₁.learnt_full unknown rfl
              (.refl ((sound₁.pingDubious _ _).elim Untouched.sound fun ⟨_, _, h⟩ => h.sound))
      · rw [if_neg full]
        exact Or.inl ⟨rfl, .of_untouched touched
          (sound₁.learnt_push (n := newPeer now id sa confirm) hb inside unknown fresh (not_le.1 full) rfl rfl)⟩

/-- `new_node` makes at most as many rounds as the table can still be split, and one. -/
theorem SoundTable.newNodeLoop (fuel : ℕ) (enough : 161 - d ≤ fuel) (sound : SoundTable me af d bs)
    (family : sa.family = af) (address : isMartian sa = false) :
    (∃ e, Learnt me af d e now id bs (newNodeLoop me now id sa confirm fuel bs)) ∧
      ∀ fuel', 161 - d ≤ fuel' →
        newNodeLoop me now id sa confirm fuel' bs = newNodeLoop me now id sa confirm fuel bs := by
  induction fuel generalizing d bs with
  | zero =>
    have := sound.depth_le
    omega
  | succ fuel ih =>
    have positive (fuel' : ℕ) (h : 161 - d ≤ fuel') : ∃ k, fuel' = k + 1 :=
      ⟨fuel' - 1, by have := sound.depth_le; omega⟩
    rcases sound.newNodeRound now id confirm family address with
      ⟨ends, learnt⟩ | ⟨again, e, lt, done⟩
    · have once (k : ℕ) : Orcashi.newNodeLoop me now id sa confirm (k + 1) bs =
          (Orcashi.newNodeRound me now id sa confirm bs).1 := by
        rw [Orcashi.newNodeLoop]
        simp [ends]
      refine ⟨⟨d, once fuel ▸ learnt⟩, fun fuel' h => ?_⟩
      obtain ⟨k, rfl⟩ := positive fuel' h
      rw [once, once]
    · have step (k : ℕ) : Orcashi.newNodeLoop me now id sa confirm (k + 1) bs =
          let r := (Orcashi.newNodeRound me now id sa confirm bs).1
          let r' := Orcashi.newNodeLoop me now id sa confirm k r.buckets
          ⟨r'.buckets, r.out ++ r'.out, r'.found, true, r'.search⟩ := by
        rw [Orcashi.newNodeLoop]
        simp [again]
      have depth := done.sound.depth_le
      obtain ⟨⟨e', learnt⟩, same⟩ := ih (by omega) done.sound
      refine ⟨⟨e', ?_⟩, fun fuel' h => ?_⟩
      · rw [step]
        exact .of_redistributed lt done ⟨learnt.deeper, learnt.sound, learnt.found, learnt.origin,
          learnt.kept, learnt.crowded⟩
      · obtain ⟨k, rfl⟩ := positive fuel' h
        rw [step, step]
        dsimp only
        rw [same k (by omega)]

/-- `new_node` on a table. -/
theorem SoundTable.newNodeIn (sound : SoundTable me af d bs) (now : Time) (id : DhtId) (confirm : ℕ)
    (family : sa.family = af) (address : isMartian sa = false) :
    ∃ e, Learnt me af d e now id bs (newNodeIn me now id sa confirm bs) :=
  (sound.newNodeLoop 161 (by omega) family address).1

end Round

/-! ## Expiry -/

theorem expireBucket_first (b : Bucket) : (expireBucket b).1.first = b.first := by
  unfold expireBucket
  dsimp only
  split_ifs
  · exact sendCachedPing_first _
  · rfl

theorem sendCachedPing_nodes (b : Bucket) : (sendCachedPing b).1.nodes = b.nodes := by
  unfold sendCachedPing
  cases b.cached <;> rfl

theorem sendCachedPing_count (b : Bucket) : (sendCachedPing b).1.count = b.count := by
  unfold sendCachedPing
  cases b.cached <;> rfl

theorem expireBucket_nodes (b : Bucket) : (expireBucket b).1.nodes = b.nodes.filter fun n => n.pinged < 4 := by
  unfold expireBucket
  dsimp only
  split_ifs with changed
  · exact sendCachedPing_nodes _
  · refine (List.filter_eq_self.2 ?_).symm
    refine List.length_filter_eq_length_iff.1 (Nat.le_antisymm (List.length_filter_le _ _) ?_)
    exact not_lt.1 changed

theorem Bucket.Ok.expire (ok : b.Ok me af d) : (expireBucket b).1.Ok me af d := by
  have sub : ((expireBucket b).1.nodes).Sublist b.nodes := by
    rw [expireBucket_nodes]
    exact List.filter_sublist
  have count : (expireBucket b).1.count = (expireBucket b).1.nodes.length := by
    rw [expireBucket_nodes]
    unfold expireBucket
    dsimp only
    have := ok.count
    split_ifs with changed
    · rw [sendCachedPing_count]
      dsimp only
      omega
    · have := List.length_filter_le (fun n : DhtPeer => decide (n.pinged < 4)) b.nodes
      dsimp only
      omega
  have maxCount : (expireBucket b).1.maxCount = b.maxCount := by
    unfold expireBucket
    dsimp only
    split_ifs
    · exact sendCachedPing_maxCount _
    · rfl
  refine ⟨count, ?_, ?_, ok.nodup.sublist (sub.map _), fun n mem => ?_⟩
  · rw [maxCount, expireBucket_first, ok.maxCount]
  · have := sub.length_le
    have := ok.count
    have := ok.count_le
    omega
  · rw [expireBucket_first]
    exact ok.nodes n (sub.subset mem)

/-- `expire_buckets` keeps exactly the nodes that were not pinged in vain four times. -/
theorem SoundTable.expireBuckets (sound : SoundTable me af d bs) :
    SoundTable me af d (expireBuckets bs).1 ∧
      tableNodes (expireBuckets bs).1 = (tableNodes bs).filter fun n => n.pinged < 4 := by
  refine ⟨⟨?_, fun b' mem => ?_⟩, ?_⟩
  · have same : bucketStarts (Orcashi.expireBuckets bs).1 = bucketStarts bs := by
      simp [Orcashi.expireBuckets, bucketStarts, expireBucket_first]
    rw [same]
    exact sound.layout
  · obtain ⟨b, hb, rfl⟩ := List.mem_map.1 mem
    exact (sound.buckets b hb).expire
  · simp [Orcashi.expireBuckets, tableNodes, List.flatMap_map, List.filter_flatMap, expireBucket_nodes]

/-! ## How many nodes there are -/

/-- Two ids belong into the same bucket if they share equally many bits with the own one, where only those are
counted by which the table is split. -/
theorem SoundTable.findBucket_eq_iff (sound : SoundTable me af d bs) (x y : DhtId) :
    Orcashi.findBucket x bs = Orcashi.findBucket y bs ↔ min (commonBits x me) d = min (commonBits y me) d := by
  unfold Orcashi.findBucket
  rw [if_neg sound.ne_nil, if_neg sound.ne_nil, Option.some_inj, findBucketLoop_eq, findBucketLoop_eq,
    sound.layout.cellOf_eq_iff x.number_lt y.number_lt, ← nearness_eq, ← nearness_eq]
  rfl

theorem SoundTable.length_le (sound : SoundTable me af d bs) :
    (tableNodes bs).length ≤ ((List.range (d + 1)).map capacity).sum := by
  have perm := (sound.layout.near_perm.map capacity).sum_eq
  have each : ∀ b ∈ bs, b.nodes.length ≤ capacity (nearness me d b.first) := by
    intro b mem
    have ok := sound.buckets b mem
    have := ok.count
    have := ok.count_le
    have := ok.maxCount
    omega
  calc (tableNodes bs).length = (bs.map fun b => b.nodes.length).sum := List.length_flatMap
    _ ≤ (bs.map fun b => capacity (nearness me d b.first)).sum := List.sum_le_sum each
    _ = (((bucketStarts bs).map (near 160 me.number d)).map capacity).sum := by
      simp [bucketStarts, Function.comp_def, nearness_eq]
    _ = _ := perm

/-- A table never has more than 1496 nodes: 128, 64, 32 and 16 that share the fewest bits with the own id, and
eight for every other number of bits. -/
theorem SoundTable.length_tableNodes_le (sound : SoundTable me af d bs) : (tableNodes bs).length ≤ 1496 := by
  have depth := sound.depth_le
  obtain ⟨k, all⟩ : ∃ k, 161 = d + 1 + k := ⟨160 - d, by omega⟩
  have most : ((List.range (d + 1)).map capacity).sum ≤ ((List.range 161).map capacity).sum := by
    rw [all, List.range_add (n := d + 1), List.map_append, List.sum_append]
    exact Nat.le_add_right _ _
  exact (sound.length_le.trans most).trans (by decide +kernel)

end Nodes

/-! ## What a table sends -/

section Pings

variable {me id : DhtId} {i : ℕ} {bs : Buckets} {b : Bucket} {o : Outgoing} {now : Time} {sa : SockAddr}
  {confirm : ℕ}

/-- Nothing else is sent for a table. -/
def Pings (out : List Outgoing) : Prop := ∀ o ∈ out, ∃ sa, o = pingTo sa

theorem pings_nil : Pings [] := fun _ mem => by cases mem

theorem Pings.append {out out' : List Outgoing} (h : Pings out) (h' : Pings out') : Pings (out ++ out') :=
  fun o mem => (List.mem_append.1 mem).elim (h o) (h' o)

theorem pings_sendCachedPing (b : Bucket) : Pings (sendCachedPing b).2 := by
  unfold sendCachedPing
  cases b.cached with
  | none => exact pings_nil
  | some sa => exact fun o mem => ⟨sa, List.mem_singleton.1 mem⟩

theorem pings_sendCachedPingAt (i : ℕ) (bs : Buckets) : Pings (sendCachedPingAt i bs).2 := by
  unfold sendCachedPingAt
  cases bs[i]? with
  | none => exact pings_nil
  | some b => exact pings_sendCachedPing b

theorem pings_pinged (now : Time) (i j : ℕ) (k : Option ℕ) (bs : Buckets) : Pings (pinged now i j k bs).2 := by
  unfold pinged
  split
  · exact pings_nil
  · dsimp only
    split_ifs
    · split
      · exact pings_nil
      · exact pings_sendCachedPingAt _ _
    · exact pings_nil

theorem pings_splitBucketHelper {calloc : Bool} {bs' : Buckets} {nodes : List DhtPeer}
    {out : List Outgoing} (h : splitBucketHelper calloc me i bs = some (bs', nodes, out)) : Pings out := by
  unfold splitBucketHelper at h
  split at h
  · cases h
  · split at h
    · split at h
      · cases h
      · cases h
        exact pings_sendCachedPing _
    · cases h

theorem pings_splitLoop (calloc : ℕ → Bool) (me : DhtId) (fuel : ℕ) (nodes : List DhtPeer) (bs : Buckets) :
    Pings (splitLoop calloc me fuel nodes bs).2.1 := by
  induction fuel generalizing nodes bs with
  | zero => cases nodes <;> exact pings_nil
  | succ fuel ih =>
    obtain _ | ⟨n, nodes⟩ := nodes
    · exact pings_nil
    rw [splitLoop]
    split
    · exact ih _ _
    · exact ih _ _
    · split_ifs
      · exact ih _ _
      · split
        · exact ih _ _
        · rename_i split
          exact (pings_splitBucketHelper split).append (ih _ _)

theorem pings_splitBucket {calloc : ℕ → Bool} {bs' : Buckets} {out : List Outgoing}
    (h : splitBucket calloc me i bs = some (bs', out)) : Pings out := by
  unfold splitBucket at h
  obtain ⟨⟨bs₁, nodes, out₁⟩, split, same⟩ := Option.map_eq_some_iff.1 h
  cases same
  exact (pings_splitBucketHelper split).append (pings_splitLoop _ _ _ _ _)

theorem pings_pingDubious (now : Time) (i : ℕ) (bs : Buckets) : Pings (pingDubious now i bs).2 := by
  unfold pingDubious
  dsimp only
  split
  · exact pings_nil
  · intro o mem
    rw [Option.mem_toList] at mem
    obtain ⟨n, -, rfl⟩ := Option.map_eq_some_iff.1 mem
    exact ⟨n.ss, rfl⟩

theorem pings_newNodeRound (me : DhtId) (now : Time) (id : DhtId) (sa : SockAddr) (confirm : ℕ) (bs : Buckets) :
    Pings (newNodeRound me now id sa confirm bs).1.out := by
  unfold newNodeRound
  split
  · exact pings_nil
  split_ifs
  · exact pings_nil
  dsimp only
  split
  · exact pings_nil
  split
  · exact pings_nil
  split
  · exact pings_nil
  split_ifs
  · split
    · exact pings_nil
    · rename_i split
      exact pings_splitBucket split
  · unfold newNodeFull
    dsimp only
    split_ifs <;> exact pings_pingDubious _ _ _
  · exact pings_nil

theorem pings_newNodeLoop (fuel : ℕ) (bs : Buckets) : Pings (newNodeLoop me now id sa confirm fuel bs).out := by
  induction fuel generalizing bs with
  | zero => exact pings_nil
  | succ fuel ih =>
    rw [newNodeLoop]
    dsimp only
    split_ifs
    · exact (pings_newNodeRound _ _ _ _ _ _).append (ih _)
    · exact pings_newNodeRound _ _ _ _ _ _

theorem pings_newNodeIn (me : DhtId) (now : Time) (id : DhtId) (sa : SockAddr) (confirm : ℕ) (bs : Buckets) :
    Pings (newNodeIn me now id sa confirm bs).out := pings_newNodeLoop 161 bs

theorem pings_expireBuckets (bs : Buckets) : Pings (expireBuckets bs).2 := by
  intro o mem
  obtain ⟨b, -, mem⟩ := List.mem_flatMap.1 mem
  unfold expireBucket at mem
  dsimp only at mem
  split_ifs at mem
  · exact pings_sendCachedPing _ o mem
  · cases mem

end Pings

end Orcashi
