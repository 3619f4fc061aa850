import Orcashi.Dht.Runs

/-!
# What `new_node` does to the DHT

Behind the change of the table, `new_node` offers the node to the searches, which may ping it.  This changes no
table except for the times and the numbers of pings.
-/

namespace Orcashi

section Tables

variable {bs bs' bs₁ : Buckets} {i : ℕ}

/-- Nodes were pinged. -/
structure Repinged (bs bs' : Buckets) : Prop where
  ids : tableIds bs' = tableIds bs
  length : bs'.length = bs.length
  noRoom : ∀ me n, Dht.NoRoom me n bs → Dht.NoRoom me n bs'

theorem Repinged.refl (bs : Buckets) : Repinged bs bs := ⟨rfl, rfl, fun _ _ h => h⟩

theorem Repinged.trans (h : Repinged bs bs₁) (h' : Repinged bs₁ bs') : Repinged bs bs' :=
  ⟨h'.ids.trans h.ids, h'.length.trans h.length, fun me n full => h'.noRoom me n (h.noRoom me n full)⟩

/-- What a change of one bucket keeps. -/
theorem repinged_modify {f : Bucket → Bucket} (h : ∀ b, (f b).first = b.first ∧ (f b).maxCount = b.maxCount ∧
    (f b).nodes.map DhtPeer.id = b.nodes.map DhtPeer.id) : Repinged bs (bs.modify i f) where
  ids := by
    cases hb : bs[i]? with
    | none => rw [List.modify_eq_self (List.getElem?_eq_none_iff.1 hb)]
    | some b =>
      obtain ⟨front, back, rfl, rfl⟩ := exists_append hb
      simp only [tableIds, modify_append, tableNodes_append, tableNodes_cons, List.map_append, (h b).2.2]
  length := List.length_modify _ _ _
  noRoom me n full := by
    obtain ⟨j, b, hb, inside, far, room⟩ := full
    have starts : bucketStarts (bs.modify i f) = bucketStarts bs := starts_modify fun b _ => (h b).1
    refine ⟨j, if i = j then f b else b, ?_, ?_, ?_, ?_⟩
    · rw [List.getElem?_modify, hb, Option.map_eq_map, Option.map_some]
    · rwa [inBucket_iff, starts, ← inBucket_iff]
    · rwa [inBucket_iff, starts, ← inBucket_iff]
    · split_ifs
      · have length := congrArg List.length (h b).2.2
        rw [List.length_map, List.length_map] at length
        rw [length, (h b).2.1, room]
      · exact room

theorem map_modify_id {g : DhtPeer → DhtPeer} (same : ∀ n, (g n).id = n.id) (nodes : List DhtPeer) (j : ℕ) :
    (nodes.modify j g).map DhtPeer.id = nodes.map DhtPeer.id := by
  refine List.ext_getElem? fun k => ?_
  rw [List.getElem?_map, List.getElem?_map, List.getElem?_modify]
  cases nodes[k]? with
  | none => rfl
  | some n =>
    by_cases here : j = k
    · simp [here, same]
    · simp [here]

theorem repinged_pinged (now : Time) (i j : ℕ) (k : Option ℕ) (bs : Buckets) :
    Repinged bs (pinged now i j k bs).1 := by
  have again : Repinged bs (modifyNode i j (DhtPeer.again now) bs) :=
    repinged_modify fun b => ⟨rfl, rfl, map_modify_id (g := DhtPeer.again now) (fun _ => rfl) b.nodes j⟩
  unfold pinged
  split
  · exact .refl bs
  · dsimp only
    split_ifs
    · split
      · exact again
      · refine again.trans (repinged_modify (f := fun b => (sendCachedPing b).1) fun b => ?_)
        unfold sendCachedPing
        cases b.cached <;> exact ⟨rfl, rfl, rfl⟩
    · exact again

end Tables

namespace Dht

section Joining

variable {s s' s₁ : Dht} {af : Family} {sa : SockAddr}

/-! ## The searches -/

theorem table_sendAll (out : List Outgoing) : (s.sendAll out).table af = s.table af := by
  induction out generalizing s with
  | nil => rfl
  | cons o out ih =>
    have first : (s.send o).table af = s.table af := by cases af <;> rfl
    exact ih.trans first

theorem table_modifySearch (k : ℕ) (f : Search → Search) : (s.modifySearch k f).table af = s.table af := by
  cases af <;> rfl

theorem repinged_pingKnown (id : DhtId) (af' : Family) :
    Repinged (s.table af) ((s.pingKnown id af').table af) := by
  unfold pingKnown
  split
  · exact .refl _
  · unfold pingedAt
    dsimp only
    rw [table_sendAll, table_setTable]
    split_ifs with here
    · subst here
      exact repinged_pinged _ _ _ _ _
    · exact .refl _

theorem repinged_searchSendGetPeers (k : ℕ) (n : Option ℕ) :
    Repinged (s.table af) ((s.searchSendGetPeers k n).1.table af) := by
  unfold searchSendGetPeers
  split
  · exact .refl _
  split
  · exact .refl _
  split
  · exact .refl _
  split_ifs
  · refine (Repinged.trans ?_ (repinged_pingKnown _ _))
    rw [table_modifySearch]
    cases af <;> exact .refl _
  · exact .refl _

theorem repinged_addSearchNode (id : DhtId) (sa : SockAddr) (s : Dht) :
    Repinged (s.table af) ((s.addSearchNode id sa).table af) := by
  unfold addSearchNode
  have step (s : Dht) (k : ℕ) : Repinged (s.table af) ((s.addSearchNodeTo id sa k).table af) := by
    unfold addSearchNodeTo
    split
    · exact .refl _
    split_ifs
    · dsimp only
      split
      · rw [table_modifySearch]
        exact .refl _
      · refine Repinged.trans ?_ (repinged_searchSendGetPeers _ _)
        rw [table_modifySearch]
        exact .refl _
    · exact .refl _
  induction List.range s.searches.length generalizing s with
  | nil => exact .refl _
  | cons k ks ih => exact (step s k).trans (ih _)

/-! ## A node -/

/-- `new_node` refuses a node. -/
def Refuses (id : DhtId) (sa : SockAddr) (s : Dht) : Prop :=
  id = s.myid ∨ isMartian sa = true ∨ s.nodeBlacklisted sa = true

theorem table_grown (af' : Family) : (s.grown af').table af = s.table af := by
  cases af <;> cases af' <;> rfl

/-- A node that is refused changes nothing, and any other one changes the table. -/
theorem newNode_cases (id : DhtId) (sa : SockAddr) (confirm : ℕ) (s : Dht) :
    (s.newNode id sa confirm = (s, false) ∧ (Refuses id sa s ∨ findBucket id (s.table sa.family) = none)) ∨
    (¬ Refuses id sa s ∧ (s.newNode id sa confirm).2 =
        (newNodeIn s.myid s.now id sa confirm (s.table sa.family)).found ∧
      Repinged (newNodeIn s.myid s.now id sa confirm (s.table sa.family)).buckets
        ((s.newNode id sa confirm).1.table sa.family)) := by
  unfold newNode Refuses
  split_ifs with empty self bad
  · exact Or.inl ⟨rfl, Or.inr empty⟩
  · exact Or.inl ⟨rfl, Or.inl (Or.inl self)⟩
  · exact Or.inl ⟨rfl, Or.inl (Or.inr (Bool.or_eq_true _ _ ▸ bad))⟩
  · refine Or.inr ⟨?_, rfl, ?_⟩
    · rw [Bool.or_eq_true] at bad
      exact fun refused => refused.elim self bad
    · dsimp only
      generalize newNodeIn s.myid s.now id sa confirm (s.table sa.family) = r
      have sent (s₁ : Dht) (same : s₁.table sa.family = r.buckets) :
          Repinged r.buckets ((if r.search then (s₁.sendAll r.out).addSearchNode id sa else s₁.sendAll r.out).table
            sa.family) := by
        rw [← same, ← table_sendAll r.out]
        split_ifs
        · exact repinged_addSearchNode id sa _
        · exact .refl _
      refine sent _ ?_
      split_ifs
      · rw [table_grown, table_setTable, if_pos rfl]
      · rw [table_setTable, if_pos rfl]

/-- The same of `new_node` itself: what it returns is in the table, no other node comes, and a good node only goes
when the own bucket is split and there is no room for it. -/
theorem Reachable.newNode_table (h : Reachable s) (running : s.socketOf sa.family = true) (id : DhtId)
    (confirm : ℕ) :
    let bs := s.table sa.family
    let r := s.newNode id sa confirm
    let bs' := r.1.table sa.family
    (r.2 = true ↔ ¬ Refuses id sa s ∧ id ∈ tableIds bs') ∧ (∀ x ∈ tableIds bs', x = id ∨ x ∈ tableIds bs) ∧
      ∀ n ∈ tableNodes bs, nodeGood s.now n = true → n.id ≠ id →
        n.id ∈ tableIds bs' ∨ (bs.length < bs'.length ∧ NoRoom s.myid n bs') := by
  intro bs r bs'
  obtain ⟨d, table⟩ := h.sound.soundTable running
  rcases newNode_cases id sa confirm s with ⟨same, refused⟩ | ⟨accepted, found, repinged⟩
  · have unchanged : bs' = bs := by
      show ((s.newNode id sa confirm).1).table sa.family = _
      rw [same]
    have refused : Refuses id sa s := by
      refine refused.resolve_right fun none => ?_
      obtain ⟨i, -, some, -⟩ := table.findBucket id
      exact absurd (none.symm.trans some) (by simp)
    refine ⟨?_, fun x mem => Or.inr (unchanged ▸ mem), fun n mem _ _ => Or.inl ?_⟩
    · show (s.newNode id sa confirm).2 = true ↔ _
      rw [same]
      exact iff_of_false Bool.false_ne_true fun h => h.1 refused
    · rw [unchanged]
      exact List.mem_map_of_mem mem
  · have address : isMartian sa = false :=
      Bool.eq_false_iff.2 fun martian => accepted (Or.inr (Or.inl martian))
    obtain ⟨returned, origin, kept⟩ := newNodeIn_keeps h.sound running address id confirm
    have ids : tableIds bs' = _ := repinged.ids
    refine ⟨?_, fun x mem => origin x (ids ▸ mem), fun n mem good other => ?_⟩
    · rw [ids, ← returned, ← found]
      exact (and_iff_right accepted).symm
    · rcases kept n mem good other with stays | ⟨deeper, full⟩
      · exact Or.inl (ids ▸ List.mem_map_of_mem stays)
      · exact Or.inr ⟨deeper.trans_eq repinged.length.symm, repinged.noRoom _ n full⟩

end Joining

end Dht

end Orcashi
