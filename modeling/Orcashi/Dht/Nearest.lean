import Orcashi.Dht.Runs

/-!
# The nearest nodes

What a search was offered and what a reply tells are lists of the nearest nodes, of all those that were seen.
-/

namespace Orcashi

open KClosest

/-! ## Searches -/

/-- A call of `insert_search_node` for a search. -/
structure Offer where
  now : Time
  id : DhtId
  sa : SockAddr
  replied : Bool
  token : Option Bytes

/-- A search after some calls of `insert_search_node`. -/
def offered (sr : Search) (offers : List Offer) : Search :=
  offers.foldl (fun sr o => (insertSearchNode o.now o.id o.sa o.replied o.token sr).1) sr

/-- The ids a search has had. -/
def offeredIds (sr : Search) (offers : List Offer) : Finset DhtId :=
  (sr.ids ++ (offers.filter fun o => o.sa.family = sr.af).map Offer.id).toFinset

section Offers

variable {me : DhtId} {sr : Search} {offers offers' : List Offer}

theorem offered_spec (ok : sr.Ok me) (others : ∀ o ∈ offers, o.id ≠ me) {S : Finset DhtId}
    (closest : Closest (fun x => x.dist sr.id) 14 S sr.ids) :
    (offered sr offers).Ok me ∧ Closest (fun x => x.dist sr.id) 14
      (S ∪ ((offers.filter fun o => o.sa.family = sr.af).map Offer.id).toFinset) (offered sr offers).ids := by
  induction offers generalizing sr S with
  | nil =>
    refine ⟨ok, ?_⟩
    show Closest _ 14 (S ∪ ∅) sr.ids
    rwa [Finset.union_empty]
  | cons o offers ih =>
    have other := others o List.mem_cons_self
    have head : (insertSearchNode o.now o.id o.sa o.replied o.token sr).1.head = sr.head := (ok.insert other).1
    have ok' : (insertSearchNode o.now o.id o.sa o.replied o.token sr).1.Ok me := (ok.insert other).2.1
    have next : o.sa.family = sr.af → Closest (fun x => x.dist sr.id) 14 (Insert.insert o.id S)
        (insertSearchNode o.now o.id o.sa o.replied o.token sr).1.ids :=
      fun family => (ok.insert other).2.2 family S closest
    have foreign : o.sa.family ≠ sr.af → (insertSearchNode o.now o.id o.sa o.replied o.token sr).1 = sr := by
      intro family
      rw [insertSearchNode, if_pos family]
    have step : offered sr (o :: offers) = offered (insertSearchNode o.now o.id o.sa o.replied o.token sr).1 offers :=
      rfl
    rw [step]
    generalize (insertSearchNode o.now o.id o.sa o.replied o.token sr).1 = sr' at head ok' next foreign
    have id : sr'.id = sr.id := (congrArg Search.id head :)
    have af : sr'.af = sr.af := (congrArg Search.af head :)
    have rest : ∀ o ∈ offers, o.id ≠ me := fun x mem => others x (List.mem_cons_of_mem o mem)
    by_cases family : o.sa.family = sr.af
    · have done := ih ok' rest (id ▸ next family)
      rw [id, af] at done
      rw [List.filter_cons_of_pos (by simpa using family), List.map_cons, List.toFinset_cons, Finset.union_insert,
        ← Finset.insert_union]
      exact done
    · rw [List.filter_cons_of_neg (by simpa using family), foreign family]
      exact ih ok rest closest

theorem offered_nearest (ok : sr.Ok me) (others : ∀ o ∈ offers, o.id ≠ me) :
    (∀ x, x ∈ (offered sr offers).ids ↔ x ∈ offeredIds sr offers ∧
      ((offeredIds sr offers).filter fun y => y.dist sr.id < x.dist sr.id).card < 14) ∧
    ∀ offers', offers.Perm offers' → (offered sr offers').ids = (offered sr offers).ids := by
  have start : Closest (fun x => x.dist sr.id) 14 sr.ids.toFinset sr.ids :=
    closest_toFinset ok.sorted_ids ((List.length_map ..).trans_le ok.length_le)
  have all (offers : List Offer) (others : ∀ o ∈ offers, o.id ≠ me) :
      Closest (fun x => x.dist sr.id) 14 (offeredIds sr offers) (offered sr offers).ids := by
    unfold offeredIds
    rw [List.toFinset_append]
    exact (offered_spec ok others start).2
  refine ⟨fun x => (all offers others).mem_iff (dist_injective sr.id), fun offers' perm => ?_⟩
  have same : offeredIds sr offers' = offeredIds sr offers := by
    unfold offeredIds
    ext x
    have mem (o : Offer) : o ∈ offers' ↔ o ∈ offers := perm.mem_iff.symm
    simp [mem]
  have others' : ∀ o ∈ offers', o.id ≠ me := fun o mem => others o (perm.mem_iff.2 mem)
  exact (same ▸ all offers' others' : Closest _ _ _ _).unique (all offers others) (dist_injective sr.id)

end Offers

namespace Dht

section Nearest

variable {s : Dht} {af : Family}

/-- Whatever nodes a search is offered, it has the 14 nearest of them and of those before, and the order in which
they come does not matter. -/
theorem Reachable.search_nearest (h : Reachable s) {sr : Search} (mem : sr ∈ s.searches) {offers : List Offer}
    (others : ∀ o ∈ offers, o.id ≠ s.myid) :
    (∀ x, x ∈ (offered sr offers).ids ↔ x ∈ offeredIds sr offers ∧
      ((offeredIds sr offers).filter fun y => y.dist sr.id < x.dist sr.id).card < 14) ∧
    ∀ offers', offers.Perm offers' → (offered sr offers').ids = (offered sr offers).ids :=
  offered_nearest (h.sound.searches sr mem) others

/-- A search that was started. -/
def sampleSearch : Search := (sample.perform (.search sampleId 0 .inet)).searches.head (by decide +kernel)

/-- Two nodes that it is offered. -/
def sampleOffers : List Offer :=
  [⟨1000, takeExactly 20 [2], sampleAddr, false, none⟩, ⟨1000, takeExactly 20 [3], sampleAddr, true, none⟩]

theorem search_nearest_sample :
    (∀ x, x ∈ (offered sampleSearch sampleOffers).ids ↔ x ∈ offeredIds sampleSearch sampleOffers ∧
      ((offeredIds sampleSearch sampleOffers).filter fun y =>
        y.dist sampleSearch.id < x.dist sampleSearch.id).card < 14) ∧
    ∀ offers', sampleOffers.Perm offers' →
      (offered sampleSearch offers').ids = (offered sampleSearch sampleOffers).ids :=
  (sample_reachable.perform (.search sampleId 0 .inet)).search_nearest (List.head_mem _) (by decide +kernel)

/-! ## Replies -/

/-- The ids of good nodes. -/
def goodIds (now : Time) (nodes : List DhtPeer) : Finset DhtId :=
  ((nodes.filter (nodeGood now)).map DhtPeer.id).toFinset

/-- A reply has the eight nearest of the good nodes of three buckets, in the order of their distance.  If there
are eight good ones in the bucket of the id, these are the nearest of the whole table. -/
theorem Reachable.reply_nearest (h : Reachable s) (running : s.socketOf af = true) (target : DhtId) :
    let bs := s.table af
    let reply := closestNodes s.now target bs
    reply.length ≤ 8 ∧ ((reply.map Prod.fst).Pairwise fun x y => x.dist target < y.dist target) ∧
      (∀ x ∈ reply, ∃ n ∈ tableNodes bs, nodeGood s.now n = true ∧ x = (n.id, n.ss)) ∧
      (∀ x, x ∈ reply.map Prod.fst ↔ x ∈ goodIds s.now (nearbyNodes s.now target bs) ∧
        ((goodIds s.now (nearbyNodes s.now target bs)).filter fun y => y.dist target < x.dist target).card < 8) ∧
      ∀ i, findBucket target bs = some i → 8 ≤ ((nodesAt bs i).filter (nodeGood s.now)).length →
        ∀ x, x ∈ reply.map Prod.fst ↔ x ∈ goodIds s.now (tableNodes bs) ∧
          ((goodIds s.now (tableNodes bs)).filter fun y => y.dist target < x.dist target).card < 8 := by
  intro bs reply
  obtain ⟨d, table⟩ := h.sound.soundTable running
  have buffered := buffered_closestNodes s.now target bs
  have good : (nearbyNodes s.now target bs).filter (nodeGood s.now) = nearbyNodes s.now target bs :=
    List.filter_eq_self.2 fun n mem => (mem_nearbyNodes mem).2
  refine ⟨closestNodes_length_le s.now target bs, buffered.closest.sorted, fun x => mem_closestNodes,
    fun x => ?_, fun i found eight x => ?_⟩
  · rw [goodIds, good]
    exact buffered.closest.mem_iff (dist_injective target)
  · exact (table.closest_of_eight found eight).mem_iff (dist_injective target)

theorem reply_nearest_sample :
    let bs := sample.table .inet
    let reply := closestNodes sample.now sampleId bs
    reply.length ≤ 8 ∧ ((reply.map Prod.fst).Pairwise fun x y => x.dist sampleId < y.dist sampleId) ∧
      (∀ x ∈ reply, ∃ n ∈ tableNodes bs, nodeGood sample.now n = true ∧ x = (n.id, n.ss)) ∧
      (∀ x, x ∈ reply.map Prod.fst ↔ x ∈ goodIds sample.now (nearbyNodes sample.now sampleId bs) ∧
        ((goodIds sample.now (nearbyNodes sample.now sampleId bs)).filter
          fun y => y.dist sampleId < x.dist sampleId).card < 8) ∧
      ∀ i, findBucket sampleId bs = some i → 8 ≤ ((nodesAt bs i).filter (nodeGood sample.now)).length →
        ∀ x, x ∈ reply.map Prod.fst ↔ x ∈ goodIds sample.now (tableNodes bs) ∧
          ((goodIds sample.now (tableNodes bs)).filter fun y => y.dist sampleId < x.dist sampleId).card < 8 :=
  sample_reachable.reply_nearest sample_running sampleId

example : (closestNodes sample.now sampleId (sample.table .inet)).map Prod.fst =
    [1, 3, 2, 5, 4, 7, 6, 9].map nodeId := by
  decide +kernel

end Nearest

end Dht

end Orcashi
