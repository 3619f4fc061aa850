import Orcashi.Dht.RoutingTable
import Orcashi.Lib.KClosest

/-!
# The nodes of a search

A search has an array of at most 14 nodes in the order of their distance to the id it looks for.  A node that
is found is put into its place, for which the last one may fall out.
-/

namespace Orcashi

open KClosest

/-! ## The code -/

/-- `struct search_node`; `token` has `token_len` bytes. -/
structure SearchNode where
  id : DhtId
  ss : SockAddr
  requestTime : Time
  replyTime : Time
  pinged : ℤ
  token : Bytes
  replied : Bool
  acked : Bool
  deriving DecidableEq

/-- `struct search`; `nodes` has `numnodes` of them. -/
structure Search where
  tid : UInt16
  af : Family
  stepTime : Time
  id : DhtId
  port : UInt16
  done : Bool
  nodes : List SearchNode
  deriving DecidableEq

/-- Where the loop of `insert_search_node` and `insert_closest_node` ends: at the id or before the first one
that is farther from `target`. -/
def closestPlace (target id : DhtId) : List DhtId → ℕ
  | [] => 0
  | x :: ids => if id = x ∨ xorcmp id x target = .lt then 0 else closestPlace target id ids + 1

/-- What is stored of a node that is found, or that replied. -/
def heardSearchNode (now : Time) (sa : SockAddr) (replied : Bool) (token : Option Bytes) (n : SearchNode) :
    SearchNode :=
  let n := { n with ss := sa }
  let n := if replied then { n with replied := true, replyTime := now, requestTime := 0, pinged := 0 } else n
  match token with
  | none => n
  | some token => if 40 ≤ token.length then n else { n with token := token }

/-- A node after `memset`. -/
def SearchNode.fresh (id : DhtId) (sa : SockAddr) : SearchNode where
  id := id
  ss := sa
  requestTime := 0
  replyTime := 0
  pinged := 0
  token := []
  replied := false
  acked := false

/-- `insert_search_node`, with the position of the node. -/
def insertSearchNode (now : Time) (id : DhtId) (sa : SockAddr) (replied : Bool) (token : Option Bytes)
    (sr : Search) : Search × Option ℕ :=
  if sa.family ≠ sr.af then (sr, none)
  else
    let i := closestPlace sr.id id (sr.nodes.map SearchNode.id)
    let heard (nodes : List SearchNode) : Search :=
      { sr with nodes := nodes.modify i (heardSearchNode now sa replied token) }
    if (sr.nodes[i]?.map SearchNode.id) = some id then (heard sr.nodes, some i)
    else if i = 14 then (sr, none)
    else (heard ((sr.nodes.insertIdx i (.fresh id sa)).take 14), some i)

/-- `flush_search_node` -/
def flushSearchNode (i : ℕ) (sr : Search) : Search := { sr with nodes := sr.nodes.eraseIdx i }

/-! ## The invariant -/

/-- What holds of a node of a search. -/
structure SearchNode.Ok (me : DhtId) (af : Family) (n : SearchNode) : Prop where
  ne_me : n.id ≠ me
  family : n.ss.family = af
  token : n.token.length < 40
  pinged : 0 ≤ n.pinged ∧ n.pinged ≤ 3

/-- What holds of a search: it has at most 14 nodes, in the order of their distance. -/
structure Search.Ok (me : DhtId) (sr : Search) : Prop where
  length_le : sr.nodes.length ≤ 14
  sorted : sr.nodes.Pairwise fun n n' => n.id.dist sr.id < n'.id.dist sr.id
  nodes : ∀ n ∈ sr.nodes, n.Ok me sr.af

/-- A search without its nodes. -/
def Search.head (sr : Search) : Search := { sr with nodes := [] }

/-- The ids of the nodes of a search. -/
def Search.ids (sr : Search) : List DhtId := sr.nodes.map SearchNode.id

section Search

variable {me id : DhtId} {af : Family} {now : Time} {sa : SockAddr} {replied : Bool} {token : Option Bytes}
  {sr : Search} {n : SearchNode} {i : ℕ}

theorem closestPlace_eq (target id : DhtId) (ids : List DhtId) :
    closestPlace target id ids = place (fun x => x.dist target) id ids := by
  induction ids with
  | nil => rfl
  | cons x ids ih =>
    rw [closestPlace, place, ih]
    refine if_congr ?_ rfl rfl
    rw [xorcmp_eq_lt_iff, le_iff_eq_or_lt, DhtId.dist_inj]

theorem dist_injective (target : DhtId) : Function.Injective fun x : DhtId => x.dist target :=
  fun _ _ same => DhtId.dist_inj.1 same

/-- The ids of a search are in the order of their distance. -/
theorem Search.Ok.sorted_ids (ok : sr.Ok me) : sr.ids.Pairwise fun x y => x.dist sr.id < y.dist sr.id :=
  List.pairwise_map.2 ok.sorted

theorem Search.Ok.nodup (ok : sr.Ok me) : sr.ids.Nodup :=
  ok.sorted_ids.imp fun lt same => lt.ne (congrArg (fun x => x.dist sr.id) same)

theorem Search.Ok.of_ids {sr' : Search} (sr : Search) (head : sr'.head = sr.head)
    (length_le : sr'.nodes.length ≤ 14) (sorted : sr'.ids.Pairwise fun x y => x.dist sr.id < y.dist sr.id)
    (nodes : ∀ n ∈ sr'.nodes, n.Ok me sr.af) : sr'.Ok me := by
  have id : sr'.id = sr.id := (congrArg Search.id head :)
  have af : sr'.af = sr.af := (congrArg Search.af head :)
  refine ⟨length_le, ?_, by rwa [af]⟩
  rw [id]
  rwa [Search.ids, List.pairwise_map] at sorted

/-- A change of one node that keeps its id. -/
theorem Search.Ok.modify (ok : sr.Ok me) {f : SearchNode → SearchNode}
    (h : ∀ n, sr.nodes[i]? = some n → n.Ok me sr.af → (f n).id = n.id ∧ (f n).Ok me sr.af) :
    Search.Ok me { sr with nodes := sr.nodes.modify i f } ∧
      Search.ids { sr with nodes := sr.nodes.modify i f } = sr.ids := by
  have ids : Search.ids { sr with nodes := sr.nodes.modify i f } = sr.ids := by
    refine List.ext_getElem? fun j => ?_
    simp only [Search.ids, List.getElem?_map, List.getElem?_modify]
    cases hj : sr.nodes[j]? with
    | none => rfl
    | some n =>
      by_cases here : i = j
      · subst here
        simp [(h n hj (ok.nodes n (List.mem_of_getElem? hj))).1]
      · simp [here]
  refine ⟨.of_ids sr rfl ?_ (ids ▸ ok.sorted_ids) fun n mem => ?_, ids⟩
  · rw [List.length_modify]
    exact ok.length_le
  · obtain ⟨j, hj⟩ := List.mem_iff_getElem?.1 mem
    rw [List.getElem?_modify] at hj
    cases hn : sr.nodes[j]? with
    | none => simp [hn] at hj
    | some n' =>
      have good := ok.nodes n' (List.mem_of_getElem? hn)
      by_cases here : i = j
      · subst here
        simp only [hn, Option.map_eq_map, Option.map_some, if_pos, Option.some_inj] at hj
        exact hj ▸ (h n' hn good).2
      · simp only [hn, Option.map_eq_map, Option.map_some, if_neg here, Option.some_inj] at hj
        exact hj ▸ good

theorem Search.Ok.flush (ok : sr.Ok me) (i : ℕ) : (flushSearchNode i sr).Ok me := by
  have sub : (sr.nodes.eraseIdx i).Sublist sr.nodes := List.eraseIdx_sublist _ _
  exact ⟨sub.length_le.trans ok.length_le, ok.sorted.sublist sub, fun n mem => ok.nodes n (sub.subset mem)⟩

theorem heardSearchNode_id : (heardSearchNode now sa replied token n).id = n.id := by
  unfold heardSearchNode
  cases replied <;> cases token <;> dsimp only <;> split_ifs <;> rfl

theorem SearchNode.Ok.heard (ok : n.Ok me af) (family : sa.family = af) :
    (heardSearchNode now sa replied token n).Ok me af := by
  have keep : ∀ n : SearchNode, n.Ok me af → ∀ token : Bytes,
      (if 40 ≤ token.length then n else { n with token := token }).Ok me af := by
    intro n ok token
    split_ifs with long
    · exact ok
    · exact ⟨ok.ne_me, ok.family, not_le.1 long, ok.pinged⟩
  have moved : ∀ n : SearchNode, n.Ok me af → SearchNode.Ok me af { n with ss := sa } :=
    fun n ok => ⟨ok.ne_me, family, ok.token, ok.pinged⟩
  unfold heardSearchNode
  cases replied with
  | false =>
    cases token with
    | none => exact moved n ok
    | some token => exact keep _ (moved n ok) token
  | true =>
    have answered : SearchNode.Ok me af
        { n with ss := sa, replied := true, replyTime := now, requestTime := 0, pinged := 0 } :=
      ⟨ok.ne_me, family, ok.token, (by decide : (0 : ℤ) ≤ 0 ∧ (0 : ℤ) ≤ 3)⟩
    cases token with
    | none => exact answered
    | some token => exact keep _ answered token

/-! ## Insertion -/

/-- The nodes with a new one at position `i`. -/
def insertedNodes (i : ℕ) (id : DhtId) (sa : SockAddr) (sr : Search) : List SearchNode :=
  (sr.nodes.insertIdx i (.fresh id sa)).take 14

/-- What `insert_search_node` does: the node has the wrong family, is known, has no room or is new. -/
theorem insertSearchNode_cases (ok : sr.Ok me) (now : Time) (id : DhtId) (sa : SockAddr) (replied : Bool)
    (token : Option Bytes) :
    (sa.family ≠ sr.af ∧ insertSearchNode now id sa replied token sr = (sr, none)) ∨
    (sa.family = sr.af ∧ id ∈ sr.ids ∧ ∃ i n, sr.nodes[i]? = some n ∧ n.id = id ∧
      insertSearchNode now id sa replied token sr =
        ({ sr with nodes := sr.nodes.modify i (heardSearchNode now sa replied token) }, some i)) ∨
    (sa.family = sr.af ∧ id ∉ sr.ids ∧ place (fun x => x.dist sr.id) id sr.ids = 14 ∧
      insertSearchNode now id sa replied token sr = (sr, none)) ∨
    (sa.family = sr.af ∧ id ∉ sr.ids ∧ ∃ i, i = place (fun x => x.dist sr.id) id sr.ids ∧ i < 14 ∧
      insertSearchNode now id sa replied token sr =
        ({ sr with nodes := (insertedNodes i id sa sr).modify i (heardSearchNode now sa replied token) },
          some i)) := by
  have here := getElem?_place (x := id) ok.sorted_ids
  have known : (∃ y ∈ sr.ids, y.dist sr.id = id.dist sr.id) ↔ id ∈ sr.ids := by
    simp only [DhtId.dist_inj, exists_eq_right]
  rw [known] at here
  unfold insertSearchNode
  rw [closestPlace_eq]
  dsimp only
  change (∃ y, (sr.nodes.map SearchNode.id)[place _ id sr.ids]? = some y ∧ _) ↔ _ at here
  rw [List.getElem?_map] at here
  by_cases family : sa.family = sr.af
  · rw [if_neg (by simpa using family)]
    refine Or.inr ?_
    by_cases mem : id ∈ sr.ids
    · obtain ⟨y, hy, same⟩ := here.2 mem
      obtain rfl := DhtId.dist_inj.1 same
      obtain ⟨n, hn, rfl⟩ := Option.map_eq_some_iff.1 hy
      exact Or.inl ⟨family, mem, _, n, hn, rfl, if_pos hy⟩
    · have absent : (sr.nodes[place (fun x => x.dist sr.id) id sr.ids]?.map SearchNode.id) ≠ some id :=
        fun found => mem (here.1 ⟨id, found, rfl⟩)
      rw [show sr.nodes.map SearchNode.id = sr.ids from rfl, if_neg absent]
      refine Or.inr ?_
      by_cases full : place (fun x => x.dist sr.id) id sr.ids = 14
      · exact Or.inl ⟨family, mem, full, if_pos full⟩
      · refine Or.inr ⟨family, mem, _, rfl, ?_, if_neg full⟩
        have inside := place_le (fun x => x.dist sr.id) id sr.ids
        have := ok.length_le
        rw [Search.ids, List.length_map] at inside
        unfold Search.ids at full ⊢
        omega
  · exact Or.inl ⟨family, if_pos family⟩

theorem ids_insertedNodes : (insertedNodes i id sa sr).map SearchNode.id = (sr.ids.insertIdx i id).take 14 := by
  rw [insertedNodes, List.map_take, List.map_insertIdx]
  rfl

theorem SearchNode.Ok.fresh (other : id ≠ me) (family : sa.family = af) : (SearchNode.fresh id sa).Ok me af :=
  ⟨other, family, Nat.zero_lt_succ 39, (by decide : (0 : ℤ) ≤ 0 ∧ (0 : ℤ) ≤ 3)⟩

/-- The nodes of a search are the nearest of those it has had, and of one that is inserted. -/
theorem Search.Ok.insert (ok : sr.Ok me) (other : id ≠ me) :
    (insertSearchNode now id sa replied token sr).1.head = sr.head ∧
      (insertSearchNode now id sa replied token sr).1.Ok me ∧
      (sa.family = sr.af → ∀ S, Closest (fun x => x.dist sr.id) 14 S sr.ids →
        Closest (fun x => x.dist sr.id) 14 (Insert.insert id S)
          (insertSearchNode now id sa replied token sr).1.ids) := by
  have closest_ids : Closest (fun x => x.dist sr.id) 14 sr.ids.toFinset sr.ids :=
    closest_toFinset ok.sorted_ids ((List.length_map ..).trans_le ok.length_le)
  have different (new : id ∉ sr.ids) : ∀ y ∈ sr.ids, y.dist sr.id ≠ id.dist sr.id :=
    fun y mem same => new (DhtId.dist_inj.1 same ▸ mem)
  rcases insertSearchNode_cases ok now id sa replied token with
    ⟨wrong, e⟩ | ⟨family, known, i, n, hn, same, e⟩ | ⟨family, new, full, e⟩ | ⟨family, new, i, hi, lt, e⟩
  · rw [e]
    exact ⟨rfl, ok, fun right => absurd right wrong⟩
  · rw [e]
    obtain ⟨ok', ids⟩ := ok.modify (i := i) (f := heardSearchNode now sa replied token) fun n _ good =>
      ⟨heardSearchNode_id, good.heard family⟩
    refine ⟨rfl, ok', fun _ S closest => ?_⟩
    rw [ids]
    exact closest.insert_known ⟨id, known, rfl⟩
  · rw [e]
    refine ⟨rfl, ok, fun _ S closest => ?_⟩
    have closest := closest.insert_new (different new)
    have length : sr.ids.length = 14 := by
      have := place_le (fun x => x.dist sr.id) id sr.ids
      have := closest_ids.length_le
      omega
    rw [full, ← length, List.insertIdx_length_self, List.take_left, length] at closest
    exact closest
  · rw [e]
    have placed (S : Finset DhtId) (closest : Closest (fun x => x.dist sr.id) 14 S sr.ids) :
        Closest (fun x => x.dist sr.id) 14 (Insert.insert id S)
          ((insertedNodes i id sa sr).map SearchNode.id) := by
      rw [ids_insertedNodes, hi]
      exact closest.insert_new (different new)
    have ok₁ : Search.Ok me { sr with nodes := insertedNodes i id sa sr } := by
      refine .of_ids sr rfl (List.length_take_le _ _) (placed _ closest_ids).sorted fun n mem => ?_
      rcases List.eq_or_mem_of_mem_insertIdx (List.mem_of_mem_take mem) with rfl | mem
      · exact .fresh other family
      · exact ok.nodes n mem
    obtain ⟨ok', ids⟩ := ok₁.modify (i := i) (f := heardSearchNode now sa replied token) fun n _ good =>
      ⟨heardSearchNode_id, good.heard family⟩
    refine ⟨rfl, ok', fun _ S closest => ?_⟩
    rw [ids]
    exact placed S closest

end Search

end Orcashi
