import Orcashi.Punch.Manager
import Mathlib.Data.List.Nodup

/-!
# Classifying the NAT by probes

`nat_classify_via_dht` sends numbered probes to peers of the DHT and tells the kind of NAT from whether
the sources of the responses differ in their ips and in their ports.  A response is known by its magic and
its type; the number of the probe that it answers is not looked at.
-/

namespace Orcashi

open CMemory

/-! ## Probes -/

/-- `DHTNATProbe`, which is packed. -/
structure DHTNATProbe where
  magic : UInt32
  type : UInt8
  probeId : UInt32
  timestamp : UInt32
  senderId : Bytes
  srcPort : UInt16

namespace DHTNATProbe

/-- `sizeof(DHTNATProbe)`. -/
def size : ℕ := 47

/-- The fields of a buffer that is cast to a probe. -/
def ofBuffer (b : Bytes) : DHTNATProbe where
  magic := readLe32 b 0
  type := b.getD 4 0
  probeId := readLe32 b 5
  timestamp := readLe32 b 9
  senderId := (b.drop 13).take 32
  srcPort := readLe16 b 45

/-- The bytes of a probe. -/
def toBytes (p : DHTNATProbe) : Bytes :=
  le32 p.magic ++ [p.type] ++ le32 p.probeId ++ le32 p.timestamp ++ p.senderId ++ le16 p.srcPort

/-- The magic number of probes. -/
def expectedMagic : UInt32 := 0x4F524341

end DHTNATProbe

/-- `NATType` -/
inductive NATType where
  | unknown
  | fullCone
  | restrictedCone
  | portRestricted
  | symmetric
  deriving DecidableEq, Inhabited

/-- What is compared of a `ProbeResponse`. -/
structure ProbeResponse where
  ip : IpText
  port : ℤ
  deriving DecidableEq

/-- What a run finds: whether there is a node and a socket, what `dht_get_nodes` gives, the numbers it
draws, and what `recvfrom` gives, call after call; `none` is an error or a timeout. -/
structure NatRun where
  node : Bool
  probeSocket : Bool
  nodes : Option (List SockAddrIn)
  probeId : UInt32
  now : Time
  myId : Option Bytes
  sendto : Bytes → SockAddrIn → Bool
  arrivals : List (Option PunchDatagram)

/-- The probe that `send_probe_to_peer` fills in. -/
def NatRun.probe (run : NatRun) (probeId : UInt32) : DHTNATProbe where
  magic := DHTNATProbe.expectedMagic
  type := 1
  probeId := probeId
  timestamp := UInt32.ofInt run.now
  senderId := run.myId.elim (List.replicate 32 0) fun id => id.take 32
  srcPort := 0

/-- `send_probe_to_peer`. -/
def sendProbeToPeer (run : NatRun) (peer : SockAddrIn) (probeId : UInt32) : ℤ :=
  if run.sendto (run.probe probeId).toBytes (.make peer.ip.val peer.port) then 0 else -1

/-- `receive_probe_response`: the response where it returns 0. -/
def receiveProbeResponse (received : Option PunchDatagram) : Option ProbeResponse :=
  match received with
  | none => none
  | some d =>
    if d.bytes.length < DHTNATProbe.size then none
    else
      let response := DHTNATProbe.ofBuffer d.bytes
      if response.magic ≠ DHTNATProbe.expectedMagic then none
      else if response.type ≠ 2 then none
      else some ⟨d.sender.ip, d.sender.port⟩

/-- `MAX_PROBE_PEERS`. -/
def maxProbePeers : ℕ := 16

/-- The probes of a run: the first six peers, with the number of each probe. -/
def NatRun.probes (run : NatRun) : List (SockAddrIn × UInt32) :=
  (((run.nodes.getD []).take maxProbePeers).take 6).zipIdx.map fun (peer, i) =>
    (peer, run.probeId + i.toUInt32)

/-- The loop over the receives, with `n` of them left. -/
def receiveLoop : ℕ → List (Option PunchDatagram) → List ProbeResponse → List ProbeResponse
  | 0, _, responses => responses
  | _ + 1, [], responses => responses
  | n + 1, received :: arrivals, responses =>
    if responses.length < 6 then
      receiveLoop n arrivals
        (match receiveProbeResponse received with
        | some response => responses ++ [response]
        | none => responses)
    else responses

/-- The analysis of the responses. -/
def classifyResponses : List ProbeResponse → NATType
  | [] => .unknown
  | first :: responses =>
    let portChanges := (responses.filter fun r => r.port != first.port).length
    let ipChanges := (responses.filter fun r => r.ip != first.ip).length
    if portChanges = 0 ∧ ipChanges = 0 then .fullCone
    else if portChanges = 0 ∧ 0 < ipChanges then .restrictedCone
    else if 0 < portChanges ∧ ipChanges = 0 then .portRestricted
    else if 0 < portChanges ∧ 0 < ipChanges then .symmetric
    else .unknown

/-- `nat_classify_via_dht` up to where it falls back; none there. -/
def natClassifyByProbes (run : NatRun) : Option NATType :=
  if !run.node then none
  else if !run.probeSocket then none
  else
    match run.nodes with
    | none => none
    | some sin =>
      if (sin.take maxProbePeers).length < 3 then none
      else
        let responses := receiveLoop 12 run.arrivals []
        if responses.length < 2 then none else some (classifyResponses responses)

/-- `nat_classify_via_dht`, where `icmp` is what `nat_classify_via_icmp` returns. -/
def natClassifyViaDht (run : NatRun) (icmp : NATType) : NATType := (natClassifyByProbes run).getD icmp

/-! ## Kinds of NAT -/

/-- All agree in what `f` tells of them. -/
def AllSame {α β : Type*} (f : α → β) (l : List α) : Prop := ∀ a ∈ l, ∀ b ∈ l, f a = f b

instance {α β : Type*} [DecidableEq β] (f : α → β) (l : List α) : Decidable (AllSame f l) :=
  inferInstanceAs (Decidable (∀ a ∈ l, ∀ b ∈ l, f a = f b))

/-- The kind of NAT that these sources show. -/
def natTypeOf (sources : List ProbeResponse) : NATType :=
  if AllSame ProbeResponse.ip sources then
    if AllSame ProbeResponse.port sources then .fullCone else .portRestricted
  else if AllSame ProbeResponse.port sources then .restrictedCone
  else .symmetric

section Types

variable {α β : Type*} {sources others : List ProbeResponse}

/-- Whether all agree can be told by comparing them with the first. -/
theorem length_filter_eq_zero_iff [DecidableEq β] (f : α → β) (first : α) (l : List α) :
    (l.filter fun a => f a != f first).length = 0 ↔ AllSame f (first :: l) := by
  rw [List.length_eq_zero_iff, List.filter_eq_nil_iff]
  have same {a : α} : ¬ (f a != f first) = true ↔ f a = f first := by simp
  simp only [same]
  constructor
  · intro h a ha b hb
    have known {c : α} (hc : c ∈ first :: l) : f c = f first := by
      rcases List.mem_cons.1 hc with rfl | hc
      · rfl
      · exact h c hc
    rw [known ha, known hb]
  · intro h a ha
    exact h a (List.mem_cons_of_mem first ha) first List.mem_cons_self

/-- The analysis does not depend on which response came first. -/
theorem classifyResponses_eq (some_ : sources ≠ []) : classifyResponses sources = natTypeOf sources := by
  match sources, some_ with
  | first :: responses, _ =>
    have port := length_filter_eq_zero_iff ProbeResponse.port first responses
    have ip := length_filter_eq_zero_iff ProbeResponse.ip first responses
    unfold classifyResponses natTypeOf
    dsimp only
    generalize (responses.filter fun r => r.port != first.port).length = portChanges at port ⊢
    generalize (responses.filter fun r => r.ip != first.ip).length = ipChanges at ip ⊢
    simp only [← port, ← ip]
    rcases Nat.eq_zero_or_pos portChanges with hp | hp <;>
      rcases Nat.eq_zero_or_pos ipChanges with hi | hi <;>
      simp [hp, hi, Nat.pos_iff_ne_zero.1]

theorem natTypeOf_eq_iff : natTypeOf sources = natTypeOf others ↔
    (AllSame ProbeResponse.ip sources ↔ AllSame ProbeResponse.ip others) ∧
      (AllSame ProbeResponse.port sources ↔ AllSame ProbeResponse.port others) := by
  unfold natTypeOf
  split_ifs <;> simp [*]

theorem AllSame.congr {f : α → β} {l l' : List α} (same : ∀ a, a ∈ l ↔ a ∈ l') :
    AllSame f l ↔ AllSame f l' := by
  unfold AllSame
  simp only [same]

/-- The kind depends on the set of the sources. -/
theorem natTypeOf_congr (same : ∀ a, a ∈ sources ↔ a ∈ others) : natTypeOf sources = natTypeOf others :=
  natTypeOf_eq_iff.2 ⟨AllSame.congr same, AllSame.congr same⟩

end Types

/-! ## The receives -/

theorem receiveLoop_eq (n : ℕ) (arrivals : List (Option PunchDatagram)) (responses : List ProbeResponse) :
    receiveLoop n arrivals responses =
      responses ++ ((arrivals.take n).filterMap receiveProbeResponse).take (6 - responses.length) := by
  induction n generalizing arrivals responses with
  | zero => simp [receiveLoop]
  | succ n ih =>
    cases arrivals with
    | nil => simp [receiveLoop]
    | cons received arrivals =>
      rw [receiveLoop, List.take_succ_cons, List.filterMap_cons]
      by_cases room : responses.length < 6
      · rw [if_pos room, ih]
        cases receiveProbeResponse received with
        | none => rfl
        | some response =>
          dsimp only
          obtain ⟨k, hk⟩ : ∃ k, 6 - responses.length = k + 1 := ⟨5 - responses.length, by omega⟩
          rw [hk, List.take_succ_cons, List.append_assoc, List.length_append, List.length_singleton,
            show 6 - (responses.length + 1) = k by omega]
          rfl
      · rw [if_neg room, show 6 - responses.length = 0 by omega, List.take_zero, List.append_nil]

namespace NatRun

/-- The run gets as far as its probes: there is a node, a socket and three peers. -/
def Probes (run : NatRun) : Prop :=
  run.node = true ∧ run.probeSocket = true ∧
    ∃ sin, run.nodes = some sin ∧ 3 ≤ (sin.take maxProbePeers).length

/-- `responses` after the receives. -/
def responses (run : NatRun) : List ProbeResponse := receiveLoop 12 run.arrivals []

/-- The responses that are compared: of the first six that look like one within twelve receives. -/
def taken (run : NatRun) : List ProbeResponse :=
  ((run.arrivals.take 12).filterMap receiveProbeResponse).take 6

/-- The numbers of the probes that were sent. -/
def sentIds (run : NatRun) : List UInt32 :=
  (run.probes.filter fun (peer, probeId) => sendProbeToPeer run peer probeId = 0).map Prod.snd

end NatRun

/-- The number of the probe that a datagram answers. -/
def answerId (d : PunchDatagram) : UInt32 := (DHTNATProbe.ofBuffer d.bytes).probeId

/-- The source of a datagram. -/
def sourceOf (d : PunchDatagram) : ProbeResponse := ⟨d.sender.ip, d.sender.port⟩

namespace NatRun

/-- The datagrams that answer a probe of this run. -/
def ownAnswers (run : NatRun) : List PunchDatagram :=
  (run.arrivals.filterMap id).filter fun d =>
    (receiveProbeResponse (some d)).isSome && run.sentIds.contains (answerId d)

/-- The addresses from which the own probes were answered. -/
def ownSources (run : NatRun) : List ProbeResponse := run.ownAnswers.map sourceOf

/-- How many of the probes were answered. -/
def answered (run : NatRun) : ℕ :=
  (run.sentIds.filter fun probeId => run.ownAnswers.any fun d => answerId d == probeId).length

/-- The responses that are compared differ in their ips exactly if the answers to own probes do, and so with
their ports. -/
def SameSpread (run : NatRun) : Prop :=
  (AllSame ProbeResponse.ip run.taken ↔ AllSame ProbeResponse.ip run.ownSources) ∧
    (AllSame ProbeResponse.port run.taken ↔ AllSame ProbeResponse.port run.ownSources)

end NatRun

section Runs

variable {run : NatRun}

theorem responses_eq (run : NatRun) : run.responses = run.taken := by
  unfold NatRun.responses
  rw [receiveLoop_eq, List.nil_append]
  rfl

theorem natClassifyViaDht_eq (probes : run.Probes) (icmp : NATType) :
    natClassifyViaDht run icmp = if run.taken.length < 2 then icmp else natTypeOf run.taken := by
  obtain ⟨node, socket, sin, nodes, three⟩ := probes
  have responses : receiveLoop 12 run.arrivals [] = run.taken := responses_eq run
  unfold natClassifyViaDht natClassifyByProbes
  rw [node, socket, nodes, Bool.not_true, if_neg Bool.false_ne_true, if_neg Bool.false_ne_true]
  dsimp only
  rw [if_neg (Nat.not_lt.2 three), responses]
  split_ifs with few
  · rfl
  · rw [Option.getD_some, classifyResponses_eq]
    intro none_
    rw [none_] at few
    exact few (by decide)

/-- Without peers to ask it is as if there were no probes. -/
theorem natClassifyViaDht_eq_icmp (short : ¬ run.Probes) (icmp : NATType) :
    natClassifyViaDht run icmp = icmp := by
  unfold natClassifyViaDht natClassifyByProbes
  cases node : run.node with
  | false => rfl
  | true =>
    cases socket : run.probeSocket with
    | false => rfl
    | true =>
      cases nodes : run.nodes with
      | none => rfl
      | some sin =>
        have few : (sin.take maxProbePeers).length < 3 :=
          Nat.lt_of_not_le fun three => short ⟨node, socket, sin, nodes, three⟩
        dsimp only
        rw [Bool.not_true, if_neg Bool.false_ne_true, if_neg Bool.false_ne_true, if_pos few,
          Option.getD_none]

/-- The kind that is told once there are two responses is the one that the answers to own probes show. -/
def CountsOwnAnswers (run : NatRun) : Prop :=
  run.Probes → 2 ≤ run.responses.length → ∀ icmp, natClassifyViaDht run icmp = natTypeOf run.ownSources

/-- Once there are peers to ask, the kind is told exactly if two of the probes were answered, and it is the
one that the answers show. -/
def FollowsOwnAnswers (run : NatRun) : Prop :=
  run.Probes → ∀ icmp,
    natClassifyViaDht run icmp = if run.answered < 2 then icmp else natTypeOf run.ownSources

theorem countsOwnAnswers_iff :
    CountsOwnAnswers run ↔ (run.Probes → 2 ≤ run.taken.length → run.SameSpread) := by
  unfold CountsOwnAnswers
  rw [responses_eq]
  refine forall_congr' fun probes => forall_congr' fun two => ?_
  simp only [natClassifyViaDht_eq probes, if_neg (Nat.not_lt.2 two), forall_const]
  exact natTypeOf_eq_iff

/-- What is told tells whether anything is. -/
theorem followsOwnAnswers_iff : FollowsOwnAnswers run ↔ (run.Probes →
    (2 ≤ run.taken.length ↔ 2 ≤ run.answered) ∧ (2 ≤ run.taken.length → run.SameSpread)) := by
  unfold FollowsOwnAnswers
  refine forall_congr' fun probes => ?_
  simp only [natClassifyViaDht_eq probes]
  have same : natTypeOf run.taken = natTypeOf run.ownSources ↔ run.SameSpread := natTypeOf_eq_iff
  have other (type : NATType) : ∃ icmp, icmp ≠ type := by
    cases type
    · exact ⟨.symmetric, by decide⟩
    all_goals exact ⟨.unknown, by decide⟩
  by_cases few : run.taken.length < 2 <;> by_cases unanswered : run.answered < 2
  · simp only [if_pos few, if_pos unanswered, implies_true, true_iff]
    exact ⟨by omega, by omega⟩
  · simp only [if_pos few, if_neg unanswered]
    obtain ⟨icmp, differs⟩ := other (natTypeOf run.ownSources)
    exact iff_of_false (fun told => differs (told icmp)) fun h => by omega
  · simp only [if_neg few, if_pos unanswered]
    obtain ⟨icmp, differs⟩ := other (natTypeOf run.taken)
    exact iff_of_false (fun told => differs (told icmp).symm) fun h => by omega
  · simp only [if_neg few, if_neg unanswered, forall_const, same]
    exact ⟨fun h => ⟨by omega, fun _ => h⟩, fun h => h.2 (Nat.le_of_not_lt few)⟩

/-- Only answers to own probes count exactly if the responses that are compared differ where those do, and
they alone are counted if also there are two of the first exactly if two probes were answered. -/
theorem own_answers_count_iff (run : NatRun) :
    (CountsOwnAnswers run ↔ (run.Probes → 2 ≤ run.taken.length → run.SameSpread)) ∧
      (FollowsOwnAnswers run ↔ (run.Probes →
        (2 ≤ run.taken.length ↔ 2 ≤ run.answered) ∧ (2 ≤ run.taken.length → run.SameSpread))) :=
  ⟨countsOwnAnswers_iff, followsOwnAnswers_iff⟩

/-! ## Answers that come once -/

theorem length_probes_le (run : NatRun) : run.probes.length ≤ 6 := by
  unfold NatRun.probes
  rw [List.length_map, List.length_zipIdx]
  exact List.length_take_le 6 _

/-- The probes of a run have different numbers. -/
theorem sentIds_nodup (run : NatRun) : run.sentIds.Nodup := by
  have numbers : run.probes.map Prod.snd =
      (List.range run.probes.length).map fun i => run.probeId + i.toUInt32 := by
    unfold NatRun.probes
    generalize ((run.nodes.getD []).take maxProbePeers).take 6 = peers
    rw [List.map_map, List.length_map, List.length_zipIdx, List.range_eq_range',
      ← List.zipIdx_map_snd 0 peers, List.map_map]
    rfl
  refine (List.filter_sublist.map Prod.snd).nodup ?_
  rw [numbers]
  refine List.Nodup.map_on (fun i hi j hj same => ?_) List.nodup_range
  have small {k : ℕ} (hk : k ∈ List.range run.probes.length) : k < 2 ^ 32 :=
    Nat.lt_trans (Nat.lt_of_lt_of_le (List.mem_range.1 hk) (length_probes_le run)) (by decide)
  have numbers : i.toUInt32.toNat = j.toUInt32.toNat :=
    congrArg UInt32.toNat ((UInt32.add_right_inj _).1 same)
  rwa [UInt32.toNat_ofNat_of_lt' (small hi), UInt32.toNat_ofNat_of_lt' (small hj)] at numbers

theorem length_sentIds_le (run : NatRun) : run.sentIds.length ≤ 6 := by
  unfold NatRun.sentIds
  rw [List.length_map]
  exact Nat.le_trans (List.length_filter_le _ _) (length_probes_le run)

/-- An own answer is taken from its source. -/
theorem receiveProbeResponse_of_mem {d : PunchDatagram} (own : d ∈ run.ownAnswers) :
    receiveProbeResponse (some d) = some (sourceOf d) := by
  have looks := (Bool.and_eq_true_iff.1 (List.mem_filter.1 own).2).1
  revert looks
  unfold receiveProbeResponse
  dsimp only
  split_ifs <;> simp [sourceOf]

theorem answerId_mem {d : PunchDatagram} (own : d ∈ run.ownAnswers) : answerId d ∈ run.sentIds :=
  List.contains_iff_mem.1 (Bool.and_eq_true_iff.1 (List.mem_filter.1 own).2).2

/-- Where each probe is answered once, there are as many answers as answered probes. -/
theorem answered_eq (once : (run.ownAnswers.map answerId).Nodup) :
    run.answered = run.ownAnswers.length := by
  rw [← List.length_map answerId]
  refine ((List.perm_ext_iff_of_nodup ((sentIds_nodup run).filter _) once).2 ?_).length_eq
  intro probeId
  rw [List.mem_filter, List.any_eq_true, List.mem_map]
  constructor
  · rintro ⟨-, d, own, id⟩
    exact ⟨d, own, beq_iff_eq.1 id⟩
  · rintro ⟨d, own, rfl⟩
    exact ⟨answerId_mem own, d, own, beq_self_eq_true _⟩

/-- If nothing but own answers comes, each probe is answered once at most and none is too late to be
received, the answers alone are counted, in whichever order they come. -/
theorem followsOwnAnswers_of_once (few : run.arrivals.length ≤ 12)
    (own : ∀ d ∈ run.arrivals.filterMap id, d ∈ run.ownAnswers)
    (once : (run.ownAnswers.map answerId).Nodup) : FollowsOwnAnswers run := by
  have all : run.ownAnswers = run.arrivals.filterMap id :=
    List.filter_eq_self.2 fun d hd => (List.mem_filter.1 (own d hd)).2
  have received : run.arrivals.filterMap receiveProbeResponse = run.ownSources := by
    rw [NatRun.ownSources, all, List.map_filterMap]
    refine List.filterMap_congr fun received hr => ?_
    cases received with
    | none => rfl
    | some d => exact receiveProbeResponse_of_mem (own d (List.mem_filterMap.2 ⟨some d, hr, rfl⟩))
  have six : run.ownSources.length ≤ 6 := by
    rw [NatRun.ownSources, List.length_map, ← List.length_map answerId]
    refine Nat.le_trans (List.Nodup.length_le_of_subset once ?_) (length_sentIds_le run)
    intro probeId mem
    obtain ⟨d, hd, rfl⟩ := List.mem_map.1 mem
    exact answerId_mem hd
  have taken : run.taken = run.ownSources := by
    rw [NatRun.taken, List.take_of_length_le few, received, List.take_of_length_le six]
  intro probes icmp
  rw [natClassifyViaDht_eq probes, taken, answered_eq once, NatRun.ownSources, List.length_map]

/-- Then the order of arrival does not matter. -/
theorem natClassifyViaDht_perm {arrivals : List (Option PunchDatagram)} (perm : arrivals.Perm run.arrivals)
    (few : run.arrivals.length ≤ 12) (own : ∀ d ∈ run.arrivals.filterMap id, d ∈ run.ownAnswers)
    (once : (run.ownAnswers.map answerId).Nodup) (icmp : NATType) :
    natClassifyViaDht { run with arrivals } icmp = natClassifyViaDht run icmp := by
  have answers : (NatRun.ownAnswers { run with arrivals }).Perm run.ownAnswers :=
    (perm.filterMap id).filter _
  have once' : ((NatRun.ownAnswers { run with arrivals }).map answerId).Nodup :=
    (answers.map answerId).nodup_iff.2 once
  have follows := followsOwnAnswers_of_once few own once
  have follows' : FollowsOwnAnswers { run with arrivals } := by
    refine followsOwnAnswers_of_once (Nat.le_trans (Nat.le_of_eq perm.length_eq) few) (fun d hd => ?_) once'
    exact answers.mem_iff.2 (own d ((perm.filterMap id).mem_iff.1 hd))
  by_cases probes : run.Probes
  · have kind : natTypeOf (NatRun.ownSources { run with arrivals }) = natTypeOf run.ownSources :=
      natTypeOf_congr fun _ => (answers.map sourceOf).mem_iff
    rw [follows probes, follows' probes, answered_eq once, answered_eq once', answers.length_eq, kind]
  · have probes' : ¬ NatRun.Probes { run with arrivals } := probes
    rw [natClassifyViaDht_eq_icmp probes, natClassifyViaDht_eq_icmp probes']

end Runs

/-! ## A late answer -/

/-- The answer that a peer at `10.0.0.host` sends from `port`. -/
def answerFrom (host : UInt8) (port : UInt16) (probeId : UInt32) : PunchDatagram where
  bytes := DHTNATProbe.toBytes ⟨DHTNATProbe.expectedMagic, 2, probeId, 0, List.replicate 32 0, 0⟩
  sender := ⟨(10, 0, 0, host), port⟩

/-- Two of three peers answer; the third answers a probe of an earlier run. -/
def lateAnswerRun : NatRun where
  node := true
  probeSocket := true
  nodes := some [⟨(10, 0, 0, 1), 33445⟩, ⟨(10, 0, 0, 2), 33445⟩, ⟨(10, 0, 0, 3), 33445⟩]
  probeId := 1000
  now := 0
  myId := none
  sendto := fun _ _ => true
  arrivals := [some (answerFrom 1 33445 1000), some (answerFrom 2 33445 1001), some (answerFrom 3 40000 77)]

theorem late_answer_changes_type : ¬ CountsOwnAnswers lateAnswerRun := by
  intro counts
  have told : natClassifyViaDht lateAnswerRun .unknown = .symmetric := by decide +kernel
  have shown : natTypeOf lateAnswerRun.ownSources = .restrictedCone := by decide +kernel
  have probes : lateAnswerRun.Probes := ⟨rfl, rfl, _, rfl, by decide⟩
  have same := counts probes (by decide +kernel) .unknown
  rw [told, shown] at same
  cases same

end Orcashi
