import Mathlib.Logic.Function.Iterate
import Orcashi.Lib.Stun
import Orcashi.NatClassifier

/-!
# Asking STUN servers

`nat_classify_via_stun` goes over the attributes of a response by the lengths they carry, up to the first
XOR-MAPPED-ADDRESS with an IPv4 address.  An attribute is looked at if the four bytes of its header were
received; whether its value was is not asked.
-/

namespace Orcashi

open CMemory Stun

/-! ## The code -/

/-- What is read of an address: `external_ip` and `external_port`. -/
structure StunAddress where
  ip : Bytes
  port : UInt16
  deriving DecidableEq

/-- An address of zeros. -/
def StunAddress.zero : StunAddress := ⟨[0, 0, 0, 0], 0⟩

/-- Where the loop over the attributes is: in front of an iteration, behind its end, or at a byte outside
the memory. -/
inductive StunScan where
  | before (pos : ℕ)
  | ended (external : StunAddress)
  | outside
  deriving DecidableEq

/-- The body of the loop. -/
def stunAttr (mem : Bytes) (pos : ℕ) : StunScan :=
  if mem.length < pos + 4 then .outside
  else
    let attrType := readBe16 mem pos
    let attrLen := readBe16 mem (pos + 2)
    let value := pos + 4
    if attrType = 0x0020 ∧ 8 ≤ attrLen.toNat then
      if mem.length < value + 2 then .outside
      else if mem.getD (value + 1) 0 = 1 then
        if mem.length < value + 8 then .outside
        else .ended ⟨(mem.drop (value + 4)).take 4, readBe16 mem (value + 2)⟩
      else .before (value + attrLen.toNat)
    else .before (value + attrLen.toNat)

/-- One iteration, if there is one, for `n` bytes received. -/
def stunStep (mem : Bytes) (n : ℕ) : StunScan → StunScan
  | .before pos => if pos + 4 < n then stunAttr mem pos else .ended .zero
  | scan => scan

/-- The loop in front of the first iteration; another message is not gone over. -/
def stunStart (mem : Bytes) (n : ℕ) : StunScan :=
  if 20 ≤ n ∧ mem.getD 1 0 = 1 then .before 20 else .ended .zero

/-- The loop after `k` iterations. -/
def stunAfter (mem : Bytes) (n k : ℕ) : StunScan := (stunStep mem n)^[k] (stunStart mem n)

/-- What comes of the loop; `n` iterations are enough. -/
def stunScan (mem : Bytes) (n : ℕ) : StunScan := stunAfter mem n n

/-- What a server that is known sends, and what lies in memory behind the bytes received. -/
structure StunAnswer where
  received : { b : Bytes // b.length ≤ 512 }
  behind : Bytes

/-- The loop over the servers; none where a byte outside the memory is read. -/
def askStunHosts (ask : CString → Option StunAnswer) : List CString → Option NATType
  | [] => some .unknown
  | host :: hosts =>
    match ask host with
    | none => askStunHosts ask hosts
    | some answer =>
      match stunScan (answer.received.val ++ answer.behind) answer.received.val.length with
      | .ended external => if 0 < external.port.toNat then some .fullCone else askStunHosts ask hosts
      | _ => none

/-- The servers that are asked. -/
def stunHosts : List CString :=
  [ascii "stun.l.google.com", ascii "stun1.l.google.com", ascii "stun.ekiga.net"]

/-- `nat_classify_via_stun`; `ask` gives no answer for a server that is not known or sends nothing. -/
def natClassifyViaStun (socket : Bool) (ask : CString → Option StunAnswer) : Option NATType :=
  if !socket then some .unknown else askStunHosts ask stunHosts

/-! ## Attributes -/

section Attributes

variable (p : Bytes) (pos : ℕ)

/-- An XOR-MAPPED-ADDRESS that is long enough for an IPv4 address. -/
def IsMapped : Prop := readBe16 p pos = 0x0020 ∧ 8 ≤ (readBe16 p (pos + 2)).toNat

/-- With the family of IPv4. -/
def IsMappedIpv4 : Prop := IsMapped p pos ∧ p.getD (pos + 5) 0 = 1

/-- Where the attribute ends. -/
def attrEnd : ℕ := pos + 4 + (readBe16 p (pos + 2)).toNat

instance : Decidable (IsMapped p pos) := inferInstanceAs (Decidable (_ ∧ _))

instance : Decidable (IsMappedIpv4 p pos) := inferInstanceAs (Decidable (_ ∧ _))

/-- The attributes of a response up to the first IPv4 address, each where the one before it ends. -/
inductive AttrAt (p : Bytes) : ℕ → Prop where
  | first : AttrAt p 20
  | next {pos : ℕ} (met : AttrAt p pos) (header : pos + 4 < p.length) (other : ¬ IsMappedIpv4 p pos) :
      AttrAt p (attrEnd p pos)

/-- The bytes of an address that are looked at were received, and the whole attribute if it has a port. -/
structure MappedReceived : Prop where
  family : pos + 6 ≤ p.length
  address : IsMappedIpv4 p pos → pos + 12 ≤ p.length
  whole : IsMappedIpv4 p pos → readBe16 p (pos + 6) ≠ 0 → attrEnd p pos ≤ p.length

end Attributes

/-- The addresses of a response were received. -/
def AddressesReceived (p : Bytes) : Prop :=
  20 ≤ p.length → p.getD 1 0 = 1 →
    ∀ pos, AttrAt p pos → pos + 4 < p.length → IsMapped p pos → MappedReceived p pos

/-- The iteration at `pos` ends the loop with this address. -/
def EndsAt (mem : Bytes) (n pos : ℕ) (external : StunAddress) : Prop :=
  ∃ k, stunAfter mem n k = .before pos ∧ stunAfter mem n (k + 1) = .ended external

/-- What the loop owes for a datagram, whatever lies behind it in memory: where nothing does, no byte
outside is read; each iteration advances; and a port is that of an XOR-MAPPED-ADDRESS in the datagram. -/
structure ScansWithin (p : Bytes) : Prop where
  reads : ∀ k, stunAfter p p.length k ≠ .outside
  advances : ∀ behind pos pos', stunStep (p ++ behind) p.length (.before pos) = .before pos' → pos < pos'
  terminates : ∀ behind pos, stunAfter (p ++ behind) p.length (p.length / 4) ≠ .before pos
  reports : ∀ behind external, stunScan (p ++ behind) p.length = .ended external → external.port ≠ 0 →
    ∃ pos, EndsAt (p ++ behind) p.length pos external ∧ IsMapped p pos ∧ attrEnd p pos ≤ p.length ∧
      external.port = readBe16 p (pos + 6)

/-! ## One iteration -/

section Iteration

variable {mem p : Bytes} {n pos pos' : ℕ} {external : StunAddress}

theorem stunAttr_eq (mem : Bytes) (pos : ℕ) : stunAttr mem pos =
    if mem.length < pos + 4 then .outside
    else if IsMapped mem pos then
      if mem.length < pos + 6 then .outside
      else if mem.getD (pos + 5) 0 = 1 then
        if mem.length < pos + 12 then .outside
        else .ended ⟨(mem.drop (pos + 8)).take 4, readBe16 mem (pos + 6)⟩
      else .before (attrEnd mem pos)
    else .before (attrEnd mem pos) := rfl

theorem stunAttr_eq_outside_iff : stunAttr mem pos = .outside ↔
    mem.length < pos + 4 ∨ IsMapped mem pos ∧ mem.length < pos + 6 ∨
      IsMappedIpv4 mem pos ∧ mem.length < pos + 12 := by
  rw [stunAttr_eq]
  split_ifs with header mapped family ipv4 address
  · exact iff_of_true rfl (Or.inl header)
  · exact iff_of_true rfl (Or.inr (Or.inl ⟨mapped, family⟩))
  · exact iff_of_true rfl (Or.inr (Or.inr ⟨⟨mapped, ipv4⟩, address⟩))
  · refine iff_of_false (by simp) ?_
    rintro (h | ⟨-, h⟩ | ⟨-, h⟩)
    · exact header h
    · exact family h
    · exact address h
  · refine iff_of_false (by simp) ?_
    rintro (h | ⟨-, h⟩ | ⟨h, -⟩)
    · exact header h
    · exact family h
    · exact ipv4 h.2
  · refine iff_of_false (by simp) ?_
    rintro (h | ⟨h, -⟩ | ⟨h, -⟩)
    · exact header h
    · exact mapped h
    · exact mapped h.1

/-- An iteration goes on behind an attribute of another kind. -/
theorem stunAttr_other (inside : stunAttr mem pos ≠ .outside) (other : ¬ IsMappedIpv4 mem pos) :
    stunAttr mem pos = .before (attrEnd mem pos) := by
  rw [stunAttr_eq] at inside ⊢
  split_ifs at inside ⊢ with header mapped family ipv4 address
  · exact absurd rfl inside
  · exact absurd rfl inside
  · exact absurd rfl inside
  · exact absurd ⟨mapped, ipv4⟩ other
  · rfl
  · rfl

/-- It ends the loop at an IPv4 address. -/
theorem stunAttr_ipv4 (inside : stunAttr mem pos ≠ .outside) (ipv4 : IsMappedIpv4 mem pos) :
    stunAttr mem pos = .ended ⟨(mem.drop (pos + 8)).take 4, readBe16 mem (pos + 6)⟩ := by
  rw [Ne, stunAttr_eq_outside_iff, not_or, not_or, not_and, not_and] at inside
  obtain ⟨header, family, address⟩ := inside
  rw [stunAttr_eq, if_neg header, if_pos ipv4.1, if_neg (family ipv4.1), if_pos ipv4.2,
    if_neg (address ipv4)]

theorem stunAttr_eq_before (h : stunAttr mem pos = .before pos') :
    ¬ IsMappedIpv4 mem pos ∧ pos' = attrEnd mem pos := by
  have inside : stunAttr mem pos ≠ .outside := by
    rw [h]
    simp
  have other : ¬ IsMappedIpv4 mem pos := by
    intro ipv4
    rw [stunAttr_ipv4 inside ipv4] at h
    cases h
  rw [stunAttr_other inside other] at h
  exact ⟨other, (StunScan.before.inj h).symm⟩

theorem stunAttr_eq_ended (h : stunAttr mem pos = .ended external) :
    IsMappedIpv4 mem pos ∧ external.port = readBe16 mem (pos + 6) := by
  have inside : stunAttr mem pos ≠ .outside := by
    rw [h]
    simp
  by_cases ipv4 : IsMappedIpv4 mem pos
  · rw [stunAttr_ipv4 inside ipv4] at h
    cases h
    exact ⟨ipv4, rfl⟩
  · rw [stunAttr_other inside ipv4] at h
    cases h

/-- An iteration that stays within the front does not see what lies behind. -/
theorem stunAttr_front (inside : stunAttr p pos ≠ .outside) (behind : Bytes) :
    stunAttr (p ++ behind) pos = stunAttr p pos := by
  have within := inside
  rw [Ne, stunAttr_eq_outside_iff, not_or, not_or, not_and, not_and] at within
  obtain ⟨header, family, address⟩ := within
  have type : readBe16 (p ++ behind) pos = readBe16 p pos := readBe16_front (by omega) behind
  have length : readBe16 (p ++ behind) (pos + 2) = readBe16 p (pos + 2) :=
    readBe16_front (by omega) behind
  have mapped : IsMapped (p ++ behind) pos ↔ IsMapped p pos := by
    unfold IsMapped
    rw [type, length]
  have ipv4 : IsMappedIpv4 (p ++ behind) pos ↔ IsMappedIpv4 p pos := by
    unfold IsMappedIpv4
    rw [mapped]
    refine and_congr_right fun m => ?_
    rw [getD_append_front (by have := family m; omega)]
  have inside' : stunAttr (p ++ behind) pos ≠ .outside := by
    rw [Ne, stunAttr_eq_outside_iff, mapped, ipv4, List.length_append]
    rintro (h | ⟨m, h⟩ | ⟨m, h⟩)
    · omega
    · have := family m
      omega
    · have := address m
      omega
  by_cases m : IsMappedIpv4 p pos
  · have enough : pos + 12 ≤ p.length := Nat.le_of_not_lt (address m)
    rw [stunAttr_ipv4 inside m, stunAttr_ipv4 inside' (ipv4.2 m), readBe16_front (by omega),
      List.drop_append_of_le_length (by omega), List.take_append_of_le_length (by
        rw [List.length_drop]
        omega)]
  · rw [stunAttr_other inside m, stunAttr_other inside' (mt ipv4.1 m), attrEnd, attrEnd, length]

end Iteration

/-! ## Runs of the loop -/

section Runs

variable {mem p : Bytes} {n pos pos' k m : ℕ} {external : StunAddress}

theorem stunAfter_succ (mem : Bytes) (n k : ℕ) :
    stunAfter mem n (k + 1) = stunStep mem n (stunAfter mem n k) :=
  Function.iterate_succ_apply' _ _ _

/-- An iteration that goes on is at an attribute with a header, and goes on where that ends. -/
theorem stunStep_eq_before (h : stunStep mem n (.before pos) = .before pos') :
    pos + 4 < n ∧ ¬ IsMappedIpv4 mem pos ∧ pos' = attrEnd mem pos := by
  by_cases header : pos + 4 < n
  · exact ⟨header, stunAttr_eq_before ((if_pos header).symm.trans h)⟩
  · cases (if_neg header).symm.trans h

theorem stunStart_cases (mem : Bytes) (n : ℕ) :
    (20 ≤ n ∧ mem.getD 1 0 = 1) ∧ stunStart mem n = .before 20 ∨ stunStart mem n = .ended .zero := by
  by_cases start : 20 ≤ n ∧ mem.getD 1 0 = 1
  · exact Or.inl ⟨start, if_pos start⟩
  · exact Or.inr (if_neg start)

/-- What is in front of an iteration comes from the start or from the iteration before. -/
theorem stunAfter_before_succ (h : stunAfter mem n (k + 1) = .before pos') :
    ∃ pos, stunAfter mem n k = .before pos ∧ stunStep mem n (.before pos) = .before pos' := by
  rw [stunAfter_succ] at h
  cases here : stunAfter mem n k with
  | before pos => exact ⟨pos, rfl, here ▸ h⟩
  | ended external =>
    rw [here] at h
    cases h
  | outside =>
    rw [here] at h
    cases h

/-- Every iteration takes four bytes of the datagram at least. -/
theorem stunAfter_bound (h : stunAfter mem n k = .before pos) : 20 + 4 * k ≤ pos ∧ 20 + 4 * k ≤ n := by
  induction k generalizing pos with
  | zero =>
    rcases stunStart_cases mem n with ⟨⟨long, -⟩, start⟩ | start
    · cases start.symm.trans h
      exact ⟨Nat.le_refl 20, long⟩
    · cases start.symm.trans h
  | succ k ih =>
    obtain ⟨pos, here, goes⟩ := stunAfter_before_succ h
    obtain ⟨header, -, rfl⟩ := stunStep_eq_before goes
    have := ih here
    unfold attrEnd
    omega

theorem started_of_before (h : stunAfter mem n k = .before pos) : mem.getD 1 0 = 1 := by
  induction k generalizing pos with
  | zero =>
    rcases stunStart_cases mem n with ⟨⟨-, type⟩, -⟩ | start
    · exact type
    · cases start.symm.trans h
  | succ k ih =>
    obtain ⟨pos, here, -⟩ := stunAfter_before_succ h
    exact ih here

/-- The attributes that the loop meets. -/
theorem attrAt_of_stunAfter (h : stunAfter p p.length k = .before pos) : AttrAt p pos := by
  induction k generalizing pos with
  | zero =>
    rcases stunStart_cases p p.length with ⟨-, start⟩ | start
    · cases start.symm.trans h
      exact .first
    · cases start.symm.trans h
  | succ k ih =>
    obtain ⟨pos, here, goes⟩ := stunAfter_before_succ h
    obtain ⟨header, other, rfl⟩ := stunStep_eq_before goes
    exact .next (ih here) header other

/-- It meets all of them, if it does not leave the datagram. -/
theorem stunAfter_of_attrAt (reads : ∀ k, stunAfter p p.length k ≠ .outside)
    (start : 20 ≤ p.length ∧ p.getD 1 0 = 1) (met : AttrAt p pos) :
    ∃ k, stunAfter p p.length k = .before pos := by
  induction met with
  | first => exact ⟨0, if_pos start⟩
  | @next pos met header other ih =>
    obtain ⟨k, here⟩ := ih
    have step : stunAfter p p.length (k + 1) = stunAttr p pos := by
      rw [stunAfter_succ, here]
      exact if_pos header
    have inside := reads (k + 1)
    rw [step] at inside
    exact ⟨k + 1, step.trans (stunAttr_other inside other)⟩

theorem stunAfter_ended (h : stunAfter mem n k = .ended external) (later : k ≤ m) :
    stunAfter mem n m = .ended external := by
  obtain ⟨j, rfl⟩ := Nat.exists_eq_add_of_le' later
  unfold stunAfter at h ⊢
  rw [Function.iterate_add_apply, h]
  exact Function.iterate_fixed rfl j

/-- The loop ends once. -/
theorem EndsAt.unique {external' : StunAddress} (h : EndsAt mem n pos external)
    (h' : EndsAt mem n pos' external') : pos = pos' := by
  obtain ⟨k, here, ended⟩ := h
  obtain ⟨k', here', ended'⟩ := h'
  rcases Nat.lt_trichotomy k k' with less | rfl | less
  · cases here'.symm.trans (stunAfter_ended ended less)
  · exact StunScan.before.inj (here.symm.trans here')
  · cases here.symm.trans (stunAfter_ended ended' less)

/-- A port comes from the iteration that ends the loop. -/
theorem endsAt_of_port (h : stunAfter mem n k = .ended external) (port : external.port ≠ 0) :
    ∃ pos, EndsAt mem n pos external := by
  induction k with
  | zero =>
    rcases stunStart_cases mem n with ⟨-, start⟩ | start
    · cases start.symm.trans h
    · cases start.symm.trans h
      exact absurd rfl port
  | succ k ih =>
    cases here : stunAfter mem n k with
    | before pos => exact ⟨pos, k, here, h⟩
    | ended external' =>
      have same := h.symm.trans (stunAfter_ended here (Nat.le_succ k))
      cases same
      exact ih here
    | outside =>
      rw [stunAfter_succ, here] at h
      cases h

/-- What the iteration that ends the loop with a port has read. -/
theorem EndsAt.mapped (h : EndsAt mem n pos external) (port : external.port ≠ 0) :
    pos + 4 < n ∧ IsMappedIpv4 mem pos ∧ external.port = readBe16 mem (pos + 6) := by
  obtain ⟨k, here, ended⟩ := h
  rw [stunAfter_succ, here] at ended
  by_cases header : pos + 4 < n
  · exact ⟨header, stunAttr_eq_ended ((if_pos header).symm.trans ended)⟩
  · cases (if_neg header).symm.trans ended
    exact absurd rfl port

/-- A loop that stays within the datagram does not see what lies behind. -/
theorem stunAfter_front (reads : ∀ k, stunAfter p p.length k ≠ .outside) (behind : Bytes) (k : ℕ) :
    stunAfter (p ++ behind) p.length k = stunAfter p p.length k := by
  induction k with
  | zero =>
    show stunStart (p ++ behind) p.length = stunStart p p.length
    unfold stunStart
    by_cases long : 20 ≤ p.length
    · rw [getD_append_front (by omega)]
    · rw [if_neg (fun h => long h.1), if_neg (fun h => long h.1)]
  | succ k ih =>
    have inside := reads (k + 1)
    rw [stunAfter_succ] at inside
    rw [stunAfter_succ, stunAfter_succ, ih]
    cases here : stunAfter p p.length k with
    | before pos =>
      rw [here] at inside
      unfold stunStep at inside ⊢
      dsimp only at inside ⊢
      split_ifs at inside ⊢ with header
      · exact stunAttr_front inside behind
      · rfl
    | ended external => rfl
    | outside => rfl

end Runs

/-! ## When the loop stays within the datagram -/

section Within

variable {p : Bytes} {pos : ℕ}

theorem reads_of_addressesReceived (h : AddressesReceived p) (k : ℕ) :
    stunAfter p p.length k ≠ .outside := by
  induction k with
  | zero =>
    show stunStart p p.length ≠ .outside
    rcases stunStart_cases p p.length with ⟨-, start⟩ | start <;> simp [start]
  | succ k ih =>
    rw [stunAfter_succ]
    cases here : stunAfter p p.length k with
    | outside => exact absurd here ih
    | ended external => exact fun h => by cases h
    | before pos =>
      unfold stunStep
      dsimp only
      split_ifs with header
      · rw [Ne, stunAttr_eq_outside_iff]
        have bound := stunAfter_bound here
        have started : p.getD 1 0 = 1 := started_of_before here
        have received := h (by omega) started pos (attrAt_of_stunAfter here) header
        rintro (short | ⟨mapped, short⟩ | ⟨ipv4, short⟩)
        · omega
        · exact Nat.not_le.2 short (received mapped).family
        · exact Nat.not_le.2 short ((received ipv4.1).address ipv4)
      · simp

theorem addressesReceived_of_scansWithin (h : ScansWithin p) : AddressesReceived p := by
  intro long type pos met header mapped
  obtain ⟨k, here⟩ := stunAfter_of_attrAt h.reads ⟨long, type⟩ met
  have step : stunAfter p p.length (k + 1) = stunAttr p pos := by
    rw [stunAfter_succ, here]
    exact if_pos header
  have inside := h.reads (k + 1)
  rw [step] at inside
  have bytes := inside
  rw [Ne, stunAttr_eq_outside_iff, not_or, not_or, not_and, not_and] at bytes
  refine ⟨Nat.le_of_not_lt (bytes.2.1 mapped), fun ipv4 => Nat.le_of_not_lt (bytes.2.2 ipv4),
    fun ipv4 port => ?_⟩
  -- the loop ends here, so the address it may report is this one
  have ended := step.trans (stunAttr_ipv4 inside ipv4)
  have bound := stunAfter_bound here
  have reported := h.reports [] ⟨(p.drop (pos + 8)).take 4, readBe16 p (pos + 6)⟩
  rw [List.append_nil] at reported
  obtain ⟨pos', ends, -, whole, -⟩ := reported (stunAfter_ended ended (by omega)) port
  obtain rfl : pos = pos' := EndsAt.unique ⟨k, here, ended⟩ ends
  exact whole

theorem scansWithin_of_addressesReceived (h : AddressesReceived p) : ScansWithin p where
  reads := reads_of_addressesReceived h
  advances behind pos pos' goes := by
    obtain ⟨-, -, rfl⟩ := stunStep_eq_before goes
    unfold attrEnd
    omega
  terminates behind pos here := by
    have bound := stunAfter_bound here
    omega
  reports behind external scanned port := by
    have front := stunAfter_front (reads_of_addressesReceived h) behind
    unfold stunScan at scanned
    rw [front] at scanned
    obtain ⟨pos, ends⟩ := endsAt_of_port scanned port
    obtain ⟨header, ipv4, here⟩ := ends.mapped port
    obtain ⟨k, before, ended⟩ := ends
    have bound := stunAfter_bound before
    have met := attrAt_of_stunAfter before
    have received := h (by omega) (started_of_before before) pos met header ipv4.1
    exact ⟨pos, ⟨k, (front k).trans before, (front (k + 1)).trans ended⟩, ipv4.1,
      received.whole ipv4 (here ▸ port), here⟩

end Within

/-- The loop stays within a datagram exactly if the addresses of the response were received. -/
theorem scans_within_iff (p : Bytes) : ScansWithin p ↔ AddressesReceived p :=
  ⟨addressesReceived_of_scansWithin, scansWithin_of_addressesReceived⟩

/-- A response of 25 bytes that ends with the first byte of an address. -/
def endingResponse : Bytes := [1, 1] ++ List.replicate 18 0 ++ [0, 0x20, 0, 8] ++ [0]

/-- What lies behind the datagram is read as a family, a port and an address. -/
example : stunScan (endingResponse ++ [1, 0x12, 0x34, 10, 0, 0, 1]) 25 =
    .ended ⟨[10, 0, 0, 1], 0x1234⟩ := by decide +kernel

/-- The family of its address is read behind the datagram. -/
theorem family_behind_datagram : ¬ ScansWithin endingResponse := by
  intro within
  have outside : stunAfter endingResponse endingResponse.length 1 = .outside := by decide +kernel
  exact within.reads 1 outside

/-! ## All servers -/

/-- A response is taken to report a port. -/
def reportsPort (p : Bytes) : Prop :=
  ∃ external, stunScan p p.length = .ended external ∧ external.port ≠ 0

theorem scan_of_addressesReceived {p : Bytes} (h : AddressesReceived p) (behind : Bytes) :
    ∃ external, stunScan (p ++ behind) p.length = .ended external ∧
      (external.port ≠ 0 ↔ reportsPort p) := by
  have reads := reads_of_addressesReceived h
  have front : stunScan (p ++ behind) p.length = stunScan p p.length := stunAfter_front reads behind _
  cases scanned : stunScan p p.length with
  | before pos =>
    have bound := stunAfter_bound scanned
    omega
  | outside => exact absurd scanned (reads _)
  | ended external =>
    refine ⟨external, front.trans scanned, fun port => ⟨external, scanned, port⟩, ?_⟩
    rintro ⟨external', scanned', port⟩
    cases scanned.symm.trans scanned'
    exact port

/-- With responses whose addresses were received, no byte outside them has a part in the result: it is that
a server reports a port. -/
theorem natClassifyViaStun_eq_fullCone_iff {ask : CString → Option StunAnswer}
    (received : ∀ host answer, ask host = some answer → AddressesReceived answer.received.val) :
    (natClassifyViaStun true ask = some .fullCone ↔
      ∃ host ∈ stunHosts, ∃ answer, ask host = some answer ∧ reportsPort answer.received.val) ∧
    (natClassifyViaStun true ask = some .fullCone ∨ natClassifyViaStun true ask = some .unknown) := by
  show (askStunHosts ask stunHosts = some .fullCone ↔ _) ∧
    (askStunHosts ask stunHosts = some .fullCone ∨ askStunHosts ask stunHosts = some .unknown)
  induction stunHosts with
  | nil => simp [askStunHosts]
  | cons host hosts ih =>
    rw [askStunHosts]
    simp only [List.mem_cons, exists_eq_or_imp]
    cases asked : ask host with
    | none => simpa using ih
    | some answer =>
      obtain ⟨external, scanned, port⟩ :=
        scan_of_addressesReceived (received host answer asked) answer.behind
      dsimp only
      rw [scanned]
      dsimp only
      by_cases reports : reportsPort answer.received.val
      · have positive : 0 < external.port.toNat := by
          refine Nat.pos_of_ne_zero fun zero => port.2 reports (UInt16.toNat_inj.1 zero)
        rw [if_pos positive]
        exact ⟨iff_of_true rfl (Or.inl ⟨answer, rfl, reports⟩), Or.inl rfl⟩
      · have zero : ¬ 0 < external.port.toNat := by
          intro positive
          refine reports (port.1 fun h => ?_)
          rw [h] at positive
          exact absurd positive (by decide)
        rw [if_neg zero]
        refine ⟨ih.1.trans ?_, ih.2⟩
        rw [or_iff_right]
        rintro ⟨answer', same, h⟩
        cases same
        exact reports h

end Orcashi
