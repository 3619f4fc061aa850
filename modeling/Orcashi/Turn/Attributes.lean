import Orcashi.Turn.Message
import Orcashi.Turn.Response

/-!
# The loops over the attributes of a datagram

`turn_parse_allocate_response`, `turn_recv` and `turn_process_message` go from attribute to attribute
by the lengths these carry, until the length in the header is used up or, the last two, at DATA.  The
number of bytes received is compared with the size of a header only.  So a loop stays within the
datagram exactly if the attributes there end where the header says.
-/

namespace Orcashi

open CMemory Stun

/-! ## Data indications -/

/-- `TURN_BUFFER_SIZE`, and the size of `recv_buffer`. -/
def turnBufferSize : ℕ := 4096

/-- `TURN_MSG_DATA_INDICATION` -/
def turnMsgDataIndication : UInt16 := 0x0017

/-- The attributes that the loop of `turn_recv` and `turn_process_message` meets. -/
def turnDataAttrs (mem : Bytes) : Option (List TurnAttr) :=
  turnAttrs (· == turnAttrData) mem turnStunHeaderSize (readBe16 mem 2).toNat

/-- What `turn_recv` makes of the `n` bytes at the front of `recv_buffer`: its value, and the bytes it
copies where there is DATA. -/
def turnReadData (mem : Bytes) (n maxLen : ℕ) : Option (ℤ × Option Bytes) :=
  if n < turnStunHeaderSize then some (-1, none)
  else if readBe16 mem 0 = turnMsgDataIndication then do
    let attrs ← turnDataAttrs mem
    match attrs.find? (·.type == turnAttrData) with
    | none => return (0, none)
    | some attr =>
      let value := attr.offset + turnAttributeSize
      let copyLen := min attr.length.toNat maxLen
      if mem.length < value + copyLen then none
      else return ((copyLen : ℤ), some ((mem.drop value).take copyLen))
  else some (0, none)

/-- `turn_recv` with a buffer of `maxLen` bytes: its value, the bytes it has written and what it leaves.
`stale` is what lies behind the datagram in its own buffer. -/
def turnRecv (env : TurnEnv) (peerId : CString) (maxLen : ℕ) (arrival : RelayArrival) (stale : Bytes)
    (mgr : TurnManager) : Option (ℤ × Bytes × TurnManager) :=
  if maxLen = 0 then some (-1, [], mgr)
  else
    match turnFindSession peerId mgr with
    | none => some (-1, [], mgr)
    | some slot =>
      let s := mgr.sessions slot
      if s.state ≠ .established then some (-1, [], mgr)
      else
        match arrival with
        | .nothing => some (0, [], mgr)
        | .failed => some (-1, [], mgr)
        | .datagram b =>
          (turnReadData (b.take turnBufferSize ++ stale) (min turnBufferSize b.length) maxLen).map fun
            | (ret, none) => (ret, [], mgr)
            | (ret, some data) => (ret, data, mgr.write slot { s with lastActivity := env.now })

/-- `turn_process_message`; the `n` bytes at the front of `mem` are the datagram. -/
def turnProcessMessage (env : TurnEnv) (mem : Bytes) (n : ℕ) (s : TurnSession) :
    Option (ℤ × TurnSession) :=
  if n < turnStunHeaderSize then some (-1, s)
  else if readBe16 mem 0 = turnMsgDataIndication then
    (turnDataAttrs mem).map fun attrs =>
      if attrs.any (·.type == turnAttrData) then (0, { s with lastActivity := env.now }) else (0, s)
  else some (0, s)

/-! ## Chains of attributes -/

/-- The attributes of a message from an offset on, each where the one before it ends, and where the
last one ends.  The value of the last one may reach beyond the message. -/
inductive AttrChain (p : Bytes) : ℕ → List TurnAttr → ℕ → Prop where
  | nil (offset : ℕ) : AttrChain p offset [] offset
  | cons {offset stop : ℕ} {attrs : List TurnAttr} (within : offset + turnAttributeSize ≤ p.length)
      (rest : AttrChain p (offset + (turnAttributeSize + (readBe16 p (offset + 2)).toNat)) attrs stop) :
      AttrChain p offset (⟨offset, readBe16 p offset, readBe16 p (offset + 2)⟩ :: attrs) stop

/-- What a loop over the attributes of a message may come to: it returns at one of them, or they end
where the header says, less than the size of an attribute before that. -/
def TurnEnds (returns : UInt16 → Bool) (offset left : ℕ) (attrs : List TurnAttr) (stop : ℕ) : Prop :=
  (∃ a ∈ attrs, returns a.type = true) ∨ stop ≤ offset + left ∧ offset + left < stop + turnAttributeSize

/-- The attributes of a datagram, as far as a loop has to go, lie within it with what is read of them. -/
def TurnWhole (returns : UInt16 → Bool) (received : TurnAttr → Prop) (p : Bytes) : Prop :=
  ∃ attrs stop, AttrChain p turnStunHeaderSize attrs stop ∧ (∀ a ∈ attrs, received a) ∧
    TurnEnds returns turnStunHeaderSize (readBe16 p 2).toNat attrs stop

section Chain

variable {p : Bytes} {offset left stop : ℕ} {attrs : List TurnAttr} {returns : UInt16 → Bool}

theorem AttrChain.le (h : AttrChain p offset attrs stop) : offset ≤ stop := by
  induction h with
  | nil => exact Nat.le_refl _
  | cons _ _ ih => omega

/-- Only the last value may reach beyond the message. -/
theorem AttrChain.stop_le (h : AttrChain p offset attrs stop) : stop ≤ max offset (p.length + 65535) := by
  induction h with
  | nil offset => exact Nat.le_max_left _ _
  | cons within rest ih =>
    rename_i offset _ _
    have := (readBe16 p (offset + 2)).toNat_lt
    rw [turnAttributeSize] at *
    omega

/-- Each attribute takes four bytes of the message at least. -/
theorem AttrChain.length_le (h : AttrChain p offset attrs stop) : attrs.length ≤ (p.length - offset) / 4 := by
  induction h with
  | nil => exact Nat.zero_le _
  | cons within rest ih =>
    rw [List.length_cons]
    rw [turnAttributeSize] at *
    omega

/-- The remainder of a `size_t` that an attribute is taken from. -/
theorem turnAttrs_left (small : left < 2 ^ 64) (length : UInt16) :
    ∃ k, left + 2 ^ 64 * k =
      (left + 2 ^ 64 - (turnAttributeSize + length.toNat)) % 2 ^ 64 + (turnAttributeSize + length.toNat) := by
  have := length.toNat_lt
  rw [turnAttributeSize]
  by_cases fits : 4 + length.toNat ≤ left
  · exact ⟨0, by omega⟩
  · exact ⟨1, by omega⟩

/-- A loop that stays within a message follows a chain of attributes to where it returns, or to where the
length is used up but for multiples of `2 ^ 64`. -/
theorem chain_of_turnAttrs (small : left < 2 ^ 64) (h : turnAttrs returns p offset left = some attrs) :
    ∃ stop, AttrChain p offset attrs stop ∧ ((∃ a ∈ attrs, returns a.type = true) ∨
      ∃ k rest, rest < turnAttributeSize ∧ offset + left + 2 ^ 64 * k = stop + rest) := by
  fun_induction turnAttrs returns p offset left generalizing attrs with
  | case1 offset left short =>
    cases h
    exact ⟨offset, .nil offset, Or.inr ⟨0, left, short, rfl⟩⟩
  | case2 => cases h
  | case3 offset left long within attr =>
    rename_i stops
    cases h
    exact ⟨_, .cons (Nat.le_of_not_lt within) (.nil _), Or.inl ⟨attr, List.mem_singleton_self _, stops⟩⟩
  | case4 offset left long within attr goes attrSize =>
    rename_i ih
    obtain ⟨rest, walked, rfl⟩ := Option.map_eq_some_iff.1 h
    obtain ⟨stop, chain, ends⟩ := ih (Nat.mod_lt _ (by decide)) walked
    refine ⟨stop, .cons (Nat.le_of_not_lt within) chain, ?_⟩
    rcases ends with ⟨a, here, stops⟩ | ⟨k, r, short, total⟩
    · exact Or.inl ⟨a, List.mem_cons_of_mem _ here, stops⟩
    · obtain ⟨k', wrapped⟩ := turnAttrs_left small attr.length
      exact Or.inr ⟨k + k', r, short, by omega⟩

/-- Along a chain that ends in time a loop stays within the message, and meets nothing else. -/
theorem turnAttrs_of_chain (small : left < 2 ^ 64) (chain : AttrChain p offset attrs stop)
    (ends : TurnEnds returns offset left attrs stop) :
    ∃ l, turnAttrs returns p offset left = some l ∧ l <+: attrs := by
  induction chain generalizing left with
  | nil offset =>
    rcases ends with ⟨a, none, -⟩ | ⟨-, short⟩
    · cases none
    · refine ⟨[], ?_, List.nil_prefix⟩
      rw [turnAttrs, if_pos (by rw [turnAttributeSize] at short; omega)]
  | cons within rest ih =>
    rename_i offset stop attrs
    rw [turnAttrs]
    by_cases short : left < 4
    · exact ⟨[], if_pos short, List.nil_prefix⟩
    rw [if_neg short, if_neg (Nat.not_lt.2 within)]
    by_cases stops : returns (readBe16 p offset) = true
    · exact ⟨_, if_pos stops, List.prefix_append [_] attrs⟩
    have later : TurnEnds returns (offset + (turnAttributeSize + (readBe16 p (offset + 2)).toNat))
        ((left + 2 ^ 64 - (turnAttributeSize + (readBe16 p (offset + 2)).toNat)) % 2 ^ 64) attrs stop := by
      rcases ends with ⟨a, here, returned⟩ | ⟨reached, near⟩
      · rcases List.mem_cons.1 here with rfl | here
        · exact absurd returned stops
        · exact Or.inl ⟨a, here, returned⟩
      · have fits := rest.le
        exact Or.inr (by omega)
    obtain ⟨l, walked, pre⟩ := ih (Nat.mod_lt _ (by decide)) later
    refine ⟨_ :: l, ?_, List.cons_prefix_cons.2 ⟨rfl, pre⟩⟩
    refine (if_neg stops).trans ?_
    exact congrArg (Option.map _) walked

/-- The loop over the attributes of a datagram stays within it, with what is read of them, exactly if they
lie within it as far as it has to go. -/
theorem turnAttrs_iff {received : TurnAttr → Prop} (fits : p.length ≤ turnBufferSize) :
    (∃ l, turnAttrs returns p turnStunHeaderSize (readBe16 p 2).toNat = some l ∧ ∀ a ∈ l, received a) ↔
      TurnWhole returns received p := by
  have small := (readBe16 p 2).toNat_lt
  constructor
  · rintro ⟨l, walked, all⟩
    obtain ⟨stop, chain, ends⟩ := chain_of_turnAttrs (by omega) walked
    refine ⟨l, stop, chain, all, ends.imp_right ?_⟩
    -- a datagram is too short for the length to be used up after it wrapped
    rintro ⟨k, rest, short, total⟩
    have bound := chain.stop_le
    rw [turnBufferSize] at fits
    rw [turnStunHeaderSize] at *
    rw [turnAttributeSize] at *
    obtain rfl : k = 0 := by omega
    omega
  · rintro ⟨attrs, stop, chain, all, ends⟩
    obtain ⟨l, walked, pre⟩ := turnAttrs_of_chain (by omega) chain ends
    exact ⟨l, walked, fun a here => all a (pre.subset here)⟩

/-- A loop within a datagram takes at most a fourth of its length in iterations, whatever lies behind. -/
theorem turnAttrs_iterations (h : turnAttrs returns p offset left = some attrs) (small : left < 2 ^ 64)
    (stale : Bytes) : turnAttrs returns (p ++ stale) offset left = some attrs ∧
      attrs.length ≤ p.length / 4 := by
  obtain ⟨stop, chain, -⟩ := chain_of_turnAttrs small h
  exact ⟨turnAttrs_front h stale, chain.length_le.trans (Nat.div_le_div_right (Nat.sub_le _ _))⟩

end Chain

/-! ## What is read of an attribute -/

/-- What `turn_parse_allocate_response` reads of an attribute of a success response was received. -/
structure AllocateReceived (p : Bytes) (a : TurnAttr) : Prop where
  family : a.type = turnAttrXorRelayedAddress → 8 ≤ a.length.toNat →
    a.offset + turnAttributeSize + 2 ≤ p.length
  address : a.type = turnAttrXorRelayedAddress → 8 ≤ a.length.toNat →
    p.getD (a.offset + turnAttributeSize + 1) 0 = 1 → a.offset + turnAttributeSize + 8 ≤ p.length
  lifetime : a.type = turnAttrLifetime → 4 ≤ a.length.toNat →
    a.offset + turnAttributeSize + 4 ≤ p.length

/-- What it reads of an attribute of an error response: of an error code with a reason, everything up to
the next NUL. -/
structure ErrorReceived (p : Bytes) (a : TurnAttr) : Prop where
  code : a.type = turnAttrErrorCode → 4 ≤ a.length.toNat → a.offset + turnAttributeSize + 4 ≤ p.length
  reason : a.type = turnAttrErrorCode → 4 < a.length.toNat →
    ∃ i, a.offset + turnAttributeSize + 4 ≤ i ∧ p[i]? = some 0

/-- What `turn_recv` copies of an attribute into a buffer of `maxLen` bytes. -/
def DataReceived (maxLen : ℕ) (p : Bytes) (a : TurnAttr) : Prop :=
  a.type = turnAttrData → a.offset + turnAttributeSize + min a.length.toNat maxLen ≤ p.length

section Read

variable {p : Bytes} {a : TurnAttr}

theorem allocateReceived_iff :
    (turnAttrAddress p a).isSome ∧ (turnAttrSeconds p a).isSome ↔ AllocateReceived p a := by
  unfold turnAttrAddress turnAttrSeconds
  dsimp only
  constructor
  · rintro ⟨address, seconds⟩
    refine ⟨fun type long => ?_, fun type long family => ?_, fun type long => ?_⟩
    · by_contra short
      rw [if_pos ⟨type, long⟩, if_pos (by omega)] at address
      cases address
    · by_contra short
      rw [if_pos ⟨type, long⟩, if_pos family, if_pos (Nat.lt_of_not_le short), ite_self] at address
      cases address
    · by_contra short
      rw [if_pos ⟨type, long⟩, if_pos (by omega)] at seconds
      cases seconds
  · rintro ⟨family, address, lifetime⟩
    constructor
    · split_ifs with relayed short ipv4 short'
      · have := family relayed.1 relayed.2
        omega
      · have := address relayed.1 relayed.2 ipv4
        omega
      all_goals rfl
    · split_ifs with here short
      · have := lifetime here.1 here.2
        omega
      all_goals rfl

theorem errorReceived_iff : turnErrorReadable p a = true ↔ ErrorReceived p a := by
  have ends : scan 0 p (a.offset + turnAttributeSize + 4) < p.length ↔
      ∃ i, a.offset + turnAttributeSize + 4 ≤ i ∧ p[i]? = some 0 := by
    rw [scan_lt_iff (Nat.le_refl _)]
    simp only [or_self]
    refine exists_congr fun i => ⟨fun h => h.2, fun h => ⟨?_, h⟩⟩
    exact (List.getElem?_eq_some_iff.1 h.2).1
  unfold turnErrorReadable
  dsimp only
  constructor
  · intro h
    refine ⟨fun type long => ?_, fun type long => ?_⟩
    · rw [if_pos ⟨type, long⟩, Bool.and_eq_true, decide_eq_true_iff] at h
      exact h.1
    · rw [if_pos ⟨type, Nat.le_of_lt long⟩, Bool.and_eq_true, Bool.or_eq_true, decide_eq_true_iff,
        decide_eq_true_iff, decide_eq_true_iff] at h
      exact ends.1 (h.2.resolve_left (Nat.not_le.2 long))
  · rintro ⟨code, reason⟩
    split_ifs with here
    · rw [Bool.and_eq_true, Bool.or_eq_true, decide_eq_true_iff, decide_eq_true_iff, decide_eq_true_iff]
      refine ⟨code here.1 here.2, ?_⟩
      by_cases long : 4 < a.length.toNat
      · exact Or.inr (ends.2 (reason here.1 long))
      · exact Or.inl (Nat.le_of_not_lt long)
    · rfl

end Read

/-! ## What lies behind a datagram -/

section Front

variable {env : TurnEnv} {p : Bytes} {n maxLen : ℕ} {s : TurnSession} {a : TurnAttr}

theorem AllocateReceived.front (h : AllocateReceived p a) (stale : Bytes) :
    turnAttrAddress (p ++ stale) a = turnAttrAddress p a ∧
      turnAttrSeconds (p ++ stale) a = turnAttrSeconds p a := by
  obtain ⟨address, seconds⟩ := allocateReceived_iff.2 h
  obtain ⟨address, read⟩ := Option.isSome_iff_exists.1 address
  rw [turnAttrAddress_front read, read]
  refine ⟨rfl, ?_⟩
  unfold turnAttrSeconds
  dsimp only
  by_cases here : a.type = turnAttrLifetime ∧ 4 ≤ a.length.toNat
  · have within := h.lifetime here.1 here.2
    rw [if_pos here, if_pos here, if_neg (Nat.not_lt.2 within), readBe32_front within, if_neg]
    rw [List.length_append]
    omega
  · rw [if_neg here, if_neg here]

theorem ErrorReceived.front (h : ErrorReceived p a) (stale : Bytes) : ErrorReceived (p ++ stale) a := by
  refine ⟨fun type long => ?_, fun type long => ?_⟩
  · rw [List.length_append]
    exact (h.code type long).trans (Nat.le_add_right _ _)
  · obtain ⟨i, behind, nul⟩ := h.reason type long
    refine ⟨i, behind, ?_⟩
    rw [List.getElem?_append_left (List.getElem?_eq_some_iff.1 nul).1]
    exact nul

theorem foldlM_turnTakeAttr_front {attrs : List TurnAttr} (received : ∀ a ∈ attrs, AllocateReceived p a)
    (stale : Bytes) : attrs.foldlM (turnTakeAttr env (p ++ stale)) s = attrs.foldlM (turnTakeAttr env p) s := by
  induction attrs generalizing s with
  | nil => rfl
  | cons a attrs ih =>
    obtain ⟨address, seconds⟩ := (received a List.mem_cons_self).front stale
    have same : turnTakeAttr env (p ++ stale) s a = turnTakeAttr env p s a := by
      rw [turnTakeAttr, address, seconds]
      rfl
    rw [List.foldlM_cons, List.foldlM_cons, same]
    refine congrArg _ (funext fun s' => ?_)
    exact ih fun a here => received a (List.mem_cons_of_mem _ here)

end Front

/-! ## The calls -/

/-- The attributes that the loops of `turn_parse_allocate_response` meet. -/
def turnResponseAttrs (mem : Bytes) : Option (List TurnAttr) :=
  if readBe32 mem 4 = magicCookie ∧
      (readBe16 mem 0 = turnMsgAllocateResponse ∨ readBe16 mem 0 = turnMsgAllocateError) then
    turnAttrs (fun _ => false) mem turnStunHeaderSize (readBe16 mem 2).toNat
  else some []

/-- The attributes that the loops of `turn_recv` and `turn_process_message` meet. -/
def turnIndicationAttrs (mem : Bytes) : Option (List TurnAttr) :=
  if readBe16 mem 0 = turnMsgDataIndication then turnDataAttrs mem else some []

/-- A call with a datagram of `n` bytes, given what lies behind the datagram, keeps to the datagram: where
nothing lies behind it, nothing outside is read; what comes of the call does not depend on what lies
behind; and the loop ends after at most a fourth of `n` in iterations. -/
structure TurnWithin {α : Type} (call : Bytes → Option α) (loop : Bytes → Option (List TurnAttr))
    (n : ℕ) : Prop where
  reads : (call []).isSome
  handed : ∀ stale, call stale = call []
  iterations : ∀ stale, ∃ attrs, loop stale = some attrs ∧ attrs.length ≤ n / 4

/-- The attributes of a response lie within the datagram. -/
structure AllocateWhole (p : Bytes) : Prop where
  success : readBe32 p 4 = magicCookie → readBe16 p 0 = turnMsgAllocateResponse →
    TurnWhole (fun _ => false) (AllocateReceived p) p
  error : readBe32 p 4 = magicCookie → readBe16 p 0 = turnMsgAllocateError →
    TurnWhole (fun _ => false) (ErrorReceived p) p

/-- The attributes of a data indication up to DATA lie within the datagram. -/
def IndicationWhole (received : TurnAttr → Prop) (p : Bytes) : Prop :=
  readBe16 p 0 = turnMsgDataIndication → TurnWhole (· == turnAttrData) received p

section Calls

variable {env : TurnEnv} {p : Bytes} {s : TurnSession}

theorem received_of_foldlM {attrs : List TurnAttr} {s' : TurnSession}
    (h : attrs.foldlM (turnTakeAttr env p) s = some s') : ∀ a ∈ attrs, AllocateReceived p a := by
  induction attrs generalizing s with
  | nil => simp
  | cons a attrs ih =>
    obtain ⟨s₁, taken, h⟩ := Option.bind_eq_some_iff.1 h
    obtain ⟨address, read, taken⟩ := Option.bind_eq_some_iff.1 taken
    obtain ⟨seconds, read', -⟩ := Option.bind_eq_some_iff.1 taken
    intro b hb
    rcases List.mem_cons.1 hb with rfl | hb
    · exact allocateReceived_iff.1 ⟨read ▸ rfl, read' ▸ rfl⟩
    · exact ih h b hb

/-- A call that comes to the same whatever lies behind, with a loop that does. -/
theorem turnWithin_of_eq {α : Type} {call : Bytes → Option α} {loop : Bytes → Option (List TurnAttr)}
    {n : ℕ} {r : α} {attrs : List TurnAttr} (same : ∀ stale, call stale = some r)
    (walked : ∀ stale, loop stale = some attrs) (few : attrs.length ≤ n / 4) : TurnWithin call loop n :=
  ⟨(same []) ▸ rfl, fun stale => (same stale).trans (same []).symm, fun stale => ⟨attrs, walked stale, few⟩⟩

section Response

variable (header : turnStunHeaderSize ≤ p.length) (fits : p.length ≤ turnBufferSize)

include header

theorem turnHeader_front (stale : Bytes) : readBe16 (p ++ stale) 0 = readBe16 p 0 ∧
    readBe16 (p ++ stale) 2 = readBe16 p 2 ∧ readBe32 (p ++ stale) 4 = readBe32 p 4 := by
  rw [turnStunHeaderSize] at header
  exact ⟨readBe16_front (by omega) stale, readBe16_front (by omega) stale, readBe32_front (by omega) stale⟩

theorem turnAccepted (magic : readBe32 p 4 = magicCookie) :
    ¬ (p.length < turnStunHeaderSize ∨ readBe32 p 4 ≠ magicCookie) := by
  rw [not_or, Nat.not_lt, not_not]
  exact ⟨header, magic⟩

include fits

theorem turnSuccess_within_iff (magic : readBe32 p 4 = magicCookie)
    (response : readBe16 p 0 = turnMsgAllocateResponse) :
    TurnWithin (fun stale => turnParseAllocateResponse env (p ++ stale) p.length s)
      (fun stale => turnResponseAttrs (p ++ stale)) p.length ↔
      TurnWhole (fun _ => false) (AllocateReceived p) p := by
  have small := (readBe16 p 2).toNat_lt
  rw [← turnAttrs_iff fits]
  constructor
  · rintro ⟨reads, -, -⟩
    unfold turnParseAllocateResponse at reads
    rw [List.append_nil] at reads
    dsimp only at reads
    rw [if_neg (turnAccepted header magic), if_pos response] at reads
    obtain ⟨r, parsed⟩ := Option.isSome_iff_exists.1 reads
    obtain ⟨attrs, walked, parsed⟩ := Option.bind_eq_some_iff.1 parsed
    obtain ⟨s', taken, -⟩ := Option.bind_eq_some_iff.1 parsed
    exact ⟨attrs, walked, received_of_foldlM taken⟩
  · rintro ⟨attrs, walked, received⟩
    obtain ⟨s', taken⟩ := @exists_foldlM_turnTakeAttr env p s attrs fun a here =>
      allocateReceived_iff.2 (received a here)
    have same (stale : Bytes) : turnParseAllocateResponse env (p ++ stale) p.length s =
        some (if s'.relayIp.val ≠ [] ∧ 0 < s'.relayPort then
          (0, { s' with state := .established, lastActivity := env.now })
        else (-1, s')) := by
      obtain ⟨type, length, cookie⟩ := turnHeader_front header stale
      unfold turnParseAllocateResponse
      dsimp only
      rw [cookie, type, length, if_neg (turnAccepted header magic), if_pos response,
        (turnAttrs_iterations walked (by omega) stale).1, Option.bind_eq_bind, Option.bind_some,
        foldlM_turnTakeAttr_front received, taken, Option.bind_eq_bind, Option.bind_some]
      split_ifs <;> rfl
    refine turnWithin_of_eq same (fun stale => ?_) (turnAttrs_iterations walked (by omega) []).2
    obtain ⟨type, length, cookie⟩ := turnHeader_front header stale
    rw [turnResponseAttrs, type, length, cookie, if_pos ⟨magic, Or.inl response⟩]
    exact (turnAttrs_iterations walked (by omega) stale).1

theorem turnError_within_iff (magic : readBe32 p 4 = magicCookie)
    (error : readBe16 p 0 = turnMsgAllocateError) :
    TurnWithin (fun stale => turnParseAllocateResponse env (p ++ stale) p.length s)
      (fun stale => turnResponseAttrs (p ++ stale)) p.length ↔
      TurnWhole (fun _ => false) (ErrorReceived p) p := by
  have small := (readBe16 p 2).toNat_lt
  have response : readBe16 p 0 ≠ turnMsgAllocateResponse := by
    rw [error]
    decide
  rw [← turnAttrs_iff fits]
  constructor
  · rintro ⟨reads, -, -⟩
    unfold turnParseAllocateResponse at reads
    rw [List.append_nil] at reads
    dsimp only at reads
    rw [if_neg (turnAccepted header magic), if_neg response, if_pos error] at reads
    obtain ⟨r, parsed⟩ := Option.isSome_iff_exists.1 reads
    obtain ⟨attrs, walked, parsed⟩ := Option.bind_eq_some_iff.1 parsed
    split_ifs at parsed with all
    exact ⟨attrs, walked, fun a here => errorReceived_iff.1 (List.all_eq_true.1 all a here)⟩
  · rintro ⟨attrs, walked, received⟩
    have same (stale : Bytes) :
        turnParseAllocateResponse env (p ++ stale) p.length s = some (-1, s) := by
      obtain ⟨type, length, cookie⟩ := turnHeader_front header stale
      have all : attrs.all (turnErrorReadable (p ++ stale)) = true :=
        List.all_eq_true.2 fun a here => errorReceived_iff.2 ((received a here).front stale)
      unfold turnParseAllocateResponse
      dsimp only
      rw [cookie, type, length, if_neg (turnAccepted header magic), if_neg response, if_pos error,
        (turnAttrs_iterations walked (by omega) stale).1, Option.bind_eq_bind, Option.bind_some, if_pos all]
      rfl
    refine turnWithin_of_eq same (fun stale => ?_) (turnAttrs_iterations walked (by omega) []).2
    obtain ⟨type, length, cookie⟩ := turnHeader_front header stale
    rw [turnResponseAttrs, type, length, cookie, if_pos ⟨magic, Or.inr error⟩]
    exact (turnAttrs_iterations walked (by omega) stale).1

omit fits in
/-- A datagram that is no response is refused without a loop. -/
theorem turnResponse_refused (h : ¬ (readBe32 p 4 = magicCookie ∧
    (readBe16 p 0 = turnMsgAllocateResponse ∨ readBe16 p 0 = turnMsgAllocateError))) :
    TurnWithin (fun stale => turnParseAllocateResponse env (p ++ stale) p.length s)
      (fun stale => turnResponseAttrs (p ++ stale)) p.length := by
  refine @turnWithin_of_eq _ _ _ _ (-1, s) [] (fun stale => ?_) (fun stale => ?_) (Nat.zero_le _)
  all_goals obtain ⟨type, length, cookie⟩ := turnHeader_front header stale
  · unfold turnParseAllocateResponse
    dsimp only
    rw [cookie, type]
    by_cases magic : readBe32 p 4 = magicCookie
    · rw [if_neg (turnAccepted header magic), if_neg fun response => h ⟨magic, Or.inl response⟩,
        if_neg fun error => h ⟨magic, Or.inr error⟩]
    · rw [if_pos (Or.inr magic)]
  · rw [turnResponseAttrs, cookie, type, if_neg h]

/-- `turn_parse_allocate_response` keeps to the datagram. -/
theorem turnResponse_within_iff : TurnWithin
    (fun stale => turnParseAllocateResponse env (p ++ stale) p.length s)
    (fun stale => turnResponseAttrs (p ++ stale)) p.length ↔ AllocateWhole p := by
  constructor
  · intro within
    exact ⟨fun magic response => (turnSuccess_within_iff header fits magic response).1 within,
      fun magic error => (turnError_within_iff header fits magic error).1 within⟩
  · intro whole
    by_cases h : readBe32 p 4 = magicCookie ∧
      (readBe16 p 0 = turnMsgAllocateResponse ∨ readBe16 p 0 = turnMsgAllocateError)
    · obtain ⟨magic, response | error⟩ := h
      · exact (turnSuccess_within_iff header fits magic response).2 (whole.success magic response)
      · exact (turnError_within_iff header fits magic error).2 (whole.error magic error)
    · exact turnResponse_refused header h

end Response

/-- A loop that returns at an attribute has met no other one it returns at. -/
theorem find?_turnAttrs {returns : UInt16 → Bool} {offset left : ℕ} {attrs : List TurnAttr}
    (h : turnAttrs returns p offset left = some attrs) {a : TurnAttr} (here : a ∈ attrs)
    (stops : returns a.type = true) : attrs.find? (fun a => returns a.type) = some a := by
  fun_induction turnAttrs returns p offset left generalizing attrs with
  | case1 =>
    cases h
    cases here
  | case2 => cases h
  | case3 =>
    cases h
    obtain rfl := List.mem_singleton.1 here
    exact List.find?_cons_of_pos stops
  | case4 offset left long within attr goes attrSize =>
    rename_i ih
    obtain ⟨rest, walked, rfl⟩ := Option.map_eq_some_iff.1 h
    rcases List.mem_cons.1 here with rfl | here
    · exact absurd stops goes
    · exact (List.find?_cons_of_neg (p := fun a : TurnAttr => returns a.type) goes).trans (ih walked here)

section Indication

variable (header : turnStunHeaderSize ≤ p.length) (fits : p.length ≤ turnBufferSize)

include header

/-- The loop over a data indication within the datagram, whatever lies behind. -/
theorem turnDataAttrs_front {attrs : List TurnAttr} (walked : turnDataAttrs p = some attrs)
    (stale : Bytes) : turnDataAttrs (p ++ stale) = some attrs ∧ attrs.length ≤ p.length / 4 := by
  have small := (readBe16 p 2).toNat_lt
  obtain ⟨-, length, -⟩ := turnHeader_front header stale
  rw [turnDataAttrs, length]
  exact turnAttrs_iterations walked (by omega) stale

theorem turnReadData_isSome_iff (maxLen : ℕ) (indication : readBe16 p 0 = turnMsgDataIndication) :
    (∃ r, turnReadData p p.length maxLen = some r) ↔
      ∃ attrs, turnDataAttrs p = some attrs ∧ ∀ a ∈ attrs, DataReceived maxLen p a := by
  unfold turnReadData
  rw [if_neg (Nat.not_lt.2 header), if_pos indication]
  constructor
  · rintro ⟨r, h⟩
    obtain ⟨attrs, walked, h⟩ := Option.bind_eq_some_iff.1 h
    refine ⟨attrs, walked, fun a here data => ?_⟩
    have found := find?_turnAttrs walked here (beq_iff_eq.2 data)
    rw [found] at h
    dsimp only at h
    split_ifs at h with short
    exact Nat.le_of_not_lt short
  · rintro ⟨attrs, walked, received⟩
    rw [walked, Option.bind_eq_bind, Option.bind_some]
    cases found : attrs.find? (·.type == turnAttrData) with
    | none => exact ⟨_, rfl⟩
    | some a =>
      have data := List.find?_some (p := fun a : TurnAttr => a.type == turnAttrData) found
      have within := received a (List.mem_of_find?_eq_some found) (beq_iff_eq.1 data)
      exact ⟨_, if_neg (Nat.not_lt.2 within)⟩

theorem turnReadData_front {maxLen : ℕ} {r : ℤ × Option Bytes}
    (h : turnReadData p p.length maxLen = some r) (stale : Bytes) :
    turnReadData (p ++ stale) p.length maxLen = some r := by
  obtain ⟨type, -, -⟩ := turnHeader_front header stale
  unfold turnReadData at h ⊢
  rw [type]
  split_ifs at h ⊢ with short indication
  · exact h
  · obtain ⟨attrs, walked, h⟩ := Option.bind_eq_some_iff.1 h
    rw [(turnDataAttrs_front header walked stale).1, Option.bind_eq_bind, Option.bind_some]
    cases found : attrs.find? (·.type == turnAttrData) with
    | none =>
      rw [found] at h
      exact h
    | some a =>
      rw [found] at h
      dsimp only at h ⊢
      split_ifs at h with short
      have within := Nat.le_of_not_lt short
      rw [if_neg (by rw [List.length_append]; omega), take_drop_append_front (by omega)]
      exact h
  · exact h

/-- A datagram that is no data indication. -/
theorem turnIndicationAttrs_other (h : readBe16 p 0 ≠ turnMsgDataIndication) (stale : Bytes) :
    turnIndicationAttrs (p ++ stale) = some [] := by
  obtain ⟨type, -, -⟩ := turnHeader_front header stale
  rw [turnIndicationAttrs, type, if_neg h]

theorem turnIndicationAttrs_front (h : readBe16 p 0 = turnMsgDataIndication) {attrs : List TurnAttr}
    (walked : turnDataAttrs p = some attrs) (stale : Bytes) :
    turnIndicationAttrs (p ++ stale) = some attrs := by
  obtain ⟨type, -, -⟩ := turnHeader_front header stale
  rw [turnIndicationAttrs, type, if_pos h]
  exact (turnDataAttrs_front header walked stale).1

include fits

/-- `turn_recv`, once it has a datagram for an established session. -/
theorem turnRecv_within_iff {peerId : CString} {maxLen : ℕ} {mgr : TurnManager} {slot : TurnSlot}
    (room : maxLen ≠ 0) (found : turnFindSession peerId mgr = some slot)
    (established : (mgr.sessions slot).state = .established) :
    TurnWithin (fun stale => turnRecv env peerId maxLen (.datagram p) stale mgr)
      (fun stale => turnIndicationAttrs (p ++ stale)) p.length ↔
      IndicationWhole (DataReceived maxLen p) p := by
  have call (stale : Bytes) : turnRecv env peerId maxLen (.datagram p) stale mgr =
      (turnReadData (p ++ stale) p.length maxLen).map fun
        | (ret, none) => (ret, [], mgr)
        | (ret, some data) =>
          (ret, data, mgr.write slot { mgr.sessions slot with lastActivity := env.now }) := by
    unfold turnRecv
    rw [if_neg room, found]
    dsimp only
    rw [if_neg (not_not.2 established), List.take_of_length_le fits, Nat.min_eq_right fits]
  constructor
  · rintro ⟨reads, -, -⟩ indication
    rw [call, List.append_nil, Option.isSome_map] at reads
    obtain ⟨attrs, walked, received⟩ := (turnReadData_isSome_iff header maxLen indication).1
      (Option.isSome_iff_exists.1 reads)
    exact (turnAttrs_iff fits).1 ⟨attrs, walked, received⟩
  · intro whole
    by_cases indication : readBe16 p 0 = turnMsgDataIndication
    · obtain ⟨attrs, walked, received⟩ := (turnAttrs_iff fits).2 (whole indication)
      obtain ⟨r, read⟩ := (turnReadData_isSome_iff header maxLen indication).2 ⟨attrs, walked, received⟩
      exact turnWithin_of_eq
        (fun stale => (call stale).trans (congrArg (Option.map _) (turnReadData_front header read stale)))
        (turnIndicationAttrs_front header indication walked) (turnDataAttrs_front header walked []).2
    · have other : turnReadData p p.length maxLen = some (0, none) := by
        rw [turnReadData, if_neg (Nat.not_lt.2 header), if_neg indication]
      exact turnWithin_of_eq
        (fun stale => (call stale).trans (congrArg (Option.map _) (turnReadData_front header other stale)))
        (turnIndicationAttrs_other header indication) (Nat.zero_le _)

theorem turnProcess_within_iff : TurnWithin (fun stale => turnProcessMessage env (p ++ stale) p.length s)
    (fun stale => turnIndicationAttrs (p ++ stale)) p.length ↔ IndicationWhole (fun _ => True) p := by
  constructor
  · rintro ⟨reads, -, -⟩ indication
    rw [List.append_nil, turnProcessMessage, if_neg (Nat.not_lt.2 header), if_pos indication,
      Option.isSome_map] at reads
    obtain ⟨attrs, walked⟩ := Option.isSome_iff_exists.1 reads
    exact (turnAttrs_iff fits).1 ⟨attrs, walked, fun _ _ => trivial⟩
  · intro whole
    have call (stale : Bytes) : turnProcessMessage env (p ++ stale) p.length s =
        if readBe16 p 0 = turnMsgDataIndication then
          (turnDataAttrs (p ++ stale)).map fun attrs =>
            if attrs.any (·.type == turnAttrData) then (0, { s with lastActivity := env.now }) else (0, s)
        else some (0, s) := by
      obtain ⟨type, -, -⟩ := turnHeader_front header stale
      rw [turnProcessMessage, if_neg (Nat.not_lt.2 header), type]
    by_cases indication : readBe16 p 0 = turnMsgDataIndication
    · obtain ⟨attrs, walked, -⟩ := (turnAttrs_iff fits).2 (whole indication)
      exact turnWithin_of_eq
        (fun stale => ((call stale).trans (if_pos indication)).trans
          (congrArg (Option.map _) (turnDataAttrs_front header walked stale).1))
        (turnIndicationAttrs_front header indication walked) (turnDataAttrs_front header walked []).2
    · have nothing (stale : Bytes) : turnProcessMessage env (p ++ stale) p.length s = some (0, s) :=
        (call stale).trans (if_neg indication)
      exact turnWithin_of_eq nothing (turnIndicationAttrs_other header indication) (Nat.zero_le _)

end Indication

end Calls

/-- The loops of the three functions keep to the datagram exactly if its attributes do. -/
theorem turn_attribute_loops_iff (env : TurnEnv) (s : TurnSession) {p : Bytes}
    (header : turnStunHeaderSize ≤ p.length) (fits : p.length ≤ turnBufferSize) {peerId : CString}
    {maxLen : ℕ} {mgr : TurnManager} {slot : TurnSlot} (room : maxLen ≠ 0)
    (found : turnFindSession peerId mgr = some slot)
    (established : (mgr.sessions slot).state = .established) :
    (TurnWithin (fun stale => turnParseAllocateResponse env (p ++ stale) p.length s)
      (fun stale => turnResponseAttrs (p ++ stale)) p.length ↔ AllocateWhole p) ∧
    (TurnWithin (fun stale => turnRecv env peerId maxLen (.datagram p) stale mgr)
      (fun stale => turnIndicationAttrs (p ++ stale)) p.length ↔
        IndicationWhole (DataReceived maxLen p) p) ∧
    (TurnWithin (fun stale => turnProcessMessage env (p ++ stale) p.length s)
      (fun stale => turnIndicationAttrs (p ++ stale)) p.length ↔ IndicationWhole (fun _ => True) p) :=
  ⟨turnResponse_within_iff header fits, turnRecv_within_iff header fits room found established,
    turnProcess_within_iff header fits⟩

/-- A data indication whose length field is that of the attributes behind it. -/
def dataIndication (length : UInt16) (attrs : Bytes) : Bytes :=
  Stun.header turnMsgDataIndication length magicCookie (List.replicate 12 1) ++ attrs

/-- A manager with an established session with bob. -/
def TurnManager.withBob : TurnManager where
  sessions _ := { TurnSession.zero with peerId := ⟨ascii "bob", by decide⟩, state := .established }
  count := 1
  bounded := by decide
  servers := []
  udpSocket := 3

set_option maxRecDepth 8000 in
/-- Four bytes of data in an indication are received. -/
theorem whole_indication_within :
    TurnWithin (fun stale => turnRecv (.failing ⟨List.replicate 12 1, rfl⟩ []) (ascii "bob") 100
      (.datagram (dataIndication 8 (dataAttr (ascii "abcd")).bytes)) stale .withBob)
      (fun stale => turnIndicationAttrs (dataIndication 8 (dataAttr (ascii "abcd")).bytes ++ stale)) 28 := by
  have header : turnStunHeaderSize ≤ (dataIndication 8 (dataAttr (ascii "abcd")).bytes).length := by decide
  have room : 100 ≠ 0 := by decide
  have found : turnFindSession (ascii "bob") .withBob = some ⟨0, by decide⟩ := by decide
  have within := (turn_attribute_loops_iff (.failing ⟨List.replicate 12 1, rfl⟩ []) .zero header
    (by decide) room found rfl).2.1
  refine within.2 fun _ => ?_
  exact ⟨_, _, .cons (by decide) (.nil _), by unfold DataReceived; decide, Or.inl (by decide)⟩

set_option maxRecDepth 8000 in
/-- With a length field of 4 and nothing behind the header all three functions read behind the
datagram. -/
theorem short_datagrams_read_behind :
    let env := TurnEnv.failing ⟨List.replicate 12 1, rfl⟩ []
    let response := Stun.header turnMsgAllocateResponse 4 magicCookie (List.replicate 12 1)
    ¬ TurnWithin (fun stale => turnParseAllocateResponse env (response ++ stale) 20 .zero)
      (fun stale => turnResponseAttrs (response ++ stale)) 20 ∧
    ¬ TurnWithin (fun stale => turnRecv env (ascii "bob") 100 (.datagram (dataIndication 4 [])) stale
      .withBob) (fun stale => turnIndicationAttrs (dataIndication 4 [] ++ stale)) 20 ∧
    ¬ TurnWithin (fun stale => turnProcessMessage env (dataIndication 4 [] ++ stale) 20 .zero)
      (fun stale => turnIndicationAttrs (dataIndication 4 [] ++ stale)) 20 := by
  refine ⟨fun h => ?_, fun h => ?_, fun h => ?_⟩
  all_goals
    obtain ⟨attrs, walked, -⟩ := h.iterations []
    have outside : (some attrs : Option (List TurnAttr)) = none := walked.symm.trans (by decide +kernel)
    cases outside

end Orcashi
