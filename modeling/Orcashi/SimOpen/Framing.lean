import Mathlib.Algebra.GroupWithZero.Nat
import Mathlib.Data.List.Forall2
import Orcashi.SimOpen.Session

/-!
# Packets in a byte stream

`simultaneous_open_send` writes a header and the data into a TCP stream; `simultaneous_open_recv` takes
what one `recv` gives for one packet.  It is right exactly if each read is one packet, whole and alone.
-/

namespace Orcashi

/-! ## What goes into the stream and how it is read -/

/-- A call that sends a packet. -/
inductive SimSending where
  | send (data : Bytes)
  /-- `simultaneous_open_send_packet(session, type, NULL, 0)` -/
  | sendPacket (type : SimPacketType)

/-- A call that sends. -/
structure SimSent where
  env : SimOpenEnv
  sender : SimOpenSession
  call : SimSending
  /-- how many bytes `send` takes; only an error is noticed -/
  took : ℕ

/-- The packet of the call, if it is sent. -/
def SimSent.packets (x : SimSent) : List SimPacket :=
  match x.call with
  | .send data => (simultaneousOpenSend x.env data x.sender).sent
  | .sendPacket type => (simultaneousOpenSendPacket x.env type [] x.sender).sent

/-- The bytes of the call in the stream. -/
def SimSent.bytes (x : SimSent) : Bytes := (x.packets.flatMap SimPacket.toBytes).take x.took

/-- A call of `simultaneous_open_recv`, with what `recv` gives and what `recv_buffer` holds behind. -/
structure SimReading where
  env : SimOpenEnv
  read : SimRead
  stale : Bytes
  maxLen : ℕ

/-- The bytes read. -/
def SimReading.chunk (r : SimReading) : Bytes :=
  match r.read with
  | .failed _ => []
  | .bytes b => b

/-- `sizeof(recv_buffer)` -/
def simRecvBufferSize : ℕ := 512

/-- The reads split the stream in some way; some may find nothing. -/
structure Segments (sends : List SimSent) (reads : List SimReading) : Prop where
  whole : reads.flatMap SimReading.chunk = sends.flatMap SimSent.bytes
  buffer : ∀ r ∈ reads, r.maxLen ≠ 0 ∧
    ∀ b, r.read = .bytes b → b ≠ [] ∧ b.length + r.stale.length = simRecvBufferSize

/-- Repeated calls of `simultaneous_open_recv`. -/
def simOpenReceive (s : SimOpenSession) : List SimReading → Option (List SimOpenReceived)
  | [] => some []
  | r :: reads =>
    (simultaneousOpenRecv r.env r.read r.stale r.maxLen s).bind fun x =>
      (simOpenReceive x.left reads).map (x :: ·)

/-! ## What should come out of it -/

/-- A packet without what follows the header. -/
def SimPacket.header (p : SimPacket) : SimPacket := { p with payload := [] }

/-- The data of the DATA packets, in order. -/
def simData (packets : List SimPacket) : Bytes :=
  (packets.filter fun p => SimPacketType.ofCode p.type = some .data).flatMap SimPacket.payload

/-- Every packet is handled exactly once, in order, the data come out as they went in, and no copy goes
beyond the bytes read. -/
def ReceivesAll (packets : List SimPacket) (s : SimOpenSession) (reads : List SimReading) : Prop :=
  ∃ results, simOpenReceive s reads = some results ∧
    (results.flatMap SimOpenReceived.handled).map SimPacket.header = packets.map SimPacket.header ∧
    results.flatMap SimOpenReceived.copied = simData packets ∧
    List.Forall₂ (fun r x => x.copied ≠ [] → simPacketSize + x.copied.length ≤ r.chunk.length)
      reads results

/-- The condition on the stream and on the calls: each read that finds something finds a packet, whole
and alone, there is room for its data, and nothing follows a CLOSE. -/
def Framed : List SimPacket → List SimReading → Prop
  | packets, [] => packets = []
  | packets, r :: reads =>
    match r.read with
    | .failed _ => Framed packets reads
    | .bytes b => ∃ p rest, packets = p :: rest ∧ b = p.toBytes ∧
        (SimPacketType.ofCode p.type = some .data → p.payload.length ≤ r.maxLen) ∧
        (SimPacketType.ofCode p.type = some .close → rest = []) ∧ Framed rest reads

/-! ## The packets that are sent -/

/-- A packet as the two calls make it. -/
structure SimPacket.Made (p : SimPacket) : Prop where
  magic : p.magic = simMagic
  version : p.version = simProtocolVersion
  payloadLen : p.payloadLen = p.payload.length.toUInt16
  control : SimPacketType.ofCode p.type ≠ some .data → p.payload = []

theorem SimSent.made {x : SimSent} {p : SimPacket} (h : p ∈ x.packets) : p.Made := by
  unfold packets simultaneousOpenSend simultaneousOpenSendPacket at h
  cases call : x.call with
  | send data =>
    rw [call] at h
    dsimp only at h
    split_ifs at h <;> cases h
    · exact ⟨rfl, rfl, rfl, fun no => absurd rfl no⟩
    · contradiction
  | sendPacket type =>
    rw [call] at h
    dsimp only at h
    split_ifs at h <;> cases h
    · exact ⟨rfl, rfl, rfl, fun _ => rfl⟩
    · contradiction

theorem simData_of_made {packets : List SimPacket} (made : ∀ p ∈ packets, p.Made) :
    simData packets = packets.flatMap SimPacket.payload := by
  induction packets with
  | nil => rfl
  | cons p packets ih =>
    obtain ⟨first, rest⟩ := List.forall_mem_cons.1 made
    unfold simData at ih ⊢
    by_cases data : SimPacketType.ofCode p.type = some .data
    · rw [List.filter_cons_of_pos (by simpa using data), List.flatMap_cons, List.flatMap_cons, ih rest]
    · rw [List.filter_cons_of_neg (by simpa using data), List.flatMap_cons, ih rest, first.control data,
        List.nil_append]

theorem SimPacket.Made.payloadLen_le {p q : SimPacket} (made : p.Made) (same : p.header = q.header) :
    q.payloadLen.toNat ≤ p.payload.length := by
  have len : p.header.payloadLen = q.header.payloadLen := by rw [same]
  rw [← show p.payloadLen = q.payloadLen from len, made.payloadLen, Nat.toUInt16_eq,
    UInt16.toNat_ofNat']
  exact Nat.mod_le _ _

/-! ## One call -/

section Call

variable {r : SimReading} {s : SimOpenSession} {b : Bytes} {p : SimPacket}

theorem recv_failed (r : SimReading) (again : Bool) (s : SimOpenSession) : ∃ x,
    simultaneousOpenRecv r.env (.failed again) r.stale r.maxLen s = some x ∧
      x.handled = [] ∧ x.copied = [] ∧ x.left = s := by
  unfold simultaneousOpenRecv
  split_ifs <;> exact ⟨_, rfl, rfl, rfl, rfl⟩

/-- Only a CLOSE changes the state of an established session. -/
theorem processPacket_established (env : SimOpenEnv) {len : ℕ} (header : simPacketSize ≤ len)
    (magic : p.magic = simMagic) (version : p.version = simProtocolVersion)
    (established : s.state = .established) :
    (simultaneousOpenProcessPacket env p len s).ret = 0 ∧
      (simultaneousOpenProcessPacket env p len s).left.state =
        if SimPacketType.ofCode p.type = some .close then .idle else .established := by
  unfold simultaneousOpenProcessPacket
  rw [if_neg (Nat.not_lt.2 header), if_neg (not_not.2 magic), if_neg (not_not.2 version)]
  dsimp only
  cases SimPacketType.ofCode p.type with
  | none => exact ⟨rfl, established⟩
  | some t =>
    cases t with
    | sync =>
      refine ⟨rfl, ?_⟩
      simp [SimOpenSession.establish, established]
    | syncAck =>
      dsimp only
      by_cases same : s.syncToken = p.syncToken
      · rw [if_pos same]
        exact ⟨rfl, rfl⟩
      · rw [if_neg same]
        exact ⟨rfl, established⟩
    | syncConfirm =>
      refine ⟨rfl, ?_⟩
      simp [SimOpenSession.establish, established]
    | close => exact ⟨rfl, rfl⟩
    | data => exact ⟨rfl, established⟩
    | keepalive => exact ⟨rfl, established⟩

/-- A read that is one packet is handled, and its data are copied if there is room. -/
theorem recv_packet (room : r.maxLen ≠ 0) (established : s.state = .established) (made : p.Made)
    (buffer : p.toBytes.length + r.stale.length = simRecvBufferSize)
    (fits : SimPacketType.ofCode p.type = some .data → p.payload.length ≤ r.maxLen) :
    ∃ x, simultaneousOpenRecv r.env (.bytes p.toBytes) r.stale r.maxLen s = some x ∧
      x.handled.map SimPacket.header = [p.header] ∧ x.copied = p.payload ∧
      (SimPacketType.ofCode p.type ≠ some .close → x.left.state = .established) := by
  have size := p.length_toBytes
  have whole : ¬ p.toBytes.length < simPacketSize := by omega
  have some_bytes : p.toBytes ≠ [] := by
    intro h
    rw [h] at whole
    exact whole (by decide)
  unfold simultaneousOpenRecv
  rw [if_neg room, if_neg (not_not.2 established)]
  simp only [p.ofBuffer_toBytes_append, if_neg some_bytes, if_neg whole, if_neg (not_not.2 made.magic)]
  by_cases data : SimPacketType.ofCode p.type = some .data
  · have len : p.payloadLen.toNat = p.payload.length := by
      rw [made.payloadLen, Nat.toUInt16_eq, UInt16.toNat_ofNat']
      unfold simRecvBufferSize at buffer
      omega
    have copy : min p.payloadLen.toNat r.maxLen = p.payload.length := by
      rw [len, Nat.min_eq_left (fits data)]
    rw [if_pos data, if_neg (by rw [copy, List.length_append]; omega), copy]
    exact ⟨_, rfl, rfl, List.take_left' rfl, fun _ => established⟩
  · rw [if_neg data]
    let q : SimPacket := { p with payload := p.payload ++ r.stale }
    have magic : q.magic = simMagic := made.magic
    obtain ⟨ret, state⟩ :=
      processPacket_established r.env (Nat.not_lt.1 whole) magic made.version established
    refine ⟨_, rfl, ?_, (made.control data).symm, ?_⟩
    · dsimp only
      rw [if_pos ret]
      rfl
    · intro no_close
      rw [state, if_neg no_close]

/-- What a call may do at most: it acts on one packet, the header of which it has read, and copies no
more than this says. -/
theorem recv_some {read : SimRead} {x : SimOpenReceived}
    (h : simultaneousOpenRecv r.env read r.stale r.maxLen s = some x) :
    x.handled = [] ∧ x.copied = [] ∨ ∃ b q, read = .bytes b ∧ s.state = .established ∧
      x.handled = [q] ∧ simPacketSize ≤ b.length ∧
      x.copied.length ≤ min q.payloadLen.toNat r.maxLen ∧
      (SimPacketType.ofCode q.type = some .close → x.left.state ≠ .established) := by
  have idles {ret : ℤ} {left : SimOpenSession} (h : some (SimOpenReceived.nothing ret left) = some x) :
      x.handled = [] ∧ x.copied = [] := by
    obtain rfl := Option.some.inj h
    exact ⟨rfl, rfl⟩
  unfold simultaneousOpenRecv at h
  by_cases room : r.maxLen = 0
  · rw [if_pos room] at h
    exact Or.inl (idles h)
  rw [if_neg room] at h
  by_cases established : s.state = .established
  swap
  · rw [if_pos established] at h
    exact Or.inl (idles h)
  rw [if_neg (not_not.2 established)] at h
  cases read with
  | failed again => exact Or.inl (idles h)
  | bytes b =>
    dsimp only at h
    by_cases ended : b = []
    · rw [if_pos ended] at h
      exact Or.inl (idles h)
    rw [if_neg ended] at h
    by_cases short : b.length < simPacketSize
    · rw [if_pos short] at h
      exact Or.inl (idles h)
    rw [if_neg short] at h
    generalize SimPacket.ofBuffer (b ++ r.stale) = q at h
    by_cases magic : q.magic = simMagic
    swap
    · rw [if_pos magic] at h
      exact Or.inl (idles h)
    rw [if_neg (not_not.2 magic)] at h
    by_cases data : SimPacketType.ofCode q.type = some .data
    · rw [if_pos data] at h
      split_ifs at h with beyond
      obtain rfl := Option.some.inj h
      refine Or.inr ⟨b, q, rfl, established, rfl, Nat.not_lt.1 short, ?_, ?_⟩
      · rw [List.length_take]
        exact Nat.min_le_left _ _
      · rw [data]
        exact fun no => by cases no
    · rw [if_neg data] at h
      obtain rfl := Option.some.inj h
      by_cases version : q.version = simProtocolVersion
      · obtain ⟨ret, state⟩ :=
          processPacket_established r.env (Nat.not_lt.1 short) magic version established
        refine Or.inr ⟨b, q, rfl, established, if_pos ret, Nat.not_lt.1 short, Nat.zero_le _, ?_⟩
        intro close
        rw [state, if_pos close]
        decide
      · refine Or.inl ⟨if_neg ?_, rfl⟩
        unfold simultaneousOpenProcessPacket
        rw [if_neg short, if_neg (not_not.2 magic), if_pos version]
        exact (by decide : ¬ (-1 : ℤ) = 0)

end Call

/-! ## Whole runs -/

/-- By induction on the reads. -/
theorem receivesAll_of_framed {packets : List SimPacket} {s : SimOpenSession} {reads : List SimReading}
    (framed : Framed packets reads) (made : ∀ p ∈ packets, p.Made)
    (buffer : ∀ r ∈ reads, r.maxLen ≠ 0 ∧
      ∀ b, r.read = .bytes b → b ≠ [] ∧ b.length + r.stale.length = simRecvBufferSize)
    (established : packets ≠ [] → s.state = .established) : ReceivesAll packets s reads := by
  induction reads generalizing packets s with
  | nil =>
    obtain rfl : packets = [] := framed
    exact ⟨[], rfl, rfl, rfl, .nil⟩
  | cons r reads ih =>
    obtain ⟨⟨room, bytes⟩, buffer⟩ := List.forall_mem_cons.1 buffer
    unfold Framed at framed
    cases read : r.read with
    | failed again =>
      rw [read] at framed
      obtain ⟨x, received, handled, copied, left⟩ := recv_failed r again s
      obtain ⟨results, rest, headers, data, within⟩ := ih framed made buffer established
      refine ⟨x :: results, ?_, ?_, ?_, .cons (fun no => absurd copied no) within⟩
      · rw [simOpenReceive, read, received, Option.bind_some, left, rest]
        rfl
      · rw [List.flatMap_cons, handled, List.nil_append, headers]
      · rw [List.flatMap_cons, copied, List.nil_append, data]
    | bytes b =>
      rw [read] at framed
      obtain ⟨p, packets, rfl, rfl, fits, last, framed⟩ := framed
      obtain ⟨first, made⟩ := List.forall_mem_cons.1 made
      obtain ⟨x, received, handled, copied, left⟩ := recv_packet room (established (by simp)) first
        (bytes _ read).2 fits
      have goes_on : packets ≠ [] → x.left.state = .established := fun more => left (mt last more)
      obtain ⟨results, rest, headers, data, within⟩ := ih framed made buffer goes_on
      refine ⟨x :: results, ?_, ?_, ?_, .cons ?_ within⟩
      · rw [simOpenReceive, read, received, Option.bind_some, rest]
        rfl
      · rw [List.flatMap_cons, List.map_append, handled, headers]
        rfl
      · rw [simData_of_made made] at data
        rw [List.flatMap_cons, copied, data, simData_of_made (List.forall_mem_cons.2 ⟨first, made⟩),
          List.flatMap_cons]
      · intro _
        rw [copied, SimReading.chunk, read, p.length_toBytes]

section Sums

variable {α β γ : Type*}

/-- What is at most something in each place, and at least it in all, is equal to it in each place. -/
theorem forall₂_eq_of_sum_le {f : α → ℕ} {g : β → ℕ} {l : List α} {m : List β}
    (h : List.Forall₂ (fun a b => g b ≤ f a) l m) :
    (m.map g).sum ≤ (l.map f).sum ∧
      ((l.map f).sum ≤ (m.map g).sum → List.Forall₂ (fun a b => g b = f a) l m) := by
  induction h with
  | nil => exact ⟨Nat.le_refl _, fun _ => .nil⟩
  | cons first rest ih =>
    simp only [List.map_cons, List.sum_cons]
    exact ⟨by omega, fun le => .cons (by omega) (ih.2 (by omega))⟩

/-- Beginnings that are all in all as long as the whole are the whole. -/
theorem flatMap_take_eq {f : α → List γ} {n : α → ℕ} {l : List α}
    (h : (l.flatMap f).length ≤ (l.flatMap fun a => (f a).take (n a)).length) :
    (l.flatMap fun a => (f a).take (n a)) = l.flatMap f := by
  have le (l : List α) : (l.flatMap fun a => (f a).take (n a)).length ≤ (l.flatMap f).length := by
    induction l with
    | nil => exact Nat.le_refl _
    | cons a l ih =>
      have := (f a).length_take_le' (n a)
      simp only [List.flatMap_cons, List.length_append]
      omega
  induction l with
  | nil => rfl
  | cons a l ih =>
    simp only [List.flatMap_cons, List.length_append] at h ⊢
    have first := (f a).length_take_le' (n a)
    have rest := le l
    rw [ih (by omega), List.IsPrefix.eq_of_length_le (List.take_prefix (n a) (f a)) (by omega)]

end Sums

section Whole

variable {s : SimOpenSession} {r : SimReading} {reads : List SimReading}
  {results : List SimOpenReceived} {packets : List SimPacket}

theorem simOpenReceive_cons (h : simOpenReceive s (r :: reads) = some results) :
    ∃ x rest, simultaneousOpenRecv r.env r.read r.stale r.maxLen s = some x ∧
      simOpenReceive x.left reads = some rest ∧ results = x :: rest := by
  rw [simOpenReceive] at h
  obtain ⟨x, received, h⟩ := Option.bind_eq_some_iff.1 h
  obtain ⟨rest, goes_on, rfl⟩ := Option.map_eq_some_iff.1 h
  exact ⟨x, rest, received, goes_on, rfl⟩

/-- A session that is not established handles nothing. -/
theorem simOpenReceive_idle (idle : s.state ≠ .established)
    (h : simOpenReceive s reads = some results) : results.flatMap SimOpenReceived.handled = [] := by
  induction reads generalizing results with
  | nil =>
    obtain rfl := Option.some.inj h
    rfl
  | cons r reads ih =>
    obtain ⟨x, rest, received, goes_on, rfl⟩ := simOpenReceive_cons h
    have nothing : x = .nothing (-1) s := by
      unfold simultaneousOpenRecv at received
      split_ifs at received
      · exact (Option.some.inj received).symm
      · exact (Option.some.inj received).symm
    subst nothing
    rw [List.flatMap_cons, ih goes_on]
    rfl

/-- What a call accounts for: a header for the packet it handles, and what it copies. -/
def SimOpenReceived.weight (x : SimOpenReceived) : ℕ :=
  simPacketSize * x.handled.length + x.copied.length

theorem weight_le {x : SimOpenReceived}
    (received : simultaneousOpenRecv r.env r.read r.stale r.maxLen s = some x)
    (within : x.copied ≠ [] → simPacketSize + x.copied.length ≤ r.chunk.length) :
    x.weight ≤ r.chunk.length := by
  unfold SimOpenReceived.weight
  obtain ⟨handled, copied⟩ | ⟨b, q, read, -, handled, header, -⟩ := recv_some received
  · simp [handled, copied]
  · rw [handled, List.length_singleton, Nat.mul_one]
    by_cases copied : x.copied = []
    · rw [copied, SimReading.chunk, read]
      exact header
    · exact within copied

theorem weights_le (h : simOpenReceive s reads = some results)
    (within : List.Forall₂ (fun r x => x.copied ≠ [] → simPacketSize + x.copied.length ≤ r.chunk.length)
      reads results) :
    List.Forall₂ (fun r x => x.weight ≤ r.chunk.length) reads results := by
  induction reads generalizing s results with
  | nil =>
    obtain rfl := Option.some.inj h
    exact .nil
  | cons r reads ih =>
    obtain ⟨x, rest, received, goes_on, rfl⟩ := simOpenReceive_cons h
    obtain ⟨first, within⟩ := List.forall₂_cons.1 within
    exact .cons (weight_le received first) (ih goes_on within)

/-- No more is copied than was sent. -/
theorem length_copied_le (made : ∀ p ∈ packets, p.Made) (h : simOpenReceive s reads = some results)
    (headers : (results.flatMap SimOpenReceived.handled).map SimPacket.header =
      packets.map SimPacket.header) :
    (results.flatMap SimOpenReceived.copied).length ≤
      (packets.flatMap SimPacket.payload).length := by
  induction reads generalizing s results packets with
  | nil =>
    obtain rfl := Option.some.inj h
    exact Nat.zero_le _
  | cons r reads ih =>
    obtain ⟨x, rest, received, goes_on, rfl⟩ := simOpenReceive_cons h
    rw [List.flatMap_cons] at headers ⊢
    obtain ⟨handled, copied⟩ | ⟨b, q, -, -, handled, -, copied, -⟩ := recv_some received
    · rw [handled, List.nil_append] at headers
      rw [copied, List.nil_append]
      exact ih made goes_on headers
    · rw [handled] at headers
      obtain ⟨p, packets, rfl, header, headers⟩ := List.map_eq_cons_iff.1 headers.symm
      obtain ⟨first, made⟩ := List.forall_mem_cons.1 made
      have len := first.payloadLen_le header
      have rest := ih made goes_on headers.symm
      rw [List.flatMap_cons, List.length_append, List.length_append]
      omega

/-- By induction on the reads: a call that handles a packet has read it to its end, since none of them
has bytes to spare. -/
theorem framed_of_tight (made : ∀ p ∈ packets, p.Made) (h : simOpenReceive s reads = some results)
    (buffer : ∀ r ∈ reads, ∀ b, r.read = .bytes b → b ≠ [])
    (headers : (results.flatMap SimOpenReceived.handled).map SimPacket.header =
      packets.map SimPacket.header)
    (data : (packets.flatMap SimPacket.payload).length ≤
      (results.flatMap SimOpenReceived.copied).length)
    (tight : List.Forall₂ (fun r x => x.weight = r.chunk.length) reads results)
    (whole : reads.flatMap SimReading.chunk = packets.flatMap SimPacket.toBytes) :
    Framed packets reads := by
  induction reads generalizing s results packets with
  | nil =>
    obtain rfl := Option.some.inj h
    exact List.map_eq_nil_iff.1 headers.symm
  | cons r reads ih =>
    obtain ⟨x, rest, received, goes_on, rfl⟩ := simOpenReceive_cons h
    obtain ⟨some_bytes, buffer⟩ := List.forall_mem_cons.1 buffer
    obtain ⟨exact, tight⟩ := List.forall₂_cons.1 tight
    rw [List.flatMap_cons] at headers data whole
    unfold Framed
    obtain ⟨handled, copied⟩ | ⟨b, q, read, -, handled, header, copied, close⟩ := recv_some received
    · have nothing : r.chunk = [] := by
        rw [← List.length_eq_zero_iff, ← exact, SimOpenReceived.weight, handled, copied]
        rfl
      rw [handled, List.nil_append] at headers
      rw [copied, List.nil_append] at data
      rw [nothing, List.nil_append] at whole
      cases read : r.read with
      | failed again => exact ih made goes_on buffer headers data tight whole
      | bytes b =>
        rw [SimReading.chunk, read] at nothing
        exact absurd nothing (some_bytes b read)
    · rw [handled] at headers
      obtain ⟨p, packets, rfl, header, headers⟩ := List.map_eq_cons_iff.1 headers.symm
      obtain ⟨first, made⟩ := List.forall_mem_cons.1 made
      have len := first.payloadLen_le header
      have rest_le := length_copied_le made goes_on headers.symm
      rw [List.flatMap_cons, List.length_append, List.length_append] at data
      have all : x.copied.length = p.payload.length := by omega
      have same_length : r.chunk.length = p.toBytes.length := by
        rw [← exact, SimOpenReceived.weight, handled, p.length_toBytes, all]
        rfl
      obtain ⟨chunk, whole⟩ := List.append_inj whole same_length
      rw [SimReading.chunk, read] at chunk
      rw [read]
      refine ⟨p, packets, rfl, chunk, fun _ => by omega, ?_, ?_⟩
      · intro last
        have type : p.header.type = q.header.type := by rw [header]
        have closed : SimPacketType.ofCode q.type = some .close := by
          rwa [← show p.type = q.type from type]
        rw [simOpenReceive_idle (close closed) goes_on] at headers
        exact List.map_eq_nil_iff.1 headers
      · exact ih made goes_on buffer headers.symm (by omega) tight whole

theorem sum_weight (results : List SimOpenReceived) : (results.map SimOpenReceived.weight).sum =
    simPacketSize * (results.flatMap SimOpenReceived.handled).length +
      (results.flatMap SimOpenReceived.copied).length := by
  induction results with
  | nil => rfl
  | cons x results ih =>
    rw [List.map_cons, List.sum_cons, ih, SimOpenReceived.weight]
    simp only [List.flatMap_cons, List.length_append, Nat.mul_add]
    omega

theorem length_flatMap_toBytes (packets : List SimPacket) : (packets.flatMap SimPacket.toBytes).length =
    simPacketSize * packets.length + (packets.flatMap SimPacket.payload).length := by
  induction packets with
  | nil => rfl
  | cons p packets ih =>
    simp only [List.flatMap_cons, List.length_append, List.length_cons, ih, p.length_toBytes,
      Nat.mul_add]
    omega

end Whole

/-- What the calls send comes out, each packet once and in order, exactly if each read is one packet. -/
theorem recv_frames_iff {s : SimOpenSession} (established : s.state = .established)
    {sends : List SimSent} {reads : List SimReading} (segments : Segments sends reads) :
    ReceivesAll (sends.flatMap SimSent.packets) s reads ↔
      Framed (sends.flatMap SimSent.packets) reads := by
  have made : ∀ p ∈ sends.flatMap SimSent.packets, p.Made := by
    intro p hp
    obtain ⟨x, -, hp⟩ := List.mem_flatMap.1 hp
    exact SimSent.made hp
  constructor
  · rintro ⟨results, received, headers, data, within⟩
    rw [simData_of_made made] at data
    have count : (results.flatMap SimOpenReceived.handled).length =
        (sends.flatMap SimSent.packets).length := by
      rw [← List.length_map SimPacket.header, headers, List.length_map]
    have whole : (sends.flatMap fun x => x.packets.flatMap SimPacket.toBytes) =
        (sends.flatMap SimSent.packets).flatMap SimPacket.toBytes := List.flatMap_assoc.symm
    have read : (reads.map fun r => r.chunk.length).sum = (sends.flatMap SimSent.bytes).length := by
      rw [← segments.whole, List.length_flatMap]
    have handled := sum_weight results
    have sent := length_flatMap_toBytes (sends.flatMap SimSent.packets)
    rw [count, data, ← sent, ← whole] at handled
    obtain ⟨le, tight⟩ := forall₂_eq_of_sum_le (weights_le received within)
    rw [handled, read] at le
    have stream : sends.flatMap SimSent.bytes =
        (sends.flatMap SimSent.packets).flatMap SimPacket.toBytes := by
      rw [← whole]
      exact flatMap_take_eq le
    rw [handled, read, whole, stream] at tight
    exact framed_of_tight made received (fun r hr b read => ((segments.buffer r hr).2 b read).1) headers
      (by rw [data]) (tight (Nat.le_refl _)) (segments.whole.trans stream)
  · intro framed
    exact receivesAll_of_framed framed made segments.buffer fun _ => established

/-- A session that is established. -/
def simOpenSession : SimOpenSession :=
  { SimOpenSession.init IpText.empty 33450 with socketFd := 3, state := .established }

/-- Two calls that send a byte each. -/
def twoSends : List SimSent :=
  [⟨⟨0, true⟩, simOpenSession, .send [97], 17⟩, ⟨⟨0, true⟩, simOpenSession, .send [98], 17⟩]

/-- A read of these bytes into a buffer of zeros. -/
def simReading (b : Bytes) : SimReading :=
  ⟨⟨0, true⟩, .bytes b, List.replicate (simRecvBufferSize - b.length) 0, 100⟩

theorem simReading_buffer {b : Bytes} (some_bytes : b ≠ []) (fits : b.length ≤ simRecvBufferSize) :
    (simReading b).maxLen ≠ 0 ∧ ∀ b', (simReading b).read = .bytes b' →
      b' ≠ [] ∧ b'.length + (simReading b).stale.length = simRecvBufferSize := by
  refine ⟨(by decide : 100 ≠ 0), ?_⟩
  rintro b' ⟨rfl⟩
  refine ⟨some_bytes, ?_⟩
  simp only [simReading, List.length_replicate]
  omega

/-- Two reads that get a packet each. -/
theorem two_reads_receive : ReceivesAll (twoSends.flatMap SimSent.packets) simOpenSession
    [simReading ((twoSends.flatMap SimSent.bytes).take 17),
      simReading ((twoSends.flatMap SimSent.bytes).drop 17)] := by
  refine (recv_frames_iff rfl ⟨rfl, ?_⟩).2 ?_
  · exact List.forall_mem_cons.2 ⟨simReading_buffer (by decide) (by decide),
      List.forall_mem_singleton.2 (simReading_buffer (by decide) (by decide))⟩
  · exact ⟨_, _, rfl, rfl, fun _ => by decide, nofun, _, _, rfl, rfl, fun _ => by decide, nofun, rfl⟩

/-- One read that gets both packets loses the second. -/
theorem merged_read_loses : Segments twoSends [simReading (twoSends.flatMap SimSent.bytes)] ∧
    ¬ ReceivesAll (twoSends.flatMap SimSent.packets) simOpenSession
      [simReading (twoSends.flatMap SimSent.bytes)] := by
  have size : (twoSends.flatMap SimSent.bytes).length = 34 := by
    rw [twoSends, List.flatMap_cons, List.flatMap_singleton, List.length_append]
    rfl
  have some_bytes : twoSends.flatMap SimSent.bytes ≠ [] := by
    intro none
    rw [none] at size
    cases size
  refine ⟨⟨rfl, List.forall_mem_singleton.2 (simReading_buffer some_bytes ?_)⟩, ?_⟩
  · rw [size]
    decide
  rintro ⟨results, received, headers, -⟩
  obtain ⟨x, rest, call, goes_on, rfl⟩ := simOpenReceive_cons received
  obtain rfl : [] = rest := Option.some.inj goes_on
  have count := congrArg List.length headers
  rw [List.length_map, List.length_map, List.flatMap_singleton] at count
  have one : x.handled.length ≤ 1 := by
    generalize simReading (twoSends.flatMap SimSent.bytes) = r at call
    obtain ⟨handled, -⟩ | ⟨b, q, -, -, handled, -⟩ := recv_some call <;> simp [handled]
  rw [count] at one
  exact absurd one (by decide)

end Orcashi
