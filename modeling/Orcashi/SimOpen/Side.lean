import Orcashi.SimOpen.Link

/-!
# What one side of a simultaneous open keeps

A side sends SYNCs with its own token only and answers only where there has been a SYNC, nothing follows
its CLOSE, and its token is its own one until it has read a SYNC and the other side's one from then on.
Each step of a side keeps this, with what it reads and with what it sends.
-/

namespace Orcashi

/-! ## What handling a packet does -/

@[simp] theorem SimPacket.kind_make {env : SimOpenEnv} {s : SimOpenSession} {t : SimPacketType}
    {payload : Bytes} : (make env s t payload).kind = some t :=
  SimPacketType.ofCode_code t

/-- A packet without data as `simultaneous_open_send_packet` fills it in. -/
structure SimPacket.Proper (q : SimPacket) : Prop where
  magic : q.magic = simMagic
  version : q.version = simProtocolVersion
  payload : q.payload = []
  control : q.kind ≠ some .data

theorem SimPacket.proper_make {env : SimOpenEnv} {s : SimOpenSession} {t : SimPacketType}
    (control : t ≠ .data) : (make env s t []).Proper :=
  ⟨rfl, rfl, rfl, by simpa using control⟩

theorem SimPacket.Proper.length_toBytes {q : SimPacket} (h : q.Proper) :
    q.toBytes.length = simPacketSize := by
  rw [q.length_toBytes, h.payload]
  rfl

section Send

variable {env : SimOpenEnv} {t : SimPacketType} {payload : Bytes} {s : SimOpenSession}

theorem simultaneousOpenSendPacket_sent : (simultaneousOpenSendPacket env t payload s).sent =
    if 0 ≤ s.socketFd ∧ env.sends then [.make env s t payload] else [] := by
  unfold simultaneousOpenSendPacket
  by_cases closed : s.socketFd < 0
  · rw [if_pos (Or.inl closed), if_neg fun h => absurd h.1 (Int.not_le.2 closed)]
  · cases env.sends <;> simp [closed, Int.not_lt.1 closed]

theorem mem_simultaneousOpenSendPacket {q : SimPacket}
    (h : q ∈ (simultaneousOpenSendPacket env t payload s).sent) : q = .make env s t payload := by
  rw [simultaneousOpenSendPacket_sent] at h
  split_ifs at h with ok
  · exact List.mem_singleton.1 h
  · cases h

end Send

@[simp] theorem SimOpenSession.establish_syncToken (s : SimOpenSession) :
    s.establish.syncToken = s.syncToken := by
  unfold establish
  split_ifs <;> rfl

@[simp] theorem SimOpenSession.establish_socketFd (s : SimOpenSession) :
    s.establish.socketFd = s.socketFd := by
  unfold establish
  split_ifs <;> rfl

theorem SimOpenSession.establish_of_syncing {s : SimOpenSession} (h : s.state = .syncing) :
    s.establish.state = .established := by
  unfold establish
  rw [if_pos h]

/-- What handling a packet does to a session. -/
structure Processed (q : SimPacket) (s : SimOpenSession) (r : SimOpenDone) : Prop where
  ret : r.ret = 0
  socketFd : r.left.socketFd = s.socketFd
  adopted : q.kind = some .sync → r.left.syncToken = q.syncToken
  kept : q.kind ≠ some .sync → r.left.syncToken = s.syncToken
  established : r.left.state = .established →
    s.state = .established ∨ q.kind = some .sync ∨ q.kind = some .syncAck ∨ q.kind = some .syncConfirm
  syncing : s.state = .syncing → r.left.state ≠ .established →
    q.kind ≠ some .sync ∧ (r.left.state = .syncing ∨ q.kind = some .close)
  answers : ∀ a ∈ r.sent, a.Proper ∧
    (a.kind = some .syncAck ∧ q.kind = some .sync ∨ a.kind = some .syncConfirm ∧ q.kind = some .syncAck)

theorem processed_ignored {now : Time} {q : SimPacket} (s : SimOpenSession)
    (h : q.kind ≠ some .sync) : Processed q s ⟨0, { s with lastActivity := now }, []⟩ where
  ret := rfl
  socketFd := rfl
  adopted := fun sync => absurd sync h
  kept := fun _ => rfl
  established := Or.inl
  syncing := fun syncing _ => ⟨h, Or.inl syncing⟩
  answers := by simp

/-- By cases on the type of the packet. -/
theorem processed_processPacket (env : SimOpenEnv) {q : SimPacket} {len : ℕ} (s : SimOpenSession)
    (header : simPacketSize ≤ len) (proper : q.Proper) :
    Processed q s (simultaneousOpenProcessPacket env q len s) := by
  unfold simultaneousOpenProcessPacket
  rw [if_neg (Nat.not_lt.2 header), if_neg (not_not.2 proper.magic), if_neg (not_not.2 proper.version)]
  dsimp only
  rw [← SimPacket.kind]
  cases kind : q.kind with
  | none => exact processed_ignored s (by simp [kind])
  | some t =>
    cases t with
    | sync =>
      refine ⟨rfl, by simp, fun _ => by simp, fun h => absurd kind h, fun _ => Or.inr (Or.inl kind),
        ?_, ?_⟩
      · intro syncing not_established
        exact absurd (SimOpenSession.establish_of_syncing (by simpa using syncing)) not_established
      · intro a ha
        obtain rfl := mem_simultaneousOpenSendPacket ha
        exact ⟨SimPacket.proper_make (by decide), Or.inl ⟨SimPacket.kind_make, kind⟩⟩
    | syncAck =>
      have other : q.kind ≠ some .sync := by simp [kind]
      dsimp only
      split_ifs with same
      · refine ⟨rfl, by simp, fun h => absurd h other, fun _ => by simp,
          fun _ => Or.inr (Or.inr (Or.inl kind)), fun _ h => absurd rfl h, ?_⟩
        intro a ha
        obtain rfl := mem_simultaneousOpenSendPacket ha
        exact ⟨SimPacket.proper_make (by decide), Or.inr ⟨SimPacket.kind_make, kind⟩⟩
      · exact processed_ignored s other
    | syncConfirm =>
      refine ⟨rfl, by simp, by simp [kind], fun _ => by simp, fun _ => Or.inr (Or.inr (Or.inr kind)),
        ?_, by simp⟩
      intro syncing not_established
      exact absurd (SimOpenSession.establish_of_syncing (by simpa using syncing)) not_established
    | close =>
      refine ⟨rfl, rfl, by simp [kind], fun _ => rfl, ?_, fun _ _ => ⟨by simp [kind], Or.inr kind⟩,
        by simp⟩
      intro h
      cases h
    | data => exact processed_ignored s (by simp [kind])
    | keepalive => exact processed_ignored s (by simp [kind])

theorem cleanup_socketFd (s : SimOpenSession) : (simultaneousOpenCleanup s).socketFd < 0 := by
  unfold simultaneousOpenCleanup
  dsimp only
  split_ifs with socket
  · decide
  · exact Int.not_le.1 socket

/-- Waiting handles the packet that arrives. -/
theorem processed_waitForSync (env : SimOpenEnv) {q : SimPacket} {s : SimOpenSession}
    (open_ : 0 ≤ s.socketFd) (proper : q.Proper) :
    Processed q s (simultaneousOpenWaitForSync env (some (.bytes q.toBytes)) s) := by
  unfold simultaneousOpenWaitForSync
  rw [if_neg (Int.not_lt.2 open_)]
  dsimp only
  rw [proper.length_toBytes, if_pos (Nat.le_refl _), q.ofBuffer_toBytes]
  exact processed_processPacket env s (Nat.le_refl _) proper

/-- A read of an established session finds nothing or handles the packet. -/
theorem recv_cases (env : SimOpenEnv) {maxLen : ℕ} {packet : Option SimPacket} (ended : Bool)
    {s : SimOpenSession} (room : maxLen ≠ 0) (established : s.state = .established)
    (arrives : ∀ q ∈ packet, q.Proper) :
    ∃ done, simultaneousOpenRecv env ((packet.map fun q => .bytes q.toBytes).getD
        (if ended then .bytes [] else .failed true)) [] maxLen s = some done ∧
      (packet = none ∧ done.sent = [] ∧ (done.left = s ∨ done.left = { s with state := .idle }) ∨
        ∃ q, packet = some q ∧ Processed q s ⟨0, done.left, done.sent⟩) := by
  unfold simultaneousOpenRecv
  rw [if_neg room, if_neg (not_not.2 established)]
  cases packet with
  | none =>
    cases ended with
    | false => exact ⟨_, rfl, Or.inl ⟨rfl, rfl, Or.inl rfl⟩⟩
    | true => exact ⟨_, rfl, Or.inl ⟨rfl, rfl, Or.inr rfl⟩⟩
  | some q =>
    have proper := arrives q rfl
    have size := proper.length_toBytes
    have some_bytes : q.toBytes ≠ [] := by
      intro h
      rw [h] at size
      cases size
    have control : SimPacketType.ofCode q.type ≠ some .data := proper.control
    simp only [Option.map_some, Option.getD_some, List.append_nil, q.ofBuffer_toBytes, size,
      if_neg some_bytes, Nat.lt_irrefl, if_false, proper.magic, ne_eq, not_true, if_neg control]
    have processed := processed_processPacket env s (Nat.le_refl simPacketSize) proper
    exact ⟨_, rfl, Or.inr ⟨q, rfl, { processed with ret := rfl }⟩⟩

/-! ## The invariant of a side -/

/-- A CLOSE is among the packets. -/
def Closed (l : List SimPacket) : Prop := ∃ p ∈ l, p.kind = some .close

theorem synced_append {l m : List SimPacket} : Synced (l ++ m) ↔ Synced l ∨ Synced m := by
  simp [Synced, or_and_right, exists_or]

theorem closed_append {l m : List SimPacket} : Closed (l ++ m) ↔ Closed l ∨ Closed m := by
  simp [Closed, or_and_right, exists_or]

theorem not_synced_nil : ¬ Synced [] := by simp [Synced]

theorem synced_singleton {q : SimPacket} : Synced [q] ↔ q.kind = some .sync := by simp [Synced]

theorem not_closed_nil : ¬ Closed [] := by simp [Closed]

theorem closed_singleton {q : SimPacket} : Closed [q] ↔ q.kind = some .close := by simp [Closed]

/-- What a side sends: SYNCs with its own token, answers only if there has been a SYNC, and nothing
behind a CLOSE. -/
structure SentInv (own : UInt32) (caused : Prop) (socketFd : ℤ) (sent : List SimPacket) : Prop where
  proper : ∀ q ∈ sent, q.Proper
  syncs : ∀ q ∈ sent, q.kind = some .sync → q.syncToken = own
  answers : ∀ q ∈ sent, q.kind = some .syncAck ∨ q.kind = some .syncConfirm → caused
  last : ¬ Closed sent.dropLast
  closed : Closed sent → socketFd < 0

/-- The token is the other side's one exactly if a SYNC has been read. -/
structure TokenInv (own peer : UInt32) (heard : List SimPacket) (token : UInt32) : Prop where
  kept : ¬ Synced heard → token = own
  adopted : Synced heard → token = peer

/-- What holds of a side, with what it has read from the other one. -/
structure SimOpenParty.Inv (start : SimOpenStart) (peer : UInt32) (heard : List SimPacket)
    (caused : Prop) (p : SimOpenParty) : Prop where
  sent : SentInv start.token caused p.session.socketFd p.sent
  idle : p.call = .idle → p.session.state = .idle ∧ p.sent = [] ∧ heard = []
  loop : p.call = .idle ∨ p.call = .returned ∨ p.session.syncToken = start.token ∧ ¬ Synced heard ∧
    (p.session.state = .syncing ∨ Closed heard)
  established : p.session.state = .established →
    caused ∧ TokenInv start.token peer heard p.session.syncToken

/-- What holds of a packet that arrives. -/
structure Arrives (peer : UInt32) (heard : List SimPacket) (caused : Prop) (q : SimPacket) : Prop where
  proper : q.Proper
  sync : q.kind = some .sync → q.syncToken = peer
  caused : q.kind = some .sync ∨ q.kind = some .syncAck ∨ q.kind = some .syncConfirm → caused
  fresh : ¬ Closed heard

theorem SentInv.socket {own : UInt32} {caused : Prop} {fd fd' : ℤ} {sent : List SimPacket}
    (inv : SentInv own caused fd sent) (same : fd < 0 → fd' < 0) : SentInv own caused fd' sent :=
  { inv with closed := fun h => same (inv.closed h) }

theorem SentInv.append {own : UInt32} {caused : Prop} {fd fd' : ℤ} {sent new : List SimPacket}
    (inv : SentInv own caused fd sent) (open_ : new ≠ [] → 0 ≤ fd) (same : fd < 0 → fd' < 0)
    (proper : ∀ q ∈ new, q.Proper) (syncs : ∀ q ∈ new, q.kind = some .sync → q.syncToken = own)
    (answers : ∀ q ∈ new, q.kind = some .syncAck ∨ q.kind = some .syncConfirm → caused)
    (last : ¬ Closed new.dropLast) (closed : Closed new → fd' < 0) :
    SentInv own caused fd' (sent ++ new) where
  proper := List.forall_mem_append.2 ⟨inv.proper, proper⟩
  syncs := List.forall_mem_append.2 ⟨inv.syncs, syncs⟩
  answers := List.forall_mem_append.2 ⟨inv.answers, answers⟩
  last := by
    by_cases nothing : new = []
    · rw [nothing, List.append_nil]
      exact inv.last
    · rw [List.dropLast_append_of_ne_nil nothing, closed_append]
      rintro (before | after)
      · exact absurd (inv.closed before) (Int.not_lt.2 (open_ nothing))
      · exact last after
  closed := by
    rw [closed_append]
    rintro (before | after)
    · exact same (inv.closed before)
    · exact closed after

/-- A packet of type `t` with the token goes out if `ok`, and nothing else. -/
def Emits (t : SimPacketType) (token : UInt32) (ok : Prop) (sent : List SimPacket) : Prop :=
  ¬ ok ∧ sent = [] ∨
    ok ∧ ∃ q : SimPacket, sent = [q] ∧ q.Proper ∧ q.kind = some t ∧ q.syncToken = token

theorem Emits.congr {t : SimPacketType} {token : UInt32} {ok ok' : Prop} {sent : List SimPacket}
    (h : Emits t token ok sent) (same : ok ↔ ok') : Emits t token ok' sent := by
  unfold Emits
  rwa [← same]

theorem emits_sendPacket {env : SimOpenEnv} {t : SimPacketType} {s : SimOpenSession}
    (control : t ≠ .data) :
    Emits t s.syncToken (0 ≤ s.socketFd ∧ env.sends) (simultaneousOpenSendPacket env t [] s).sent := by
  rw [simultaneousOpenSendPacket_sent]
  split_ifs with ok
  · exact Or.inr ⟨ok, _, rfl, SimPacket.proper_make control, SimPacket.kind_make, rfl⟩
  · exact Or.inl ⟨ok, rfl⟩

theorem Emits.synced_iff {t : SimPacketType} {token : UInt32} {ok : Prop} {sent : List SimPacket}
    (h : Emits t token ok sent) : Synced sent ↔ ok ∧ t = .sync := by
  obtain ⟨no, rfl⟩ | ⟨ok, q, rfl, -, kind, -⟩ := h
  · exact iff_of_false not_synced_nil fun yes => no yes.1
  · rw [synced_singleton, kind, Option.some.injEq]
    exact ⟨fun h => ⟨ok, h⟩, And.right⟩

/-- What is emitted may be sent by a side whose socket is open. -/
theorem Emits.sentInv {t : SimPacketType} {token own : UInt32} {ok caused : Prop} {fd fd' : ℤ}
    {sent new : List SimPacket} (h : Emits t token ok new) (inv : SentInv own caused fd sent)
    (open_ : ok → 0 ≤ fd) (same : fd < 0 → fd' < 0) (syncs : ok → t = .sync → token = own)
    (answers : t ≠ .syncAck ∧ t ≠ .syncConfirm) (closed : ok → t = .close → fd' < 0) :
    SentInv own caused fd' (sent ++ new) := by
  obtain ⟨-, rfl⟩ | ⟨ok, q, rfl, proper, kind, rfl⟩ := h
  · refine inv.append (by simp) same (by simp) (by simp) (by simp) not_closed_nil ?_
    exact fun h => absurd h not_closed_nil
  · refine inv.append (fun _ => open_ ok) same (by simpa using proper) ?_ ?_ not_closed_nil ?_
    · intro r hr sync
      obtain rfl := List.mem_singleton.1 hr
      exact syncs ok (Option.some.inj (kind.symm.trans sync))
    · intro r hr answer
      obtain rfl := List.mem_singleton.1 hr
      rw [kind, Option.some.injEq, Option.some.injEq] at answer
      exact absurd answer (not_or.2 answers)
    · rintro ⟨r, hr, close⟩
      obtain rfl := List.mem_singleton.1 hr
      exact closed ok (Option.some.inj (kind.symm.trans close))

/-- Answers may be sent by a side whose socket is open. -/
theorem Processed.sentInv {q : SimPacket} {s : SimOpenSession} {r : SimOpenDone} {own : UInt32}
    {caused : Prop} {sent : List SimPacket} (h : Processed q s r)
    (inv : SentInv own caused s.socketFd sent) (open_ : 0 ≤ s.socketFd)
    (cause : q.kind = some .sync ∨ q.kind = some .syncAck ∨ q.kind = some .syncConfirm → caused) :
    SentInv own caused r.left.socketFd (sent ++ r.sent) := by
  have kinds : ∀ a ∈ r.sent, a.kind ≠ some .sync ∧ a.kind ≠ some .close := by
    intro a ha
    obtain ⟨kind, -⟩ | ⟨kind, -⟩ := (h.answers a ha).2 <;> rw [kind] <;> decide
  rw [h.socketFd]
  refine inv.append (fun _ => open_) id (fun a ha => (h.answers a ha).1) ?_ ?_ ?_ ?_
  · exact fun a ha sync => absurd sync (kinds a ha).1
  · intro a ha _
    obtain ⟨-, kind⟩ | ⟨-, kind⟩ := (h.answers a ha).2
    · exact cause (Or.inl kind)
    · exact cause (Or.inr (Or.inl kind))
  · rintro ⟨a, ha, close⟩
    exact (kinds a (List.dropLast_subset _ ha)).2 close
  · rintro ⟨a, ha, close⟩
    exact absurd close (kinds a ha).2

/-- The token follows what is read. -/
theorem Processed.tokenInv {q : SimPacket} {s : SimOpenSession} {r : SimOpenDone}
    {own peer : UInt32} {heard : List SimPacket} (h : Processed q s r)
    (inv : TokenInv own peer heard s.syncToken) (sync : q.kind = some .sync → q.syncToken = peer) :
    TokenInv own peer (heard ++ [q]) r.left.syncToken := by
  by_cases kind : q.kind = some .sync
  · refine ⟨fun no => absurd (synced_append.2 (Or.inr (synced_singleton.2 kind))) no, fun _ => ?_⟩
    rw [h.adopted kind, sync kind]
  · have same : Synced (heard ++ [q]) ↔ Synced heard := by
      rw [synced_append, synced_singleton, or_iff_left kind]
    rw [h.kept kind]
    exact ⟨fun no => inv.kept (mt same.2 no), fun yes => inv.adopted (same.1 yes)⟩

/-- The beginning of a call fails or starts to synchronise, with a SYNC of an initiator. -/
theorem begin_cases (initiator : Bool) (env : SimOpenEnv) (setup : SimOpenSetup) {s : SimOpenSession}
    (idle : s.state = .idle) :
    (¬ (0 ≤ setup.socket ∧ setup.connects = true) ∧
        (simultaneousOpenBegin initiator env setup s).ret = -1 ∧
        (simultaneousOpenBegin initiator env setup s).left.state = .idle ∧
        (simultaneousOpenBegin initiator env setup s).sent = []) ∨
      (0 ≤ setup.socket ∧ setup.connects = true) ∧
        (simultaneousOpenBegin initiator env setup s).ret = 0 ∧
        (simultaneousOpenBegin initiator env setup s).left.state = .syncing ∧
        (simultaneousOpenBegin initiator env setup s).left.socketFd = setup.socket ∧
        (simultaneousOpenBegin initiator env setup s).left.syncToken =
          simultaneousOpenGenerateSyncToken env setup ∧
        Emits .sync (simultaneousOpenGenerateSyncToken env setup) (initiator ∧ env.sends)
          (simultaneousOpenBegin initiator env setup s).sent := by
  unfold simultaneousOpenBegin
  dsimp only
  by_cases socket : setup.socket < 0
  · rw [if_pos socket]
    exact Or.inl ⟨fun h => absurd h.1 (Int.not_le.2 socket), rfl, idle, rfl⟩
  rw [if_neg socket]
  cases connects : setup.connects with
  | false => exact Or.inl ⟨fun h => Bool.false_ne_true h.2, rfl, rfl, rfl⟩
  | true =>
    refine Or.inr ⟨⟨Int.not_lt.1 socket, rfl⟩, ?_⟩
    cases initiator with
    | false => exact ⟨rfl, rfl, rfl, rfl, Or.inl ⟨by simp, rfl⟩⟩
    | true =>
      exact ⟨rfl, simultaneousOpenSendPacket_state, simultaneousOpenSendPacket_socketFd,
        simultaneousOpenSendPacket_syncToken,
        (emits_sendPacket (by decide)).congr (by simp [Int.not_lt.1 socket])⟩

/-- Between two tries an initiator sends a SYNC. -/
theorem retry_spec (initiator : Bool) (env : SimOpenEnv) (s : SimOpenSession) :
    (simultaneousOpenRetry initiator env s).left.state = s.state ∧
      (simultaneousOpenRetry initiator env s).left.syncToken = s.syncToken ∧
      (simultaneousOpenRetry initiator env s).left.socketFd = s.socketFd ∧
      Emits .sync s.syncToken (initiator ∧ 0 ≤ s.socketFd ∧ env.sends)
        (simultaneousOpenRetry initiator env s).sent := by
  cases initiator with
  | false => exact ⟨rfl, rfl, rfl, Or.inl ⟨by simp, rfl⟩⟩
  | true =>
    exact ⟨simultaneousOpenSendPacket_state, simultaneousOpenSendPacket_syncToken,
      simultaneousOpenSendPacket_socketFd, (emits_sendPacket (by decide)).congr (by simp)⟩

/-- A session that is closed sends at most a CLOSE. -/
theorem close_spec (env : SimOpenEnv) (s : SimOpenSession) :
    (simultaneousOpenClose env s).left.state = .idle ∧
      (simultaneousOpenClose env s).left.socketFd < 0 ∧
      Emits .close s.syncToken (0 ≤ s.socketFd ∧ env.sends) (simultaneousOpenClose env s).sent := by
  unfold simultaneousOpenClose
  by_cases socket : 0 ≤ s.socketFd
  · rw [if_pos socket]
    exact ⟨rfl, Int.negSucc_lt_zero 0, emits_sendPacket (by decide)⟩
  · rw [if_neg socket]
    exact ⟨rfl, Int.not_le.1 socket, Or.inl ⟨fun h => socket h.1, rfl⟩⟩

/-! ## What one step keeps -/

/-- More has been sent, and a SYNC is among it exactly if `syncs`. -/
def Grows (syncs : Prop) (sent sent' : List SimPacket) : Prop :=
  ∃ new, sent' = sent ++ new ∧ (Synced new ↔ syncs)

theorem grows_refl {syncs : Prop} {sent : List SimPacket} (h : ¬ syncs) : Grows syncs sent sent :=
  ⟨[], (List.append_nil _).symm, iff_of_false not_synced_nil h⟩

theorem Processed.grows {q : SimPacket} {s : SimOpenSession} {r : SimOpenDone}
    {sent : List SimPacket} {syncs : Prop} (h : Processed q s r) (no : ¬ syncs) :
    Grows syncs sent (sent ++ r.sent) := by
  refine ⟨r.sent, rfl, iff_of_false ?_ no⟩
  rintro ⟨a, ha, sync⟩
  obtain ⟨kind, -⟩ | ⟨kind, -⟩ := (h.answers a ha).2 <;> rw [kind] at sync <;> cases sync

/-- What a step of a side may read, whether it sends a SYNC, and what holds behind it. -/
def SimOpenParty.Moves (start : SimOpenStart) (peer : UInt32) (heard : List SimPacket) (caused : Prop)
    (next : Option SimPacket) (syncs : Prop) (p p' : SimOpenParty) : Prop :=
  ∃ read : List SimPacket, (read = [] ∨ ∃ q, next = some q ∧ read = [q]) ∧
    p'.taken = p.taken + read.length ∧ Grows syncs p.sent p'.sent ∧
    p'.Inv start peer (heard ++ read) caused

section Step

variable {start : SimOpenStart} {peer : UInt32} {heard : List SimPacket} {caused : Prop}
  {next : Option SimPacket} {p : SimOpenParty} {env : SimOpenEnv} {syncs : Prop}

/-- A step that reads nothing. -/
theorem SimOpenParty.Inv.moves {p' : SimOpenParty} (inv : p'.Inv start peer heard caused)
    (taken : p'.taken = p.taken) (sent : Grows syncs p.sent p'.sent) :
    p.Moves start peer heard caused next syncs p' :=
  ⟨[], Or.inl rfl, taken, sent, by rwa [List.append_nil]⟩

theorem SimOpenParty.Inv.begin (inv : p.Inv start peer heard caused) (call : p.call = .idle) :
    p.Moves start peer heard caused next (SimOpenMove.begin.Syncs start p) (p.begin start) := by
  obtain ⟨idle, nothing, unheard⟩ := inv.idle call
  have none_sent (fd : ℤ) : SentInv start.token caused fd [] :=
    ⟨by simp, by simp, by simp, not_closed_nil, fun h => absurd h not_closed_nil⟩
  unfold SimOpenParty.begin
  dsimp only
  obtain ⟨failed, ret, state, sent⟩ | ⟨⟨socket, connects⟩, ret, state, fd, token, sent⟩ :=
    begin_cases start.initiator start.env start.setup idle
  · have silent : ¬ SimOpenMove.begin.Syncs start p := fun h => failed ⟨h.2.2.1, h.2.2.2.1⟩
    refine moves ⟨?_, ?_, ?_, ?_⟩ rfl ⟨_, rfl, iff_of_false ?_ silent⟩
    · rw [sent, nothing]
      exact none_sent _
    · simp [ret]
    · simp [ret]
    · simp [state]
    · rw [sent]
      exact not_synced_nil
  · refine moves ⟨?_, ?_, ?_, ?_⟩ rfl ⟨_, rfl, sent.synced_iff.trans ?_⟩
    · rw [nothing, fd]
      exact sent.sentInv (none_sent _) (fun _ => socket) id (fun _ _ => rfl) (by decide) (by simp)
    · simp [ret]
    · rw [unheard]
      exact Or.inr (Or.inr ⟨token, not_synced_nil, Or.inl state⟩)
    · simp [state]
    · simp [SimOpenMove.Syncs, call, socket, connects]

theorem SimOpenParty.Inv.inLoop (inv : p.Inv start peer heard caused) (begun : p.call ≠ .idle)
    (runs : p.call ≠ .returned) : p.session.syncToken = start.token ∧ ¬ Synced heard ∧
      (p.session.state = .syncing ∨ Closed heard) :=
  (inv.loop.resolve_left begun).resolve_left runs

/-- A try that reads nothing. -/
theorem SimOpenParty.Inv.attempt_none {left : ℕ} (inv : p.Inv start peer heard caused)
    (call : p.call = .waiting left) :
    p.Moves start peer heard caused next False (p.attempt env none left) := by
  have loop := inv.inLoop (by simp [call]) (by simp [call])
  have waited : simultaneousOpenWaitForSync env none p.session = ⟨-1, p.session, []⟩ := by
    unfold simultaneousOpenWaitForSync
    split_ifs <;> rfl
  refine moves ?_ rfl ⟨_, rfl, iff_of_false (by simp [waited, not_synced_nil]) id⟩
  unfold SimOpenParty.attempt
  dsimp only
  rw [Option.map_none, waited, List.append_nil]
  by_cases last : left = 0
  · refine ⟨?_, ?_, ?_, ?_⟩
    · simp only [last]
      exact inv.sent.socket fun _ => cleanup_socketFd _
    · simp [last]
    · simp [last]
    · simp [last, simultaneousOpenCleanup]
  · refine ⟨?_, ?_, ?_, ?_⟩
    · simpa [last] using inv.sent
    · simp [last]
    · simpa [last] using loop
    · simpa [last] using inv.established

/-- A try that reads a packet. -/
theorem SimOpenParty.Inv.attempt_some {left : ℕ} {q : SimPacket}
    (inv : p.Inv start peer heard caused) (call : p.call = .waiting left)
    (arrives : Arrives peer heard caused q) (open_ : 0 ≤ p.session.socketFd) :
    p.Moves start peer heard caused (some q) False (p.attempt env (some q) left) := by
  obtain ⟨token, unsynced, state⟩ := inv.inLoop (by simp [call]) (by simp [call])
  have syncing := state.resolve_right arrives.fresh
  have done := processed_waitForSync env open_ arrives.proper
  have sent := done.sentInv inv.sent open_ arrives.caused
  refine ⟨[q], Or.inr ⟨q, rfl, rfl⟩, rfl, done.grows id, ?_⟩
  unfold SimOpenParty.attempt
  dsimp only
  rw [Option.map_some]
  generalize simultaneousOpenWaitForSync env _ p.session = waited at done sent ⊢
  by_cases established : waited.left.state = .established
  · refine ⟨?_, ?_, ?_, ?_⟩
    · simpa [done.ret, established] using sent
    · simp [done.ret, established]
    · simp [done.ret, established]
    · intro _
      have cause : caused :=
        arrives.caused ((done.established established).resolve_left (by simp [syncing]))
      have heard_none : TokenInv start.token peer heard p.session.syncToken :=
        ⟨fun _ => token, fun h => absurd h unsynced⟩
      simpa [done.ret, established] using And.intro cause (done.tokenInv heard_none arrives.sync)
  · obtain ⟨other, after⟩ := done.syncing syncing established
    have unsynced' : ¬ Synced (heard ++ [q]) := by
      rw [synced_append, synced_singleton]
      exact not_or.2 ⟨unsynced, other⟩
    have after' : waited.left.state = .syncing ∨ Closed (heard ++ [q]) :=
      after.imp_right fun close => closed_append.2 (Or.inr (closed_singleton.2 close))
    by_cases last : left = 0
    · refine ⟨?_, ?_, ?_, ?_⟩
      · simp only [last, established, and_false, not_false_eq_true, and_self, if_true]
        exact sent.socket fun _ => cleanup_socketFd _
      · simp [last]
      · simp [last]
      · simp [last, established, simultaneousOpenCleanup]
    · refine ⟨?_, ?_, ?_, ?_⟩
      · simpa [last] using sent
      · simp [last, established]
      · rw [if_neg (by simp [last]), if_neg (by simp [last, established]), done.kept other]
        exact Or.inr (Or.inr ⟨token, unsynced', after'⟩)
      · simp [last, established]

theorem SimOpenParty.Inv.again {left : ℕ} (inv : p.Inv start peer heard caused)
    (call : p.call = .pausing left) :
    p.Moves start peer heard caused next ((SimOpenMove.again env).Syncs start p)
      (p.again start env left) := by
  obtain ⟨token, unsynced, syncing⟩ := inv.inLoop (by simp [call]) (by simp [call])
  obtain ⟨state, same, fd, sent⟩ := retry_spec start.initiator env p.session
  refine moves ?_ rfl ⟨_, rfl, sent.synced_iff.trans (by simp [SimOpenMove.Syncs, call])⟩
  unfold SimOpenParty.again
  dsimp only
  refine ⟨?_, ?_, ?_, ?_⟩
  · rw [fd]
    exact sent.sentInv inv.sent (fun ok => ok.2.1) id (fun _ _ => token) (by decide) (by simp)
  · simp
  · rw [same, state]
    exact Or.inr (Or.inr ⟨token, unsynced, syncing⟩)
  · rw [same, state]
    exact inv.established

theorem SimOpenParty.Inv.recv {maxLen : ℕ} {packet : Option SimPacket} (inv : p.Inv start peer heard caused)
    (ended : Bool) (env : SimOpenEnv) (call : p.call = .returned) (room : maxLen ≠ 0)
    (established : p.session.state = .established)
    (arrives : ∀ q ∈ packet, Arrives peer heard caused q ∧ 0 ≤ p.session.socketFd) :
    p.Moves start peer heard caused packet False (p.recv env maxLen packet ended) := by
  obtain ⟨cause, token⟩ := inv.established established
  obtain ⟨done, received, found⟩ := recv_cases env ended room established
    fun q hq => (arrives q hq).1.proper
  unfold SimOpenParty.recv
  dsimp only
  rw [received]
  obtain ⟨rfl, sent, left⟩ | ⟨q, rfl, processed⟩ := found
  · refine moves ?_ rfl ⟨_, rfl, iff_of_false (by simp [sent, not_synced_nil]) id⟩
    dsimp only
    rw [sent, List.append_nil]
    obtain left | left := left <;> rw [left]
    · exact inv
    · exact ⟨inv.sent, by simp [call], Or.inr (Or.inl call), by simp⟩
  · obtain ⟨arrives, open_⟩ := arrives q rfl
    refine ⟨[q], Or.inr ⟨q, rfl, rfl⟩, rfl, processed.grows id, ?_, ?_, ?_, ?_⟩
    · exact processed.sentInv inv.sent open_ arrives.caused
    · simp [call]
    · exact Or.inr (Or.inl call)
    · exact fun _ => ⟨cause, processed.tokenInv token arrives.sync⟩

theorem SimOpenParty.Inv.close (inv : p.Inv start peer heard caused) (call : p.call = .returned) :
    p.Moves start peer heard caused next False (p.close env) := by
  obtain ⟨state, fd, sent⟩ := close_spec env p.session
  refine moves ?_ rfl ⟨_, rfl, sent.synced_iff.trans (by simp)⟩
  unfold SimOpenParty.close
  dsimp only
  refine ⟨?_, ?_, ?_, ?_⟩
  · exact sent.sentInv inv.sent And.left (fun _ => fd) (by simp) (by decide) (fun _ _ => fd)
  · simp [call]
  · exact Or.inr (Or.inl call)
  · simp [state]

theorem SimOpenMove.call_of_syncs {m : SimOpenMove} (h : m.Syncs start p) :
    p.call = .idle ∧ m = .begin ∨ ∃ left env, p.call = .pausing left ∧ m = .again env := by
  cases m with
  | begin => exact Or.inl ⟨h.1, rfl⟩
  | again env =>
    obtain ⟨⟨left, call⟩, -⟩ := h
    exact Or.inr ⟨left, env, call, rfl⟩
  | _ => exact absurd h id

/-- By cases on the call and the step. -/
theorem SimOpenParty.Inv.move (inv : p.Inv start peer heard caused)
    (arrives : ∀ q ∈ next, Arrives peer heard caused q ∧ 0 ≤ p.session.socketFd) (m : SimOpenMove) :
    p.Moves start peer heard caused next (m.Syncs start p) (p.move start next m) := by
  have stays {syncs : Prop} (silent : ¬ syncs) : p.Moves start peer heard caused next syncs p :=
    inv.moves rfl (grows_refl silent)
  unfold SimOpenParty.move
  split
  · exact inv.begin ‹_›
  · rename_i left env arrived call
    cases next with
    | none =>
      rw [ite_self]
      exact inv.attempt_none call
    | some q =>
      cases arrived with
      | false => exact inv.attempt_none call
      | true => exact inv.attempt_some call (arrives q rfl).1 (arrives q rfl).2
  · exact inv.again ‹_›
  · rename_i env maxLen arrived ended call
    split_ifs with refused arrived
    · exact stays id
    · rw [not_or, not_not] at refused
      exact inv.recv ended env call refused.1 refused.2 arrives
    · rw [not_or, not_not] at refused
      have none_arrives : ∀ q ∈ (none : Option SimPacket),
          Arrives peer heard caused q ∧ 0 ≤ p.session.socketFd := by simp
      obtain ⟨read, nothing, moved⟩ :=
        inv.recv ended env call refused.1 refused.2 none_arrives
      exact ⟨read, Or.inl (nothing.resolve_right (by simp)), moved⟩
  · exact inv.close ‹_›
  · rename_i not_begin not_attempt not_again not_recv not_close
    refine stays fun syncs => ?_
    obtain ⟨call, same⟩ | ⟨left, env, call, same⟩ := SimOpenMove.call_of_syncs syncs
    · exact not_begin call same
    · exact not_again left env call same

theorem SimOpenParty.Inv.mono {caused' : Prop} (inv : p.Inv start peer heard caused)
    (h : caused → caused') : p.Inv start peer heard caused' :=
  { inv with
    sent := { inv.sent with answers := fun q hq answer => h (inv.sent.answers q hq answer) }
    established := fun established => (inv.established established).imp_left h }

end Step

end Orcashi
