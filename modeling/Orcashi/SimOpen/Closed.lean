import Orcashi.Lib.History
import Orcashi.SimOpen.Session

/-!
# Closed sessions of simultaneous open

A session that is closed, by a CLOSE or by the end of the stream, should stay closed whatever it
receives.  A SYNC and a SYNC_CONFIRM establish a session only if it is synchronising; a SYNC_ACK with
the token of the session does so in every state.
-/

namespace Orcashi

open History

/-! ## Events -/

/-- What happens to a session once it synchronises. -/
inductive SimEvent where
  | packet (env : SimOpenEnv) (packet : SimPacket) (len : ℕ)
  | wait (env : SimOpenEnv) (read : Option SimRead)
  | recv (env : SimOpenEnv) (read : SimRead) (stale : Bytes) (maxLen : ℕ)
  | send (env : SimOpenEnv) (type : SimPacketType) (payload : Bytes)

/-- The session after an event; none once a copy has left `recv_buffer`. -/
def simStep (state : Option SimOpenSession) (e : SimEvent) : Option SimOpenSession :=
  state.bind fun s =>
    match e with
    | .packet env packet len => some (simultaneousOpenProcessPacket env packet len s).left
    | .wait env read => some (simultaneousOpenWaitForSync env read s).left
    | .recv env read stale maxLen =>
      (simultaneousOpenRecv env read stale maxLen s).map SimOpenReceived.left
    | .send env type payload => some (simultaneousOpenSendPacket env type payload s).left

/-- The packet that comes to `simultaneous_open_process_packet`; `simultaneous_open_recv` gives it one
only where the session is established. -/
def SimEvent.handled (s : SimOpenSession) : SimEvent → Option (SimPacket × ℕ)
  | .packet _ p len => some (p, len)
  | .wait _ (some (.bytes b)) =>
    if 0 ≤ s.socketFd ∧ simPacketSize ≤ b.length then some (.ofBuffer b, b.length) else none
  | _ => none

/-- A SYNC_ACK with the token of the session. -/
structure AcksToken (packet : SimPacket) (len : ℕ) (s : SimOpenSession) : Prop where
  header : simPacketSize ≤ len
  magic : packet.magic = simMagic
  version : packet.version = simProtocolVersion
  type : SimPacketType.ofCode packet.type = some .syncAck
  token : s.syncToken = packet.syncToken

/-- A SYNC_ACK with the token of the session comes while it neither synchronises nor is established. -/
def SimEvent.Replays (e : SimEvent) (s : SimOpenSession) : Prop :=
  s.state ≠ .syncing ∧ s.state ≠ .established ∧
    ∃ packet len, e.handled s = some (packet, len) ∧ AcksToken packet len s

/-- No event of a run replays a SYNC_ACK. -/
def NoReplay (state : Option SimOpenSession) (e : SimEvent) : Prop :=
  ∀ s, state = some s → ¬ e.Replays s

/-- A session becomes established only where it synchronises, no event makes it synchronise, and once
idle it is not established again. -/
structure StaysClosed (start : SimOpenSession) (events : List SimEvent) : Prop where
  entered : ∀ before e after s s', events = before ++ e :: after →
    run simStep (some start) before = some s → simStep (some s) e = some s' →
      s'.state = .established → s.state = .syncing ∨ s.state = .established
  syncing : ∀ before e after s s', events = before ++ e :: after →
    run simStep (some start) before = some s → simStep (some s) e = some s' →
      s'.state = .syncing → s.state = .syncing
  closed : ∀ before between after s s', events = before ++ (between ++ after) →
    run simStep (some start) before = some s → s.state = .idle →
      run simStep (some s) between = some s' → s'.state ≠ .established

/-! ## Steps -/

section Step

variable {env : SimOpenEnv} {packet : SimPacket} {len : ℕ} {s s' : SimOpenSession} {e : SimEvent}

theorem establish_state (s : SimOpenSession) :
    s.establish.state = if s.state = .syncing then .established else s.state := by
  unfold SimOpenSession.establish
  split_ifs <;> rfl

/-- The state that a packet leaves. -/
theorem processPacket_state (env : SimOpenEnv) (packet : SimPacket) (len : ℕ) (s : SimOpenSession) :
    let r := (simultaneousOpenProcessPacket env packet len s).left.state
    r = s.state ∨ r = .idle ∨ r = .established ∧ (s.state = .syncing ∨ AcksToken packet len s) := by
  have establish {s' : SimOpenSession} (same : s'.state = s.state) :
      s'.establish.state = s.state ∨ s'.establish.state = .established ∧ s.state = .syncing := by
    rw [establish_state, same]
    split_ifs with syncing
    · exact Or.inr ⟨rfl, syncing⟩
    · exact Or.inl rfl
  unfold simultaneousOpenProcessPacket
  split_ifs with short magic version
  · exact Or.inl rfl
  · exact Or.inl rfl
  · exact Or.inl rfl
  · dsimp only
    cases type : SimPacketType.ofCode packet.type with
    | none => exact Or.inl rfl
    | some t =>
      cases t with
      | sync =>
        exact (establish (by rw [simultaneousOpenSendPacket_state])).imp_right fun h =>
          Or.inr ⟨h.1, Or.inl h.2⟩
      | syncAck =>
        dsimp only
        split_ifs with token
        · exact Or.inr (Or.inr ⟨rfl, Or.inr
            ⟨Nat.le_of_not_lt short, not_not.1 magic, not_not.1 version, type, token⟩⟩)
        · exact Or.inl rfl
      | syncConfirm =>
        have := @establish { s with lastActivity := env.now } rfl
        exact this.imp_right fun h => Or.inr ⟨h.1, Or.inl h.2⟩
      | close => exact Or.inr (Or.inl rfl)
      | data => exact Or.inl rfl
      | keepalive => exact Or.inl rfl

/-- A SYNC_ACK with the token establishes a session in whatever state. -/
theorem processPacket_acks (h : AcksToken packet len s) :
    (simultaneousOpenProcessPacket env packet len s).left.state = .established := by
  unfold simultaneousOpenProcessPacket
  rw [if_neg (Nat.not_lt.2 h.header), if_neg (not_not.2 h.magic), if_neg (not_not.2 h.version)]
  dsimp only
  rw [h.type]
  dsimp only
  rw [if_pos h.token]

/-- What an event does: it gives a packet to `simultaneous_open_process_packet`, or it leaves the state
or makes the session idle, or it is a call of `simultaneous_open_recv` on an established session. -/
theorem simStep_cases (h : simStep (some s) e = some s') :
    (∃ env packet len, e.handled s = some (packet, len) ∧
      s' = (simultaneousOpenProcessPacket env packet len s).left) ∨
      e.handled s = none ∧ (s'.state = s.state ∨ s'.state = .idle ∨
        s.state = .established ∧ s'.state ≠ .syncing) := by
  cases e with
  | packet env packet len =>
    cases h
    exact Or.inl ⟨env, packet, len, rfl, rfl⟩
  | wait env read =>
    cases h
    unfold simultaneousOpenWaitForSync
    cases read with
    | none =>
      refine Or.inr ⟨rfl, Or.inl ?_⟩
      split_ifs <;> rfl
    | some read =>
      cases read with
      | failed again =>
        refine Or.inr ⟨rfl, Or.inl ?_⟩
        split_ifs <;> rfl
      | bytes b =>
        dsimp only
        by_cases closed : s.socketFd < 0
        · rw [if_pos closed]
          exact Or.inr ⟨if_neg fun h => absurd h.1 (Int.not_le.2 closed), Or.inl rfl⟩
        · rw [if_neg closed]
          by_cases header : simPacketSize ≤ b.length
          · rw [if_pos header]
            exact Or.inl ⟨env, _, _, if_pos ⟨Int.not_lt.1 closed, header⟩, rfl⟩
          · rw [if_neg header]
            exact Or.inr ⟨if_neg fun h => header h.2, Or.inl rfl⟩
  | recv env read stale maxLen =>
    refine Or.inr ⟨rfl, ?_⟩
    obtain ⟨r, received, rfl⟩ := Option.map_eq_some_iff.1 h
    unfold simultaneousOpenRecv at received
    split_ifs at received with room established
    · cases received
      exact Or.inl rfl
    · cases received
      exact Or.inl rfl
    · have established := not_not.1 established
      cases read with
      | failed again =>
        cases received
        exact Or.inl rfl
      | bytes b =>
        have left : (simultaneousOpenProcessPacket env (.ofBuffer (b ++ stale)) b.length s).left.state ≠
            .syncing := by
          rcases processPacket_state env (.ofBuffer (b ++ stale)) b.length s with same | idle | ⟨entered, -⟩
          · rw [same, established]
            decide
          · rw [idle]
            decide
          · rw [entered]
            decide
        dsimp only at received
        split_ifs at received
        · cases received
          exact Or.inr (Or.inl rfl)
        · cases received
          exact Or.inl rfl
        · cases received
          exact Or.inl rfl
        · cases received
          exact Or.inl rfl
        all_goals
          cases received
          exact Or.inr (Or.inr ⟨established, left⟩)
  | send env type payload =>
    cases h
    exact Or.inr ⟨rfl, Or.inl (by rw [simultaneousOpenSendPacket_state])⟩

/-- An event makes a session that does not synchronise established exactly if it replays a SYNC_ACK. -/
theorem simStep_established_iff (h : simStep (some s) e = some s') (syncing : s.state ≠ .syncing)
    (established : s.state ≠ .established) : s'.state = .established ↔ e.Replays s := by
  rcases simStep_cases h with ⟨env, packet, len, handled, rfl⟩ | ⟨handled, same | idle | ⟨was, -⟩⟩
  · constructor
    · intro entered
      rcases processPacket_state env packet len s with same | idle | ⟨-, was | acks⟩
      · exact absurd (same.symm.trans entered) established
      · cases entered.symm.trans idle
      · exact absurd was syncing
      · exact ⟨syncing, established, packet, len, handled, acks⟩
    · rintro ⟨-, -, p, n, handled', acks⟩
      cases handled.symm.trans handled'
      exact processPacket_acks acks
  · refine iff_of_false (by rwa [same]) ?_
    rintro ⟨-, -, p, n, handled', -⟩
    cases handled.symm.trans handled'
  · refine iff_of_false (by rw [idle]; decide) ?_
    rintro ⟨-, -, p, n, handled', -⟩
    cases handled.symm.trans handled'
  · exact absurd was established

/-- No event makes a session synchronise. -/
theorem simStep_syncing (h : simStep (some s) e = some s') (syncing : s'.state = .syncing) :
    s.state = .syncing := by
  rcases simStep_cases h with ⟨env, packet, len, -, rfl⟩ | ⟨-, same | idle | ⟨-, other⟩⟩
  · rcases processPacket_state env packet len s with same | idle | ⟨entered, -⟩
    · exact same.symm.trans syncing
    · cases syncing.symm.trans idle
    · cases syncing.symm.trans entered
  · exact same.symm.trans syncing
  · cases syncing.symm.trans idle
  · exact absurd syncing other

end Step

/-! ## Runs -/

/-- The session neither synchronises nor is established. -/
def SimClosed (state : Option SimOpenSession) : Prop :=
  ∀ s, state = some s → s.state ≠ .syncing ∧ s.state ≠ .established

theorem simClosed_step {state : Option SimOpenSession} {e : SimEvent} (closed : SimClosed state)
    (fresh : NoReplay state e) : SimClosed (simStep state e) := by
  intro s' after
  obtain ⟨s, rfl, step⟩ := Option.bind_eq_some_iff.1 after
  obtain ⟨syncing, established⟩ := closed s rfl
  exact ⟨fun h => syncing (simStep_syncing step h), fun h =>
    fresh s rfl ((simStep_established_iff step syncing established).1 h)⟩

/-- A session stays closed exactly if no event replays a SYNC_ACK. -/
theorem stays_closed_iff (start : SimOpenSession) (events : List SimEvent) :
    StaysClosed start events ↔ Meets simStep NoReplay (some start) events := by
  rw [meets_iff_forall]
  constructor
  · rintro ⟨entered, -, -⟩ before e after split s state ⟨syncing, established, packet, len, handled, acks⟩
    obtain ⟨s', step⟩ : ∃ s', simStep (some s) e = some s' := by
      cases e with
      | packet => exact ⟨_, rfl⟩
      | wait => exact ⟨_, rfl⟩
      | recv => cases handled
      | send => cases handled
    have now := (simStep_established_iff step syncing established).2
      ⟨syncing, established, packet, len, handled, acks⟩
    rcases entered before e after s s' split state step now with was | was
    · exact syncing was
    · exact established was
  · intro fresh
    refine ⟨?_, ?_, ?_⟩
    · intro before e after s s' split state step now
      by_contra h
      rw [not_or] at h
      exact fresh before e after split s state ((simStep_established_iff step h.1 h.2).1 now)
    · intro before e after s s' _ _ step now
      exact simStep_syncing step now
    · intro before between after s s' split state idle step now
      have meets : Meets simStep NoReplay (some s) between := by
        rw [meets_iff_forall]
        intro b e a split'
        have joined : run simStep (some start) (before ++ b) = run simStep (some s) b := by
          rw [run_append]
          exact congrArg (fun state => run simStep state b) state
        rw [← joined]
        exact fresh (before ++ b) e (a ++ after) (by rw [split, split']; simp)
      have closed : SimClosed (some s) := by
        rintro s ⟨⟩
        rw [idle]
        decide
      exact (run_invariant SimClosed (fun _ _ => simClosed_step) closed meets s' step).2 now

/-- A session that synchronises and reads a CLOSE and then a SYNC_ACK with its token. -/
def closedThenAcked : List SimEvent :=
  let env : SimOpenEnv := ⟨0, true⟩
  let s : SimOpenSession := { SimOpenSession.init .empty 9000 with syncToken := 5 }
  [.wait env (some (.bytes (SimPacket.make env s .close []).toBytes)),
    .wait env (some (.bytes (SimPacket.make env s .syncAck []).toBytes))]

set_option maxRecDepth 8000 in
/-- The session is established by the SYNC_ACK after it was closed. -/
theorem closed_session_reopens : ¬ StaysClosed
    { SimOpenSession.init .empty 9000 with socketFd := 3, state := .syncing, syncToken := 5 }
    closedThenAcked := by
  intro stays
  let closed : SimOpenSession :=
    { SimOpenSession.init .empty 9000 with socketFd := 3, state := .idle, syncToken := 5 }
  have now := stays.closed (closedThenAcked.take 1) (closedThenAcked.drop 1) [] closed
    { closed with state := .established } (by rw [List.append_nil, List.take_append_drop]) (by decide) rfl
    (by decide)
  exact now rfl

end Orcashi
