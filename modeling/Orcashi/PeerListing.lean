import Orcashi.DaemonCommand
import Orcashi.Lib.Stdio

/-!
# The listing of the peers

`daemon_cmd_peers` prints a header and a line for each of the first 128 peers into 4096 bytes.  It advances
by what a line would have taken, so that behind the first line that is cut it points past the end of the
buffer.
-/

namespace Orcashi

open CMemory Stdio

/-! ## The text and the offset -/

/-- The first line of a listing. -/
def listingHeader (d : Daemon) : CString :=
  ascii "PEERS (" ++ decimal (stateGetPeers 128 d.sm).length ++ ascii "):\n"

/-- The lines of some peers. -/
def peerLines (peers : List Peer) : CString := (peers.map peerLine).flatten

/-- The values of `pos`, before the first line and after each line. -/
def listingOffsets (d : Daemon) : List ℕ :=
  if stateGetPeers 128 d.sm = [] then []
  else
    ((stateGetPeers 128 d.sm).map peerLine).scanl (fun pos line => pos + line.length)
      (listingHeader d).length

/-- The offset stays within the buffer, and the reply has the lines of a part of the table, from its
start. -/
structure ListsPeers (d : Daemon) : Prop where
  inside : ∀ pos ∈ listingOffsets d, pos ≤ listingSize
  reply : ∃ r n, daemonCmdPeers d = some r ∧
    r.response = if stateGetPeers 128 d.sm = [] then ascii "No peers\n"
      else listingHeader d ++ peerLines (d.sm.peers.take n)

/-! ## The loop -/

theorem stateGetPeers_eq (sm : StateManager) : stateGetPeers 128 sm = sm.peers.take 128 := by
  unfold stateGetPeers
  rw [if_neg (by decide), collect_eq, List.filter_true]
  rfl

/-- What is printed while the text fits, but for the terminator. -/
theorem peersLoop_eq (buffer : CString) {pos : ℕ} {lines : List CString}
    (fits : pos + lines.flatten.length ≤ listingSize) :
    peersLoop buffer pos lines = some (buffer ++ lines.flatten.take (listingSize - 1 - pos)) := by
  induction lines generalizing buffer pos with
  | nil => rw [peersLoop, List.flatten_nil, List.take_nil, List.append_nil]
  | cons line lines ih =>
    rw [List.flatten_cons, List.length_append] at fits
    have room : listingSize - pos - 1 = listingSize - 1 - pos := by omega
    have rest : listingSize - 1 - (pos + line.length) = listingSize - 1 - pos - line.length := by omega
    rw [peersLoop, if_neg (by omega), ih _ (by omega), List.flatten_cons, List.take_append, cut, room, rest,
      List.append_assoc]

/-- Some offset is past the end exactly if the last one is. -/
theorem offsets_le_iff (pos bound : ℕ) (lines : List CString) :
    (∀ p ∈ lines.scanl (fun pos line => pos + line.length) pos, p ≤ bound) ↔
      pos + lines.flatten.length ≤ bound := by
  induction lines generalizing pos with
  | nil => simp
  | cons line lines ih =>
    rw [List.scanl_cons, List.forall_mem_cons, ih, List.flatten_cons, List.length_append]
    omega

/-! ## Lines -/

/-- The character before the newline of a line is none. -/
theorem peerLine_eq (p : Peer) : ∃ front c, peerLine p = front ++ [c] ++ [10] ∧ c ≠ 10 := by
  have ne : 58 :: decimal p.port ≠ [] := List.cons_ne_nil _ _
  have last := List.getLast_mem ne
  have split := List.dropLast_append_getLast ne
  generalize (58 :: decimal p.port).getLast ne = c at last split
  refine ⟨ascii "  " ++ p.id ++ ascii " | " ++ stateToString p.state ++ ascii " | " ++ p.ip ++
    (58 :: decimal p.port).dropLast, c, ?_, ?_⟩
  · rw [List.append_assoc _ _ [c], split]
    rfl
  · rintro rfl
    rcases List.mem_cons.1 last with colon | digit
    · cases colon
    · rcases mem_decimal digit with minus | number
      · cases minus
      · cases number

/-- What some lines come to is nothing or ends with a newline. -/
theorem peerLines_cases (peers : List Peer) : peerLines peers = [] ∨ ∃ t, peerLines peers = t ++ [10] := by
  obtain rfl | ⟨init, p, rfl⟩ := List.eq_nil_or_concat peers
  · exact Or.inl rfl
  · obtain ⟨front, c, line, -⟩ := peerLine_eq p
    refine Or.inr ⟨peerLines init ++ (front ++ [c]), ?_⟩
    unfold peerLines
    rw [List.concat_eq_append, List.map_append, List.flatten_append, List.map_singleton,
      List.flatten_singleton, line, ← List.append_assoc]

/-- Without the last newline, lines are no lines. -/
theorem peerLines_of_ne {peers : List Peer} (ne : peers ≠ []) :
    ∃ t, peerLines peers = t ++ [10] ∧ ∀ others, t ≠ peerLines others := by
  obtain ⟨init, p, rfl⟩ := (List.eq_nil_or_concat peers).resolve_left ne
  obtain ⟨front, c, line, notNewline⟩ := peerLine_eq p
  refine ⟨peerLines init ++ front ++ [c], ?_, fun others => ?_⟩
  · unfold peerLines
    rw [List.concat_eq_append, List.map_append, List.flatten_append, List.map_singleton,
      List.flatten_singleton, line, ← List.append_assoc, ← List.append_assoc]
  · rcases peerLines_cases others with nothing | ⟨t, newline⟩
    · rw [nothing]
      simp
    · rw [newline]
      intro same
      exact notNewline (List.singleton_inj.1 (List.append_inj' same rfl).2)

/-! ## Which tables are listed -/

/-- A table is listed exactly if its header and its first 128 lines have at most 4095 characters. -/
theorem lists_peers_iff (d : Daemon) : ListsPeers d ↔
    (stateGetPeers 128 d.sm = [] ∨
      (listingHeader d).length + (peerLines (d.sm.peers.take 128)).length < listingSize) := by
  have taken := stateGetPeers_eq d.sm
  by_cases empty : stateGetPeers 128 d.sm = []
  · refine iff_of_true ⟨?_, d.answer 0 (ascii "No peers\n"), 0, ?_, ?_⟩ (Or.inl empty)
    · unfold listingOffsets
      rw [if_pos empty]
      intro pos mem
      cases mem
    · unfold daemonCmdPeers
      exact if_pos empty
    · rw [if_pos empty]
      rfl
  rw [or_iff_right empty]
  have offsets : (∀ pos ∈ listingOffsets d, pos ≤ listingSize) ↔
      (listingHeader d).length + (peerLines (d.sm.peers.take 128)).length ≤ listingSize := by
    unfold listingOffsets peerLines
    rw [if_neg empty, offsets_le_iff, taken]
  have listed (fits : (listingHeader d).length + (peerLines (d.sm.peers.take 128)).length ≤ listingSize) :
      daemonCmdPeers d = some (d.answer 0 (listingHeader d ++ (peerLines (d.sm.peers.take 128)).take
        (listingSize - 1 - (listingHeader d).length))) := by
    have printed := @peersLoop_eq (listingHeader d) _ ((d.sm.peers.take 128).map peerLine) fits
    unfold daemonCmdPeers
    dsimp only
    rw [if_neg empty]
    unfold listingHeader at printed ⊢
    rw [taken] at printed ⊢
    rw [printed]
    rfl
  have response (fits : (listingHeader d).length + (peerLines (d.sm.peers.take 128)).length ≤ listingSize) :
      cut responseSize (listingHeader d ++ (peerLines (d.sm.peers.take 128)).take
        (listingSize - 1 - (listingHeader d).length)) = listingHeader d ++
          (peerLines (d.sm.peers.take 128)).take (listingSize - 1 - (listingHeader d).length) := by
    refine List.take_of_length_le ?_
    rw [List.length_append, List.length_take]
    unfold listingSize responseSize at *
    omega
  constructor
  · rintro ⟨inside, r, n, ran, lines⟩
    have fits := offsets.1 inside
    rw [listed fits] at ran
    obtain rfl := Option.some.inj ran
    rw [if_neg empty] at lines
    have same := List.append_cancel_left ((response fits).symm.trans lines)
    by_contra full
    rw [taken] at empty
    obtain ⟨t, newline, noLines⟩ := peerLines_of_ne empty
    rw [newline] at fits full same
    rw [List.length_append, List.length_singleton] at fits full
    rw [List.take_append_of_le_length (by omega), List.take_of_length_le (by omega)] at same
    exact noLines _ same
  · intro fits
    refine ⟨offsets.2 (Nat.le_of_lt fits), _, 128, listed (Nat.le_of_lt fits), ?_⟩
    rw [if_neg empty]
    refine (response (Nat.le_of_lt fits)).trans ?_
    rw [List.take_of_length_le (by omega)]

/-- Friends with ids of 63 characters. -/
def friendsWithLongIds (n : ℕ) : List Peer :=
  (List.range n).map fun i =>
    { Peer.zero with
      id := List.replicate 61 97 ++ [(48 + i / 10).toUInt8, (48 + i % 10).toUInt8]
      state := .friend
      ip := ascii "203.0.113.250"
      port := 65535 }

/-- A daemon that has started, with these peers. -/
def daemonOfPeers (peers : List Peer) : Daemon where
  node := { Node.init with shared := { Shared.init with sm := { StateManager.init with peers := peers } } }
  dht := false
  dhtConnected := false
  p2pReady := false
  startTime := 0
  running := true
  announced := -1

/-- With 50 such friends the last lines are printed with a huge size, behind the buffer. -/
theorem fifty_friends_not_listed : ¬ ListsPeers (daemonOfPeers (friendsWithLongIds 50)) ∧
    daemonCmdPeers (daemonOfPeers (friendsWithLongIds 50)) = none := by
  have outside : daemonCmdPeers (daemonOfPeers (friendsWithLongIds 50)) = none := by decide +kernel
  refine ⟨?_, outside⟩
  rintro ⟨-, r, n, ran, -⟩
  rw [outside] at ran
  cases ran

end Orcashi
