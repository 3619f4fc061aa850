import Orcashi.Lib.Stdio
import Orcashi.StateManager

/-!
# The state file

`state_save` writes the peer table as text, a field on each line, and `state_load` reads such a file
line by line: a line with an opening brace starts a record, a line with a closing brace ends it, and
on the lines between every field is looked for by its name.  Nothing is escaped.
-/

namespace Orcashi

open CMemory Stdio

/-! ## Fields -/

/-- The integer behind a `PeerState`. -/
def PeerState.code : PeerState → ℤ
  | unknown => 0
  | requestSent => 1
  | requestReceived => 2
  | friend => 3
  | online => 4
  | offline => 5
  | busy => 6
  | ghost => 7
  | other code => code

/-- The assignment of an integer to a `PeerState`. -/
def PeerState.ofCode (n : ℤ) : PeerState :=
  if n = 0 then unknown
  else if n = 1 then requestSent
  else if n = 2 then requestReceived
  else if n = 3 then friend
  else if n = 4 then online
  else if n = 5 then offline
  else if n = 6 then busy
  else if n = 7 then ghost
  else other n

theorem PeerState.code_ofCode (n : ℤ) : (ofCode n).code = n := by
  unfold ofCode
  split_ifs <;> simp only [code] <;> omega

/-- The fields of a record, in the order in which they are written and looked for. -/
inductive Field where
  | id
  | state
  | online
  | busy
  | ip
  | port
  | lastSeen
  | createdAt
  | friendSince
  | pendingMessages
  | ghostCount
  deriving DecidableEq

namespace Field

/-- The fields in the order of the file. -/
def all : List Field :=
  [id, state, online, busy, ip, port, lastSeen, createdAt, friendSince, pendingMessages, ghostCount]

/-- The name of a field in the file. -/
def label : Field → CString
  | id => ascii "id"
  | state => ascii "state"
  | online => ascii "online"
  | busy => ascii "busy"
  | ip => ascii "ip"
  | port => ascii "port"
  | lastSeen => ascii "last_seen"
  | createdAt => ascii "created_at"
  | friendSince => ascii "friend_since"
  | pendingMessages => ascii "pending_messages"
  | ghostCount => ascii "ghost_count"

/-- `"%s"` with its quotes, `%d`, `%ld`, or the words of a flag. -/
def text (p : Peer) : Field → CString
  | id => 34 :: p.id ++ [34]
  | state => decimal p.state.code
  | online => if p.online then ascii "true" else ascii "false"
  | busy => if p.busy then ascii "true" else ascii "false"
  | ip => 34 :: p.ip ++ [34]
  | port => decimal p.port
  | lastSeen => decimal p.lastSeen
  | createdAt => decimal p.createdAt
  | friendSince => decimal p.friendSince
  | pendingMessages => decimal p.pendingMessages
  | ghostCount => decimal p.ghostCount

/-- The line of a field, without its newline; the last field has no comma. -/
def line (p : Peer) (f : Field) : CString :=
  ascii "      " ++ 34 :: f.label ++ 34 :: 58 :: 32 :: f.text p ++
    (if f = ghostCount then [] else [44])

/-- The format a field is looked for with, up to its conversion. -/
def format (f : Field) : CString :=
  32 :: 34 :: f.label ++ 34 :: 58 :: 32 :: (if f = id ∨ f = ip then [34] else [])

/-- The conversion of a field and the assignment that follows if it succeeds.  `strcpy` into
`peer.ip` is taken to fit. -/
def convert (rest : CString) (p : Peer) : Field → Peer
  | id => (scanSet 63 34 rest).elim p fun s => { p with id := s }
  | state => (scanInt rest).elim p fun n => { p with state := .ofCode n }
  | online => (scanInt rest).elim p fun n => { p with online := n ≠ 0 }
  | busy => (scanInt rest).elim p fun n => { p with busy := n ≠ 0 }
  | ip => (scanSet 63 34 rest).elim p fun s => { p with ip := s }
  | port => (scanInt rest).elim p fun n => { p with port := n }
  | lastSeen => (scanLong rest).elim p fun n => { p with lastSeen := n }
  | createdAt => (scanLong rest).elim p fun n => { p with createdAt := n }
  | friendSince => (scanLong rest).elim p fun n => { p with friendSince := n }
  | pendingMessages => (scanInt rest).elim p fun n => { p with pendingMessages := n }
  | ghostCount => (scanInt rest).elim p fun n => { p with ghostCount := n }

/-- `if (sscanf(line, ..) == 1) ..` for one field. -/
def read (line : CString) (p : Peer) (f : Field) : Peer :=
  (scanText f.format line).elim p fun rest => f.convert rest p

end Field

/-! ## Saving -/

/-- The lines of one record; the last one has no comma. -/
def savePeer (last : Bool) (p : Peer) : Bytes :=
  ascii "    \x7b\n" ++ (Field.all.flatMap fun f => f.line p ++ [10]) ++
    (if last then ascii "    \x7d\n" else ascii "    \x7d,\n")

/-- The text of all records. -/
def savePeers : List Peer → Bytes
  | [] => []
  | [p] => savePeer true p
  | p :: ps => savePeer false p ++ savePeers ps

/-- What `state_save` leaves in the file. -/
def stateSave (sm : StateManager) : Bytes :=
  ascii "\x7b\n" ++ ascii "  \"version\": 1,\n" ++ ascii "  \"peers\": [\n" ++ savePeers sm.peers ++
    ascii "  ]\n" ++ ascii "\x7d\n"

/-! ## Loading -/

/-- `sizeof(line)`. -/
def lineSize : ℕ := 4096

/-- `g_peers` and the variables of `state_load`. -/
structure LoadState where
  peers : List Peer
  peer : Peer
  inPeer : Bool

namespace LoadState

/-- Store the record that a line with a closing brace ends, if it has an id and there is room. -/
def push (st : LoadState) (peer : Peer) : List Peer :=
  if peer.id ≠ [] ∧ st.peers.length < maxPeers then st.peers ++ [peer] else st.peers

/-- The body of the loop over the lines. -/
def readLine (st : LoadState) (line : CString) : LoadState :=
  if line.length ≤ 1 then st
  else if 123 ∈ line then ⟨st.peers, Peer.zero, true⟩
  else if !st.inPeer then st
  else
    let peer := Field.all.foldl (Field.read line) st.peer
    if 125 ∈ line then ⟨st.push peer, Peer.zero, false⟩ else { st with peer := peer }

/-- The loop of `state_load` over the lines. -/
def readFile (st : LoadState) (file : Bytes) : LoadState :=
  ((fgets lineSize file).map fun line => strAt line 0).foldl readLine st

end LoadState

/-- `state_load`; without a file it does nothing. -/
def stateLoad (file : Option Bytes) (sm : StateManager) : ℤ × StateManager :=
  match file with
  | none => (0, sm)
  | some file =>
    let peers := (LoadState.readFile ⟨sm.peers, Peer.zero, false⟩ file).peers
    (peers.length,
      { sm with peers := peers, stale := sm.stale.drop (peers.length - sm.peers.length) })

/-- `state_init` in a new process. -/
def stateInit (file : Option Bytes) : StateManager := (stateLoad file StateManager.init).2

/-- `state_save`, and `state_init` in the next process. -/
def restart (sm : StateManager) : StateManager := stateInit (some (stateSave sm))

/-! ## What is looked for and what is there -/

namespace Field

theorem label_inj {f g : Field} (h : f.label = g.label) : f = g := by
  revert h
  cases f <;> cases g <;> decide

theorem label_clean (f : Field) : ∀ c ∈ f.label, c ≠ 34 ∧ isSpace c = false := by
  have clean : (f.label.all fun c => c != 34 && !isSpace c) = true := by
    cases f <;> rfl
  intro c hc
  simpa using List.all_eq_true.1 clean c hc

/-- The format of a field meets a line with the name of some field. -/
theorem scan_format {f : Field} {name v : CString} (hname : 34 ∉ name)
    (hv : ∀ c ∈ v.head?, isSpace c = false) :
    scanText f.format (ascii "      " ++ 34 :: (name ++ 34 :: 58 :: 32 :: v)) =
      if f.label = name then scanText (if f = id ∨ f = ip then [34] else []) v else none := by
  have indent : skipSpace (ascii "      " ++ 34 :: (name ++ 34 :: 58 :: 32 :: v)) =
      34 :: (name ++ 34 :: 58 :: 32 :: v) := rfl
  have value : skipSpace (32 :: v) = v := by
    show v.dropWhile isSpace = v
    cases v with
    | nil => rfl
    | cons c v => rw [List.dropWhile_cons_of_neg (by rw [hv c rfl]; exact Bool.false_ne_true)]
  unfold format
  rw [List.cons_append, List.cons_append, scanText_space rfl, indent, scanText_cons_self rfl,
    scanText_name rfl f.label_clean hname]
  refine if_congr Iff.rfl ?_ rfl
  rw [scanText_cons_self rfl, scanText_space rfl, value]

theorem line_eq (p : Peer) (g : Field) :
    g.line p ++ [10] = ascii "      " ++ 34 :: (g.label ++ 34 :: 58 :: 32 ::
      (g.text p ++ ((if g = ghostCount then [] else [44]) ++ [10]))) := by
  unfold line
  simp only [List.append_assoc, List.cons_append]

end Field

/-! ## Records that fit `struct Peer` -/

/-- The strings of a record fit their arrays, its numbers are values of `int` and `long`, and it has
an id. -/
structure Peer.Fits (p : Peer) : Prop where
  id_ne : p.id ≠ []
  id_lt : p.id.length < idSize
  id_str : 0 ∉ p.id
  ip_lt : p.ip.length < inetAddrStrLen
  ip_str : 0 ∉ p.ip
  state : IsInt p.state.code
  port : IsInt p.port
  lastSeen : IsLong p.lastSeen
  createdAt : IsLong p.createdAt
  friendSince : IsLong p.friendSince
  pendingMessages : IsInt p.pendingMessages
  ghostCount : IsInt p.ghostCount

namespace Field

/-- Quotes, signs, digits and the letters of the flags: what values are written with, apart from the
characters of an id or an ip. -/
def isValueByte (c : UInt8) : Bool := c == 34 || c == 45 || isDigit c || (97 ≤ c && c ≤ 122)

theorem isValueByte_decimal {n : ℤ} {c : UInt8} (h : c ∈ decimal n) : isValueByte c = true := by
  unfold isValueByte
  rcases mem_decimal h with rfl | h
  · rfl
  · rw [h, Bool.or_true, Bool.true_or]

theorem isValueByte_flag {b : Bool} {c : UInt8}
    (h : c ∈ if b then ascii "true" else ascii "false") : isValueByte c = true := by
  have letters : ((if b then ascii "true" else ascii "false").all isValueByte) = true := by
    cases b <;> rfl
  exact List.all_eq_true.1 letters c h

theorem mem_quoted {s : CString} {c : UInt8} (h : c ∈ 34 :: s ++ [34]) :
    c ∈ s ∨ isValueByte c = true := by
  rcases List.mem_append.1 h with h | h
  · rcases List.mem_cons.1 h with rfl | h
    · exact Or.inr rfl
    · exact Or.inl h
  · rw [List.mem_singleton.1 h]
    exact Or.inr rfl

theorem mem_text {p : Peer} {f : Field} {c : UInt8} (h : c ∈ f.text p) :
    (f = id ∧ c ∈ p.id) ∨ (f = ip ∧ c ∈ p.ip) ∨ isValueByte c = true := by
  cases f with
  | id =>
    rcases mem_quoted h with h | h
    · exact Or.inl ⟨rfl, h⟩
    · exact Or.inr (Or.inr h)
  | ip =>
    rcases mem_quoted h with h | h
    · exact Or.inr (Or.inl ⟨rfl, h⟩)
    · exact Or.inr (Or.inr h)
  | online | busy => exact Or.inr (Or.inr (isValueByte_flag h))
  | state | port | lastSeen | createdAt | friendSince | pendingMessages | ghostCount =>
    exact Or.inr (Or.inr (isValueByte_decimal h))

end Field

end Orcashi
