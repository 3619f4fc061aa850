import Orcashi.Dht.Id
import Orcashi.Lib.Sscanf

/-!
# Messages of the DHT

A message is a dictionary in bencoding.  The `send_*` functions write one piece by piece into an array.
`parse_message` looks for the keys it knows anywhere in the datagram, takes what stands behind the first
place where it finds one, and tells the kind of the message in the same way.
-/

namespace Orcashi

open CMemory Stdio

/-! ## Writing -/

/-- What the `send_*` functions are called with; `want` of 0 and less asks for nothing. -/
inductive DhtMessage where
  | ping (tid : Bytes)
  | pong (tid : Bytes)
  | findNode (tid : Bytes) (target : DhtId) (want : ℤ)
  | nodesPeers (tid nodes nodes6 token : Bytes) (values : Option (List Bytes))
  | getPeers (tid : Bytes) (infohash : DhtId) (want : ℤ)
  | announcePeer (tid : Bytes) (infohash : DhtId) (port : UInt16) (token : Bytes)
  | peerAnnounced (tid : Bytes)
  | error (tid : Bytes) (code : ℕ) (message : Bytes)
  deriving DecidableEq

/-- What is written at once: by `snprintf` and `INC`, or by `COPY`. -/
inductive Piece where
  | text (s : CString)
  | raw (b : Bytes)

/-- The bytes of a piece. -/
def Piece.bytes : Piece → Bytes
  | text s => s
  | raw b => b

/-- One piece more in an array of `size` bytes.  `snprintf` ends in a NUL, for which the last byte of a text
that just fits is given up. -/
def put (size : ℕ) (buf : Bytes) : Piece → Option Bytes
  | .text s =>
    if size < buf.length + s.length then none
    else if buf.length + s.length = size then some (buf ++ (s.dropLast ++ [0]))
    else some (buf ++ s)
  | .raw b => if size < buf.length + b.length then none else some (buf ++ b)

/-- A message in an array of a size, or none if it does not fit. -/
def assemble (size : ℕ) (pieces : List Piece) : Option Bytes := pieces.foldlM (put size) []

/-- `"%d:"` -/
def lengthText (n : ℕ) : CString := digits n ++ ascii ":"

/-- `"4:wantl%s%se"`, with `WANT4` in bit 0 and `WANT6` in bit 1. -/
def wantText (want : ℤ) : CString :=
  ascii "4:wantl" ++ ((if want.toNat.testBit 0 then ascii "2:n4" else []) ++
    ((if want.toNat.testBit 1 then ascii "2:n6" else []) ++ ascii "e"))

/-- What says which nodes are wanted. -/
def wantPieces (want : ℤ) : List Piece := if 0 < want then [.text (wantText want)] else []

/-- A text and the bytes whose length it ends with, if there are any. -/
def fieldPieces (key : CString) (b : Bytes) : List Piece :=
  if b = [] then [] else [.text (key ++ lengthText b.length), .raw b]

/-- `ADD_V`, where a version is set. -/
def versionPieces (v : Option Bytes) : List Piece := v.toList.map fun v => .raw (ascii "1:v4:" ++ v)

/-- The end of a message. -/
def tidPieces (before : CString) (tid : Bytes) (v : Option Bytes) (kind : CString) : List Piece :=
  [.text (before ++ ascii "1:t" ++ lengthText tid.length), .raw tid] ++ versionPieces v ++
    [.text (ascii "1:y1:" ++ kind ++ ascii "e")]

/-- The addresses of peers. -/
def valuePieces : Option (List Bytes) → List Piece
  | none => []
  | some values =>
    .text (ascii "6:valuesl") :: (values.flatMap fun b => [.text (lengthText b.length), .raw b]) ++
      [.text (ascii "e")]

/-- The beginning of a request. -/
def queryStart (myid : DhtId) : List Piece := [.text (ascii "d1:ad2:id20:"), .raw myid.val]

/-- The beginning of a reply. -/
def replyStart (myid : DhtId) : List Piece := [.text (ascii "d1:rd2:id20:"), .raw myid.val]

/-- The pieces of a message, in order. -/
def DhtMessage.pieces (myid : DhtId) (v : Option Bytes) : DhtMessage → List Piece
  | ping tid => queryStart myid ++ tidPieces (ascii "e1:q4:ping") tid v (ascii "q")
  | pong tid => replyStart myid ++ tidPieces (ascii "e") tid v (ascii "r")
  | findNode tid target want =>
    queryStart myid ++ [.text (ascii "6:target20:"), .raw target.val] ++ wantPieces want ++
      tidPieces (ascii "e1:q9:find_node") tid v (ascii "q")
  | nodesPeers tid nodes nodes6 token values =>
    replyStart myid ++ fieldPieces (ascii "5:nodes") nodes ++ fieldPieces (ascii "6:nodes6") nodes6 ++
      fieldPieces (ascii "5:token") token ++ valuePieces values ++ tidPieces (ascii "e") tid v (ascii "r")
  | getPeers tid infohash want =>
    queryStart myid ++ [.text (ascii "9:info_hash20:"), .raw infohash.val] ++ wantPieces want ++
      tidPieces (ascii "e1:q9:get_peers") tid v (ascii "q")
  | announcePeer tid infohash port token =>
    queryStart myid ++ [.text (ascii "9:info_hash20:"), .raw infohash.val,
      .text (ascii "4:porti" ++ (digits port.toNat ++ ascii "e5:token") ++ lengthText token.length),
      .raw token] ++ tidPieces (ascii "e1:q13:announce_peer") tid v (ascii "q")
  | peerAnnounced tid => replyStart myid ++ tidPieces (ascii "e") tid v (ascii "r")
  | error tid code message =>
    [.text (ascii "d1:eli" ++ (digits code ++ ascii "e") ++ lengthText message.length), .raw message] ++
      tidPieces (ascii "e") tid v (ascii "e")

/-- The arrays of the `send_*` functions. -/
def DhtMessage.size : DhtMessage → ℕ
  | nodesPeers .. => 2048
  | _ => 512

/-- The bytes of a message, if they fit. -/
def DhtMessage.encode (myid : DhtId) (v : Option Bytes) (m : DhtMessage) : Option Bytes :=
  assemble m.size (m.pieces myid v)

/-! ## Reading -/

/-- `struct parsed_message`, each array up to its length; what was not in the datagram is 0. -/
structure ParsedMessage where
  tid : Bytes
  id : DhtId
  infoHash : DhtId
  target : DhtId
  port : UInt16
  impliedPort : UInt16
  token : Bytes
  nodes : Bytes
  nodes6 : Bytes
  values : Bytes
  values6 : Bytes
  want : ℕ
  deriving DecidableEq

/-- A message after `memset`. -/
def ParsedMessage.zero : ParsedMessage where
  tid := []
  id := .zeroes
  infoHash := .zeroes
  target := .zeroes
  port := 0
  impliedPort := 0
  token := []
  nodes := []
  nodes6 := []
  values := []
  values6 := []
  want := 0

/-- What `parse_message` returns. -/
inductive MessageKind where
  | error
  | reply
  | ping
  | findNode
  | getPeers
  | announcePeer
  deriving DecidableEq

/-- Why a datagram is not read to its end: a byte outside the memory is read, or `overflow`. -/
inductive ParseStop where
  | outside
  | overflow
  deriving DecidableEq

/-- The position of the first `needle`. -/
def memmem (needle : Bytes) : Bytes → Option ℕ
  | [] => if needle = [] then some 0 else none
  | c :: s => if needle <+: c :: s then some 0 else (memmem needle s).map (· + 1)

/-- `l = strtol(mem + i, &q, 10)`: the number and the position of `q`, or 0 and `i` where there is no number.
The byte that ends the number is read. -/
def strtol (mem : Bytes) (i : ℕ) : Except ParseStop (ℤ × ℕ) :=
  let rest := afterLong (mem.drop i)
  if rest = [] then .error .outside
  else
    match scanLong (mem.drop i) with
    | none => .ok (0, i)
    | some l => .ok (l, mem.length - rest.length)

section Reading

/-! The memory is the datagram of `n` bytes and what is behind it. -/

variable (mem : Bytes) (n : ℕ)

/-- A key with a text of less than `limit` bytes behind it. -/
def readField (key : CString) (limit : ℕ) : Except ParseStop (Option Bytes) :=
  match memmem key (mem.take n) with
  | none => .ok none
  | some p => do
    let (l, q) ← strtol mem (p + key.length)
    if mem.getD q 0 = 58 ∧ 0 < l ∧ l < limit then
      if n < q + 1 + l.toNat then .error .overflow else .ok (some ((mem.drop (q + 1)).take l.toNat))
    else .ok none

/-- A key with 20 bytes behind it. -/
def readId (key : CString) : Except ParseStop (Option DhtId) :=
  match memmem key (mem.take n) with
  | none => .ok none
  | some p =>
    if n < p + key.length + 20 then .error .overflow
    else if h : ((mem.drop (p + key.length)).take 20).length = 20 then .ok (some ⟨_, h⟩)
    else .error .outside

/-- A key with a number of 16 bits behind it, which is not 0. -/
def readPort (key : CString) : Except ParseStop (Option UInt16) :=
  match memmem key (mem.take n) with
  | none => .ok none
  | some p => do
    let (l, q) ← strtol mem (p + key.length)
    if mem.getD q 0 = 101 ∧ 0 < l ∧ l < 65536 then .ok (some l.toNat.toUInt16) else .ok none

/-- The loop over the values, at position `i`, with those read so far; each iteration takes at least two
bytes. -/
def readValuesLoop : ℕ → ℕ → Bytes → Bytes → Except ParseStop (Bytes × Bytes)
  | 0, _, values, values6 => .ok (values, values6)
  | fuel + 1, i, values, values6 => do
    let (l, q) ← strtol mem i
    if mem.getD q 0 = 58 ∧ 0 < l then
      if n < q + 1 + l.toNat then .error .overflow
      else
        let value := (mem.drop (q + 1)).take l.toNat
        let next := readValuesLoop fuel (q + 1 + l.toNat)
        if l = 6 then
          if 2048 < values.length + 6 then next values values6 else next (values ++ value) values6
        else if l = 18 then
          if 2048 < values6.length + 18 then next values values6 else next values (values6 ++ value)
        else next values values6
    else .ok (values, values6)

/-- The addresses behind `6:valuesl`, those of IPv4 and of IPv6. -/
def readValues : Except ParseStop (Bytes × Bytes) :=
  match memmem (ascii "6:valuesl") (mem.take n) with
  | none => .ok ([], [])
  | some p => readValuesLoop mem n n (p + 9) [] []

/-- The loop over the flags of `want`. -/
def readWantLoop : ℕ → ℕ → ℕ → Except ParseStop ℕ
  | 0, _, want => .ok want
  | fuel + 1, i, want =>
    if mem.length ≤ i then .error .outside
    else if 48 < mem.getD i 0 ∧ mem.getD i 0 ≤ 57 then
      if mem.length ≤ i + 1 then .error .outside
      else
        let l := (mem.getD i 0).toNat - 48
        if mem.getD (i + 1) 0 = 58 ∧ i + 2 + l < n then
          let flag := (mem.drop (i + 2)).take 2
          readWantLoop fuel (i + 2 + l)
            (if l = 2 ∧ flag = ascii "n4" then want ||| 1
            else if l = 2 ∧ flag = ascii "n6" then want ||| 2
            else want)
        else .ok want
    else .ok want

/-- The flags behind `4:wantl`. -/
def readWant : Except ParseStop ℕ :=
  match memmem (ascii "4:wantl") (mem.take n) with
  | none => .ok 0
  | some p => readWantLoop mem n n (p + 7) 0

/-- The kind of a message, or none. -/
def readKind (datagram : Bytes) : Option MessageKind :=
  let has (text : String) : Bool := (memmem (ascii text) datagram).isSome
  if has "1:y1:r" then some .reply
  else if has "1:y1:e" then some .error
  else if !has "1:y1:q" then none
  else if has "1:q4:ping" then some .ping
  else if has "1:q9:find_node" then some .findNode
  else if has "1:q9:get_peers" then some .getPeers
  else if has "1:q13:announce_peer" then some .announcePeer
  else none

/-- `parse_message` on `mem` from its check of the terminator on, for `n` bytes received; a kind of none is
its result -1. -/
def parseMessage : Except ParseStop (Option MessageKind × ParsedMessage) := do
  let tid ← readField mem n (ascii "1:t") 16
  let id ← readId mem n (ascii "2:id20:")
  let infoHash ← readId mem n (ascii "9:info_hash20:")
  let port ← readPort mem n (ascii "4:porti")
  let impliedPort ← readPort mem n (ascii "12:implied_porti")
  let target ← readId mem n (ascii "6:target20:")
  let token ← readField mem n (ascii "5:token") 128
  let nodes ← readField mem n (ascii "5:nodes") 417
  let nodes6 ← readField mem n (ascii "6:nodes6") 609
  let (values, values6) ← readValues mem n
  let want ← readWant mem n
  return (readKind (mem.take n),
    { tid := tid.getD []
      id := id.getD .zeroes
      infoHash := infoHash.getD .zeroes
      target := target.getD .zeroes
      port := port.getD 0
      impliedPort := impliedPort.getD 0
      token := token.getD []
      nodes := nodes.getD []
      nodes6 := nodes6.getD []
      values := values
      values6 := values6
      want := want })

end Reading

end Orcashi
