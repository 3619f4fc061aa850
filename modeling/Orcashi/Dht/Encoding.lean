import Orcashi.Dht.Message

/-!
# What fits into a message

Every message that the DHT sends is shorter than the array it is written into.
-/

namespace Orcashi

open CMemory Stdio

/-! ## Pieces -/

/-- The length of a message. -/
def totalLength (pieces : List Piece) : ℕ := (pieces.map fun p => p.bytes.length).sum

theorem totalLength_append (front back : List Piece) :
    totalLength (front ++ back) = totalLength front + totalLength back := by
  simp [totalLength]

theorem totalLength_cons (p : Piece) (pieces : List Piece) :
    totalLength (p :: pieces) = p.bytes.length + totalLength pieces := by
  simp [totalLength]

@[simp] theorem totalLength_nil : totalLength [] = 0 := rfl

theorem put_eq {size : ℕ} {buf : Bytes} {p : Piece} (h : buf.length + p.bytes.length < size) :
    put size buf p = some (buf ++ p.bytes) := by
  cases p with
  | text s =>
    have h : buf.length + s.length < size := h
    rw [put, if_neg (by omega), if_neg (by omega)]
    rfl
  | raw b =>
    have h : buf.length + b.length < size := h
    rw [put, if_neg (by omega)]
    rfl

/-- Pieces that leave room for a NUL are written one behind the other. -/
theorem assemble_eq {size : ℕ} {pieces : List Piece} (h : totalLength pieces < size) :
    assemble size pieces = some (pieces.flatMap Piece.bytes) := by
  have loop : ∀ buf : Bytes, buf.length + totalLength pieces < size →
      pieces.foldlM (put size) buf = some (buf ++ pieces.flatMap Piece.bytes) := by
    clear h
    induction pieces with
    | nil => intro buf _; simp
    | cons p pieces ih =>
      intro buf room
      rw [totalLength_cons] at room
      rw [List.foldlM_cons, put_eq (by omega), Option.bind_eq_bind, Option.bind_some,
        ih _ (by rw [List.length_append]; omega), List.flatMap_cons, List.append_assoc]
  rw [assemble, loop [] (by simpa using h), List.nil_append]

/-! ## Lengths -/

/-- A message of a size that the DHT sends. -/
def DhtMessage.Small : DhtMessage → Prop
  | ping tid => tid.length < 16
  | pong tid => tid.length < 16
  | findNode tid _ _ => tid.length < 16
  | nodesPeers tid nodes nodes6 token values =>
    tid.length < 16 ∧ nodes.length ≤ 208 ∧ nodes6.length ≤ 304 ∧ token.length ≤ 8 ∧
      ∀ vs, values = some vs → vs.length ≤ 50 ∧ ∀ v ∈ vs, v.length ≤ 18
  | getPeers tid _ _ => tid.length < 16
  | announcePeer tid _ _ token => tid.length < 16 ∧ token.length < 40
  | peerAnnounced tid => tid.length < 16
  | error tid code message => tid.length < 16 ∧ code < 1000 ∧ message.length < 100

theorem length_lengthText {n k : ℕ} (hk : 0 < k) (h : n < 10 ^ k) : (lengthText n).length ≤ k + 1 := by
  have := length_digits_lt hk h
  rw [lengthText, List.length_append]
  exact Nat.add_le_add this le_rfl

theorem totalLength_version {v : Option Bytes} (h : ∀ b, v = some b → b.length = 4) :
    totalLength (versionPieces v) ≤ 9 := by
  cases v with
  | none => exact Nat.zero_le 9
  | some b =>
    have := h b rfl
    simp only [versionPieces, Option.toList_some, List.map_cons, List.map_nil, totalLength_cons, Piece.bytes,
      List.length_append, totalLength_nil, show (ascii "1:v4:").length = 5 from rfl]
    omega

theorem totalLength_tid (before kind : CString) {tid : Bytes} {v : Option Bytes} (small : tid.length < 16)
    (h : ∀ b, v = some b → b.length = 4) :
    totalLength (tidPieces before tid v kind) ≤ before.length + kind.length + 36 := by
  have version := totalLength_version h
  have text := length_lengthText (n := tid.length) (k := 2) (by decide) (by omega)
  simp only [tidPieces, totalLength_append, totalLength_cons, totalLength_nil, Piece.bytes, List.length_append,
    show (ascii "1:t").length = 3 from rfl, show (ascii "1:y1:").length = 5 from rfl,
    show (ascii "e").length = 1 from rfl]
  omega

theorem totalLength_field (key : CString) {b : Bytes} (small : b.length < 1000) :
    totalLength (fieldPieces key b) ≤ key.length + b.length + 4 := by
  unfold fieldPieces
  split_ifs
  · exact Nat.zero_le _
  · have text := length_lengthText (n := b.length) (k := 3) (by decide) (by omega)
    simp only [totalLength_cons, totalLength_nil, Piece.bytes, List.length_append]
    omega

theorem totalLength_values {values : Option (List Bytes)}
    (h : ∀ vs, values = some vs → vs.length ≤ 50 ∧ ∀ v ∈ vs, v.length ≤ 18) :
    totalLength (valuePieces values) ≤ 1060 := by
  cases values with
  | none => exact Nat.zero_le _
  | some vs =>
    obtain ⟨few, short⟩ := h vs rfl
    have each : totalLength (vs.flatMap fun b => [.text (lengthText b.length), .raw b]) ≤ 21 * vs.length := by
      clear few h
      induction vs with
      | nil => exact Nat.zero_le _
      | cons v vs ih =>
        have v_short := short v List.mem_cons_self
        have text := length_lengthText (n := v.length) (k := 2) (by decide) (by omega)
        have rest := ih fun v mem => short v (List.mem_cons_of_mem _ mem)
        simp only [List.flatMap_cons, totalLength_append, totalLength_cons, totalLength_nil, Piece.bytes,
          List.length_cons]
        omega
    simp only [valuePieces, List.cons_append, totalLength_append, totalLength_cons, totalLength_nil, Piece.bytes,
      show (ascii "6:valuesl").length = 9 from rfl, show (ascii "e").length = 1 from rfl]
    omega

theorem length_wantPieces (want : ℤ) : totalLength (wantPieces want) ≤ 16 := by
  have most (c : Bool) (t : CString) : (if c = true then t else []).length ≤ t.length := by
    cases c <;> simp
  unfold wantPieces
  split_ifs
  · have h4 := most (want.toNat.testBit 0) (ascii "2:n4")
    have h6 := most (want.toNat.testBit 1) (ascii "2:n6")
    simp only [totalLength_cons, totalLength_nil, Piece.bytes, wantText, List.length_append,
      show (ascii "4:wantl").length = 7 from rfl, show (ascii "e").length = 1 from rfl,
      show (ascii "2:n4").length = 4 from rfl, show (ascii "2:n6").length = 4 from rfl] at h4 h6 ⊢
    omega
  · exact Nat.zero_le _

section Start

variable {myid : DhtId}

theorem totalLength_queryStart : totalLength (queryStart myid) = 32 := by
  simp only [queryStart, totalLength_cons, totalLength_nil, Piece.bytes, myid.property]
  rfl

theorem totalLength_replyStart : totalLength (replyStart myid) = 32 := by
  simp only [replyStart, totalLength_cons, totalLength_nil, Piece.bytes, myid.property]
  rfl

/-- A small message is shorter than its array. -/
theorem DhtMessage.Small.totalLength_lt {m : DhtMessage} (small : m.Small) {v : Option Bytes}
    (h : ∀ b, v = some b → b.length = 4) : totalLength (m.pieces myid v) < m.size := by
  have hash (key : CString) (id : DhtId) : totalLength [.text key, .raw id.val] = key.length + 20 := by
    simp only [totalLength_cons, totalLength_nil, Piece.bytes, id.property]
  have letter : (ascii "q").length = 1 ∧ (ascii "r").length = 1 ∧ (ascii "e").length = 1 := by decide
  obtain ⟨q, r, e⟩ := letter
  cases m with
  | ping tid =>
    have tail := totalLength_tid (ascii "e1:q4:ping") (ascii "q") small h
    rw [q, show (ascii "e1:q4:ping").length = 10 from rfl] at tail
    simp only [pieces, totalLength_append, totalLength_queryStart, size]
    omega
  | pong tid =>
    have tail := totalLength_tid (ascii "e") (ascii "r") small h
    rw [r, e] at tail
    simp only [pieces, totalLength_append, totalLength_replyStart, size]
    omega
  | findNode tid target want =>
    have tail := totalLength_tid (ascii "e1:q9:find_node") (ascii "q") small h
    have wants := length_wantPieces want
    rw [q, show (ascii "e1:q9:find_node").length = 15 from rfl] at tail
    simp only [pieces, totalLength_append, totalLength_queryStart, hash, size,
      show (ascii "6:target20:").length = 11 from rfl]
    omega
  | nodesPeers tid nodes nodes6 token values =>
    obtain ⟨small, few, few6, short, most⟩ := small
    have tail := totalLength_tid (ascii "e") (ascii "r") small h
    have field := totalLength_field (ascii "5:nodes") (b := nodes) (by omega)
    have field6 := totalLength_field (ascii "6:nodes6") (b := nodes6) (by omega)
    have field_token := totalLength_field (ascii "5:token") (b := token) (by omega)
    have vs := totalLength_values most
    rw [r, e] at tail
    rw [show (ascii "5:nodes").length = 7 from rfl] at field
    rw [show (ascii "6:nodes6").length = 8 from rfl] at field6
    rw [show (ascii "5:token").length = 7 from rfl] at field_token
    simp only [pieces, totalLength_append, totalLength_replyStart, size]
    omega
  | getPeers tid infohash want =>
    have tail := totalLength_tid (ascii "e1:q9:get_peers") (ascii "q") small h
    have wants := length_wantPieces want
    rw [q, show (ascii "e1:q9:get_peers").length = 15 from rfl] at tail
    simp only [pieces, totalLength_append, totalLength_queryStart, hash, size,
      show (ascii "9:info_hash20:").length = 14 from rfl]
    omega
  | announcePeer tid infohash port token =>
    obtain ⟨small, short⟩ := small
    have tail := totalLength_tid (ascii "e1:q13:announce_peer") (ascii "q") small h
    have number := length_digits_lt (n := port.toNat) (k := 5) (by decide) (port.toNat_lt.trans (by decide))
    have text := length_lengthText (n := token.length) (k := 2) (by decide) (by omega)
    rw [q, show (ascii "e1:q13:announce_peer").length = 20 from rfl] at tail
    simp only [pieces, totalLength_append, totalLength_queryStart, totalLength_cons, totalLength_nil,
      Piece.bytes, List.length_append, infohash.property, size,
      show (ascii "9:info_hash20:").length = 14 from rfl, show (ascii "4:porti").length = 7 from rfl,
      show (ascii "e5:token").length = 8 from rfl]
    omega
  | peerAnnounced tid =>
    have tail := totalLength_tid (ascii "e") (ascii "r") small h
    rw [r, e] at tail
    simp only [pieces, totalLength_append, totalLength_replyStart, size]
    omega
  | error tid code message =>
    obtain ⟨small, code_lt, short⟩ := small
    have tail := totalLength_tid (ascii "e") (ascii "e") small h
    have number := length_digits_lt (n := code) (k := 3) (by decide) (by omega)
    have text := length_lengthText (n := message.length) (k := 2) (by decide) (by omega)
    rw [e] at tail
    simp only [pieces, totalLength_append, totalLength_cons, totalLength_nil, Piece.bytes, List.length_append,
      size, e, show (ascii "d1:eli").length = 6 from rfl]
    omega

/-- So it is written whole. -/
theorem DhtMessage.Small.encode_eq {m : DhtMessage} (small : m.Small) {v : Option Bytes}
    (h : ∀ b, v = some b → b.length = 4) :
    m.encode myid v = some ((m.pieces myid v).flatMap Piece.bytes) :=
  assemble_eq (small.totalLength_lt h)

end Start

end Orcashi
