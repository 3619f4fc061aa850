import Orcashi.Dht.Message

/-!
# What `parse_message` reads

On a datagram with a NUL behind it, `parse_message` reads nothing behind the NUL, and writes no array of
`struct parsed_message` past its end, whatever the bytes are.
-/

namespace Orcashi

open CMemory Stdio

/-! ## Positions -/

theorem memmem_le {needle : Bytes} (s : Bytes) {p : ℕ} (found : memmem needle s = some p) :
    p + needle.length ≤ s.length := by
  induction s generalizing p with
  | nil =>
    rw [memmem] at found
    split_ifs at found with empty
    obtain rfl : 0 = p := Option.some.inj found
    simp [empty]
  | cons c s ih =>
    rw [memmem] at found
    split_ifs at found with here
    · obtain rfl : 0 = p := Option.some.inj found
      simpa using here.length_le
    · obtain ⟨p, behind, rfl⟩ := Option.map_eq_some_iff.1 found
      have := ih behind
      simp only [List.length_cons]
      omega

/-- What `memmem` finds stands there. -/
theorem memmem_prefix {needle : Bytes} {s : Bytes} {p : ℕ} (found : memmem needle s = some p) :
    needle <+: s.drop p := by
  induction s generalizing p with
  | nil =>
    rw [memmem] at found
    split_ifs at found with empty
    exact empty ▸ List.nil_prefix
  | cons c s ih =>
    rw [memmem] at found
    split_ifs at found with here
    · obtain rfl : 0 = p := Option.some.inj found
      exact here
    · obtain ⟨p, behind, rfl⟩ := Option.map_eq_some_iff.1 found
      exact ih behind

theorem suffix_afterLong (s : CString) : afterLong s <:+ s := by
  have space : skipSpace s <:+ s := List.dropWhile_suffix _
  unfold afterLong
  split
  · rename_i t h
    exact (List.dropWhile_suffix _).trans ((List.suffix_cons 45 t).trans (h ▸ space))
  · rename_i t h
    exact (List.dropWhile_suffix _).trans ((List.suffix_cons 43 t).trans (h ▸ space))
  · exact (List.dropWhile_suffix _).trans space

/-- A number ends before a NUL. -/
theorem mem_afterLong {s : CString} (nul : 0 ∈ s) : 0 ∈ afterLong s := by
  have stays {p : UInt8 → Bool} {t : CString} (mem : 0 ∈ t) (stop : p 0 = false) : 0 ∈ t.dropWhile p := by
    rw [← List.takeWhile_append_dropWhile (p := p) (l := t), List.mem_append] at mem
    refine mem.resolve_left fun before => ?_
    have := List.mem_takeWhile_imp before
    simp [stop] at this
  have space : 0 ∈ skipSpace s := stays nul rfl
  unfold afterLong
  split
  · rename_i t h
    rw [h] at space
    exact stays (by simpa using space) rfl
  · rename_i t h
    rw [h] at space
    exact stays (by simpa using space) rfl
  · exact stays space rfl

theorem scanDigits_takeWhile (negative : Bool) (t : CString) :
    scanDigits negative (t.takeWhile isDigit) = scanDigits negative t := by
  unfold scanDigits
  rw [List.takeWhile_takeWhile]
  simp

theorem skipSpace_append {space : CString} (spaces : ∀ c ∈ space, isSpace c = true) {c : UInt8} (t : CString)
    (other : isSpace c = false) : skipSpace (space ++ c :: t) = c :: t := by
  unfold skipSpace
  rw [List.dropWhile_append_of_pos spaces, List.dropWhile_cons_of_neg (by simp [other])]

/-- The text of a number reads as the number, without what is behind it. -/
theorem exists_scanLong {s : CString} {n : ℤ} (h : scanLong s = some n) :
    ∃ text, text ++ afterLong s = s ∧ scanLong text = some n := by
  have spaces : ∀ c ∈ s.takeWhile isSpace, isSpace c = true := fun c mem => List.mem_takeWhile_imp mem
  have split : s.takeWhile isSpace ++ skipSpace s = s := List.takeWhile_append_dropWhile
  unfold scanLong at h
  split at h
  · rename_i t sign
    have rest : afterLong s = t.dropWhile isDigit := by simp only [afterLong, sign]
    rw [sign] at split
    refine ⟨s.takeWhile isSpace ++ 45 :: t.takeWhile isDigit, ?_, ?_⟩
    · rwa [rest, List.append_assoc, List.cons_append, List.takeWhile_append_dropWhile]
    · rw [scanLong, skipSpace_append spaces _ (by decide)]
      exact (scanDigits_takeWhile true t).trans h
  · rename_i t sign
    have rest : afterLong s = t.dropWhile isDigit := by simp only [afterLong, sign]
    rw [sign] at split
    refine ⟨s.takeWhile isSpace ++ 43 :: t.takeWhile isDigit, ?_, ?_⟩
    · rwa [rest, List.append_assoc, List.cons_append, List.takeWhile_append_dropWhile]
    · rw [scanLong, skipSpace_append spaces _ (by decide)]
      exact (scanDigits_takeWhile false t).trans h
  · rename_i minus plus
    have rest : afterLong s = (skipSpace s).dropWhile isDigit := by
      unfold afterLong
      split
      · rename_i t sign
        exact absurd sign (minus t)
      · rename_i t sign
        exact absurd sign (plus t)
      · rfl
    refine ⟨s.takeWhile isSpace ++ (skipSpace s).takeWhile isDigit, ?_, ?_⟩
    · rwa [rest, List.append_assoc, List.takeWhile_append_dropWhile]
    · have read := (scanDigits_takeWhile false (skipSpace s)).trans h
      cases digits : (skipSpace s).takeWhile isDigit with
      | nil =>
        rw [digits] at read
        cases read
      | cons c ds =>
        have digit : isDigit c = true := List.mem_takeWhile_imp (digits ▸ List.mem_cons_self)
        obtain ⟨other, notMinus, notPlus⟩ := not_space_of_isDigit digit
        rw [digits] at read
        rw [scanLong, skipSpace_append spaces _ other]
        split
        · rename_i e
          exact absurd (List.cons.inj e).1 notMinus
        · rename_i e
          exact absurd (List.cons.inj e).1 notPlus
        · exact read

/-! ## A datagram and its terminator -/

/-- Nothing outside is read, and there is a result with a property or an `overflow`. -/
def Reads {α : Type} (P : α → Prop) : Except ParseStop α → Prop
  | .ok a => P a
  | .error e => e = .overflow

theorem Reads.bind {α β : Type} {P : α → Prop} {Q : β → Prop} {r : Except ParseStop α}
    {f : α → Except ParseStop β} (h : Reads P r) (step : ∀ a, P a → Reads Q (f a)) : Reads Q (r >>= f) := by
  cases r with
  | error e => exact h
  | ok a => exact step a h

section Reading

variable {bytes key : Bytes} {i : ℕ}

theorem reads_strtol (h : i ≤ bytes.length) :
    Reads (fun r => i ≤ r.2 ∧ r.2 ≤ bytes.length) (strtol (bytes ++ [0]) i) := by
  have nul : 0 ∈ (bytes ++ [0]).drop i := by
    rw [List.drop_append_of_le_length h]
    simp
  have some : 0 < (afterLong ((bytes ++ [0]).drop i)).length := List.length_pos_of_mem (mem_afterLong nul)
  have short := (suffix_afterLong ((bytes ++ [0]).drop i)).length_le
  simp only [List.length_drop, List.length_append, List.length_singleton] at short
  unfold strtol
  simp only [if_neg (List.ne_nil_of_length_pos some)]
  split
  · exact ⟨le_rfl, h⟩
  · refine ⟨?_, ?_⟩ <;> simp only [List.length_append, List.length_singleton] <;> omega

/-- A number other than 0 is the one of the text before the position where it ends. -/
theorem strtol_text {l : ℤ} {q : ℕ} (read : strtol (bytes ++ [0]) i = .ok (l, q)) (some : l ≠ 0) :
    ∃ text, text ++ (bytes ++ [0]).drop q = (bytes ++ [0]).drop i ∧ scanLong text = .some l := by
  unfold strtol at read
  dsimp only at read
  split_ifs at read
  split at read
  · cases read
    exact absurd rfl some
  · rename_i number
    cases read
    obtain ⟨text, same, scanned⟩ := exists_scanLong number
    refine ⟨text, ?_, scanned⟩
    have behind : afterLong ((bytes ++ [0]).drop i) <:+ bytes ++ [0] :=
      (suffix_afterLong _).trans (List.drop_suffix _ _)
    rwa [← List.suffix_iff_eq_drop.1 behind]

/-- Bytes that end before the terminator. -/
theorem take_drop_inside (bytes : Bytes) {l : ℕ} (h : i + l ≤ bytes.length) :
    ((bytes ++ [0]).drop i).take l <:+: bytes ∧ (((bytes ++ [0]).drop i).take l).length = l := by
  have inside : ((bytes ++ [0]).drop i).take l = (bytes.drop i).take l := by
    rw [List.drop_append_of_le_length (by omega), List.take_append_of_le_length]
    rw [List.length_drop]
    omega
  rw [inside]
  refine ⟨(List.take_prefix _ _).isInfix.trans (List.drop_suffix _ _).isInfix, ?_⟩
  rw [List.length_take, List.length_drop]
  omega

theorem memmem_take (found : memmem key ((bytes ++ [0]).take bytes.length) = some i) :
    i + key.length ≤ bytes.length := by
  rw [List.take_left] at found
  exact memmem_le bytes found

theorem reads_readField (limit : ℕ) : Reads (fun r => ∀ b ∈ r, b.length < limit ∧ b <:+: bytes)
    (readField (bytes ++ [0]) bytes.length key limit) := by
  unfold readField
  split
  · simp [Reads]
  · rename_i p found
    refine (reads_strtol (memmem_take found)).bind fun ⟨l, q⟩ ⟨_, hq⟩ => ?_
    dsimp only at hq ⊢
    split_ifs with ok beyond
    · rfl
    · intro b mem
      obtain rfl := Option.some.inj mem
      have here := take_drop_inside bytes (i := q + 1) (l := l.toNat) (by omega)
      exact ⟨by omega, here.1⟩
    · simp [Reads]

theorem reads_readId : Reads (fun r => ∀ id ∈ r, id.val <:+: bytes)
    (readId (bytes ++ [0]) bytes.length key) := by
  unfold readId
  split
  · simp [Reads]
  · rename_i p found
    split_ifs with beyond length
    · rfl
    · intro id mem
      obtain rfl := Option.some.inj mem
      exact (take_drop_inside bytes (not_lt.1 beyond)).1
    · exact absurd (take_drop_inside bytes (not_lt.1 beyond)).2 length

theorem getD_of_le (h : bytes.length ≤ i) : (bytes ++ [0]).getD i 0 = 0 := by
  rcases h.eq_or_lt with rfl | behind
  · simp
  · rw [List.getD_eq_default]
    simp only [List.length_append, List.length_singleton]
    omega

/-- A byte other than the terminator stands in the datagram. -/
theorem drop_of_getD {c : UInt8} (here : (bytes ++ [0]).getD i 0 = c) (some : c ≠ 0) :
    i < bytes.length ∧ bytes.drop i = c :: bytes.drop (i + 1) := by
  have inside : i < bytes.length := by
    by_contra out
    exact some (here.symm.trans (getD_of_le (not_lt.1 out)))
  refine ⟨inside, ?_⟩
  rw [List.drop_eq_getElem_cons inside, ← here, List.getD_append _ _ _ _ inside, List.getD_eq_getElem _ _ inside]

/-- A number of 16 bits that stands behind a key, with an `e` at its end. -/
def Numbered (bytes key : Bytes) (v : UInt16) : Prop :=
  ∃ text, key ++ text ++ [101] <:+: bytes ∧ scanLong text = some (v.toNat : ℤ)

theorem reads_readPort : Reads (fun r => ∀ v ∈ r, Numbered bytes key v)
    (readPort (bytes ++ [0]) bytes.length key) := by
  unfold readPort
  split
  · simp [Reads]
  · rename_i p found
    have behind := memmem_take found
    rw [List.take_left] at found
    cases number : strtol (bytes ++ [0]) (p + key.length) with
    | error e =>
      have stopped := reads_strtol behind
      rw [number] at stopped
      exact stopped
    | ok r =>
      obtain ⟨l, q⟩ := r
      show Reads _ (if _ then _ else _)
      split_ifs with ok
      · intro v mem
        obtain rfl := Option.some.inj mem
        obtain ⟨text, same, scanned⟩ := strtol_text number (by omega)
        have range : l.toNat < 65536 := by omega
        refine ⟨text, ?_, ?_⟩
        · obtain ⟨inside, last⟩ := drop_of_getD ok.1 (by decide)
          obtain ⟨rest, key_rest⟩ := memmem_prefix found
          have after : bytes.drop (p + key.length) = rest := by
            rw [← List.drop_drop, ← key_rest, List.drop_left]
          rw [List.drop_append_of_le_length behind, after, List.drop_append_of_le_length inside.le, last,
            ← List.append_assoc, List.append_left_inj] at same
          refine List.IsInfix.trans ?_ (List.drop_suffix p bytes).isInfix
          exact ⟨[], bytes.drop (q + 1), by simp [← key_rest, ← same]⟩
        · rw [scanned, Nat.toUInt16_eq, UInt16.toNat_ofNat_of_lt' range, Int.toNat_of_nonneg ok.2.1.le]
      · simp [Reads]

/-! ## Values -/

/-- Values of one length that stand in a part of a datagram, each behind a colon, and one behind the other. -/
structure ValuesFit (read : Bytes) (length : ℕ) (values : Bytes) : Prop where
  room : values.length ≤ 2048
  entries : ∃ vs : List Bytes, vs.flatten = values ∧ ∀ v ∈ vs, v.length = length ∧ 58 :: v <:+: read
  order : values.Sublist read

theorem valuesFit_nil (read : Bytes) (length : ℕ) : ValuesFit read length [] where
  room := by decide
  entries := ⟨[], by simp⟩
  order := List.nil_sublist read

theorem ValuesFit.mono {read read' values : Bytes} {length : ℕ} (h : ValuesFit read length values)
    (more : read <+: read') : ValuesFit read' length values where
  room := h.room
  entries := by
    obtain ⟨vs, flat, stand⟩ := h.entries
    exact ⟨vs, flat, fun v mem => ⟨(stand v mem).1, (stand v mem).2.trans more.isInfix⟩⟩
  order := h.order.trans more.sublist

theorem ValuesFit.append {read values value : Bytes} {length : ℕ} (h : ValuesFit read length values)
    (whole : value.length = length) (room : values.length + length ≤ 2048) :
    ValuesFit (read ++ 58 :: value) length (values ++ value) where
  room := by rw [List.length_append, whole]; exact room
  entries := by
    obtain ⟨vs, rfl, stand⟩ := h.entries
    refine ⟨vs ++ [value], by simp, fun v mem => ?_⟩
    rcases List.mem_append.1 mem with before | last
    · exact ⟨(stand v before).1, (stand v before).2.trans (List.prefix_append _ _).isInfix⟩
    · obtain rfl := List.mem_singleton.1 last
      exact ⟨whole, (List.suffix_append _ _).isInfix⟩
  order := h.order.append (List.sublist_cons_self 58 value)

/-- A value is read, and stored where there is room for it. -/
theorem ValuesFit.next {values : Bytes} {length l q : ℕ} (h : ValuesFit (bytes.take i) length values) (later : i ≤ q)
    (colon : (bytes ++ [0]).getD q 0 = 58) (inside : q + 1 + l ≤ bytes.length) :
    ValuesFit (bytes.take (q + 1 + l)) length values ∧
      (l = length → values.length + length ≤ 2048 →
        ValuesFit (bytes.take (q + 1 + l)) length (values ++ ((bytes ++ [0]).drop (q + 1)).take l)) := by
  refine ⟨h.mono (List.take_prefix_take_left (by omega)), fun same room => ?_⟩
  have value := (take_drop_inside bytes inside).2
  have before : ValuesFit (bytes.take q) length values := h.mono (List.take_prefix_take_left later)
  have whole : bytes.take (q + 1 + l) = bytes.take q ++ 58 :: ((bytes ++ [0]).drop (q + 1)).take l := by
    rw [Nat.add_assoc, Nat.add_comm 1, List.take_add, (drop_of_getD colon (by decide)).2, List.take_succ_cons,
      List.drop_append_of_le_length (by omega), List.take_append_of_le_length]
    rw [List.length_drop]
    omega
  rw [whole]
  exact before.append (value.trans same) room

theorem reads_readValuesLoop (fuel : ℕ) {values values6 : Bytes} (h : i ≤ bytes.length)
    (fit : ValuesFit (bytes.take i) 6 values) (fit6 : ValuesFit (bytes.take i) 18 values6) :
    Reads (fun r => ValuesFit bytes 6 r.1 ∧ ValuesFit bytes 18 r.2)
      (readValuesLoop (bytes ++ [0]) bytes.length fuel i values values6) := by
  induction fuel generalizing i values values6 with
  | zero => exact ⟨fit.mono (List.take_prefix _ _), fit6.mono (List.take_prefix _ _)⟩
  | succ fuel ih =>
    rw [readValuesLoop]
    refine (reads_strtol h).bind fun ⟨l, q⟩ ⟨hi, hq⟩ => ?_
    dsimp only at hi hq ⊢
    have stored (colon : (bytes ++ [0]).getD q 0 = 58) (inside : ¬ bytes.length < q + 1 + l.toNat) :=
      And.intro (fit.next hi colon (not_lt.1 inside)) (fit6.next hi colon (not_lt.1 inside))
    split_ifs with ok beyond six full eighteen full6
    · rfl
    · obtain ⟨value, value6⟩ := stored ok.1 beyond
      exact ih (not_lt.1 beyond) value.1 value6.1
    · obtain ⟨value, value6⟩ := stored ok.1 beyond
      exact ih (not_lt.1 beyond) (value.2 (by omega) (not_lt.1 full)) value6.1
    · obtain ⟨value, value6⟩ := stored ok.1 beyond
      exact ih (not_lt.1 beyond) value.1 value6.1
    · obtain ⟨value, value6⟩ := stored ok.1 beyond
      exact ih (not_lt.1 beyond) value.1 (value6.2 (by omega) (not_lt.1 full6))
    · obtain ⟨value, value6⟩ := stored ok.1 beyond
      exact ih (not_lt.1 beyond) value.1 value6.1
    · exact ⟨fit.mono (List.take_prefix _ _), fit6.mono (List.take_prefix _ _)⟩

theorem reads_readValues : Reads (fun r => ValuesFit bytes 6 r.1 ∧ ValuesFit bytes 18 r.2)
    (readValues (bytes ++ [0]) bytes.length) := by
  unfold readValues
  split
  · exact ⟨valuesFit_nil _ _, valuesFit_nil _ _⟩
  · rename_i p found
    exact reads_readValuesLoop _ (memmem_take found) (valuesFit_nil _ _) (valuesFit_nil _ _)

/-! ## Flags -/

/-- Flags of `want` that stand in a datagram. -/
structure WantFits (bytes : Bytes) (want : ℕ) : Prop where
  small : want < 4
  n4 : want.testBit 0 = true → ascii "2:n4" <:+: bytes
  n6 : want.testBit 1 = true → ascii "2:n6" <:+: bytes

theorem wantFits_zero (bytes : Bytes) : WantFits bytes 0 where
  small := by decide
  n4 set := by simp at set
  n6 set := by simp at set

theorem WantFits.or {want flag : ℕ} (h : WantFits bytes want) (h' : WantFits bytes flag) :
    WantFits bytes (want ||| flag) where
  small := Nat.or_lt_two_pow (n := 2) h.small h'.small
  n4 set := by
    rw [Nat.testBit_or, Bool.or_eq_true] at set
    exact set.elim h.n4 h'.n4
  n6 set := by
    rw [Nat.testBit_or, Bool.or_eq_true] at set
    exact set.elim h.n6 h'.n6

/-- A flag of two bytes stands behind its length. -/
theorem flag_infix {flag : Bytes} (length : (bytes ++ [0]).getD i 0 = 50) (colon : (bytes ++ [0]).getD (i + 1) 0 = 58)
    (inside : i + 2 + 2 ≤ bytes.length) (read : ((bytes ++ [0]).drop (i + 2)).take 2 = flag) :
    50 :: 58 :: flag <:+: bytes := by
  have start := (drop_of_getD length (by decide)).2
  rw [(drop_of_getD colon (by decide)).2] at start
  rw [List.drop_append_of_le_length (by omega), List.take_append_of_le_length (by rw [List.length_drop]; omega)] at read
  have stands : 50 :: 58 :: flag <+: bytes.drop i := by
    rw [start, ← read]
    exact List.cons_prefix_cons.2 ⟨rfl, List.cons_prefix_cons.2 ⟨rfl, List.take_prefix 2 _⟩⟩
  exact stands.isInfix.trans (List.drop_suffix i bytes).isInfix

theorem reads_readWantLoop (fuel : ℕ) {want : ℕ} (h : i ≤ bytes.length) (fit : WantFits bytes want) :
    Reads (WantFits bytes) (readWantLoop (bytes ++ [0]) bytes.length fuel i want) := by
  induction fuel generalizing i want with
  | zero => exact fit
  | succ fuel ih =>
    have inside : ¬ (bytes ++ [0]).length ≤ i := by simpa using h
    rw [readWantLoop, if_neg inside]
    dsimp only
    split_ifs with digit behind next n4 n6
    · -- a digit is not the terminator
      have : i < bytes.length := by
        by_contra out
        rw [getD_of_le (not_lt.1 out)] at digit
        exact absurd digit.1 (by decide)
      simp only [List.length_append, List.length_singleton] at behind
      omega
    · have two : (bytes ++ [0]).getD i 0 = 50 := UInt8.toNat_inj.1 (by show _ = 50; omega)
      have flag := flag_infix two next.1 (by omega) n4.2
      exact ih (by omega) (fit.or ⟨by decide, fun _ => flag, fun set => absurd set (by decide)⟩)
    · have two : (bytes ++ [0]).getD i 0 = 50 := UInt8.toNat_inj.1 (by show _ = 50; omega)
      have flag := flag_infix two next.1 (by omega) n6.2
      exact ih (by omega) (fit.or ⟨by decide, fun set => absurd set (by decide), fun _ => flag⟩)
    · exact ih (by omega) fit
    · exact fit
    · exact fit

/-- An iteration of the loop over the values comes forward, so that one iteration for each byte is enough. -/
theorem readValuesLoop_succ (fuel : ℕ) {values values6 : Bytes} (h : i ≤ bytes.length)
    (enough : bytes.length - i < fuel) :
    readValuesLoop (bytes ++ [0]) bytes.length (fuel + 1) i values values6 =
      readValuesLoop (bytes ++ [0]) bytes.length fuel i values values6 := by
  induction fuel generalizing i values values6 with
  | zero => exact absurd enough (Nat.not_lt_zero _)
  | succ fuel ih =>
    rw [readValuesLoop, readValuesLoop]
    have read := reads_strtol h
    cases number : strtol (bytes ++ [0]) i with
    | error e => rfl
    | ok r =>
      obtain ⟨l, q⟩ := r
      rw [number] at read
      obtain ⟨hi, hq⟩ := read
      have next (values values6 : Bytes) (ok : 0 < l) (beyond : ¬ bytes.length < q + 1 + l.toNat) :
          readValuesLoop (bytes ++ [0]) bytes.length (fuel + 1) (q + 1 + l.toNat) values values6 =
            readValuesLoop (bytes ++ [0]) bytes.length fuel (q + 1 + l.toNat) values values6 :=
        ih (not_lt.1 beyond) (by dsimp only at hi; omega)
      show (if _ then _ else _) = (if _ then _ else _)
      dsimp only
      split_ifs with ok beyond
      · rfl
      · exact next _ _ ok.2 beyond
      · exact next _ _ ok.2 beyond
      · exact next _ _ ok.2 beyond
      · exact next _ _ ok.2 beyond
      · exact next _ _ ok.2 beyond
      · rfl

theorem readWantLoop_succ (fuel : ℕ) {want : ℕ} (enough : bytes.length - i < fuel) :
    readWantLoop (bytes ++ [0]) bytes.length (fuel + 1) i want =
      readWantLoop (bytes ++ [0]) bytes.length fuel i want := by
  induction fuel generalizing i want with
  | zero => exact absurd enough (Nat.not_lt_zero _)
  | succ fuel ih =>
    rw [readWantLoop, readWantLoop]
    dsimp only
    split_ifs
    · rfl
    · rfl
    · exact ih (by omega)
    · exact ih (by omega)
    · exact ih (by omega)
    · rfl
    · rfl

/-- The loops end within as many iterations as there are bytes. -/
theorem parse_loops_end (bytes : Bytes) {fuel i : ℕ} (values values6 : Bytes) (want : ℕ) (h : i ≤ bytes.length)
    (some : 0 < i) (le : bytes.length ≤ fuel) :
    readValuesLoop (bytes ++ [0]) bytes.length fuel i values values6 =
        readValuesLoop (bytes ++ [0]) bytes.length bytes.length i values values6 ∧
      readWantLoop (bytes ++ [0]) bytes.length fuel i want =
        readWantLoop (bytes ++ [0]) bytes.length bytes.length i want := by
  induction fuel, le using Nat.le_induction with
  | base => exact ⟨rfl, rfl⟩
  | succ fuel le ih =>
    have enough : bytes.length - i < fuel := by omega
    exact ⟨(readValuesLoop_succ fuel h enough).trans ih.1, (readWantLoop_succ fuel enough).trans ih.2⟩

theorem reads_readWant : Reads (WantFits bytes) (readWant (bytes ++ [0]) bytes.length) := by
  unfold readWant
  split
  · exact wantFits_zero bytes
  · rename_i p found
    exact reads_readWantLoop _ (memmem_take found) (wantFits_zero bytes)

end Reading

/-! ## The message -/

/-- What is read stands in the datagram and fits into the arrays. -/
structure ParsedMessage.Fits (bytes : Bytes) (m : ParsedMessage) : Prop where
  tid : m.tid.length < 16 ∧ m.tid <:+: bytes
  id : m.id = .zeroes ∨ m.id.val <:+: bytes
  infoHash : m.infoHash = .zeroes ∨ m.infoHash.val <:+: bytes
  target : m.target = .zeroes ∨ m.target.val <:+: bytes
  token : m.token.length < 128 ∧ m.token <:+: bytes
  nodes : m.nodes.length ≤ 416 ∧ m.nodes <:+: bytes
  nodes6 : m.nodes6.length ≤ 608 ∧ m.nodes6 <:+: bytes
  port : m.port = 0 ∨ Numbered bytes (ascii "4:porti") m.port
  impliedPort : m.impliedPort = 0 ∨ Numbered bytes (ascii "12:implied_porti") m.impliedPort
  values : ValuesFit bytes 6 m.values
  values6 : ValuesFit bytes 18 m.values6
  want : WantFits bytes m.want

theorem getD_text {bytes : Bytes} {limit : ℕ} {r : Option Bytes} (pos : 0 < limit)
    (h : ∀ b ∈ r, b.length < limit ∧ b <:+: bytes) : (r.getD []).length < limit ∧ r.getD [] <:+: bytes := by
  cases r with
  | none => exact ⟨pos, List.nil_infix⟩
  | some b => exact h b rfl

theorem getD_id {bytes : Bytes} {r : Option DhtId} (h : ∀ id ∈ r, id.val <:+: bytes) :
    r.getD .zeroes = .zeroes ∨ (r.getD .zeroes).val <:+: bytes := by
  cases r with
  | none => exact Or.inl rfl
  | some id => exact Or.inr (h id rfl)

theorem getD_port {bytes key : Bytes} {r : Option UInt16} (h : ∀ v ∈ r, Numbered bytes key v) :
    r.getD 0 = 0 ∨ Numbered bytes key (r.getD 0) := by
  cases r with
  | none => exact Or.inl rfl
  | some v => exact Or.inr (h v rfl)

/-- No datagram makes `parse_message` read behind its terminator, or write past the end of an array. -/
theorem reads_parseMessage (bytes : Bytes) :
    Reads (fun r => r.2.Fits bytes) (parseMessage (bytes ++ [0]) bytes.length) := by
  unfold parseMessage
  refine (reads_readField 16).bind fun tid htid => ?_
  refine reads_readId.bind fun id hid => ?_
  refine reads_readId.bind fun infoHash hinfoHash => ?_
  refine reads_readPort.bind fun port hport => ?_
  refine reads_readPort.bind fun impliedPort himpliedPort => ?_
  refine reads_readId.bind fun target htarget => ?_
  refine (reads_readField 128).bind fun token htoken => ?_
  refine (reads_readField 417).bind fun nodes hnodes => ?_
  refine (reads_readField 609).bind fun nodes6 hnodes6 => ?_
  refine reads_readValues.bind fun values hvalues => ?_
  refine reads_readWant.bind fun want hwant => ?_
  have nodes := getD_text (by decide) hnodes
  have nodes6 := getD_text (by decide) hnodes6
  exact
    { tid := getD_text (by decide) htid
      id := getD_id hid
      infoHash := getD_id hinfoHash
      target := getD_id htarget
      token := getD_text (by decide) htoken
      nodes := ⟨Nat.le_of_lt_succ nodes.1, nodes.2⟩
      nodes6 := ⟨Nat.le_of_lt_succ nodes6.1, nodes6.2⟩
      port := getD_port hport
      impliedPort := getD_port himpliedPort
      values := hvalues.1
      values6 := hvalues.2
      want := hwant }

end Orcashi
