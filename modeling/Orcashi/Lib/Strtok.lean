import Orcashi.Lib.CMemory

/-!
# Tokens

`strtok` with one separator on a string in memory: it passes over separators, and what follows up to
the next separator or the end of the string is the token.  The string ends at its NUL; a call that
meets the end of the memory first has read past it.
-/

namespace CMemory

/-- What a call of `strtok` comes to. -/
inductive Token where
  /-- the call has read past the memory -/
  | outside
  /-- NULL -/
  | none
  /-- the token, and where the next call goes on -/
  | some (text : CString) (rest : Bytes)

/-- The bytes a token consists of. -/
def inToken (sep : UInt8) (b : UInt8) : Bool := b != sep && b != 0

/-- `strtok(s, sep)`, and `strtok(NULL, sep)` on what the call before it left. -/
def strtok (sep : UInt8) (mem : Bytes) : Token :=
  let start := mem.dropWhile fun b => b == sep
  match start.takeWhile (inToken sep), start.dropWhile (inToken sep) with
  | _, [] => .outside
  | [], _ :: _ => .none
  | c :: text, stop :: rest => .some (c :: text) (if stop = 0 then 0 :: rest else rest)

variable {sep : UInt8} {mem text rest : Bytes}

theorem inToken_iff {b : UInt8} : inToken sep b = true ↔ b ≠ sep ∧ b ≠ 0 := by
  unfold inToken
  rw [Bool.and_eq_true, bne_iff_ne, bne_iff_ne]

/-- A token is not empty and has neither separators nor NULs. -/
theorem of_strtok_eq_some (h : strtok sep mem = .some text rest) :
    text ≠ [] ∧ sep ∉ text ∧ 0 ∉ text := by
  unfold strtok at h
  dsimp only at h
  split at h
  · cases h
  · cases h
  · rename_i c t stop after found _
    cases h
    have inside : ∀ b ∈ c :: t, inToken sep b = true := by
      rw [← found]
      exact fun b hb => List.mem_takeWhile_imp hb
    refine ⟨List.cons_ne_nil c t, ?_, ?_⟩
    · intro h
      exact (inToken_iff.1 (inside _ h)).1 rfl
    · intro h
      exact (inToken_iff.1 (inside _ h)).2 rfl

/-- A token that begins at once goes on to the first separator or NUL. -/
theorem strtok_append (ne : text ≠ []) (noSep : sep ∉ text) (noNul : 0 ∉ text) (mem : Bytes) :
    strtok sep (text ++ mem) =
      match mem.dropWhile (inToken sep) with
      | [] => .outside
      | stop :: rest =>
        .some (text ++ mem.takeWhile (inToken sep)) (if stop = 0 then 0 :: rest else rest) := by
  have inside : ∀ b ∈ text, inToken sep b = true := by
    intro b hb
    refine inToken_iff.2 ⟨?_, ?_⟩
    · rintro rfl
      exact noSep hb
    · rintro rfl
      exact noNul hb
  obtain ⟨c, t, rfl⟩ := List.exists_cons_of_ne_nil ne
  have first : (c == sep) = false :=
    beq_eq_false_iff_ne.2 (inToken_iff.1 (inside c List.mem_cons_self)).1
  have start : ((c :: t) ++ mem).dropWhile (fun b => b == sep) = (c :: t) ++ mem := by
    rw [List.cons_append, List.dropWhile_cons_of_neg (by rw [first]; exact Bool.false_ne_true)]
  unfold strtok
  dsimp only
  rw [start, List.takeWhile_append_of_pos inside, List.dropWhile_append_of_pos inside]
  split
  · rename_i stops
    rw [stops]
  · rename_i found _
    cases found
  · rename_i found stops
    rw [stops, found]

/-- A token up to a separator. -/
theorem strtok_append_sep (hsep : sep ≠ 0) (ne : text ≠ []) (noSep : sep ∉ text) (noNul : 0 ∉ text)
    (mem : Bytes) : strtok sep (text ++ sep :: mem) = .some text mem := by
  have stops : inToken sep sep = false := by simp [inToken]
  rw [strtok_append ne noSep noNul, List.dropWhile_cons_of_neg (by rw [stops]; exact Bool.false_ne_true),
    List.takeWhile_cons_of_neg (by rw [stops]; exact Bool.false_ne_true)]
  dsimp only
  rw [List.append_nil, if_neg hsep]

/-- What a token that begins at once is taken for is itself exactly if a separator or a NUL follows. -/
theorem exists_strtok_append_iff (ne : text ≠ []) (noSep : sep ∉ text) (noNul : 0 ∉ text)
    (mem : Bytes) :
    (∃ rest, strtok sep (text ++ mem) = .some text rest) ↔ mem.head? = some sep ∨ mem.head? = some 0 := by
  rw [strtok_append ne noSep noNul]
  cases mem with
  | nil => simp
  | cons b mem =>
    rw [List.head?_cons, Option.some_inj, Option.some_inj]
    by_cases inside : inToken sep b = true
    · rw [List.dropWhile_cons_of_pos inside, List.takeWhile_cons_of_pos inside]
      refine iff_of_false ?_ ?_
      · rintro ⟨rest, h⟩
        split at h
        · cases h
        · simp at h
      · have := inToken_iff.1 inside
        tauto
    · rw [List.dropWhile_cons_of_neg inside, List.takeWhile_cons_of_neg inside, List.append_nil]
      have := mt inToken_iff.2 inside
      exact iff_of_true ⟨_, rfl⟩ (by tauto)

/-! ## The tokens of a memory -/

/-- What a call finds depends on what it has read only. -/
theorem strtok_front (found : strtok sep mem ≠ .outside) (q : Bytes) :
    strtok sep (mem ++ q) =
      match strtok sep mem with
      | .outside => .outside
      | .none => .none
      | .some text rest => .some text (rest ++ q) := by
  unfold strtok at found ⊢
  dsimp only at found ⊢
  generalize start : mem.dropWhile (fun b => b == sep) = s at found ⊢
  cases stop : s.dropWhile (inToken sep) with
  | nil =>
    rw [stop] at found
    exact absurd rfl found
  | cons b rest =>
    have outside : s ≠ [] := by
      rintro rfl
      cases stop
    have whole : (s.takeWhile (inToken sep)).length ≠ s.length := by
      have split := congrArg List.length (List.takeWhile_append_dropWhile (p := inToken sep) (l := s))
      rw [List.length_append, stop, List.length_cons] at split
      omega
    rw [List.dropWhile_append, start, if_neg (by simpa using outside), List.dropWhile_append, stop,
      if_neg (by simp), List.takeWhile_append, if_neg whole]
    cases s.takeWhile (inToken sep) with
    | nil => rfl
    | cons c text =>
      dsimp only [List.cons_append]
      split_ifs <;> rfl

/-- The tokens at the front of a memory that end there, with what was read of the first one. -/
def tokensFrom (sep : UInt8) : CString → Bytes → List CString
  | _, [] => []
  | text, b :: mem =>
    if inToken sep b then tokensFrom sep (text ++ [b]) mem
    else (if text = [] then [] else [text]) ++ if b = 0 then [] else tokensFrom sep [] mem

/-- The tokens at the front of a memory that end there, each at a separator or at the NUL that ends the
text. -/
def tokens (sep : UInt8) (mem : Bytes) : List CString := tokensFrom sep [] mem

theorem tokensFrom_inside (inside : ∀ b ∈ text, inToken sep b = true) (before : CString) (mem : Bytes) :
    tokensFrom sep before (text ++ mem) = tokensFrom sep (before ++ text) mem := by
  induction text generalizing before with
  | nil => rw [List.append_nil, List.nil_append]
  | cons b text ih =>
    rw [List.cons_append, tokensFrom, if_pos (inside b List.mem_cons_self),
      ih fun c hc => inside c (List.mem_cons_of_mem b hc)]
    rw [List.append_assoc, List.singleton_append]

theorem dropWhile_sep_cons (sep : UInt8) (mem : Bytes) :
    (sep :: mem).dropWhile (fun b => b == sep) = mem.dropWhile fun b => b == sep :=
  List.dropWhile_cons_of_pos (p := fun b => b == sep) (beq_self_eq_true sep)

theorem dropWhile_sep_of_ne {b : UInt8} (h : b ≠ sep) (mem : Bytes) :
    (b :: mem).dropWhile (fun b => b == sep) = b :: mem :=
  List.dropWhile_cons_of_neg (p := fun b => b == sep) (by rwa [beq_iff_eq])

theorem not_inToken_sep (sep : UInt8) : ¬ inToken sep sep = true := by simp [inToken]

theorem tokens_zero (rest : Bytes) : tokens sep (0 :: rest) = [] := by simp [tokens, tokensFrom, inToken]

/-- Separators in front of a text are passed over. -/
theorem tokens_dropWhile (hsep : sep ≠ 0) (mem : Bytes) :
    tokens sep (mem.dropWhile fun b => b == sep) = tokens sep mem := by
  induction mem with
  | nil => rfl
  | cons b mem ih =>
    by_cases h : b = sep
    · subst h
      rw [dropWhile_sep_cons, ih, tokens, tokens, tokensFrom, if_neg (not_inToken_sep b), if_pos rfl,
        if_neg hsep, List.nil_append]
    · rw [dropWhile_sep_of_ne h]

theorem zero_mem_dropWhile (hsep : sep ≠ 0) (mem : Bytes) :
    (0 ∈ mem.dropWhile fun b => b == sep) ↔ 0 ∈ mem := by
  induction mem with
  | nil => rfl
  | cons b mem ih =>
    by_cases h : b = sep
    · subst h
      rw [dropWhile_sep_cons, ih, List.mem_cons, or_iff_right hsep.symm]
    · rw [dropWhile_sep_of_ne h]

/-- A call takes the first of the tokens that end in the memory.  It finds none and stays within the
memory exactly if the text ends there. -/
theorem strtok_cases (hsep : sep ≠ 0) (mem : Bytes) :
    strtok sep mem = .outside ∧ 0 ∉ mem ∧ tokens sep mem = [] ∨
      strtok sep mem = .none ∧ 0 ∈ mem ∧ tokens sep mem = [] ∨
        ∃ text rest, strtok sep mem = .some text rest ∧ tokens sep mem = text :: tokens sep rest ∧
          (0 ∈ mem ↔ 0 ∈ rest) := by
  have front := List.head?_dropWhile_not (fun b => b == sep) mem
  rw [← zero_mem_dropWhile hsep, ← tokens_dropWhile hsep]
  unfold strtok
  dsimp only
  generalize mem.dropWhile (fun b => b == sep) = s at front ⊢
  have inside : ∀ b ∈ s.takeWhile (inToken sep), inToken sep b = true :=
    fun b hb => List.mem_takeWhile_imp hb
  have noNul : 0 ∉ s.takeWhile (inToken sep) := fun h => (inToken_iff.1 (inside 0 h)).2 rfl
  have stops := List.head?_dropWhile_not (inToken sep) s
  have split := List.takeWhile_append_dropWhile (p := inToken sep) (l := s)
  generalize s.takeWhile (inToken sep) = text at inside noNul split ⊢
  generalize s.dropWhile (inToken sep) = after at stops split ⊢
  subst split
  rw [tokens, tokensFrom_inside inside, List.nil_append, List.mem_append, or_iff_right noNul]
  cases after with
  | nil => exact Or.inl ⟨rfl, List.not_mem_nil, rfl⟩
  | cons stop rest =>
    have stops : ¬ inToken sep stop = true := by simpa using stops
    rw [tokensFrom, if_neg stops]
    cases text with
    | nil =>
      obtain rfl : stop = 0 := by
        have notSep : stop ≠ sep := by simpa using front
        by_contra h
        exact stops (inToken_iff.2 ⟨notSep, h⟩)
      exact Or.inr (Or.inl ⟨rfl, List.mem_cons_self, by rw [if_pos rfl, if_pos rfl]; rfl⟩)
    | cons c text =>
      refine Or.inr (Or.inr ⟨c :: text, _, rfl, ?_, ?_⟩)
      · rw [if_neg (List.cons_ne_nil c text), List.singleton_append]
        by_cases nul : stop = 0
        · rw [if_pos nul, if_pos nul, tokens_zero]
        · rw [if_neg nul, if_neg nul]
          rfl
      · by_cases nul : stop = 0
        · rw [if_pos nul, nul]
        · rw [if_neg nul, List.mem_cons, or_iff_right (Ne.symm nul)]

end CMemory
