import Mathlib.Algebra.GroupWithZero.Nat
import Orcashi.Lib.Sscanf
import Orcashi.Lib.Strstr

/-!
# Flat JSON without a parser

An object of texts and numbers is written field by field, with nothing escaped, and a field is read by a
search for its quoted key in the whole text.  `lookup` says what such a search finds among the fields:
the value of the key, or, where the key is the value of a field before it, the value of the field behind
that one.
-/

namespace FlatJson

open CMemory Stdio

/-! ## Writing -/

/-- A value between quotes, or one that stands for itself. -/
inductive Value where
  | text (s : CString)
  | bare (s : CString)
  deriving DecidableEq

/-- A key with its value. -/
structure Field where
  key : CString
  value : Value
  deriving DecidableEq

/-- A value as it is printed. -/
def Value.raw : Value → CString
  | text s => 34 :: (s ++ [34])
  | bare s => s

/-- A field as it is printed. -/
def Field.print (f : Field) : CString := 34 :: (f.key ++ 34 :: 58 :: 32 :: f.value.raw)

/-- What stands between two fields. -/
def sep : CString := ascii ",\n  "

/-- Fields as they are printed, with what stands between two. -/
def print : List Field → CString
  | [] => []
  | [f] => f.print
  | f :: g :: fs => f.print ++ (sep ++ print (g :: fs))

theorem print_append (f g : Field) (fs gs : List Field) :
    print ((f :: fs) ++ (g :: gs)) = print (f :: fs) ++ (sep ++ print (g :: gs)) := by
  induction fs generalizing f with
  | nil => rfl
  | cons h fs ih =>
    have rest := ih h
    rw [List.cons_append, List.cons_append, print, print, List.append_assoc, List.append_assoc, ← rest,
      List.cons_append]

theorem not_mem_print {c : UInt8} {fs : List Field}
    (hc : c ∉ sep ∧ c ≠ 34 ∧ c ≠ 58 ∧ c ≠ 32) (free : ∀ f ∈ fs, c ∉ f.key ∧ c ∉ f.value.raw) :
    c ∉ print fs := by
  have one (f : Field) (hf : c ∉ f.key ∧ c ∉ f.value.raw) : c ∉ f.print := by
    unfold Field.print
    simp [hf.1, hf.2, hc.2.1, hc.2.2.1, hc.2.2.2]
  induction fs using print.induct with
  | case1 => exact List.not_mem_nil
  | case2 f => exact one f (free f (List.mem_singleton_self f))
  | case3 f g fs ih =>
    rw [print, List.mem_append, List.mem_append]
    rintro (h | h | h)
    · exact one f (free f List.mem_cons_self) h
    · exact hc.1 h
    · exact ih (fun x hx => free x (List.mem_cons_of_mem f hx)) h

/-- What the fields take at most, with what stands between them. -/
theorem length_print_le (fs : List Field) :
    (print fs).length ≤ (fs.map fun f => f.key.length + f.value.raw.length + 8).sum := by
  have one (f : Field) : f.print.length = f.key.length + f.value.raw.length + 4 := by
    unfold Field.print
    simp
    omega
  induction fs using print.induct with
  | case1 => exact Nat.zero_le _
  | case2 f =>
    have hf := one f
    simp only [print, List.map_cons, List.map_nil, List.sum_cons, List.sum_nil]
    omega
  | case3 f g fs ih =>
    have hf := one f
    have hsep : sep.length = 4 := rfl
    rw [print, List.length_append, List.length_append, List.map_cons, List.sum_cons]
    omega

/-! ## Reading -/

/-- A space or a tab. -/
def isBlank (c : UInt8) : Bool := c == 32 || c == 9

/-- `strstr` for the quoted key, `strchr` for the colon, and on to the first character that is not
blank. -/
def valueOf (key json : CString) : Option CString := do
  let pos ← strstr (34 :: (key ++ [34])) json
  let pos ← behind 58 pos
  return pos.dropWhile isBlank

/-- A value between quotes, where the array has room for it. -/
def readText (size : ℕ) (key json : CString) : CString :=
  match valueOf key json with
  | some (34 :: pos) =>
    let text := pos.takeWhile (· != 34)
    if 34 ∈ pos ∧ text.length < size then text else []
  | _ => []

/-- `atol` -/
def atol (s : CString) : ℤ := (scanLong s).getD 0

/-- The number of a key, or 0. -/
def readInt (key json : CString) : ℤ := ((valueOf key json).map atoi).getD 0

/-- The same for a `long`. -/
def readLong (key json : CString) : ℤ := ((valueOf key json).map atol).getD 0

/-- Whether `true` occurs anywhere behind the key. -/
def readBool (key json : CString) : Bool :=
  ((valueOf key json).map fun pos => (strstr (ascii "true") pos).isSome).getD false

/-- What a search for the key finds among the fields. -/
def lookup (key : CString) : List Field → Option Value
  | [] => none
  | f :: fs =>
    if f.key = key then some f.value
    else if f.value = .text key then fs.head?.map Field.value
    else lookup key fs

/-! ## What is found -/

/-- A key that can be told from what stands between the quoted texts. -/
structure IsKey (key : CString) : Prop where
  quote : 34 ∉ key
  colon : 58 ∉ key
  notSep : key ≠ sep

/-- A value without quotes; one that stands for itself does not begin with a blank. -/
def Value.Plain : Value → Prop
  | text s => 34 ∉ s
  | bare s => 34 ∉ s ∧ ∃ c t, s = c :: t ∧ isBlank c = false

/-- A field that is read as it was printed. -/
structure Field.Plain (f : Field) : Prop where
  key : IsKey f.key
  value : f.value.Plain

variable {key pre tail rest : CString} {f : Field} {fs : List Field} {v : Value}

theorem print_cons_append :
    f.print ++ rest = 34 :: (f.key ++ 34 :: (58 :: 32 :: (f.value.raw ++ rest))) := by
  unfold Field.print
  simp

/-- The value begins behind the colon and the blank. -/
theorem dropWhile_raw (plain : v.Plain) :
    (32 :: (v.raw ++ rest)).dropWhile isBlank = v.raw ++ rest := by
  rw [List.dropWhile_cons_of_pos (by decide)]
  cases v with
  | text s => exact List.dropWhile_cons_of_neg (by decide)
  | bare s =>
    obtain ⟨-, c, t, rfl, hc⟩ := plain
    exact List.dropWhile_cons_of_neg (by rw [hc]; exact Bool.false_ne_true)

/-- From the quote before a key the colon is reached, and behind it the value. -/
theorem behind_print (plain : f.Plain) :
    behind 58 (f.print ++ rest) = some (32 :: (f.value.raw ++ rest)) := by
  rw [print_cons_append, behind_cons_ne (by decide), behind_append plain.key.colon,
    behind_cons_ne (by decide), behind_cons_self]

/-- The search at one field. -/
theorem strstr_print (hkey : IsKey key) (plain : f.Plain) :
    strstr (34 :: (key ++ [34])) (f.print ++ (sep ++ 34 :: rest)) =
      if f.key = key then some (f.print ++ (sep ++ 34 :: rest))
      else if f.value = .text key then some (34 :: (key ++ 34 :: (sep ++ 34 :: rest)))
      else strstr (34 :: (key ++ [34])) (34 :: rest) := by
  rw [print_cons_append, strstr_quoted hkey.quote plain.key.quote]
  by_cases own : f.key = key
  · rw [if_pos own, if_pos own]
  rw [if_neg own, if_neg own]
  have value := plain.value
  cases hv : f.value with
  | text s =>
    rw [hv] at value
    have colon : [58, 32] ≠ key := fun e => hkey.colon (e ▸ List.mem_cons_self)
    have split : (34 : UInt8) :: 58 :: 32 :: ((Value.text s).raw ++ (sep ++ 34 :: rest)) =
        34 :: ([58, 32] ++ 34 :: (s ++ 34 :: (sep ++ 34 :: rest))) := by simp [Value.raw]
    rw [split, strstr_quoted hkey.quote (by decide), if_neg colon, strstr_quoted hkey.quote value]
    by_cases hs : s = key
    · rw [if_pos hs, if_pos (by rw [hs]), hs]
    · rw [if_neg hs, if_neg (by simpa using hs), strstr_quoted hkey.quote (by decide),
        if_neg (Ne.symm hkey.notSep)]
  | bare s =>
    rw [hv] at value
    have colon : 58 :: 32 :: (s ++ sep) ≠ key := fun e => hkey.colon (e ▸ List.mem_cons_self)
    have quote : 34 ∉ 58 :: 32 :: (s ++ sep) := by
      have inSep : (34 : UInt8) ∉ sep := by decide
      simp [value.1, inSep]
    have split : (34 : UInt8) :: 58 :: 32 :: ((Value.bare s).raw ++ (sep ++ 34 :: rest)) =
        34 :: ((58 :: 32 :: (s ++ sep)) ++ 34 :: rest) := by simp [Value.raw]
    rw [split, strstr_quoted hkey.quote quote, if_neg colon, if_neg (by simp)]

/-- What stands behind a value that was found: the tail or a separator, and the value of the last field
does not come before it. -/
structure Rest (fs : List Field) (tail : CString) (v : Value) (rest : CString) : Prop where
  next : rest = tail ∨ ∃ more, rest = sep ++ more
  last : ∀ last ∈ fs.getLast?, last.value.raw ++ tail <:+ v.raw ++ rest

theorem Rest.cons (g : Field) (h : Rest (f :: fs) tail v rest) : Rest (g :: f :: fs) tail v rest :=
  ⟨h.next, fun last hlast => h.last last (by rwa [List.getLast?_cons_cons] at hlast)⟩

theorem value_suffix_print : f.value.raw ++ rest <:+ f.print ++ rest :=
  ⟨34 :: (f.key ++ [34, 58, 32]), by rw [print_cons_append]; simp⟩

theorem exists_print_cons (f : Field) (fs : List Field) (tail : CString) :
    ∃ rest, print (f :: fs) ++ tail = f.print ++ rest ∧ Rest (f :: fs) tail f.value rest := by
  induction fs generalizing f with
  | nil =>
    refine ⟨tail, rfl, Or.inl rfl, ?_⟩
    intro last hlast
    obtain rfl := Option.some.inj hlast
    exact List.suffix_rfl
  | cons g fs ih =>
    obtain ⟨rest, text, -, later⟩ := ih g
    refine ⟨sep ++ (g.print ++ rest), ?_, Or.inr ⟨_, rfl⟩, ?_⟩
    · rw [print, List.append_assoc, List.append_assoc, text]
    · intro last hlast
      rw [List.getLast?_cons_cons] at hlast
      exact (later last hlast).trans (value_suffix_print.trans
        ((List.suffix_append sep _).trans (List.suffix_append f.value.raw _)))

theorem print_cons_eq : f.print ++ rest = 34 :: (f.print ++ rest).tail := by
  rw [print_cons_append]
  rfl

/-- A field whose key is the one looked for is found. -/
theorem strstr_print_own (hkey : IsKey key) (own : f.key = key) :
    strstr (34 :: (key ++ [34])) (f.print ++ rest) = some (f.print ++ rest) := by
  rw [print_cons_append, own, strstr_quoted hkey.quote hkey.quote, if_pos rfl]

/-- Where a search for the key ends, and what stands behind the next colon. -/
theorem strstr_print_fields (tail : CString) (hkey : IsKey key) (plain : ∀ f ∈ fs, f.Plain)
    (found : lookup key fs = some v) :
    ∃ pos rest, strstr (34 :: (key ++ [34])) (print fs ++ tail) = some pos ∧
      behind 58 pos = some (32 :: (v.raw ++ rest)) ∧ v.Plain ∧ Rest fs tail v rest := by
  induction fs using print.induct with
  | case1 => cases found
  | case2 f =>
    have hf := plain f (List.mem_singleton_self f)
    obtain ⟨rest, text, hrest⟩ := exists_print_cons f [] tail
    unfold lookup at found
    split_ifs at found with own value
    · obtain rfl := Option.some.inj found
      exact ⟨_, rest, text ▸ strstr_print_own hkey own, behind_print hf, hf.value, hrest⟩
    · cases found
    · cases found
  | case3 f g fs ih =>
    have hf := plain f List.mem_cons_self
    have hg := plain g (List.mem_cons_of_mem f List.mem_cons_self)
    obtain ⟨rest, next, hrest⟩ := exists_print_cons g fs tail
    obtain ⟨rest₀, text, hrest₀⟩ := exists_print_cons f (g :: fs) tail
    have both : f.print ++ rest₀ = f.print ++ (sep ++ (g.print ++ rest)) := by
      rw [← text, ← next, print, List.append_assoc, List.append_assoc]
    obtain rfl := List.append_cancel_left both
    rw [text, print_cons_eq (f := g), strstr_print hkey hf]
    rw [← print_cons_eq]
    unfold lookup at found
    split_ifs at found ⊢ with own value
    · obtain rfl := Option.some.inj found
      exact ⟨_, _, rfl, behind_print hf, hf.value, hrest₀⟩
    · obtain rfl := Option.some.inj found
      refine ⟨_, rest, rfl, ?_, hg.value, hrest.cons f⟩
      rw [behind_cons_ne (by decide), behind_append hkey.colon, behind_cons_ne (by decide),
        behind_append (by decide), behind_print hg]
    · rw [← next]
      obtain ⟨pos, rest', search, colon, value, later⟩ :=
        ih (fun x hx => plain x (List.mem_cons_of_mem f hx)) found
      exact ⟨pos, rest', search, colon, value, later.cons f⟩

/-- The value a search finds is where the reader looks for it. -/
theorem valueOf_print (tail : CString) (hkey : IsKey key) (plain : ∀ f ∈ fs, f.Plain)
    (found : lookup key fs = some v) (hpre : 34 ∉ pre) :
    ∃ rest, valueOf key (pre ++ (print fs ++ tail)) = some (v.raw ++ rest) ∧ v.Plain ∧
      Rest fs tail v rest := by
  obtain ⟨pos, rest, search, colon, value, hrest⟩ := strstr_print_fields tail hkey plain found
  refine ⟨rest, ?_, value, hrest⟩
  unfold valueOf
  rw [strstr_append hpre, search, Option.bind_eq_bind, Option.bind_some, colon,
    Option.bind_some, dropWhile_raw value]
  rfl

/-! ## What is read -/

/-- The text a reader of texts takes a value for. -/
def Value.asText (size : ℕ) : Value → CString
  | text s => if s.length < size then s else []
  | bare _ => []

theorem readText_print (hkey : IsKey key) (plain : ∀ f ∈ fs, f.Plain)
    (found : lookup key fs = some v) (hpre : 34 ∉ pre) (size : ℕ) :
    readText size key (pre ++ (print fs ++ tail)) = v.asText size := by
  obtain ⟨rest, value, plainValue, -⟩ := valueOf_print tail hkey plain found hpre
  unfold readText
  rw [value]
  cases v with
  | text s =>
    have split : (Value.text s).raw ++ rest = 34 :: (s ++ 34 :: rest) := by simp [Value.raw]
    have inside : (s ++ 34 :: rest).takeWhile (· != 34) = s :=
      takeWhile_append_stop (fun c hc => bne_iff_ne.2 fun e => plainValue (e ▸ hc))
        fun c hc => by
          obtain rfl := Option.some.inj hc
          rfl
    rw [split]
    show (if 34 ∈ s ++ 34 :: rest ∧ ((s ++ 34 :: rest).takeWhile (· != 34)).length < size then
      (s ++ 34 :: rest).takeWhile (· != 34) else []) = _
    rw [inside]
    simp [Value.asText]
  | bare s =>
    obtain ⟨quote, c, t, rfl, -⟩ := plainValue
    have hc : c ≠ 34 := fun e => quote (e ▸ List.mem_cons_self)
    unfold Value.raw
    rw [List.cons_append]
    split
    · rename_i h
      exact absurd (List.cons.inj (Option.some.inj h)).1 hc
    · rfl

/-- The number a reader of numbers takes a value for. -/
def Value.IsNumber (n : ℤ) : Value → Prop
  | text _ => n = 0
  | bare s => s = decimal n

theorem ends_of_next (htail : ∀ c ∈ tail.head?, isDigit c = false)
    (next : rest = tail ∨ ∃ more, rest = sep ++ more) : ∀ c ∈ rest.head?, isDigit c = false := by
  rcases next with rfl | ⟨more, rfl⟩
  · exact htail
  · intro c hc
    obtain rfl := Option.some.inj hc
    rfl

theorem readLong_print (hkey : IsKey key) (plain : ∀ f ∈ fs, f.Plain)
    (found : lookup key fs = some v) (hpre : 34 ∉ pre)
    (htail : ∀ c ∈ tail.head?, isDigit c = false) {n : ℤ} (number : v.IsNumber n) (range : IsLong n) :
    readLong key (pre ++ (print fs ++ tail)) = n := by
  obtain ⟨rest, value, -, hrest⟩ := valueOf_print tail hkey plain found hpre
  unfold readLong atol
  rw [value, Option.map_some, Option.getD_some]
  cases v with
  | text s =>
    obtain rfl := number
    rfl
  | bare s =>
    obtain rfl := number
    rw [show (Value.bare (decimal n)).raw = decimal n from rfl,
      scanLong_decimal range (ends_of_next htail hrest.next), Option.getD_some]

theorem readInt_print (hkey : IsKey key) (plain : ∀ f ∈ fs, f.Plain)
    (found : lookup key fs = some v) (hpre : 34 ∉ pre)
    (htail : ∀ c ∈ tail.head?, isDigit c = false) {n : ℤ} (number : v.IsNumber n) (range : IsInt n) :
    readInt key (pre ++ (print fs ++ tail)) = n := by
  obtain ⟨rest, value, -, hrest⟩ := valueOf_print tail hkey plain found hpre
  unfold readInt atoi
  rw [value, Option.map_some, Option.getD_some]
  cases v with
  | text s =>
    obtain rfl := number
    rfl
  | bare s =>
    obtain rfl := number
    rw [show (Value.bare (decimal n)).raw = decimal n from rfl,
      scanInt_decimal range (ends_of_next htail hrest.next), Option.getD_some]

/-- A `true` at the end is found from every key. -/
theorem readBool_print (hkey : IsKey key) (plain : ∀ f ∈ fs, f.Plain)
    (found : lookup key fs = some v) (hpre : 34 ∉ pre) (last : Field) (hlast : fs.getLast? = some last)
    (true_ : last.value = .bare (ascii "true")) :
    readBool key (pre ++ (print fs ++ tail)) = true := by
  obtain ⟨rest, value, -, hrest⟩ := valueOf_print tail hkey plain found hpre
  have later := hrest.last last hlast
  rw [true_] at later
  unfold readBool
  rw [value, Option.map_some, Option.getD_some, strstr_isSome_iff]
  exact (List.prefix_append _ tail).isInfix.trans later.isInfix

/-! ## Quotes in a value -/

/-- A value with a quote in it is printed as the value up to there and a tail. -/
theorem exists_print_quote (before after : List Field) (key a b tail : CString) :
    ∃ tail', print (before ++ ⟨key, .text (a ++ 34 :: b)⟩ :: after) ++ tail =
      print (before ++ [⟨key, .text a⟩]) ++ tail' := by
  induction before with
  | nil =>
    obtain ⟨rest, text, -⟩ := exists_print_cons ⟨key, .text (a ++ 34 :: b)⟩ after tail
    refine ⟨b ++ 34 :: rest, ?_⟩
    rw [List.nil_append, List.nil_append, text]
    simp [print, Field.print, Value.raw]
  | cons f before ih =>
    obtain ⟨tail', text⟩ := ih
    refine ⟨tail', ?_⟩
    cases before with
    | nil =>
      rw [List.nil_append, List.nil_append] at text
      rw [List.cons_append, List.nil_append, List.cons_append, List.nil_append, print, print,
        List.append_assoc, List.append_assoc, List.append_assoc, List.append_assoc, text]
    | cons g before =>
      rw [List.cons_append, List.cons_append] at text
      rw [List.cons_append, List.cons_append, List.cons_append, List.cons_append, print, print,
        List.append_assoc, List.append_assoc, List.append_assoc, List.append_assoc, text]

/-- A value with a quote in it is not read back. -/
theorem readText_ne_of_quote (before : List Field) {after : List Field} {s : CString}
    (hkey : IsKey key) (plain : ∀ f ∈ before, f.Plain) (quote : 34 ∈ s)
    (first : ∀ a, lookup key (before ++ [⟨key, .text a⟩]) = some (.text a)) (hpre : 34 ∉ pre)
    (size : ℕ) :
    readText size key (pre ++ (print (before ++ ⟨key, .text s⟩ :: after) ++ tail)) ≠ s := by
  obtain ⟨a, b, rfl, ha⟩ := List.eq_append_cons_of_mem quote
  obtain ⟨tail', text⟩ := exists_print_quote before after key a b tail
  have plain' : ∀ f ∈ before ++ [(⟨key, .text a⟩ : Field)], f.Plain := by
    intro f hf
    rcases List.mem_append.1 hf with hf | hf
    · exact plain f hf
    · obtain rfl := List.mem_singleton.1 hf
      exact ⟨hkey, ha⟩
  rw [text, readText_print hkey plain' (first a) hpre]
  intro same
  have upTo : (Value.text a).asText size = if a.length < size then a else [] := rfl
  rw [upTo] at same
  have length := congrArg List.length same
  split_ifs at length
  · simp at length
  · simp at length

end FlatJson
