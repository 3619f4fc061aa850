import Orcashi.Lib.FlatJson
import Orcashi.Lib.TextLines
import Orcashi.PeerId

/-!
# The answer of a gateway

`upnp_parse_response` reads an SSDP answer.  It searches the names of headers in the whole text, and ends
the text in place behind the value of the LOCATION header before it searches the others.
-/

namespace Orcashi

open CMemory FlatJson

/-! ## The code -/

/-- What `upnp_parse_response` assigns of a `UPnPGatewayInfo`. -/
structure UPnPGatewayInfo where
  server : CString
  model : CString
  lanIp : CString
  valid : Bool
  discoveredAt : Time
  deriving DecidableEq

/-- `UPnPGatewayInfo info = {0}`. -/
def UPnPGatewayInfo.zero : UPnPGatewayInfo := ⟨[], [], [], false, 0⟩

/-- `strchr(p, '\r')`, and `strchr(p, '\n')` where there is none. -/
def lineEnd (p : CString) : Option CString := (strstr [13] p).or (strstr [10] p)

/-- What lies between two pointers into one string. -/
def between (p end_ : CString) : CString := p.take (p.length - end_.length)

/-- The `lan_ip` made of a URL behind its `http://`. -/
def lanIpOf (urlStart : CString) : CString :=
  match strstr [58] urlStart, strstr [47] urlStart with
  | some portStart, none => cut inetAddrStrLen (between urlStart portStart)
  | some portStart, some pathStart =>
    -- `port_start < path_start`
    if pathStart.length < portStart.length then cut inetAddrStrLen (between urlStart portStart)
    else cut inetAddrStrLen (between urlStart pathStart)
  | none, some pathStart => cut inetAddrStrLen (between urlStart pathStart)
  | none, none => cut inetAddrStrLen urlStart

/-- What stands from a pointer up to the end of its line, if the line ends. -/
def upToLineEnd (p : CString) : Option CString := (lineEnd p).map (between p)

/-- The block under "Parse SERVER header". -/
def parseServer (buffer : CString) (info : UPnPGatewayInfo) : UPnPGatewayInfo :=
  let value := do
    let server ← (strstr (ascii "SERVER:") buffer).or (strstr (ascii "Server:") buffer)
    upToLineEnd ((server.drop 7).dropWhile isBlank)
  value.elim info fun value => { info with server := cut 128 value }

/-- The block under "Parse USN for model info". -/
def parseUsn (buffer : CString) (info : UPnPGatewayInfo) : UPnPGatewayInfo :=
  let value := do
    let usn ← strstr (ascii "USN:") buffer
    let modelStart ← strstr (ascii "::") ((usn.drop 4).dropWhile isBlank)
    upToLineEnd (modelStart.drop 2)
  value.elim info fun value => { info with model := cut 64 value }

/-- `upnp_parse_response`: its value, and what it leaves in `info`. -/
def upnpParseResponse (now : Time) (buffer : Bytes) (len : ℤ) (info : UPnPGatewayInfo) :
    ℤ × UPnPGatewayInfo :=
  let text := strAt buffer 0
  if len ≤ 0 then (-1, info)
  else if (strstr (ascii "HTTP/1.1 200 OK") text).isNone ∧
      (strstr (ascii "HTTP/1.0 200 OK") text).isNone then (-1, info)
  else
    let read := do
      let location ← (strstr (ascii "LOCATION:") text).or (strstr (ascii "Location:") text)
      let location := (location.drop 9).dropWhile isBlank
      let end_ ← lineEnd location
      -- `*end = '\0'`: for all that follows the buffer ends here
      let text := between text end_
      let url ← strstr (ascii "http://") (between location end_)
      some (parseUsn text (parseServer text { info with lanIp := lanIpOf (url.drop 7) }))
    read.elim (-1, info) fun info => (0, { info with valid := true, discoveredAt := now })

/-! ## Values in a line -/

section Values

variable {line r rest v text a b : CString}

theorem between_append (text rest : CString) : between (text ++ rest) rest = text := by
  unfold between
  rw [List.length_append, Nat.add_sub_cancel, List.take_left]

theorem lineEnd_cons (cr : 13 ∉ v) (rest : CString) : lineEnd (v ++ 13 :: rest) = some (13 :: rest) := by
  unfold lineEnd
  rw [strstr_singleton cr]
  rfl

theorem upToLineEnd_cons (cr : 13 ∉ v) (rest : CString) : upToLineEnd (v ++ 13 :: rest) = some v := by
  unfold upToLineEnd
  rw [lineEnd_cons cr, Option.map_some, between_append]

/-- A value in the line in which the text ends is not read. -/
theorem upToLineEnd_eq_none (h : IsTextLine v) : upToLineEnd v = none := by
  unfold upToLineEnd lineEnd
  rw [strstr_eq_none_of_not_mem h.cr, strstr_eq_none_of_not_mem h.lf]
  rfl

/-- What stands behind a name of `n` characters and blanks. -/
def skipName (n : ℕ) (r : CString) : CString := (r.drop n).dropWhile isBlank

theorem skipName_append {n : ℕ} (name : n ≤ r.length) (rest : CString) :
    ((r ++ 13 :: rest).drop n).dropWhile isBlank = skipName n r ++ 13 :: rest := by
  have stops (t : CString) : (t ++ 13 :: rest).dropWhile isBlank = t.dropWhile isBlank ++ 13 :: rest := by
    induction t with
    | nil => rfl
    | cons c t ih =>
      by_cases hc : isBlank c = true
      · rw [List.cons_append, List.dropWhile_cons_of_pos hc, List.dropWhile_cons_of_pos hc, ih]
      · rw [List.cons_append, List.dropWhile_cons_of_neg hc, List.dropWhile_cons_of_neg hc,
          List.cons_append]
  rw [List.drop_append_of_le_length name]
  exact stops _

theorem skipName_sublist (n : ℕ) (r : CString) : (skipName n r).Sublist r :=
  (List.dropWhile_sublist _).trans (List.drop_sublist n r)

theorem sublist_of_strstr {needle : CString} (h : strstr needle line = some r) : r.Sublist line :=
  (strstr_eq_some h).2.sublist

theorem length_le_of_strstr {needle : CString} (h : strstr needle line = some r) :
    needle.length ≤ r.length :=
  (strstr_eq_some h).1.length_le

end Values

/-! ## The host -/

/-- A URL up to its `:`, its `/` or its end. -/
def hostPart (url : CString) : CString := url.takeWhile fun c => c != 58 && c != 47

theorem strstr_char (c : UInt8) (t : CString) :
    (c ∉ t ∧ strstr [c] t = none) ∨ ∃ a b, t = a ++ c :: b ∧ c ∉ a ∧ strstr [c] t = some (c :: b) := by
  by_cases mem : c ∈ t
  · obtain ⟨a, b, rfl, first⟩ := List.eq_append_cons_of_mem mem
    exact Or.inr ⟨a, b, rfl, first, strstr_singleton first⟩
  · exact Or.inl ⟨mem, strstr_eq_none_of_not_mem mem⟩

theorem hostPart_append {a b : CString} {c : UInt8} (port : 58 ∉ a) (path : 47 ∉ a) (stop : c = 58 ∨ c = 47) :
    hostPart (a ++ c :: b) = a := by
  have inside : ∀ x ∈ a, (x != 58 && x != 47) = true := by
    intro x hx
    rw [Bool.and_eq_true, bne_iff_ne, bne_iff_ne]
    exact ⟨fun e => port (e ▸ hx), fun e => path (e ▸ hx)⟩
  have ends : (c :: b).takeWhile (fun x => x != 58 && x != 47) = [] :=
    List.takeWhile_cons_of_neg (by rcases stop with rfl | rfl <;> decide)
  unfold hostPart
  rw [List.takeWhile_append_of_pos inside, ends, List.append_nil]

/-- What stands first has nothing of what stands later before it. -/
theorem not_mem_of_first {a b a' b' : CString} {c c' : UInt8} (same : a ++ c :: b = a' ++ c' :: b')
    (absent : c' ∉ a') (shorter : a.length ≤ a'.length) : c' ∉ a := by
  have part : a <+: a' :=
    List.prefix_of_prefix_length_le (List.prefix_append a _) (same ▸ List.prefix_append a' _) shorter
  exact fun mem => absent (part.subset mem)

theorem lanIpOf_eq (url : CString) : lanIpOf url = cut inetAddrStrLen (hostPart url) := by
  unfold lanIpOf
  rcases strstr_char 58 url with ⟨noPort, port⟩ | ⟨a, b, hport, first, port⟩ <;>
    rcases strstr_char 47 url with ⟨noPath, path⟩ | ⟨a', b', hpath, first', path⟩
  · have whole : hostPart url = url := by
      unfold hostPart
      rw [List.takeWhile_eq_self_iff]
      intro x hx
      rw [Bool.and_eq_true, bne_iff_ne, bne_iff_ne]
      exact ⟨fun e => noPort (e ▸ hx), fun e => noPath (e ▸ hx)⟩
    rw [port, path, whole]
  · rw [port, path]
    dsimp only
    subst hpath
    have before : 58 ∉ a' := fun mem => noPort (List.mem_append_left _ mem)
    rw [between_append, hostPart_append before first' (Or.inr rfl)]
  · rw [port, path]
    dsimp only
    subst hport
    have before : 47 ∉ a := fun mem => noPath (List.mem_append_left _ mem)
    rw [between_append, hostPart_append first before (Or.inl rfl)]
  · have same := hport.symm.trans hpath
    have total := congrArg List.length same
    rw [List.length_append, List.length_append, List.length_cons, List.length_cons] at total
    rw [port, path]
    dsimp only
    rw [List.length_cons, List.length_cons]
    by_cases nearer : b'.length + 1 < b.length + 1
    · have before := not_mem_of_first same first' (by omega)
      rw [if_pos nearer, hport, between_append, hostPart_append first before (Or.inl rfl)]
    · have before := not_mem_of_first same.symm first (by omega)
      rw [if_neg nearer, hpath, between_append, hostPart_append before first' (Or.inr rfl)]

end Orcashi
