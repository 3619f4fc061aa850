import Orcashi.Lib.StringCopy
import Orcashi.Lib.Strstr
import Orcashi.Lib.Trim
import Orcashi.MixedId

/-!
# Asking for the public address

`orcashi_get_public_ip` asks three services, one after the other, for the page that shows the address
they are called from.  What a service sends is collected in an array, and what stands behind the headers,
without the blanks around it, is copied into the array of the address.  The length of a chunk is not
looked at before it is stored, nor is the text before it is copied.
-/

namespace Orcashi

open CMemory

/-! ## The code -/

/-- What one call of `recv` puts into `buffer`. -/
structure Chunk where
  bytes : Bytes
  pos : 0 < bytes.length
  le : bytes.length ≤ 4095

/-- What a service that could be connected to sends, and what lies behind `response` in memory. -/
structure Answer where
  chunks : List Chunk
  behind : Bytes

/-- `sizeof(response)`. -/
def pageSize : ℕ := 8192

/-- The loop around `recv`; none where a chunk is stored outside `response`. -/
def receivePage (response : Bytes) (total : ℕ) : List Chunk → Option Bytes
  | [] => some response
  | chunk :: chunks =>
    if total < pageSize - 1 then do
      let response ← memcpy response total chunk.bytes
      receivePage response (total + chunk.bytes.length) chunks
    else some response

/-- The characters the trimming loops pass over. -/
def isWhite (c : UInt8) : Bool := c == 10 || c == 13 || c == 32 || c == 9

/-- `strstr(response, "\r\n\r\n") + 4`. -/
def bodyAt (mem : Bytes) : Option ℕ :=
  (strstr (ascii "\r\n\r\n") (strAt mem 0)).map fun rest => (strAt mem 0).length - rest.length + 4

/-- Where the trimming loop starts: `body + strlen(body) - 1`. -/
def lastOf (mem : Bytes) (body : ℕ) : ℕ := body + (strAt mem body).length - 1

/-- The text one answer yields, empty if the next service is asked; none where a byte is stored outside
`response`. -/
def answerText (answer : Answer) : Option CString := do
  let response ← receivePage (List.replicate pageSize 0) 0 answer.chunks
  let mem := response ++ answer.behind
  match bodyAt mem with
  | none => some []
  | some body =>
    let last := trimEnd isWhite mem body (lastOf mem body)
    let response ← storeByte response (last + 1) 0
    some ((strAt (response ++ answer.behind) body).dropWhile isWhite)

/-- The array `ip`. -/
abbrev IpArray := { ip : Bytes // ip.length = inetAddrStrLen }

/-- The loop over the services; `none` stands for a service that cannot be connected to. -/
def askServices (ip : IpArray) : List (Option Answer) → Option CString
  | [] => (strcpy ip.val (ascii "127.0.0.1")).map fun ip => strAt ip 0
  | none :: answers => askServices ip answers
  | some answer :: answers => do
    let text ← answerText answer
    if text ≠ [] then (strcpy ip.val text).map fun ip => strAt ip 0 else askServices ip answers

/-- The servers that are asked. -/
def services : List CString := [ascii "api.ipify.org", ascii "icanhazip.com", ascii "ifconfig.me"]

/-- The request to a server. -/
def httpRequest (host : CString) : CString :=
  cut 256 (ascii "GET / HTTP/1.1\r\nHost: " ++ host ++ ascii "\r\nConnection: close\r\n\r\n")

/-- `orcashi_get_public_ip`: the string it returns; none where it stores outside its arrays.  `net` gives
what a host answers to a request. -/
def orcashiGetPublicIp (net : CString → CString → Option Answer) (ip : IpArray) : Option CString :=
  askServices ip (services.map fun host => net host (httpRequest host))

/-! ## The page that is stored -/

/-- The bytes the loop stores when it has stored `total` before. -/
def storedBytes (total : ℕ) : List Chunk → Bytes
  | [] => []
  | chunk :: chunks =>
    if total < pageSize - 1 then chunk.bytes ++ storedBytes (total + chunk.bytes.length) chunks else []

theorem receivePage_eq (A R : Bytes) (chunks : List Chunk) :
    receivePage (A ++ R) A.length chunks =
      if (storedBytes A.length chunks).length ≤ R.length then
        some (A ++ (storedBytes A.length chunks ++ R.drop (storedBytes A.length chunks).length))
      else none := by
  induction chunks generalizing A R with
  | nil => simp [receivePage, storedBytes]
  | cons chunk chunks ih =>
    unfold receivePage storedBytes
    by_cases more : A.length < pageSize - 1
    · rw [if_pos more, if_pos more, List.length_append]
      by_cases fits : chunk.bytes.length ≤ R.length
      · have next := ih (A ++ chunk.bytes) (R.drop chunk.bytes.length)
        rw [List.length_append, List.append_assoc] at next
        rw [memcpy_append fits rfl, Option.bind_eq_bind, Option.bind_some, next, List.length_drop,
          List.drop_drop]
        by_cases all : (storedBytes (A.length + chunk.bytes.length) chunks).length ≤
            R.length - chunk.bytes.length
        · rw [if_pos all, if_pos (by omega)]
          simp only [List.append_assoc]
        · rw [if_neg all, if_neg (by omega)]
      · rw [if_neg (by omega)]
        unfold memcpy
        rw [List.length_append, if_neg (by omega)]
        rfl
    · rw [if_neg more, if_neg more]
      simp

/-- The array after the loop, with what lies behind it. -/
def pageMemory (answer : Answer) : Bytes :=
  storedBytes 0 answer.chunks ++
    List.replicate (pageSize - (storedBytes 0 answer.chunks).length) 0 ++ answer.behind

/-- The string at `response`. -/
def pageText (answer : Answer) : CString := strAt (pageMemory answer) 0

/-- What stands behind the headers. -/
def bodyText (answer : Answer) : Option CString :=
  (strstr (ascii "\r\n\r\n") (pageText answer)).map fun rest => rest.drop 4

/-- Where in `response` the terminator of the body is stored. -/
def bodyEnd (answer : Answer) (body : CString) : ℕ :=
  (pageText answer).length - body.length + (trimmed isWhite body).length

/-- The chunks are stored inside `response`, and if they fill it the terminator of the body is, too. -/
def Fits (answer : Answer) : Prop :=
  (storedBytes 0 answer.chunks).length < pageSize ∨
    (storedBytes 0 answer.chunks).length = pageSize ∧
      ∀ body, bodyText answer = some body → bodyEnd answer body < pageSize

/-- What stands behind the headers without the blanks around it. -/
def shownText (answer : Answer) : CString := ((bodyText answer).map (stripped isWhite)).getD []

/-! ## What an answer yields -/

section Answers

variable {answer : Answer}

theorem receivePage_zero (answer : Answer) :
    (receivePage (List.replicate pageSize 0) 0 answer.chunks).map (· ++ answer.behind) =
      if (storedBytes 0 answer.chunks).length ≤ pageSize then some (pageMemory answer) else none := by
  have loop := receivePage_eq [] (List.replicate pageSize 0) answer.chunks
  rw [List.nil_append, List.length_nil, List.length_replicate, List.drop_replicate, List.nil_append] at loop
  rw [loop]
  split_ifs <;> rfl

/-- The pointer to the body, and the string there. -/
theorem bodyAt_pageMemory (answer : Answer) :
    (bodyAt (pageMemory answer) = none ∧ bodyText answer = none) ∨
    ∃ pos body, bodyAt (pageMemory answer) = some pos ∧ bodyText answer = some body ∧ 0 < pos ∧
      strAt (pageMemory answer) pos = body ∧ pos = (pageText answer).length - body.length := by
  unfold bodyAt bodyText
  rw [pageText]
  cases found : strstr (ascii "\r\n\r\n") (strAt (pageMemory answer) 0) with
  | none => exact Or.inl ⟨rfl, rfl⟩
  | some rest =>
    obtain ⟨begins, front, whole⟩ := strstr_eq_some found
    have four : 4 ≤ rest.length := begins.length_le
    have total := congrArg List.length whole
    rw [List.length_append] at total
    refine Or.inr ⟨(strAt (pageMemory answer) 0).length - rest.length + 4, rest.drop 4, rfl, rfl,
      Nat.succ_pos _, ?_, ?_⟩
    · have here := @strAt_add (pageMemory answer) 0
        ((strAt (pageMemory answer) 0).length - rest.length + 4) (by rw [← total]; omega)
      rw [Nat.zero_add] at here
      rw [here, ← List.drop_drop, ← whole, List.length_append, Nat.add_sub_cancel, List.drop_left]
    · rw [List.length_drop, ← total]
      omega

theorem length_pageText_lt (short : (storedBytes 0 answer.chunks).length < pageSize) :
    (pageText answer).length < pageSize := by
  have nul : (pageMemory answer)[(storedBytes 0 answer.chunks).length]? = some 0 := by
    unfold pageMemory
    rw [List.append_assoc, List.getElem?_append_right (Nat.le_refl _), Nat.sub_self,
      List.getElem?_append_left (by rw [List.length_replicate]; omega), List.getElem?_replicate,
      if_pos (by omega)]
  have stops := length_strAt_le (Nat.zero_le _) nul
  unfold pageText
  omega

theorem bodyEnd_lt (fits : Fits answer) {body : CString} (found : bodyText answer = some body) :
    bodyEnd answer body < pageSize := by
  rcases fits with short | ⟨-, inside⟩
  · have text := length_pageText_lt short
    have part := (@isPrefix_trimmed isWhite body).length_le
    obtain ⟨rest, hrest, rfl⟩ := Option.map_eq_some_iff.1 found
    have page := (strstr_eq_some hrest).2.length_le
    have tail : (rest.drop 4).length ≤ rest.length := by simp
    unfold bodyEnd
    omega
  · exact inside body found

theorem answerText_of_overflow (overflow : ¬ (storedBytes 0 answer.chunks).length ≤ pageSize) :
    answerText answer = none := by
  have received := receivePage_zero answer
  rw [if_neg overflow, Option.map_eq_none_iff] at received
  unfold answerText
  rw [received]
  rfl

/-- What is received is stored; the terminator of the body may still be outside. -/
theorem answerText_of_filled (fill : (storedBytes 0 answer.chunks).length ≤ pageSize) :
    answerText answer = (bodyText answer).elim (some []) fun body =>
      if bodyEnd answer body < pageSize then some (stripped isWhite body) else none := by
  have received := receivePage_zero answer
  rw [if_pos fill] at received
  obtain ⟨response, hresponse, memory⟩ := Option.map_eq_some_iff.1 received
  have size : response.length = pageSize := by
    have both := congrArg List.length memory
    unfold pageMemory at both
    simp only [List.length_append, List.length_replicate] at both
    omega
  unfold answerText
  rw [hresponse, Option.bind_eq_bind, Option.bind_some]
  dsimp only
  rw [memory]
  rcases bodyAt_pageMemory answer with ⟨at_, text⟩ | ⟨pos, body, at_, text, front, here, offset⟩
  · rw [at_, text]
    rfl
  · have end_ : pos + (trimmed isWhite body).length = bodyEnd answer body := by
      unfold bodyEnd
      rw [offset]
    rw [at_, text]
    dsimp only
    unfold lastOf storeByte
    rw [trimEnd_strAt front, here, size, end_, Option.elim_some]
    split_ifs with inside
    · have stored : response.set (bodyEnd answer body) 0 ++ answer.behind =
          (pageMemory answer).set (bodyEnd answer body) 0 := by
        rw [← memory, List.set_append_left _ _ (by omega)]
      have trim := @strAt_trimmed isWhite (pageMemory answer) pos front (by
        rw [here, end_, ← memory, List.length_append]
        omega)
      rw [trimEnd_strAt front, here, end_] at trim
      rw [Option.bind_some, stored, trim, dropWhile_trimmed]
    · rfl

/-- An answer that fits yields the text it shows; one that does not is stored outside the array. -/
theorem answerText_eq (answer : Answer) :
    (Fits answer → answerText answer = some (shownText answer)) ∧
      (¬ Fits answer → answerText answer = none) := by
  by_cases fill : (storedBytes 0 answer.chunks).length ≤ pageSize
  swap
  · refine ⟨fun fits => absurd ?_ fill, fun _ => answerText_of_overflow fill⟩
    rcases fits with short | full
    · exact short.le
    · exact full.1.le
  rw [answerText_of_filled fill]
  unfold shownText
  cases text : bodyText answer with
  | none =>
    refine ⟨fun _ => rfl, fun outside => absurd ?_ outside⟩
    refine (Nat.lt_or_eq_of_le fill).imp_right fun full => ⟨full, fun body found => ?_⟩
    rw [text] at found
    cases found
  | some body =>
    refine ⟨fun fits => if_pos (bodyEnd_lt fits text), fun outside => if_neg fun inside => outside ?_⟩
    refine (Nat.lt_or_eq_of_le fill).imp_right fun full => ⟨full, fun body' found => ?_⟩
    rw [text] at found
    rwa [← Option.some.inj found]

end Answers

/-! ## The address -/

theorem strcpy_eq_none {mem : Bytes} {s : CString} (h : mem.length ≤ s.length) : strcpy mem s = none := by
  unfold strcpy memcpy
  rw [if_neg]
  rw [List.length_append, List.length_singleton]
  omega

/-- A text that is copied into the array of the address is returned, if there is room for it. -/
theorem strcpy_returns (ip : IpArray) {s : CString} (hs : 0 ∉ s) :
    ((strcpy ip.val s).map fun ip => strAt ip 0) = if s.length < inetAddrStrLen then some s else none := by
  have size := ip.property
  split_ifs with room
  · rw [strcpy_eq (by omega), Option.map_some, strAt_zero hs]
  · rw [strcpy_eq_none (by omega)]
    rfl

/-- The text of an IPv4 address. -/
def IsIpv4 (s : CString) : Prop := (inetPton s).isSome = true

theorem length_of_isIpv4 {s : CString} (h : IsIpv4 s) : s.length < inetAddrStrLen := by
  obtain ⟨a, parsed⟩ := Option.isSome_iff_exists.1 h
  rw [inetNtop_of_inetPton parsed]
  exact length_inetNtop_lt a

theorem zero_not_mem_shownText (answer : Answer) : 0 ∉ shownText answer := by
  intro nul
  unfold shownText at nul
  obtain ⟨body, found, inside⟩ : ∃ body, bodyText answer = some body ∧ 0 ∈ stripped isWhite body := by
    cases h : bodyText answer with
    | none =>
      rw [h] at nul
      cases nul
    | some body =>
      rw [h] at nul
      exact ⟨body, rfl, nul⟩
  obtain ⟨rest, found', rfl⟩ := Option.map_eq_some_iff.1 found
  have page : (0 : UInt8) ∈ pageText answer :=
    (strstr_eq_some found').2.subset (List.mem_of_mem_drop ((List.rdropWhile_prefix _ _).subset
      ((List.dropWhile_suffix _).subset inside)))
  unfold pageText strAt at page
  have nonzero := List.mem_takeWhile_imp page
  cases nonzero

/-- The first service whose answer shows a text shows an IPv4 address, and what is received up to then
fits. -/
def ShowAddress : List (Option Answer) → Prop
  | [] => True
  | none :: answers => ShowAddress answers
  | some answer :: answers =>
    Fits answer ∧ (shownText answer = [] ∧ ShowAddress answers ∨ IsIpv4 (shownText answer))

/-- The services are asked without a store outside an array, and the string is an address. -/
def YieldsAddress (ip : IpArray) (answers : List (Option Answer)) : Prop :=
  ∃ s, askServices ip answers = some s ∧ (IsIpv4 s ∨ s = ascii "127.0.0.1")

theorem yieldsAddress_iff (ip : IpArray) (answers : List (Option Answer)) :
    YieldsAddress ip answers ↔ ShowAddress answers := by
  have loopback : IsIpv4 (ascii "127.0.0.1") := by
    unfold IsIpv4
    decide
  induction answers with
  | nil =>
    refine iff_of_true ⟨ascii "127.0.0.1", ?_, Or.inr rfl⟩ trivial
    rw [askServices, strcpy_returns ip (by decide)]
    rfl
  | cons asked answers ih =>
    cases asked with
    | none => exact ih
    | some answer =>
      obtain ⟨yields, outside⟩ := answerText_eq answer
      unfold YieldsAddress ShowAddress
      rw [askServices]
      by_cases fits : Fits answer
      swap
      · rw [outside fits]
        exact iff_of_false (fun h => by obtain ⟨s, none_, -⟩ := h; cases none_) fun h => fits h.1
      rw [yields fits, Option.bind_eq_bind, Option.bind_some]
      by_cases empty : shownText answer = []
      · have blank : ¬ IsIpv4 (shownText answer) := by
          rw [empty]
          unfold IsIpv4
          decide
        rw [if_neg (not_not_intro empty)]
        refine ih.trans ⟨fun rest => ⟨fits, Or.inl ⟨empty, rest⟩⟩, fun h => ?_⟩
        exact h.2.elim And.right fun address => absurd address blank
      · rw [if_pos empty, strcpy_returns ip (zero_not_mem_shownText answer)]
        constructor
        · rintro ⟨s, returned, address⟩
          split_ifs at returned
          obtain rfl := Option.some.inj returned
          refine ⟨fits, Or.inr (address.elim id fun same => ?_)⟩
          rw [same]
          exact loopback
        · rintro ⟨-, rest | address⟩
          · exact absurd rest.1 empty
          · exact ⟨shownText answer, if_pos (length_of_isIpv4 address), Or.inl address⟩

/-- The trimming loop goes over this answer without moving before the body. -/
def TrimsInside (answer : Answer) : Prop :=
  ∀ response body, receivePage (List.replicate pageSize 0) 0 answer.chunks = some response →
    bodyAt (response ++ answer.behind) = some body →
      let mem := response ++ answer.behind
      trimEnd isWhite mem body (lastOf mem body) = lastOf mem body ∨
        body ≤ trimEnd isWhite mem body (lastOf mem body)

/-- What the three services answer. -/
def servicesAnswer (net : CString → CString → Option Answer) : List (Option Answer) :=
  services.map fun host => net host (httpRequest host)

/-- The function stays inside `response` and `ip`, trims inside the body, and returns an address. -/
def DownloadBounded (net : CString → CString → Option Answer) (ip : IpArray) : Prop :=
  (∃ s, orcashiGetPublicIp net ip = some s ∧ (IsIpv4 s ∨ s = ascii "127.0.0.1")) ∧
    ∀ answer, some answer ∈ servicesAnswer net → TrimsInside answer

/-- The download is bounded exactly if every answer up to the first that shows a text fits, and that text is
an address. -/
theorem download_bounded_iff (net : CString → CString → Option Answer) (ip : IpArray) :
    DownloadBounded net ip ↔ ShowAddress (servicesAnswer net) := by
  refine Iff.trans (and_iff_left ?_) (yieldsAddress_iff ip (servicesAnswer net))
  intro answer _ response body _ _
  exact trimEnd_stays isWhite _ body _

/-- The array before the first call. -/
def IpArray.zero : IpArray := ⟨List.replicate inetAddrStrLen 0, List.length_replicate⟩

/-- As much as one call of `recv` can bring. -/
def Chunk.full : Chunk where
  bytes := List.replicate 4095 65
  pos := List.length_replicate.symm ▸ Nat.succ_pos _
  le := List.length_replicate.le

theorem Chunk.length_full : Chunk.full.bytes.length = 4095 := List.length_replicate

/-- A page without an address. -/
def Chunk.page : Chunk where
  bytes := ascii "HTTP/1.1 503 Service Unavailable\r\n\r\nbusy\n"
  pos := by decide
  le := by decide

/-- Three full chunks are stored outside `response`, and whatever a page shows is taken for an address. -/
theorem download_not_bounded :
    ¬ DownloadBounded (fun _ _ => some ⟨[.full, .full, .full], []⟩) IpArray.zero ∧
      ¬ DownloadBounded (fun _ _ => some ⟨[.page], []⟩) IpArray.zero := by
  constructor
  · rintro ⟨yields, -⟩
    obtain ⟨fits, -⟩ := (yieldsAddress_iff _ _).1 yields
    have stored : (storedBytes 0 [.full, .full, .full]).length = 12285 := by
      simp [storedBytes, pageSize, Chunk.length_full]
    unfold Fits pageSize at fits
    rw [stored] at fits
    omega
  · rintro ⟨yields, -⟩
    obtain ⟨-, shown⟩ := (yieldsAddress_iff _ _).1 yields
    have text : shownText ⟨[.page], []⟩ = ascii "busy" := by decide +kernel
    rw [text] at shown
    rcases shown with ⟨empty, -⟩ | address
    · cases empty
    · exact absurd address (by unfold IsIpv4; decide)

end Orcashi
