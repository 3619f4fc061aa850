import Mathlib.Data.Int.Order.Basic
import Orcashi.Lib.Recency
import Orcashi.PeerId

/-!
# The blacklist of the DHT

64 slots hold the addresses to ignore, each with the second in which it was added last.  An address that is
added again gets a new time and stays in its slot.  For a new one, when all slots are taken, the first slot
with the earliest time is given up.  Among addresses of the same second this need not be the one that was
added first.
-/

namespace Orcashi

open Recency

/-! ## The slots -/

/-- The `salen` bytes of an address, which a `struct sockaddr_storage` has room for. -/
abbrev SockAddrBytes := { b : Bytes // 0 < b.length ∧ b.length ≤ 128 }

/-- A slot, or a call of `dht_blacklist_add`. -/
structure BlacklistEntry where
  addr : SockAddrBytes
  addedAt : Time
  deriving DecidableEq

/-- `MAX_BLACKLIST` -/
def maxBlacklist : ℕ := 64

/-- `oldest`, of a blacklist that is full. -/
def oldest (blacklist : List BlacklistEntry) : ℕ :=
  firstLeast (fun i => ((blacklist[i]?.map BlacklistEntry.addedAt).getD 0 : ℤ)) (maxBlacklist - 1)

/-- The slots in use after a call at some time; `sa` is none for `NULL` and where `salen` is not
positive. -/
def dhtBlacklistAdd (now : Time) (sa : Option SockAddrBytes) (blacklist : List BlacklistEntry) :
    List BlacklistEntry :=
  match sa with
  | none => blacklist
  | some sa =>
    match blacklist.findIdx? fun e => e.addr = sa with
    | some i => blacklist.modify i fun e => { e with addedAt := now }
    | none =>
      if blacklist.length < maxBlacklist then blacklist ++ [⟨sa, now⟩]
      else blacklist.set (oldest blacklist) ⟨sa, now⟩

/-- `dht_blacklist_check` -/
def dhtBlacklistCheck (sa : Option SockAddrBytes) (blacklist : List BlacklistEntry) : ℤ :=
  match sa with
  | none => 0
  | some sa => if blacklist.any fun e => e.addr = sa then 1 else 0

/-! ## Sequences of calls -/

/-- The blacklist after some calls, each with its time. -/
def blacklistAfter (adds : List BlacklistEntry) : List BlacklistEntry :=
  adds.foldl (fun blacklist e => dhtBlacklistAdd e.addedAt (some e.addr) blacklist) []

/-- No address is stored twice, and those that are stored were added most recently. -/
structure KeepsRecent (adds : List BlacklistEntry) : Prop where
  distinct : ((blacklistAfter adds).map BlacklistEntry.addr).Nodup
  bounded : (blacklistAfter adds).length ≤ maxBlacklist
  answers (sa : SockAddrBytes) : dhtBlacklistCheck (some sa) (blacklistAfter adds) = 1 ↔
    Recent maxBlacklist (adds.map BlacklistEntry.addr) sa

/-- An address is added for which another one has to go, and the one that was added least recently is not
in the first slot with its time. -/
structure Tied (adds : List BlacklistEntry) (e : BlacklistEntry) : Prop where
  new : e.addr ∉ (blacklistAfter adds).map BlacklistEntry.addr
  full : maxBlacklist ≤ (blacklistAfter adds).length
  tie : ∃ (j k : ℕ) (x y : BlacklistEntry), j < k ∧
    (blacklistAfter adds)[j]? = some x ∧ (blacklistAfter adds)[k]? = some y ∧
    (since (adds.map BlacklistEntry.addr) y.addr).dedup.length = maxBlacklist - 1 ∧
    x.addedAt = y.addedAt

/-! ## One call -/

theorem blacklistAfter_concat (adds : List BlacklistEntry) (e : BlacklistEntry) :
    blacklistAfter (adds ++ [e]) = dhtBlacklistAdd e.addedAt (some e.addr) (blacklistAfter adds) := by
  unfold blacklistAfter
  rw [List.foldl_concat]

theorem check_eq_one_iff {sa : SockAddrBytes} {blacklist : List BlacklistEntry} :
    dhtBlacklistCheck (some sa) blacklist = 1 ↔ sa ∈ blacklist.map BlacklistEntry.addr := by
  unfold dhtBlacklistCheck
  rw [List.mem_map]
  dsimp only
  split_ifs with found
  · refine iff_of_true rfl ?_
    obtain ⟨e, mem, same⟩ := List.any_eq_true.1 found
    exact ⟨e, mem, of_decide_eq_true same⟩
  · refine iff_of_false (by decide) ?_
    rintro ⟨e, mem, same⟩
    exact found (List.any_eq_true.2 ⟨e, mem, decide_eq_true same⟩)

/-- What a call does: the address is there, or there is room, or a slot is given up. -/
theorem add_cases {blacklist : List BlacklistEntry}
    (distinct : (blacklist.map BlacklistEntry.addr).Nodup) (e : BlacklistEntry) :
    (e.addr ∈ blacklist.map BlacklistEntry.addr ∧
      (dhtBlacklistAdd e.addedAt (some e.addr) blacklist).Perm
        (e :: without BlacklistEntry.addr e.addr blacklist)) ∨
    (e.addr ∉ blacklist.map BlacklistEntry.addr ∧ blacklist.length < maxBlacklist ∧
      (dhtBlacklistAdd e.addedAt (some e.addr) blacklist).Perm (e :: blacklist)) ∨
    (e.addr ∉ blacklist.map BlacklistEntry.addr ∧ maxBlacklist ≤ blacklist.length ∧
      dhtBlacklistAdd e.addedAt (some e.addr) blacklist = blacklist.set (oldest blacklist) e) := by
  unfold dhtBlacklistAdd
  dsimp only
  cases found : blacklist.findIdx? fun x => x.addr = e.addr with
  | some i =>
    obtain ⟨inside, same, -⟩ := List.findIdx?_eq_some_iff_getElem.1 found
    have addr : blacklist[i].addr = e.addr := of_decide_eq_true same
    refine Or.inl ⟨addr ▸ List.mem_map_of_mem (List.getElem_mem inside), ?_⟩
    have stored : blacklist.modify i (fun x => { x with addedAt := e.addedAt }) = blacklist.set i e := by
      refine List.ext_getElem? fun j => ?_
      rw [List.getElem?_modify, List.getElem?_set]
      by_cases here : i = j
      · subst here
        rw [if_pos rfl, if_pos inside, List.getElem?_eq_getElem inside, Option.map_eq_map, Option.map_some,
          if_pos rfl, addr]
      · simp [here]
    dsimp only
    rw [stored]
    exact set_perm_without distinct inside addr e
  | none =>
    have new : e.addr ∉ blacklist.map BlacklistEntry.addr := by
      intro mem
      obtain ⟨x, mem, same⟩ := List.mem_map.1 mem
      have := List.findIdx?_eq_none_iff.1 found x mem
      exact of_decide_eq_false this same
    dsimp only
    split_ifs with room
    · exact Or.inr (Or.inl ⟨new, room, List.perm_append_singleton e blacklist⟩)
    · exact Or.inr (Or.inr ⟨new, Nat.not_lt.1 room, rfl⟩)

/-! ## Runs -/

/-- The slots hold the last adds of the addresses that were added most recently. -/
def Stored (adds : List BlacklistEntry) : Prop :=
  Recorded BlacklistEntry.addr maxBlacklist (blacklistAfter adds) adds

/-- The clock does not go back. -/
def Clock (adds : List BlacklistEntry) : Prop := adds.Pairwise fun x y => x.addedAt ≤ y.addedAt

instance (adds : List BlacklistEntry) : Decidable (Clock adds) :=
  inferInstanceAs (Decidable (List.Pairwise _ _))

variable {adds : List BlacklistEntry} {e : BlacklistEntry}

theorem Stored.keepsRecent (stored : Stored adds) : KeepsRecent adds where
  distinct := Recorded.nodup stored
  bounded := Recorded.length_le stored
  answers sa := check_eq_one_iff.trans (Recorded.mem_iff stored sa)

/-- A slot is given up for a new address. -/
theorem stored_of_full (stored : Stored adds) (clock : Clock adds)
    (new : e.addr ∉ (blacklistAfter adds).map BlacklistEntry.addr)
    (full : maxBlacklist ≤ (blacklistAfter adds).length)
    (added : blacklistAfter (adds ++ [e]) = (blacklistAfter adds).set (oldest (blacklistAfter adds)) e) :
    (¬ Tied adds e → Stored (adds ++ [e])) ∧ (Tied adds e → ¬ KeepsRecent (adds ++ [e])) := by
  have recorded : Recorded BlacklistEntry.addr (63 + 1) (blacklistAfter adds) adds := stored
  have length : (blacklistAfter adds).length = 63 + 1 := le_antisymm recorded.length_le full
  have long : 63 < (recency BlacklistEntry.addr adds).length := by
    have := recorded.length_eq
    rw [length, List.length_take] at this
    omega
  have last := List.getElem?_eq_getElem long
  generalize (recency BlacklistEntry.addr adds)[63] = z at last
  have first := recorded.firstLeast_iff BlacklistEntry.addedAt
    (fun i => (((blacklistAfter adds)[i]?.map BlacklistEntry.addedAt).getD 0 : ℤ))
    length clock last fun i x here => by rw [here]; rfl
  change (blacklistAfter adds)[oldest (blacklistAfter adds)]? = some z ↔ _ at first
  have tied : Tied adds e ↔ (blacklistAfter adds)[oldest (blacklistAfter adds)]? ≠ some z := by
    rw [Ne, first]
    constructor
    · rintro ⟨-, -, j, k, x, y, before, hj, hk, least, same⟩ apart
      obtain rfl := (recorded.last_iff last (List.mem_of_getElem? hk)).1 least
      exact apart j k x before hj hk same
    · intro some_
      by_contra untied
      refine some_ fun j k x before hj hk same => untied ⟨new, full, j, k, x, z, before, hj, hk, ?_, same⟩
      exact (recorded.last_iff last (List.mem_of_getElem? hk)).2 rfl
  rw [tied]
  constructor
  · intro here
    rw [not_not] at here
    unfold Stored
    rw [added]
    exact recorded.replace new last here
  · intro elsewhere keeps
    obtain ⟨x, here⟩ : ∃ x, (blacklistAfter adds)[oldest (blacklistAfter adds)]? = some x := by
      refine ⟨_, List.getElem?_eq_getElem ?_⟩
      have := (firstLeast_spec (fun i =>
        (((blacklistAfter adds)[i]?.map BlacklistEntry.addedAt).getD 0 : ℤ)) 63).1
      change oldest (blacklistAfter adds) ≤ 63 at this
      omega
    have ne : x ≠ z := by
      rintro rfl
      exact elsewhere here
    obtain ⟨kept, old⟩ := recorded.misplaced new last here ne
    rw [← added] at kept
    exact old ((keeps.answers z.addr).1 (check_eq_one_iff.2 kept))

/-- One add keeps what is stored right, unless it is tied. -/
theorem stored_concat (stored : Stored adds) (clock : Clock adds) (e : BlacklistEntry) :
    (¬ Tied adds e → Stored (adds ++ [e])) ∧ (Tied adds e → ¬ KeepsRecent (adds ++ [e])) := by
  have recorded : Recorded BlacklistEntry.addr (63 + 1) (blacklistAfter adds) adds := stored
  have concat := blacklistAfter_concat adds e
  rcases add_cases recorded.nodup e with ⟨mem, hit⟩ | ⟨new, room, added⟩ | ⟨new, full, added⟩
  · rw [← concat] at hit
    exact ⟨fun _ => recorded.hit mem hit, fun tied => absurd mem tied.new⟩
  · rw [← concat] at added
    exact ⟨fun _ => recorded.room new (Nat.lt_succ_iff.1 room) added,
      fun tied => absurd room (Nat.not_lt.2 tied.full)⟩
  · rw [← concat] at added
    exact stored_of_full stored clock new full added

theorem Clock.upTo {before : List BlacklistEntry} (clock : Clock adds) (h : before <+: adds) :
    Clock before := clock.sublist h.sublist

/-- A run without a tied add. -/
theorem stored_of_forall (adds : List BlacklistEntry) (clock : Clock adds)
    (clear : ∀ before e, before ++ [e] <+: adds → ¬ Tied before e) : Stored adds := by
  induction adds using List.reverseRecOn with
  | nil => exact List.Perm.refl []
  | append_singleton adds e ih =>
    have first := List.prefix_append adds [e]
    have stored := ih (clock.upTo first) fun before x h => clear before x (h.trans first)
    exact (stored_concat stored (clock.upTo first) e).1 (clear adds e (List.prefix_refl _))

/-- The blacklist keeps the addresses that were added most recently, after every call of a sequence,
exactly if no call of it is tied. -/
theorem keeps_recent_iff (adds : List BlacklistEntry) (clock : Clock adds) :
    (∀ before, before <+: adds → KeepsRecent before) ↔
      ∀ before e, before ++ [e] <+: adds → ¬ Tied before e := by
  constructor
  · intro keeps
    induction adds using List.reverseRecOn with
    | nil =>
      intro before e h
      simp at h
    | append_singleton adds e ih =>
      have first := List.prefix_append adds [e]
      have clear := ih (clock.upTo first) fun before h => keeps before (h.trans first)
      have stored := stored_of_forall adds (clock.upTo first) clear
      intro before x h
      rcases List.prefix_concat_iff.1 h with same | h
      · obtain ⟨rfl, last⟩ := List.append_inj' same rfl
        obtain rfl := List.singleton_inj.1 last
        intro tied
        exact (stored_concat stored (clock.upTo first) x).2 tied (keeps _ (List.prefix_refl _))
      · exact clear before x h
  · intro clear before h
    exact (stored_of_forall before (clock.upTo h) fun before' x h' =>
      clear before' x (h'.trans h)).keepsRecent

/-- A call in second 7, with an address of one byte. -/
def addInSecond (n : UInt8) : BlacklistEntry := ⟨⟨[n], Nat.zero_lt_one, Nat.le_add_left 1 127⟩, 7⟩

/-- 64 addresses, the first one again, and another one, all in one second. -/
def sameSecond : List BlacklistEntry :=
  ((List.range 64).map fun n => addInSecond n.toUInt8) ++ [addInSecond 0, addInSecond 64]

/-- The first address goes, which was added again, and the second one stays. -/
theorem first_address_lost : ¬ KeepsRecent sameSecond ∧ Clock sameSecond ∧
    dhtBlacklistCheck (some (addInSecond 0).addr) (blacklistAfter sameSecond) = 0 ∧
    dhtBlacklistCheck (some (addInSecond 1).addr) (blacklistAfter sameSecond) = 1 := by
  refine ⟨fun keeps => ?_, by decide +kernel, by decide +kernel, by decide +kernel⟩
  have gone : dhtBlacklistCheck (some (addInSecond 0).addr) (blacklistAfter sameSecond) = 0 := by
    decide +kernel
  have recent : Recent maxBlacklist (sameSecond.map BlacklistEntry.addr) (addInSecond 0).addr := by
    unfold Recent
    decide +kernel
  rw [(keeps.answers _).2 recent] at gone
  cases gone

theorem length_add_le (now : Time) (sa : Option SockAddrBytes) (blacklist : List BlacklistEntry) :
    (dhtBlacklistAdd now sa blacklist).length ≤ blacklist.length + 1 := by
  unfold dhtBlacklistAdd
  split
  · exact Nat.le_succ _
  · split
    · rw [List.length_modify]
      exact Nat.le_succ _
    · split_ifs
      · rw [List.length_append, List.length_singleton]
      · rw [List.length_set]
        exact Nat.le_succ _

theorem length_blacklistAfter_le (adds : List BlacklistEntry) :
    (blacklistAfter adds).length ≤ adds.length := by
  induction adds using List.reverseRecOn with
  | nil => exact Nat.le_refl 0
  | append_singleton adds e ih =>
    rw [blacklistAfter_concat, List.length_append, List.length_singleton]
    exact (length_add_le _ _ _).trans (Nat.succ_le_succ ih)

/-- 65 addresses, each in a second of its own. -/
def risingSeconds : List BlacklistEntry :=
  (List.range 65).map fun n : ℕ => ⟨(addInSecond n.toUInt8).addr, 7 + (n : ℤ)⟩

/-- The first address goes, and this is right. -/
theorem rising_adds_kept : Clock risingSeconds ∧
    dhtBlacklistCheck (some (addInSecond 0).addr) (blacklistAfter risingSeconds) = 0 ∧
    ∀ before, before <+: risingSeconds → KeepsRecent before := by
  have clock : Clock risingSeconds := by decide +kernel
  refine ⟨clock, by decide +kernel, (keeps_recent_iff risingSeconds clock).2 ?_⟩
  intro before e h tied
  -- only the last add finds all slots taken, and no two of them have one time
  have few : (before ++ [e]).length ≤ 65 := h.length_le
  rw [List.length_append, List.length_singleton] at few
  have more : 64 ≤ before.length := tied.full.trans (length_blacklistAfter_le before)
  have all : before = risingSeconds.take 64 := by
    rw [List.prefix_iff_eq_take.1 ((List.prefix_append before [e]).trans h), le_antisymm (Nat.le_of_succ_le_succ few) more]
  have rising : (blacklistAfter (risingSeconds.take 64)).Pairwise fun x y => x.addedAt < y.addedAt := by
    decide +kernel
  obtain ⟨j, k, x, y, behind, hj, hk, -, same⟩ := tied.tie
  rw [all] at hj hk
  obtain ⟨_, rfl⟩ := List.getElem?_eq_some_iff.1 hj
  obtain ⟨_, rfl⟩ := List.getElem?_eq_some_iff.1 hk
  exact absurd same (List.pairwise_iff_getElem.1 rising j k _ _ behind).ne

end Orcashi
