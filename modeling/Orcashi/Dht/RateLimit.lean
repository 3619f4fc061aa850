import Orcashi.Dht.Runs
import Orcashi.Lib.TokenBucket

/-!
# How many requests are answered

A request takes a token from a bucket, which is filled when it is empty.  So the replies in a span of time are
bounded, as long as the clock does not go back.  If it does when the bucket is empty, the number of tokens
becomes negative, and all requests are answered from then on.
-/

namespace Orcashi

open TokenBucket

/-- The times of the calls of `dht_periodic`. -/
def clocks (calls : List Call) : List Time :=
  calls.filterMap fun c =>
    match c with
    | .periodic clock _ => some clock
    | _ => none

namespace Dht

/-- The token bucket of a state. -/
def bucket (s : Dht) : TokenState := ⟨s.tokenBucketTokens, s.tokenBucketTime⟩

/-- The replies that were sent. -/
def replies (s : Dht) : ℕ := s.sent.countP fun x => !x.call.message.isQuery

section RateLimit

variable {s s' : Dht} {stop : Time}

theorem bucket_of_tokens (same : s'.tokens = s.tokens) : s'.bucket = s.bucket := by
  unfold bucket
  rw [show s'.tokenBucketTokens = s.tokenBucketTokens from congrArg Prod.fst same,
    show s'.tokenBucketTime = s.tokenBucketTime from congrArg Prod.snd same]

/-- `token_bucket` takes a token as long as there is no overflow. -/
theorem tokenBucket_eq (range : (-2147483648 : ℤ) ≤ 100 * (s.now - s.tokenBucketTime)) :
    s.tokenBucket.1.bucket = (take 400 100 s.now s.bucket).1 ∧
      s.tokenBucket.2 = (take 400 100 s.now s.bucket).2 := by
  have kept : (min 400 (100 * (s.now - s.tokenBucketTime))).bmod (2 ^ 32) =
      min 400 (100 * (s.now - s.tokenBucketTime)) :=
    Int.bmod_eq_of_le_mul_two (by push_cast; omega) (by push_cast; omega)
  unfold Dht.tokenBucket take refill bucket
  rw [kept]
  by_cases empty : s.tokenBucketTokens = 0
  · simp only [if_pos empty]
    split_ifs <;> exact ⟨rfl, rfl⟩
  · simp [empty]

theorem replies_of_sent {out rs : List Sending} (sent : s'.sent = s.sent ++ out)
    (same : (out.filter fun x => !x.call.message.isQuery) = rs) : s'.replies = s.replies + rs.length := by
  rw [replies, sent, List.countP_append, ← same, List.countP_eq_length_filter (l := out)]
  rfl

theorem bucket_maintain (sound : s.Sound) :
    s.maintain.bucket = s.bucket ∧ s.maintain.now = s.now ∧ s.maintain.replies = s.replies := by
  have rotated : s.rotateIfDue.tokens = s.tokens ∧ s.rotateIfDue.now = s.now := by
    unfold Dht.rotateIfDue
    split_ifs <;> exact ⟨rfl, rfl⟩
  have maintained := Serves.maintain (Does.rotateIfDue sound).sound
  obtain ⟨out, sent, none, -⟩ := (Does.maintain sound).sent
  exact ⟨bucket_of_tokens (maintained.tokens.trans rotated.1), maintained.now.trans rotated.2,
    replies_of_sent sent none⟩

/-- A call at a time that is not before the last one spends what it answers. -/
theorem budget_perform (start stop : Time) (c : Call) (sound : s.Sound) (filled : Filled 400 s.now s.bucket)
    (begun : start ≤ s.now) (later : ∀ clock ∈ clocks [c], s.now ≤ clock) :
    Filled 400 (s.perform c).now (s.perform c).bucket ∧ s.now ≤ (s.perform c).now ∧
      (s.perform c).replies + budget 400 100 start stop (s.perform c).bucket ≤
        s.replies + budget 400 100 start stop s.bucket := by
  by_cases other : ∀ clock d, c ≠ .periodic clock d
  · have fixed := fixed_perform c sound other
    have now : (s.perform c).now = s.now := (congrArg Dht.now fixed :)
    have same : (s.perform c).bucket = s.bucket := (congrArg Dht.bucket fixed :)
    obtain ⟨rs, ps, ⟨-, replied⟩, -, performs⟩ := perform_spec c sound
    obtain ⟨out, sent, none, -⟩ := performs.sent
    obtain rfl : rs = [] := List.eq_nil_iff_forall_not_mem.2 fun x mem => by
      obtain ⟨clock, d, _, _, periodic, _⟩ := replied x mem
      exact other clock _ periodic
    rw [now, same, replies_of_sent sent none]
    exact ⟨filled, le_rfl, le_rfl⟩
  · simp only [not_forall, not_not] at other
    obtain ⟨clock, d, rfl⟩ := other
    have later : s.now ≤ clock := later clock (by simp [clocks])
    have timed := filled.mono later
    rcases periodic_cases sound clock d with same | ⟨rs, ps, s₁, h, same⟩
    · rw [perform, same]
      exact ⟨timed, later, le_rfl⟩
    · obtain ⟨out, sent, none, -⟩ := h.does.sent
      have answered := replies_of_sent sent none
      obtain ⟨bucket, now, maintained⟩ := bucket_maintain h.does.sound
      have before : Dht.bucket { s with now := clock } = s.bucket := rfl
      rw [perform, same, bucket, now, maintained, h.now, answered]
      rcases h.tokens with ⟨tokens, rfl⟩ | ⟨tokens, granted⟩
      · rw [bucket_of_tokens tokens, before]
        exact ⟨timed, later, le_rfl⟩
      · -- a token was taken for the reply
        have elapsed : (0 : ℤ) ≤ clock - s.tokenBucketTime := sub_nonneg.2 timed.time
        obtain ⟨taken, result⟩ := tokenBucket_eq (s := { s with now := clock })
          (by show (-2147483648 : ℤ) ≤ 100 * (clock - s.tokenBucketTime); omega)
        have spent := budget_take 400 stop s.bucket (begun.trans later) (by decide : (0 : ℤ) ≤ 100)
        rw [bucket_of_tokens tokens, taken, before]
        rw [before] at result
        refine ⟨timed.take (by decide) (by decide), later, ?_⟩
        have one := h.one
        have unchanged : Dht.replies { s with now := clock } = s.replies := rfl
        rw [unchanged]
        cases got : (take 400 100 clock s.bucket).2 with
        | false =>
          rw [granted (result.trans got), List.length_nil, Nat.add_zero]
          rw [got] at spent
          simpa using spent
        | true =>
          rw [got, if_pos rfl] at spent
          push_cast
          have : (rs.length : ℤ) ≤ 1 := by exact_mod_cast one
          linarith

/-- The time after a call, with the times of the calls from it on. -/
theorem clocks_perform (c : Call) (calls : List Call) (sound : s.Sound) :
    (clocks (c :: calls) = clocks calls ∧ clocks [c] = [] ∧ (s.perform c).now = s.now) ∨
    (∃ clock, clocks (c :: calls) = clock :: clocks calls ∧ clocks [c] = [clock] ∧ (s.perform c).now = clock) := by
  cases c with
  | periodic clock d =>
    refine Or.inr ⟨clock, rfl, rfl, ?_⟩
    rcases periodic_cases sound clock d with same | ⟨rs, ps, s₁, h, same⟩
    · rw [perform, same]
    · rw [perform, same, (bucket_maintain h.does.sound).2.1, h.now]
  | search id port af =>
    have fixed := fixed_perform (.search id port af) sound (by simp)
    exact Or.inl ⟨rfl, rfl, (congrArg Dht.now fixed :)⟩
  | insertNode id sa =>
    have fixed := fixed_perform (.insertNode id sa) sound (by simp)
    exact Or.inl ⟨rfl, rfl, (congrArg Dht.now fixed :)⟩
  | pingNode sa => exact Or.inl ⟨rfl, rfl, rfl⟩

/-- Calls in the order of time spend together what they answer. -/
theorem budget_run (start stop : Time) (calls : List Call) (sound : s.Sound) (filled : Filled 400 s.now s.bucket)
    (begun : start ≤ s.now) (ordered : (s.now :: clocks calls).Pairwise (· ≤ ·)) :
    Filled 400 (s.run calls).now (s.run calls).bucket ∧
      (s.run calls).replies + budget 400 100 start stop (s.run calls).bucket ≤
        s.replies + budget 400 100 start stop s.bucket := by
  induction calls generalizing s with
  | nil => exact ⟨filled, le_rfl⟩
  | cons c calls ih =>
    have next (later : ∀ clock ∈ clocks [c], s.now ≤ clock)
        (ordered' : ((s.perform c).now :: clocks calls).Pairwise (· ≤ ·)) :
        Filled 400 (s.run (c :: calls)).now (s.run (c :: calls)).bucket ∧
          (s.run (c :: calls)).replies + budget 400 100 start stop (s.run (c :: calls)).bucket ≤
            s.replies + budget 400 100 start stop s.bucket := by
      obtain ⟨filled', time, spent⟩ := budget_perform start stop c sound filled begun later
      have rest := ih (sound_perform c sound) filled' (begun.trans time) ordered'
      exact ⟨rest.1, rest.2.trans spent⟩
    rcases clocks_perform c calls sound with ⟨same, none, now⟩ | ⟨clock, split, one, now⟩
    · refine next (by simp [none]) ?_
      rwa [now, ← same]
    · rw [split, List.pairwise_cons] at ordered
      refine next (fun t mem => ?_) (now ▸ ordered.2)
      rw [one, List.mem_singleton] at mem
      exact mem ▸ ordered.1 clock List.mem_cons_self

theorem now_run_le (calls : List Call) (sound : s.Sound) (begun : s.now ≤ stop)
    (ends : ∀ clock ∈ clocks calls, clock ≤ stop) : (s.run calls).now ≤ stop := by
  induction calls generalizing s with
  | nil => exact begun
  | cons c calls ih =>
    rcases clocks_perform c calls sound with ⟨same, -, now⟩ | ⟨clock, split, -, now⟩
    · exact ih (sound_perform c sound) (now ▸ begun) (same ▸ ends)
    · rw [split] at ends
      exact ih (sound_perform c sound) (now ▸ ends clock List.mem_cons_self)
        fun t mem => ends t (List.mem_cons_of_mem _ mem)

theorem ordered_run (before calls : List Call) (sound : s.Sound)
    (ordered : (s.now :: clocks (before ++ calls)).Pairwise (· ≤ ·)) :
    ((s.run before).now :: clocks calls).Pairwise (· ≤ ·) := by
  induction before generalizing s with
  | nil => exact ordered
  | cons c before ih =>
    rw [List.cons_append] at ordered
    rcases clocks_perform c (before ++ calls) sound with ⟨same, -, now⟩ | ⟨clock, split, -, now⟩
    · rw [same, ← now] at ordered
      exact ih (sound_perform c sound) ordered
    · rw [split, ← now, List.pairwise_cons] at ordered
      exact ih (sound_perform c sound) ordered.2

theorem bucket_dhtInit {clock : Time} {sock sock6 : Bool} {id : DhtId} {v : Option { b : Bytes // b.length = 4 }}
    (started : (s.dhtInit clock sock sock6 id v).2 = 1) :
    (s.dhtInit clock sock sock6 id v).1.now = clock ∧ (s.dhtInit clock sock sock6 id v).1.bucket = ⟨400, clock⟩ := by
  unfold Dht.dhtInit at started ⊢
  by_cases running : (s.socket || s.socket6 || s.buckets ≠ [] || s.buckets6 ≠ []) = true
  · rw [if_pos running] at started
    exact absurd started (by simp)
  · rw [if_neg running]
    have inet := Serves.expireBuckets (s.sound_initialState clock sock sock6 id v) .inet
    have both := inet.next (.expireBuckets inet.sound .inet6)
    exact ⟨both.now, bucket_of_tokens both.tokens⟩

/-- In a run whose clock does not go back, at most 800 requests are answered in any part, and 100 more for each
second of it. -/
theorem rate_limit {s₀ : Dht} {clock : Time} {sock sock6 : Bool} {id : DhtId}
    {v : Option { b : Bytes // b.length = 4 }} (started : (s₀.dhtInit clock sock sock6 id v).2 = 1)
    (before calls : List Call) (ordered : (clock :: clocks (before ++ calls)).Pairwise (· ≤ ·)) (stop : Time)
    (begins : clock ≤ stop) (ends : ∀ t ∈ clocks (before ++ calls), t ≤ stop) :
    let s := (s₀.dhtInit clock sock sock6 id v).1.run before
    ((s.run calls).replies : ℤ) ≤ s.replies + 800 + 100 * (stop - s.now) := by
  intro s
  have sound := sound_dhtInit started
  obtain ⟨now, bucket⟩ := bucket_dhtInit started
  have filled : Filled 400 (s₀.dhtInit clock sock sock6 id v).1.now (s₀.dhtInit clock sock sock6 id v).1.bucket := by
    rw [now, bucket]
    exact ⟨(by decide : (0 : ℤ) ≤ 400), le_rfl, le_rfl⟩
  have ends' : ∀ t, t ∈ clocks before ∨ t ∈ clocks calls → t ≤ stop := by
    intro t mem
    refine ends t ?_
    unfold clocks at mem ⊢
    rwa [List.filterMap_append, List.mem_append]
  rw [← now] at ordered
  have first : (((s₀.dhtInit clock sock sock6 id v).1.now) :: clocks before).Pairwise (· ≤ ·) := by
    refine ordered.sublist (List.Sublist.cons_cons _ ?_)
    unfold clocks
    rw [List.filterMap_append]
    exact List.sublist_append_left _ _
  have filled' := (budget_run _ stop before sound filled le_rfl first).1
  have sound' := sound_run before sound
  have reached := now_run_le before sound (now.trans_le begins) fun t mem => ends' t (Or.inl mem)
  obtain ⟨after, spent⟩ := budget_run _ stop calls sound' filled' le_rfl
    (ordered_run before calls sound ordered)
  have left := budget_nonneg after (by decide) (by decide : (0 : ℤ) ≤ 100) reached
    (now_run_le calls sound' reached fun t mem => ends' t (Or.inr mem))
  have whole := budget_le s.now stop filled' (by decide) (by decide : (0 : ℤ) ≤ 100)
  linarith

/-- A ping. -/
def samplePing : DhtDatagram where
  bytes := CMemory.ascii "d1:ad2:id20:" ++ sampleId.val ++ CMemory.ascii "e1:q4:ping1:t4:aaaa1:y1:qe"
  terminator := 0
  sender := sampleAddr

/-- Two pings are answered, behind one that was answered before. -/
theorem rate_limit_sample :
    let s := sampleStart.run [.periodic 1000 (some samplePing)]
    let s' := s.run [.periodic 1001 (some samplePing), .periodic 1002 (some samplePing)]
    s'.replies = s.replies + 2 ∧ (s'.replies : ℤ) ≤ s.replies + 800 + 100 * (1002 - s.now) :=
  ⟨by decide +kernel,
    rate_limit rfl [.periodic 1000 (some samplePing)]
      [.periodic 1001 (some samplePing), .periodic 1002 (some samplePing)] (by decide) 1002 (by decide) (by decide)⟩

/-! ## When the clock was set back -/

theorem tokenBucket_of_neg (negative : s.bucket.tokens < 0) :
    s.tokenBucket.1.bucket = (take 400 100 s.now s.bucket).1 ∧ s.tokenBucket.2 = true := by
  have some : s.tokenBucketTokens ≠ 0 := negative.ne
  rw [take_of_neg negative]
  simp [Dht.tokenBucket, bucket, some]

theorem negative_perform (c : Call) (sound : s.Sound) (negative : s.bucket.tokens < 0) :
    (s.perform c).bucket.tokens < 0 := by
  by_cases other : ∀ clock d, c ≠ .periodic clock d
  · have fixed := fixed_perform c sound other
    have same : (s.perform c).bucket = s.bucket := (congrArg Dht.bucket fixed :)
    rwa [same]
  · simp only [not_forall, not_not] at other
    obtain ⟨clock, d, rfl⟩ := other
    rcases periodic_cases sound clock d with same | ⟨rs, ps, s₁, h, same⟩
    · rw [perform, same]
      exact negative
    · rw [perform, same, (bucket_maintain h.does.sound).1]
      rcases h.tokens with ⟨tokens, -⟩ | ⟨tokens, -⟩
      · rw [bucket_of_tokens tokens]
        exact negative
      · have before : Dht.bucket { s with now := clock } = s.bucket := rfl
        rw [bucket_of_tokens tokens, (tokenBucket_of_neg (s := { s with now := clock }) negative).1, before, take_of_neg negative]
        exact (Int.sub_one_lt_of_le le_rfl).trans negative

/-- Once there are less than no tokens, no request is refused any more. -/
theorem unlimited_run (calls : List Call) (sound : s.Sound) (negative : s.bucket.tokens < 0) :
    (s.run calls).bucket.tokens < 0 ∧ ∀ clock, (Dht.tokenBucket { s.run calls with now := clock }).2 = true := by
  have still : (s.run calls).bucket.tokens < 0 := by
    induction calls generalizing s with
    | nil => exact negative
    | cons c calls ih => exact ih (sound_perform c sound) (negative_perform c sound negative)
  exact ⟨still, fun clock => (tokenBucket_of_neg (s := { s.run calls with now := clock }) still).2⟩

end RateLimit

end Dht

end Orcashi
