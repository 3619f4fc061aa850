import Orcashi.Dht.Runs

/-!
# What maintenance asks for

`bucket_random` gives an id of its bucket, because it keeps all bits that the ends of the bucket have set.  So the
nodes that a table asks tell it about the buckets that it has not heard of.
-/

namespace Orcashi

open Counter XorMetric

/-! ## Random ids -/

theorem mask_byte : ∀ b < 8, ∀ c < 256,
    (c &&& (0xFF00 >>> b) % 256) >>> (8 - b) = c >>> (8 - b) ∧ (c &&& (0xFF >>> b) % 256) >>> (8 - b) = 0 := by
  decide +kernel

/-- The bits that `bucket_random` keeps of a byte. -/
theorem random_byte (c r : UInt8) {b : ℕ} (hb : b < 8) :
    ((c &&& (0xFF00 >>> b).toUInt8) ||| (r &&& (0xFF >>> b).toUInt8)).toNat / 2 ^ (8 - b) = c.toNat / 2 ^ (8 - b) := by
  have kept := (mask_byte b hb c.toNat c.toNat_lt).1
  have drawn := (mask_byte b hb r.toNat r.toNat_lt).2
  rw [← Nat.shiftRight_eq_div_pow, ← Nat.shiftRight_eq_div_pow, UInt8.toNat_or, UInt8.toNat_and, UInt8.toNat_and,
    Nat.shiftRight_or_distrib]
  show (c.toNat &&& (0xFF00 >>> b) % 256) >>> (8 - b) ||| (r.toNat &&& (0xFF >>> b) % 256) >>> (8 - b) = _
  rw [kept, drawn, Nat.or_zero]

theorem number_randomId (first : DhtId) {bit : ℕ} (hbit : bit < 160) (random : ℕ → ℕ) :
    (Dht.randomId first bit random).number / 2 ^ (160 - bit) = first.number / 2 ^ (160 - bit) := by
  have place : bit / 8 < first.val.length := by
    rw [first.property]
    omega
  have length : (first.val.take (bit / 8)).length = bit / 8 := List.length_take_of_le place.le
  have old : first.val = first.val.take (bit / 8) ++ first.val[bit / 8] :: first.val.drop (bit / 8 + 1) := by
    rw [List.cons_getElem_drop_succ, List.take_append_drop]
  have byte : first.val.getD (bit / 8) 0 = first.val[bit / 8] := by simp [place]
  have same := random_byte first.val[bit / 8] (random 0).toUInt8 (Nat.mod_lt bit (by decide : 0 < 8))
  have width {back : Bytes} (h : back.length = 19 - bit / 8) : 160 - bit = 8 * back.length + (8 - bit % 8) := by
    omega
  have new : (Dht.randomId first bit random).number / 2 ^ (160 - bit) =
      value (first.val.take (bit / 8)) * 2 ^ (8 - (8 - bit % 8)) +
        ((first.val[bit / 8] &&& (0xFF00 >>> (bit % 8)).toUInt8) |||
          ((random 0).toUInt8 &&& (0xFF >>> (bit % 8)).toUInt8)).toNat / 2 ^ (8 - bit % 8) := by
    have drawn : ((List.range (19 - bit / 8)).map fun i => (random (i + 1)).toUInt8).length = 19 - bit / 8 := by simp
    rw [width drawn, ← value_div _ _ _ (Nat.sub_le _ _), ← byte]
    refine congrArg (fun b => value b / _) ?_
    show List.take 20 (_ ++ List.replicate 20 0) = _
    exact List.take_left' (by rw [List.length_append, List.length_cons, length, drawn]; omega)
  have before : first.number / 2 ^ (160 - bit) =
      value (first.val.take (bit / 8)) * 2 ^ (8 - (8 - bit % 8)) + first.val[bit / 8].toNat / 2 ^ (8 - bit % 8) := by
    have back : (first.val.drop (bit / 8 + 1)).length = 19 - bit / 8 := by
      rw [List.length_drop, first.property]
      omega
    rw [width back, ← value_div _ _ _ (Nat.sub_le _ _), ← old]
    rfl
  rw [new, before, same]

/-- `bucket_random` gives an id of the bucket. -/
theorem SoundTable.bucketRandom {me : DhtId} {af : Family} {d i : ℕ} {bs : Buckets} {b : Bucket}
    (sound : SoundTable me af d bs) (hb : bs[i]? = some b) (s : Dht) :
    inBucket (s.bucketRandom bs i).1 bs i = true := by
  have own : inBucket b.first bs i = true := (sound.inBucket_iff hb).2 rfl
  unfold Dht.bucketRandom
  rw [hb]
  dsimp only
  split_ifs with deep
  · exact own
  · rw [not_le] at deep
    rw [Orcashi.inBucket_iff] at own ⊢
    obtain ⟨start, hstart, -, next⟩ := own
    obtain rfl : b.first.number = start := by
      rw [getElem?_starts, hb] at hstart
      exact Option.some.inj hstart
    have same := number_randomId b.first deep s.random
    have low := DhtId.lowbit_bounds b.first
    have positive := Nat.two_pow_pos (160 - (max (lowbit b.first)
      ((bs[i + 1]?.map fun next => lowbit next.first).getD (-1)) + 1).toNat)
    refine ⟨_, hstart, ?_, fun t ht => ?_⟩
    · have divides := (DhtId.lowbit_lt_iff (x := b.first) deep.le).1 (by omega)
      rw [← Nat.div_mul_cancel divides, ← same]
      exact Nat.div_mul_le_self _ _
    · have less := next t ht
      rw [getElem?_starts] at ht
      obtain ⟨b', hb', rfl⟩ := Option.map_eq_some_iff.1 ht
      rw [hb', Option.map_some, Option.getD_some] at deep same positive ⊢
      have divides := (DhtId.lowbit_lt_iff (x := b'.first) deep.le).1 (by omega)
      have quotients := Nat.div_lt_div_of_lt_of_dvd divides less
      rwa [← same, Nat.div_lt_iff_lt_mul positive, Nat.div_mul_cancel divides] at quotients

namespace Dht

section Maintenance

variable {s s' : Dht} {af : Family}

/-- A request of a table: a ping, or for nodes near an id, to a node of the table. -/
def Asked (af : Family) (s : Dht) (near : DhtId → Prop) (o : Outgoing) : Prop :=
  (∃ sa, o = pingTo sa) ∨
    ∃ n ∈ tableNodes (s.table af), ∃ target want, near target ∧ o = ⟨n.ss, .findNode (makeTid "fn" 0) target want⟩

theorem sent_sendAll (out : List Outgoing) (s : Dht) :
    ∃ xs, (s.sendAll out).sent = s.sent ++ xs ∧ ∀ x ∈ xs, x.call ∈ out := by
  induction out generalizing s with
  | nil => exact ⟨[], (List.append_nil _).symm, by simp⟩
  | cons o out ih =>
    obtain ⟨xs, sent, calls⟩ := ih (s.send o)
    refine ⟨⟨o, s.sendResult o⟩ :: xs, ?_, ?_⟩
    · exact sent.trans (List.append_assoc ..)
    · intro x mem
      rcases List.mem_cons.1 mem with rfl | mem
      · exact List.mem_cons_self
      · exact List.mem_cons_of_mem o (calls x mem)

theorem mem_tableNodes_of_nodesAt {bs : Buckets} {q j : ℕ} {n : DhtPeer} (h : (nodesAt bs q)[j]? = some n) :
    n ∈ tableNodes bs := by
  unfold nodesAt at h
  cases hq : bs[q]? with
  | none => simp [hq] at h
  | some b =>
    rw [hq] at h
    exact List.mem_flatMap.2 ⟨b, List.mem_of_getElem? hq, List.mem_of_getElem? h⟩

theorem asked_drawn (near : DhtId → Prop) (drawn : Drawn s s') :
    ∃ out, s'.sent = s.sent ++ out ∧ ∀ x ∈ out, Asked af s near x.call := by
  obtain ⟨random, rfl⟩ := drawn
  exact ⟨[], (List.append_nil _).symm, by simp⟩

theorem sent_pingedAt (af : Family) (i j : ℕ) (b : Option ℕ) (s : Dht) :
    ∃ xs, (s.pingedAt af i j b).sent = s.sent ++ xs ∧ ∀ x ∈ xs, ∃ sa, x.call = pingTo sa := by
  have same (bs : Buckets) : (s.setTable af bs).sent = s.sent := by cases af <;> rfl
  obtain ⟨xs, sent, calls⟩ := sent_sendAll (pinged s.now i j b (s.table af)).2
    (s.setTable af (pinged s.now i j b (s.table af)).1)
  rw [same] at sent
  exact ⟨xs, sent, fun x mem => pings_pinged s.now i j b (s.table af) x.call (calls x mem)⟩

theorem asked_sendFindNode (q j : ℕ) (target : DhtId) (want : ℤ) {near : DhtId → Prop} (drawn : Drawn s s')
    (good : near target) :
    ∃ out, (s'.sendFindNode af q j target want).sent = s.sent ++ out ∧ ∀ x ∈ out, Asked af s near x.call := by
  unfold Dht.sendFindNode
  split
  · exact asked_drawn near drawn
  · rename_i n found
    obtain ⟨random, rfl⟩ := drawn
    obtain ⟨xs, sent, pings⟩ := sent_pingedAt af q j (some q)
      (Dht.send ⟨n.ss, .findNode (makeTid "fn" 0) target want⟩ { s with random := random })
    refine ⟨_, sent.trans (List.append_assoc ..), fun x hx => ?_⟩
    rcases List.mem_cons.1 hx with rfl | hx
    · exact Or.inr ⟨n, mem_tableNodes_of_nodesAt found, target, want, good, rfl⟩
    · exact Or.inl (pings x hx)

/-- `neighbourhood_maintenance` asks for an id of which the last byte differs at most. -/
theorem asked_neighbourhoodMaintenance (af : Family) (s : Dht) :
    ∃ out, (s.neighbourhoodMaintenance af).1.sent = s.sent ++ out ∧
      ∀ x ∈ out, Asked af s (fun target => target.val.take 19 = s.myid.val.take 19) x.call := by
  unfold Dht.neighbourhoodMaintenance
  split
  · exact asked_drawn _ (drawn_refl s)
  · dsimp only
    have picked := (drawn_draw s).node
    split
    · exact asked_drawn _ (picked _ _ _ _)
    · refine asked_sendFindNode _ _ _ _ (picked _ _ _ _) ?_
      have length : (s.myid.val.take 19).length = 19 := List.length_take_of_le (by rw [s.myid.property]; decide)
      show List.take 19 (List.take 20 (_ ++ [_] ++ List.replicate 20 0)) = _
      rw [List.take_take, List.append_assoc]
      exact List.take_left' length

/-- The id is in a bucket that was not heard of for a time. -/
def Stale (af : Family) (s : Dht) (target : DhtId) : Prop :=
  ∃ i b, (s.table af)[i]? = some b ∧ b.time < s.now - max (600 / (b.maxCount / 8)) 30 ∧
    inBucket target (s.table af) i = true

theorem asked_bucketMaintenanceLoop {d : ℕ} (table : SoundTable s.myid af d (s.table af)) (m i : ℕ)
    (drawn : Drawn s s') :
    ∃ out, (s'.bucketMaintenanceLoop af m i).1.sent = s.sent ++ out ∧ ∀ x ∈ out, Asked af s (Stale af s) x.call := by
  induction m generalizing i s' with
  | zero => exact asked_drawn _ drawn
  | succ m ih =>
    have same : s'.table af = s.table af := by
      obtain ⟨random, rfl⟩ := drawn
      cases af <;> rfl
    have now : s'.now = s.now := by
      obtain ⟨random, rfl⟩ := drawn
      rfl
    rw [Dht.bucketMaintenanceLoop, same, now]
    split
    · exact asked_drawn _ drawn
    rename_i b hb
    split_ifs with stale
    · have picked := (drawn.trans (drawn_bucketRandom (s.table af) i s')).node
      have inside : inBucket (s'.bucketRandom (s.table af) i).1 (s.table af) i = true := table.bucketRandom hb s'
      dsimp only
      split
      · exact ih _ (picked _ _ _ _)
      · exact asked_sendFindNode _ _ _ _ ((picked _ _ _ _).trans (drawn_maintenanceWant _ _ _))
          ⟨i, b, hb, stale, inside⟩
    · exact ih _ drawn

/-- Maintenance asks nodes of the table: for an id in a bucket that was not heard of for a time, or for one next to
the own. -/
theorem Reachable.maintenance_asks (h : Reachable s) (running : s.socketOf af = true) :
    (∃ out, (s.bucketMaintenance af).1.sent = s.sent ++ out ∧ ∀ x ∈ out, Asked af s (Stale af s) x.call) ∧
      ∃ out, (s.neighbourhoodMaintenance af).1.sent = s.sent ++ out ∧
        ∀ x ∈ out, Asked af s (fun target => target.val.take 19 = s.myid.val.take 19) x.call := by
  obtain ⟨d, table⟩ := h.sound.soundTable running
  exact ⟨asked_bucketMaintenanceLoop table _ 0 (drawn_refl s), asked_neighbourhoodMaintenance af s⟩

theorem maintenance_asks_sample :
    let s := sample.run [.periodic 1100 none]
    (∃ out, (s.bucketMaintenance .inet).1.sent = s.sent ++ out ∧
        ∀ x ∈ out, Asked .inet s (Stale .inet s) x.call) ∧
      ∃ out, (s.neighbourhoodMaintenance .inet).1.sent = s.sent ++ out ∧
        ∀ x ∈ out, Asked .inet s (fun target => target.val.take 19 = s.myid.val.take 19) x.call :=
  (sample_reachable.run [.periodic 1100 none]).maintenance_asks
    ((sample_reachable.socketOf_run [.periodic 1100 none] .inet).trans sample_running)

end Maintenance

end Dht

end Orcashi
