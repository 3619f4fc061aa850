import Mathlib.Data.List.Basic
import Mathlib.Tactic.Common

/-!
# Stores into a memory

A sequence of stores of several bytes each, and the memory it leaves: at every address the byte of the last
store that covers it.  Blocks of one length that are stored one behind the other fill the memory up to the
end of the last one, and each stays as it was stored.
-/

namespace Stores

variable {α : Type*}

/-- The bytes that are stored from an address on. -/
structure Store (α : Type*) where
  addr : ℕ
  bytes : List α
  deriving DecidableEq

/-- A byte is among those that are written. -/
def Store.Covers (w : Store α) (a : ℕ) : Prop := w.addr ≤ a ∧ a < w.addr + w.bytes.length

instance (w : Store α) (a : ℕ) : Decidable (w.Covers a) := inferInstanceAs (Decidable (_ ∧ _))

/-- The memory after one store. -/
def Store.apply (mem : ℕ → α) (w : Store α) (a : ℕ) : α :=
  if w.addr ≤ a then (w.bytes[a - w.addr]?).getD (mem a) else mem a

/-- The memory after all of them, in this order. -/
def after (mem : ℕ → α) (ws : List (Store α)) : ℕ → α := ws.foldl Store.apply mem

section After

variable {mem : ℕ → α} {w : Store α} {ws : List (Store α)} {a : ℕ}

theorem Store.apply_of_not_covers (h : ¬ w.Covers a) : w.apply mem a = mem a := by
  unfold Store.apply
  split_ifs with le
  · rw [List.getElem?_eq_none, Option.getD_none]
    unfold Store.Covers at h
    omega
  · rfl

theorem Store.apply_covered {j : ℕ} {b : α} (byte : w.bytes[j]? = some b) :
    w.apply mem (w.addr + j) = b := by
  unfold Store.apply
  rw [if_pos (Nat.le_add_right _ _), Nat.add_sub_cancel_left, byte, Option.getD_some]

theorem after_concat : after mem (ws ++ [w]) a = w.apply (after mem ws) a := by
  unfold after
  rw [List.foldl_concat]

end After

/-! ## Blocks -/

/-- Blocks one behind the other. -/
def blocks (len : ℕ) (block : ℕ → List α) (count : ℕ) : List (Store α) :=
  (List.range count).map fun i => ⟨i * len, block i⟩

section Blocks

variable {len count : ℕ} {block : ℕ → List α}

theorem blocks_succ : blocks len block (count + 1) =
    blocks len block count ++ [⟨count * len, block count⟩] := by
  unfold blocks
  rw [List.range_succ, List.map_append]
  rfl

theorem mem_blocks {w : Store α} : w ∈ blocks len block count ↔ ∃ i < count, w = ⟨i * len, block i⟩ := by
  unfold blocks
  rw [List.mem_map]
  exact exists_congr fun i => and_congr List.mem_range eq_comm

theorem getElem?_blocks {i : ℕ} {w : Store α} (h : (blocks len block count)[i]? = some w) :
    i < count ∧ w = ⟨i * len, block i⟩ := by
  have lt : i < count := by
    have inside := (List.getElem?_eq_some_iff.1 h).1
    rwa [blocks, List.length_map, List.length_range] at inside
  rw [blocks, List.getElem?_map, List.getElem?_range lt, Option.map_some] at h
  exact ⟨lt, (Option.some.inj h).symm⟩

/-- The block an address is in. -/
theorem covers_block_iff (length : ∀ i, (block i).length = len) {i a : ℕ} :
    (⟨i * len, block i⟩ : Store α).Covers a ↔ i * len ≤ a ∧ a < (i + 1) * len := by
  unfold Store.Covers
  dsimp only
  rw [length, Nat.succ_mul]

/-- Blocks of their full length leave no gap and do not go beyond the end. -/
theorem covered_blocks_iff (length : ∀ i, (block i).length = len) (pos : 0 < len) {a : ℕ} :
    (∃ w ∈ blocks len block count, w.Covers a) ↔ a < count * len := by
  constructor
  · rintro ⟨w, mem, covers⟩
    obtain ⟨i, lt, rfl⟩ := mem_blocks.1 mem
    calc a < (i + 1) * len := ((covers_block_iff length).1 covers).2
      _ ≤ count * len := Nat.mul_le_mul_right len lt
  · intro lt
    refine ⟨_, mem_blocks.2 ⟨a / len, (Nat.div_lt_iff_lt_mul pos).2 lt, rfl⟩, ?_⟩
    refine (covers_block_iff length).2 ⟨Nat.div_mul_le_self a len, ?_⟩
    rw [Nat.succ_mul]
    exact Nat.lt_div_mul_add pos

/-- By induction on the blocks: those behind one do not reach back into it. -/
theorem after_blocks (length : ∀ i, (block i).length = len) {mem : ℕ → α} {i j : ℕ} {b : α}
    (lt : i < count) (byte : (block i)[j]? = some b) :
    after mem (blocks len block count) (i * len + j) = b := by
  have inside : j < len := length i ▸ (List.getElem?_eq_some_iff.1 byte).1
  induction count with
  | zero => exact absurd lt (Nat.not_lt_zero _)
  | succ count ih =>
    rw [blocks_succ, after_concat]
    rcases Nat.lt_succ_iff_lt_or_eq.1 lt with before | rfl
    · rw [Store.apply_of_not_covers]
      · exact ih before
      · rw [covers_block_iff length]
        intro covers
        have next : (i + 1) * len ≤ count * len := Nat.mul_le_mul_right len before
        rw [Nat.succ_mul] at next
        omega
    · exact Store.apply_covered byte

end Blocks

end Stores
