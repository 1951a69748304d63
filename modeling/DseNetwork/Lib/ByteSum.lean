import DseNetwork.Lib.Memory
import Mathlib.Data.BitVec
import Mathlib.Algebra.BigOperators.Group.Finset.Basic

/-
Sums of bytes modulo 256, with the byte at one position left out.

A check byte stored at that position closes the sum.  One byte changed anywhere opens it
again, since no other byte makes up for the difference.
-/

namespace DseNetwork
namespace ByteSum

/-- The sum of the first `len` bytes but the one at `position`. -/
def others (m : Memory) (len position : Nat) : Byte :=
  ∑ a ∈ (Finset.range len).erase position, m a

theorem others_congr {m m' : Memory} {len position : Nat}
    (h : ∀ a, a < len → a ≠ position → m' a = m a) :
    others m' len position = others m len position := by
  refine Finset.sum_congr rfl (fun a ha => ?_)
  obtain ⟨hne, hmem⟩ := Finset.mem_erase.mp ha
  exact h a (Finset.mem_range.mp hmem) hne

theorem others_succ (m : Memory) (len position : Nat) :
    others m (len + 1) position =
      if len = position then others m len position else others m len position + m len := by
  unfold others
  rw [Finset.range_add_one]
  by_cases hlen : len = position
  · rw [if_pos hlen, ← hlen, Finset.erase_insert Finset.notMem_range_self,
      Finset.erase_eq_of_notMem Finset.notMem_range_self]
  · have hnot : len ∉ (Finset.range len).erase position :=
      fun h => Finset.notMem_range_self (Finset.mem_of_mem_erase h)
    rw [if_neg hlen, Finset.erase_insert_of_ne hlen, Finset.sum_insert hnot,
      BitVec.add_comm]

/-- The loop that counts up and adds. -/
theorem foldl_add (m : Memory) (len position : Nat) (c : Byte) :
    (List.range len).foldl (fun c a => if a = position then c else c + m a) c =
      c + others m len position := by
  induction len with
  | zero => simp [others]
  | succ len ih =>
    rw [List.range_succ, List.foldl_append, ih, others_succ]
    by_cases hlen : len = position
    · simp [hlen]
    · simp [hlen, BitVec.add_assoc]

/-- The loop that counts down and subtracts. -/
theorem foldl_sub (m : Memory) (len position : Nat) (c : Byte) :
    (List.range len).reverse.foldl (fun c a => if a = position then c else c - m a) c =
      c - others m len position := by
  induction len generalizing c with
  | zero => simp [others]
  | succ len ih =>
    rw [List.range_succ, List.reverse_append, List.reverse_singleton, List.singleton_append,
      List.foldl_cons, ih, others_succ]
    by_cases hlen : len = position
    · simp [hlen]
    · rw [if_neg hlen, if_neg hlen, sub_sub, add_comm]

/-- A byte that changes on its own changes the sum. -/
theorem others_ne {m m' : Memory} {len position k : Nat} (hk : k < len) (hpos : k ≠ position)
    (hne : m' k ≠ m k) (hrest : ∀ a, a < len → a ≠ k → m' a = m a) :
    others m' len position ≠ others m len position := by
  have hmem : k ∈ (Finset.range len).erase position :=
    Finset.mem_erase.mpr ⟨hpos, Finset.mem_range.mpr hk⟩
  have hsame : ∑ a ∈ ((Finset.range len).erase position).erase k, m' a =
      ∑ a ∈ ((Finset.range len).erase position).erase k, m a := by
    refine Finset.sum_congr rfl (fun a ha => ?_)
    obtain ⟨hak, ha⟩ := Finset.mem_erase.mp ha
    exact hrest a (Finset.mem_range.mp (Finset.mem_of_mem_erase ha)) hak
  intro heq
  rw [others, others, ← Finset.add_sum_erase _ m' hmem, ← Finset.add_sum_erase _ m hmem,
    hsame] at heq
  exact hne (add_right_cancel heq)

/-- The check byte at `position` is the sum of the others. -/
def Closed (m : Memory) (len position : Nat) : Prop := m position = others m len position

instance (m : Memory) (len position : Nat) : Decidable (Closed m len position) :=
  inferInstanceAs (Decidable (_ = _))

theorem closed_iff_sub {m : Memory} {len position : Nat} :
    Closed m len position ↔ m position - others m len position = 0#8 :=
  sub_eq_zero.symm

theorem closed_update (m : Memory) (len position : Nat) :
    Closed (Function.update m position (others m len position)) len position := by
  rw [Closed, Function.update_self]
  exact others_congr (fun a _ hne => (Function.update_of_ne hne _ _).symm)

/-- One changed byte among those of a closed sum opens it. -/
theorem Closed.not_of_one_byte {m m' : Memory} {len position k : Nat}
    (h : Closed m len position) (hposition : position < len) (hk : k < len) (hne : m' k ≠ m k)
    (hrest : ∀ a, a < len → a ≠ k → m' a = m a) : ¬ Closed m' len position := by
  intro h'
  by_cases hpos : k = position
  · subst hpos
    have hsame : others m' len k = others m len k :=
      others_congr (fun a ha hak => hrest a ha hak)
    exact hne (by rw [h', hsame, ← h])
  · have hcheck := hrest position hposition (Ne.symm hpos)
    exact others_ne hk hpos hne hrest (by rw [← h', hcheck, h])

end ByteSum
end DseNetwork
