import DseNetwork.Lib.Memory
import Mathlib.Tactic.Linarith

/-
The 32-bit FNV-1a hash.

A step is a bijection of the states for a fixed byte, so a difference of states is never
lost.  Two steps with different bytes lead to different states: the product with the prime
sends states that differ in the low byte alone to states that differ in a high byte.
-/

namespace DseNetwork
namespace Fnv

def offsetBasis : BitVec 32 := 2166136261#32

def prime : BitVec 32 := 16777619#32

def step (h : BitVec 32) (b : Byte) : BitVec 32 := (h ^^^ b.setWidth 32) * prime

def hash (l : List Byte) : BitVec 32 := l.foldl step offsetBasis

example : hash [0xcc#8, 0x24#8, 0x31#8, 0xc4#8] = 0#32 := by decide

/-! ## One step -/

/-- The inverse of the prime modulo `2 ^ 32`. -/
def primeInverse : BitVec 32 := 0x359c449b#32

theorem prime_mul_inverse : prime * primeInverse = 1#32 := by decide

theorem step_eq_iff {h h' : BitVec 32} {b b' : Byte} :
    step h b = step h' b' ↔ h ^^^ b.setWidth 32 = h' ^^^ b'.setWidth 32 := by
  refine ⟨fun heq => ?_, fun heq => by rw [step, step, heq]⟩
  have hcancel := congrArg (· * primeInverse) heq
  simpa only [step, BitVec.mul_assoc, prime_mul_inverse, BitVec.mul_one] using hcancel

theorem step_left_inj {h h' : BitVec 32} {b : Byte} : step h b = step h' b ↔ h = h' := by
  rw [step_eq_iff, BitVec.xor_left_inj]

theorem step_right_inj {h : BitVec 32} {b b' : Byte} : step h b = step h b' ↔ b = b' := by
  rw [step_eq_iff, BitVec.xor_right_inj]
  refine ⟨fun heq => ?_, fun heq => by rw [heq]⟩
  have hback := congrArg (BitVec.setWidth 8) heq
  simpa only [BitVec.setWidth_setWidth_of_le _ (show 8 ≤ 32 by decide), BitVec.setWidth_eq]
    using hback

theorem foldl_step_inj {h h' : BitVec 32} (l : List Byte) :
    l.foldl step h = l.foldl step h' ↔ h = h' := by
  induction l generalizing h h' with
  | nil => exact Iff.rfl
  | cons b rest ih => rw [List.foldl_cons, List.foldl_cons, ih, step_left_inj]

/-! ## Two steps -/

theorem prime_mul_distance {d k : Int} (hpos : 1 ≤ d) (hsmall : d ≤ 255)
    (hlo : -255 ≤ 16777619 * d - 4294967296 * k)
    (hhi : 16777619 * d - 4294967296 * k ≤ 255) : False := by
  rcases le_or_gt 1 k with hk | hk
  · linarith
  · have hk' : k ≤ 0 := by omega
    linarith

theorem prime_mul_lt {x y e f u v : Nat} (hlt : x < y) (hhigh : x / 256 = y / 256)
    (hx : 4294967296 * e + u = x * 16777619) (hy : 4294967296 * f + v = y * 16777619)
    (hmul : u / 256 = v / 256) : False := by
  have hpos : (1 : Int) ≤ y - x := by omega
  have hsmall : (y : Int) - x ≤ 255 := by omega
  have hlo : -255 ≤ 16777619 * ((y : Int) - x) - 4294967296 * ((f : Int) - e) := by omega
  have hhi : 16777619 * ((y : Int) - x) - 4294967296 * ((f : Int) - e) ≤ 255 := by omega
  exact prime_mul_distance hpos hsmall hlo hhi

/-- States that differ in the low byte alone are told apart by the high bytes of their
products with the prime. -/
theorem eq_of_mul_prime {x y : BitVec 32} (hhigh : x >>> 8 = y >>> 8)
    (hmul : (x * prime) >>> 8 = (y * prime) >>> 8) : x = y := by
  have hx := congrArg BitVec.toNat hhigh
  have hy := congrArg BitVec.toNat hmul
  rw [BitVec.toNat_ushiftRight, BitVec.toNat_ushiftRight, Nat.shiftRight_eq_div_pow,
    Nat.shiftRight_eq_div_pow] at hx hy
  rw [BitVec.toNat_mul, BitVec.toNat_mul] at hy
  refine BitVec.eq_of_toNat_eq ?_
  rcases Nat.lt_trichotomy x.toNat y.toNat with hlt | heq | hlt
  · exact (prime_mul_lt hlt hx (Nat.div_add_mod _ _) (Nat.div_add_mod _ _) hy).elim
  · exact heq
  · exact (prime_mul_lt hlt hx.symm (Nat.div_add_mod _ _) (Nat.div_add_mod _ _) hy.symm).elim

theorem xor_byte_shiftRight (h : BitVec 32) (b : Byte) :
    (h ^^^ b.setWidth 32) >>> 8 = h >>> 8 := by
  have hbyte : (b.setWidth 32) >>> 8 = 0#32 := by
    refine BitVec.eq_of_toNat_eq ?_
    rw [BitVec.toNat_ushiftRight, Nat.shiftRight_eq_div_pow,
      BitVec.toNat_setWidth_of_le (show 8 ≤ 32 by decide)]
    exact Nat.div_eq_of_lt b.isLt
  rw [BitVec.ushiftRight_xor_distrib, hbyte, BitVec.xor_zero]

theorem step_step_inj {h : BitVec 32} {a a' b b' : Byte} :
    step (step h a) b = step (step h a') b' ↔ a = a' ∧ b = b' := by
  refine ⟨fun heq => ?_, fun ⟨ha, hb⟩ => by rw [ha, hb]⟩
  have hhigh := congrArg (fun x : BitVec 32 => x >>> 8) (step_eq_iff.mp heq)
  simp only [xor_byte_shiftRight] at hhigh
  have hstates : h ^^^ a.setWidth 32 = h ^^^ a'.setWidth 32 :=
    eq_of_mul_prime (by rw [xor_byte_shiftRight, xor_byte_shiftRight]) hhigh
  obtain rfl : a = a' := step_right_inj.mp (step_eq_iff.mpr hstates)
  exact ⟨rfl, step_right_inj.mp heq⟩

/-! ## A window of two bytes -/

/-- Strings that differ in a window of at most two bytes have different hashes. -/
theorem hash_window_inj {before after w w' : List Byte} (hlen : w.length = w'.length)
    (hshort : w.length ≤ 2) :
    hash (before ++ w ++ after) = hash (before ++ w' ++ after) ↔ w = w' := by
  refine ⟨fun heq => ?_, fun heq => by rw [heq]⟩
  simp only [hash, List.foldl_append, foldl_step_inj] at heq
  rcases w with _ | ⟨a, _ | ⟨b, _ | ⟨c, w⟩⟩⟩
  · exact (List.length_eq_zero_iff.mp hlen.symm).symm
  · obtain ⟨a', rfl⟩ := List.length_eq_one_iff.mp hlen.symm
    rw [step_right_inj.mp heq]
  · obtain ⟨a', b', rfl⟩ := List.length_eq_two.mp hlen.symm
    obtain ⟨rfl, rfl⟩ := step_step_inj.mp heq
    rfl
  · simp at hshort

end Fnv
end DseNetwork
