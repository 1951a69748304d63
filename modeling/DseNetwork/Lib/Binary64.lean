import Mathlib.Data.Rat.Floor

/-
IEEE 754 binary64 values as bit patterns, with the conversions to integers.

A conversion of a value outside the target type is undefined in C.  The definitions
below give it the result of the x86-64 conversion instructions: the least value of
the intermediate signed type.
-/

namespace DseNetwork

structure Binary64 where
  bits : BitVec 64
  deriving DecidableEq

namespace Binary64

def negative (d : Binary64) : Bool := d.bits.msb

def exponent (d : Binary64) : Nat := (d.bits.extractLsb' 52 11).toNat

def fraction (d : Binary64) : Nat := (d.bits.extractLsb' 0 52).toNat

def isFinite (d : Binary64) : Bool := d.exponent != 2047

/-- The comparison with `0.0`, which both zeros satisfy. -/
def isZero (d : Binary64) : Bool := d.exponent == 0 && d.fraction == 0

def significand (d : Binary64) : Nat :=
  if d.exponent = 0 then d.fraction else d.fraction + 2 ^ 52

/-- The magnitude is `significand * 2 ^ (scale - 1075)`. -/
def scale (d : Binary64) : Nat := max d.exponent 1

/-- The value of a natural number below `2 ^ 53`, which has an exact one. -/
def ofNat (k : Nat) : Binary64 :=
  if k = 0 then ⟨0#64⟩
  else ⟨BitVec.ofNat 64 ((1023 + k.log2) * 2 ^ 52 + (k * 2 ^ (52 - k.log2) - 2 ^ 52))⟩

def ofInt (k : Int) : Binary64 :=
  if k < 0 then ⟨(ofNat k.natAbs).bits ||| 1#64 <<< 63⟩ else ofNat k.natAbs

def numerator (d : Binary64) : Nat := d.significand * 2 ^ (d.scale - 1075)

def denominator (d : Binary64) : Nat := 2 ^ (1075 - d.scale)

def toRat (d : Binary64) : ℚ :=
  if d.negative then -(d.numerator / d.denominator) else d.numerator / d.denominator

/-- The value rounded toward zero. -/
def trunc (d : Binary64) : Int :=
  if d.negative then -(d.numerator / d.denominator : Nat) else (d.numerator / d.denominator : Nat)

def toInt64 (d : Binary64) : Int :=
  if d.isFinite ∧ -2 ^ 63 ≤ d.trunc ∧ d.trunc < 2 ^ 63 then d.trunc else -2 ^ 63

/-- `(uint32_t)d`: through a 64-bit integer, keeping its low half. -/
def toUInt32 (d : Binary64) : BitVec 32 := BitVec.ofInt 32 d.toInt64

example : (ofNat 601).toUInt32 = 601#32 := by decide +kernel

end Binary64
end DseNetwork
