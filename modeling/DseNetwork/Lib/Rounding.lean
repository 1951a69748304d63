import DseNetwork.Lib.Binary64

/-
Binary64 arithmetic, rounded to nearest with ties to even.

The magnitude of a finite value is a number of units of `2 ^ -1074`, the least positive
value.  The bits of a magnitude, read as a number, are `s * 2 ^ 52 + q` for `q * 2 ^ s`
units, whether the magnitude is normal or not: a significand that rounds up to `2 ^ 53`
carries into the exponent.
-/

namespace DseNetwork
namespace Binary64

/-! ## Units -/

def units (d : Binary64) : Nat := d.significand * 2 ^ (d.scale - 1)

/-- A unit is `2 ^ -unitExponent`. -/
def unitExponent : Nat := 1074

def infinity : Nat := 2047 * 2 ^ 52

def withSign (negative : Bool) (magnitude : Nat) : Binary64 :=
  ⟨BitVec.ofNat 64 (if negative then 2 ^ 63 + magnitude else magnitude)⟩

theorem withSign_false (magnitude : Nat) : withSign false magnitude = ⟨BitVec.ofNat 64 magnitude⟩ :=
  rfl

theorem withSign_true (magnitude : Nat) :
    withSign true magnitude = ⟨BitVec.ofNat 64 (2 ^ 63 + magnitude)⟩ := rfl

/-- A quotient rounded to nearest, ties to even. -/
def roundQuotient (num den : Nat) : Nat :=
  if 2 * (num % den) < den ∨ 2 * (num % den) = den ∧ num / den % 2 = 0 then num / den
  else num / den + 1

/-- The exponent of the last place of a magnitude of `num / den` units. -/
def lastPlace (num den : Nat) : Nat := Nat.log2 (num / den) - 52

/-- The bits of a magnitude of `num / den` units, without regard to overflow. -/
def roundBits (num den : Nat) : Nat :=
  lastPlace num den * 2 ^ 52 + roundQuotient num (den * 2 ^ lastPlace num den)

/-- The bits of a magnitude of `num / den` units. -/
def roundUnits (num den : Nat) : Nat := min (roundBits num den) infinity

/-! ## Operations on finite values -/

def signedBy (negative : Bool) (n : Nat) : Int := if negative then -n else n

def signedUnits (d : Binary64) : Int := signedBy d.negative d.units

def neg (d : Binary64) : Binary64 := ⟨d.bits ^^^ 1#64 <<< 63⟩

def mul (a b : Binary64) : Binary64 :=
  withSign (a.negative != b.negative) (roundUnits (a.units * b.units) (2 ^ unitExponent))

def div (a b : Binary64) : Binary64 :=
  withSign (a.negative != b.negative) (roundUnits (a.units * 2 ^ unitExponent) b.units)

def add (a b : Binary64) : Binary64 :=
  withSign (decide (a.signedUnits + b.signedUnits < 0) || (a.negative && b.negative))
    (roundUnits (a.signedUnits + b.signedUnits).natAbs 1)

def sub (a b : Binary64) : Binary64 := a.add b.neg

/-! ## Integers -/

/-- A number below `2 ^ 53`, shifted to 53 bits. -/
theorem normalized {k : Nat} (hpos : 0 < k) (hlt : k < 2 ^ 53) :
    Nat.log2 k < 53 ∧ 2 ^ 52 ≤ k * 2 ^ (52 - Nat.log2 k) ∧ k * 2 ^ (52 - Nat.log2 k) < 2 ^ 53 := by
  have hne : k ≠ 0 := by omega
  have hlog : Nat.log2 k < 53 := (Nat.log2_lt hne).mpr hlt
  have hle : 2 ^ Nat.log2 k ≤ k := (Nat.le_log2 hne).mp (Nat.le_refl _)
  have hlt' : k < 2 ^ (Nat.log2 k + 1) := (Nat.log2_lt hne).mp (Nat.lt_succ_self _)
  have hlow : Nat.log2 k + (52 - Nat.log2 k) = 52 := by omega
  have hhigh : Nat.log2 k + 1 + (52 - Nat.log2 k) = 53 := by omega
  refine ⟨hlog, ?_, ?_⟩
  · rw [← hlow, Nat.pow_add, hlow]
    exact Nat.mul_le_mul_right _ hle
  · rw [← hhigh, Nat.pow_add]
    exact Nat.mul_lt_mul_of_pos_right hlt' (Nat.two_pow_pos _)

/-- The value of an integer below `2 ^ 53` is that many wholes. -/
theorem units_ofNat {k : Nat} (hpos : 0 < k) (hlt : k < 2 ^ 53) :
    (ofNat k).units = k * 2 ^ unitExponent ∧ (ofNat k).negative = false ∧
      (ofNat k).isFinite = true := by
  have hne : k ≠ 0 := by omega
  obtain ⟨hlog, hlow, hhigh⟩ := normalized hpos hlt
  generalize hl : Nat.log2 k = l at hlog hlow hhigh
  generalize hm : k * 2 ^ (52 - l) = m at hlow hhigh
  have hbits : (ofNat k).bits.toNat = (1023 + l) * 2 ^ 52 + (m - 2 ^ 52) := by
    rw [ofNat, if_neg hne, hl, hm]
    exact (BitVec.toNat_ofNat _ _).trans (Nat.mod_eq_of_lt (by omega))
  have hexponent : (ofNat k).exponent = 1023 + l := by
    rw [exponent, BitVec.extractLsb'_toNat, hbits, Nat.shiftRight_eq_div_pow]
    omega
  have hfraction : (ofNat k).fraction = m - 2 ^ 52 := by
    rw [fraction, BitVec.extractLsb'_toNat, hbits, Nat.shiftRight_zero]
    omega
  have hsignificand : (ofNat k).significand = m := by
    rw [significand, hexponent, hfraction, if_neg (by omega)]
    omega
  have hscale : (ofNat k).scale = 1023 + l := by
    rw [scale, hexponent]
    omega
  refine ⟨?_, ?_, ?_⟩
  · have hexp : 52 - l + (1023 + l - 1) = unitExponent := by
      unfold unitExponent
      omega
    rw [units, hsignificand, hscale, ← hm, Nat.mul_assoc, ← Nat.pow_add, hexp]
  · rw [negative, BitVec.msb_eq_decide, hbits]
    exact decide_eq_false (by omega)
  · rw [isFinite, hexponent, bne_iff_ne]
    omega

theorem negative_or_sign (b : BitVec 64) : negative ⟨b ||| 1#64 <<< 63⟩ = true := by
  simp [negative, BitVec.msb_eq_getLsbD_last]

theorem fields_or_sign (b : BitVec 64) :
    exponent ⟨b ||| 1#64 <<< 63⟩ = exponent ⟨b⟩ ∧ fraction ⟨b ||| 1#64 <<< 63⟩ = fraction ⟨b⟩ := by
  have hbelow : ∀ start len, start + len ≤ 63 →
      (b ||| 1#64 <<< 63).extractLsb' start len = b.extractLsb' start len := by
    intro start len hle
    refine BitVec.eq_of_getLsbD_eq (fun k hk => ?_)
    have hsign : (1#64 <<< 63).getLsbD (start + k) = false := by
      rw [BitVec.getLsbD_shiftLeft, decide_eq_true (by omega : start + k < 63)]
      simp
    rw [BitVec.getLsbD_extractLsb', BitVec.getLsbD_extractLsb', BitVec.getLsbD_or, hsign,
      Bool.or_false]
  exact ⟨congrArg BitVec.toNat (hbelow 52 11 (by decide)),
    congrArg BitVec.toNat (hbelow 0 52 (by decide))⟩

theorem units_ofInt {k : Int} (hne : k ≠ 0) (hlt : k.natAbs < 2 ^ 53) :
    (ofInt k).units = k.natAbs * 2 ^ unitExponent ∧ (ofInt k).negative = decide (k < 0) ∧
      (ofInt k).isFinite = true := by
  obtain ⟨hunits, hpositive, hfinite⟩ := units_ofNat (Int.natAbs_pos.mpr hne) hlt
  unfold ofInt
  by_cases hneg : k < 0
  · obtain ⟨hexponent, hfraction⟩ := fields_or_sign (ofNat k.natAbs).bits
    rw [if_pos hneg, negative_or_sign, decide_eq_true hneg]
    refine ⟨?_, rfl, ?_⟩
    · rw [← hunits, units, units, significand, significand, scale, scale, hexponent, hfraction]
    · rw [← hfinite, isFinite, isFinite, hexponent]
  · rw [if_neg hneg, decide_eq_false hneg]
    exact ⟨hunits, hpositive, hfinite⟩

/-- An integer as a value, rounded where it has no exact one. -/
def natToDouble (k : Nat) : Binary64 := withSign false (roundUnits (k * 2 ^ unitExponent) 1)

def intToDouble (k : Int) : Binary64 :=
  withSign (decide (k < 0)) (roundUnits (k.natAbs * 2 ^ unitExponent) 1)

theorem trunc_eq (d : Binary64) : d.trunc = signedBy d.negative (d.units / 2 ^ unitExponent) := by
  have hscale : 1 ≤ d.scale := Nat.le_max_right _ _
  have hdiv : d.numerator / d.denominator = d.units / 2 ^ unitExponent := by
    show d.significand * 2 ^ (d.scale - 1075) / 2 ^ (1075 - d.scale) =
      d.significand * 2 ^ (d.scale - 1) / 2 ^ unitExponent
    rcases Nat.le_total d.scale 1075 with hle | hge
    · have hzero : d.scale - 1075 = 0 := by omega
      have hexp : unitExponent = 1075 - d.scale + (d.scale - 1) := by
        unfold unitExponent
        omega
      rw [hzero, hexp, Nat.pow_add, Nat.mul_div_mul_right _ _ (Nat.two_pow_pos _), Nat.pow_zero,
        Nat.mul_one]
    · have hzero : 1075 - d.scale = 0 := by omega
      have hexp : d.scale - 1 = d.scale - 1075 + unitExponent := by
        unfold unitExponent
        omega
      rw [hzero, hexp, Nat.pow_add, ← Nat.mul_assoc, Nat.mul_div_cancel _ (Nat.two_pow_pos _),
        Nat.pow_zero, Nat.div_one]
  unfold trunc signedBy
  rw [← hdiv]

/-- An integer below `2 ^ 53` converts back. -/
theorem toInt64_ofInt {k : Int} (hlt : k.natAbs < 2 ^ 53) :
    (ofInt k).trunc = k ∧ (ofInt k).toInt64 = k := by
  by_cases hne : k = 0
  · subst hne
    exact ⟨by decide +kernel, by decide +kernel⟩
  obtain ⟨hunits, hneg, hfinite⟩ := units_ofInt hne hlt
  have htrunc : (ofInt k).trunc = k := by
    rw [trunc_eq, hunits, hneg, Nat.mul_div_cancel _ (Nat.two_pow_pos _)]
    unfold signedBy
    by_cases hk : k < 0
    · rw [decide_eq_true hk, if_pos rfl]
      omega
    · rw [decide_eq_false hk, if_neg Bool.false_ne_true]
      omega
  refine ⟨htrunc, ?_⟩
  rw [toInt64, htrunc, if_pos ⟨hfinite, by omega, by omega⟩]

/-! ## Evaluation

The numbers of units are large.  Scaling by a power of two moves the exponent only, so that
the operations can be evaluated on the significands; and a number that is forced is
evaluated once. -/

theorem log2_div_shift {num den : Nat} (hden : 0 < den) (hpos : 0 < num / den) (k : Nat) :
    Nat.log2 (num * 2 ^ k / den) = Nat.log2 (num / den) + k := by
  have hne : num / den ≠ 0 := by omega
  have hlow : 2 ^ Nat.log2 (num / den) ≤ num / den := (Nat.le_log2 hne).mp (Nat.le_refl _)
  have hhigh : num / den < 2 ^ (Nat.log2 (num / den) + 1) :=
    (Nat.log2_lt hne).mp (Nat.lt_succ_self _)
  generalize Nat.log2 (num / den) = l at hlow hhigh ⊢
  have hlow' : 2 ^ (l + k) ≤ num * 2 ^ k / den := by
    rw [Nat.le_div_iff_mul_le hden, Nat.pow_add, Nat.mul_right_comm]
    exact Nat.mul_le_mul_right _ ((Nat.le_div_iff_mul_le hden).mp hlow)
  have hhigh' : num * 2 ^ k / den < 2 ^ (l + k + 1) := by
    rw [Nat.div_lt_iff_lt_mul hden, Nat.add_right_comm, Nat.pow_add, Nat.mul_right_comm]
    exact Nat.mul_lt_mul_of_pos_right ((Nat.div_lt_iff_lt_mul hden).mp hhigh) (Nat.two_pow_pos k)
  have hne' : num * 2 ^ k / den ≠ 0 := by
    have := Nat.two_pow_pos (l + k)
    omega
  have hle := (Nat.le_log2 hne').mpr hlow'
  have hlt := (Nat.log2_lt hne').mpr hhigh'
  omega

theorem roundQuotient_scale (num den : Nat) {c : Nat} (hc : 0 < c) :
    roundQuotient (num * c) (den * c) = roundQuotient num den := by
  have hlt : (2 * (num % den * c) < den * c) ↔ 2 * (num % den) < den := by
    rw [← Nat.mul_assoc]
    exact Nat.mul_lt_mul_right hc
  have heq : (2 * (num % den * c) = den * c) ↔ 2 * (num % den) = den := by
    rw [← Nat.mul_assoc]
    exact Nat.mul_left_inj (by omega)
  unfold roundQuotient
  rw [Nat.mul_div_mul_right _ _ hc, Nat.mul_mod_mul_right]
  simp only [hlt, heq]

theorem roundBits_shift {num den : Nat} (hden : 0 < den) (hbig : 2 ^ 52 ≤ num / den) (k : Nat) :
    roundBits (num * 2 ^ k) den = roundBits num den + k * 2 ^ 52 := by
  have hpos : 0 < num / den := by
    have := Nat.two_pow_pos 52
    omega
  have hlog : 52 ≤ Nat.log2 (num / den) := (Nat.le_log2 (by omega)).mpr hbig
  have hplace : lastPlace (num * 2 ^ k) den = lastPlace num den + k := by
    rw [lastPlace, lastPlace, log2_div_shift hden hpos]
    omega
  rw [roundBits, roundBits, hplace, Nat.pow_add, ← Nat.mul_assoc den,
    roundQuotient_scale _ _ (Nat.two_pow_pos k), Nat.add_mul]
  omega

theorem roundUnits_scale (num den : Nat) {c : Nat} (hc : 0 < c) :
    roundUnits (num * c) (den * c) = roundUnits num den := by
  have hplace : lastPlace (num * c) (den * c) = lastPlace num den := by
    rw [lastPlace, lastPlace, Nat.mul_div_mul_right _ _ hc]
  rw [roundUnits, roundUnits, roundBits, roundBits, hplace, Nat.mul_right_comm,
    roundQuotient_scale _ _ hc]

/-- A magnitude of `num * 2 ^ k / den` units. -/
def roundShifted (num den k : Nat) : Nat := min (roundBits num den + k * 2 ^ 52) infinity

theorem roundShifted_eq {num den : Nat} (hden : 0 < den) (hbig : 2 ^ 52 ≤ num / den) (k : Nat) :
    roundShifted num den k = roundUnits (num * 2 ^ k) den := by
  rw [roundShifted, roundUnits, roundBits_shift hden hbig]

theorem roundQuotient_exact (q : Nat) {den : Nat} (hden : 0 < den) :
    roundQuotient (q * den) den = q := by
  rw [roundQuotient, Nat.mul_mod_left, if_pos (.inl (by omega)), Nat.mul_div_cancel _ hden]

/-- An integer below `2 ^ 53` needs no rounding. -/
theorem natToDouble_eq {k : Nat} (hlt : k < 2 ^ 53) : natToDouble k = ofNat k := by
  by_cases hk : k = 0
  · subst hk
    rw [natToDouble, Nat.zero_mul]
    rfl
  have hpos : 0 < k := by omega
  obtain ⟨hlog, hlow, _⟩ := normalized hpos hlt
  have hplace : lastPlace (k * 2 ^ 52) 1 = Nat.log2 k := by
    have hshift : Nat.log2 (k * 2 ^ 52 / 1) = Nat.log2 (k / 1) + 52 :=
      log2_div_shift Nat.one_pos (by rwa [Nat.div_one]) 52
    rw [lastPlace, hshift, Nat.div_one]
    omega
  have hquotient : roundQuotient (k * 2 ^ 52) (1 * 2 ^ Nat.log2 k) = k * 2 ^ (52 - Nat.log2 k) := by
    have hexp : 52 = 52 - Nat.log2 k + Nat.log2 k := by omega
    rw [Nat.one_mul]
    calc roundQuotient (k * 2 ^ 52) (2 ^ Nat.log2 k)
        = roundQuotient (k * 2 ^ (52 - Nat.log2 k) * 2 ^ Nat.log2 k) (2 ^ Nat.log2 k) := by
          rw [Nat.mul_assoc, ← Nat.pow_add, ← hexp]
      _ = k * 2 ^ (52 - Nat.log2 k) := roundQuotient_exact _ (Nat.two_pow_pos _)
  have hunits : roundUnits (k * 2 ^ unitExponent) 1 =
      min (Nat.log2 k * 2 ^ 52 + k * 2 ^ (52 - Nat.log2 k) + 1022 * 2 ^ 52) infinity := by
    have hsplit : ∀ e, k * 2 ^ (52 + e) = k * 2 ^ 52 * 2 ^ e := fun e => by
      rw [Nat.pow_add, Nat.mul_assoc]
    have hexp : k * 2 ^ unitExponent = k * 2 ^ 52 * 2 ^ 1022 := by
      have hsum : unitExponent = 52 + 1022 := rfl
      rw [hsum]
      exact hsplit 1022
    have hbig : 2 ^ 52 ≤ k * 2 ^ 52 / 1 := by
      rw [Nat.div_one]
      exact Nat.le_mul_of_pos_left _ hpos
    rw [hexp, ← roundShifted_eq Nat.one_pos hbig, roundShifted, roundBits, hplace, hquotient]
  have hbound : Nat.log2 k * 2 ^ 52 + k * 2 ^ (52 - Nat.log2 k) + 1022 * 2 ^ 52 ≤ infinity := by
    have := (normalized hpos hlt).2.2
    unfold infinity
    omega
  rw [natToDouble, hunits, Nat.min_eq_left hbound, ofNat, if_neg hk, withSign]
  have hsum : Nat.log2 k * 2 ^ 52 + k * 2 ^ (52 - Nat.log2 k) + 1022 * 2 ^ 52 =
      (1023 + Nat.log2 k) * 2 ^ 52 + (k * 2 ^ (52 - Nat.log2 k) - 2 ^ 52) := by omega
  rw [hsum]
  rfl

theorem intToDouble_eq {k : Int} (hlt : k.natAbs < 2 ^ 53) : intToDouble k = ofInt k := by
  have hnat := natToDouble_eq hlt
  have hle : roundUnits (k.natAbs * 2 ^ unitExponent) 1 ≤ infinity := Nat.min_le_right _ _
  rw [natToDouble, withSign_false] at hnat
  unfold ofInt intToDouble
  generalize roundUnits (k.natAbs * 2 ^ unitExponent) 1 = n at hle hnat ⊢
  have hlt63 : n < 2 ^ 63 := by
    unfold infinity at hle
    omega
  by_cases hneg : k < 0
  · rw [if_pos hneg, ← hnat, decide_eq_true hneg, withSign_true]
    refine congrArg Binary64.mk (BitVec.eq_of_toNat_eq ?_)
    have hsign : (1#64 <<< 63).toNat = 2 ^ 63 := by decide
    have hor : 2 ^ 63 + n = n ||| 2 ^ 63 := by
      have h := Nat.two_pow_add_eq_or_of_lt hlt63 1
      rwa [Nat.mul_one, Nat.or_comm] at h
    rw [BitVec.toNat_or, hsign, BitVec.toNat_ofNat, BitVec.toNat_ofNat,
      Nat.mod_eq_of_lt (by omega), Nat.mod_eq_of_lt (by omega), hor]
  · rw [if_neg hneg, ← hnat, decide_eq_false hneg, withSign_false]

/-- `f n`, with `n` evaluated once. -/
def force {α : Type} (n : Nat) (f : Nat → α) : α :=
  match n with
  | 0 => f 0
  | k + 1 => f (k + 1)

@[simp] theorem force_eq {α : Type} (n : Nat) (f : Nat → α) : force n f = f n := by
  cases n <;> rfl

def forced {α : Type} (d : Binary64) (f : Binary64 → α) : α :=
  force d.bits.toNat (fun n => f ⟨BitVec.ofNat 64 n⟩)

@[simp] theorem forced_eq {α : Type} (d : Binary64) (f : Binary64 → α) : forced d f = f d := by
  rw [forced, force_eq, BitVec.ofNat_toNat, BitVec.setWidth_eq]

def guessLog2 : List Nat → Nat → Nat
  | [], _ => 0
  | k :: ks, n => if 2 ^ k ≤ n then k + guessLog2 ks (n / 2 ^ k) else guessLog2 ks n

def evalLog2 (n : Nat) : Nat :=
  force (guessLog2 [64, 32, 16, 8, 4, 2, 1] n) fun l =>
    if 2 ^ l ≤ n ∧ n < 2 ^ (l + 1) then l else Nat.log2 n

theorem evalLog2_eq (n : Nat) : evalLog2 n = Nat.log2 n := by
  rw [evalLog2, force_eq]
  generalize guessLog2 _ n = l
  split
  · rename_i h
    have hne : n ≠ 0 := by
      have := Nat.two_pow_pos l
      omega
    have hle := (Nat.le_log2 hne).mpr h.1
    have hlt := (Nat.log2_lt hne).mpr h.2
    omega
  · rfl

def evalRound (num den k : Nat) : Nat :=
  force (evalLog2 (num / den) - 52) fun s =>
    force (num / (den * 2 ^ s)) fun q => force (num % (den * 2 ^ s)) fun r =>
      min (s * 2 ^ 52 + (if 2 * r < den * 2 ^ s ∨ 2 * r = den * 2 ^ s ∧ q % 2 = 0 then q
        else q + 1) + k * 2 ^ 52) infinity

theorem evalRound_eq (num den k : Nat) : evalRound num den k = roundShifted num den k := by
  simp only [evalRound, force_eq, evalLog2_eq]
  rfl

/-! ### Operations -/

/-- The product of a value of `n * 2 ^ unitExponent` units and `b`. -/
def evalMul (negative : Bool) (n : Nat) (b : Binary64) : Option Binary64 :=
  if 2 ^ 52 ≤ n * b.significand then
    some (withSign (negative != b.negative) (evalRound (n * b.significand) 1 (b.scale - 1)))
  else none

def evalDiv (a b : Binary64) : Option Binary64 :=
  if b.scale ≤ a.scale + 1021 ∧ 2 ^ 52 ≤ a.significand * 2 ^ 53 / b.significand ∧
      0 < b.significand then
    some (withSign (a.negative != b.negative)
      (evalRound (a.significand * 2 ^ 53) b.significand (a.scale + 1021 - b.scale)))
  else none

def evalAdd (a b : Binary64) : Option Binary64 :=
  force (min a.scale b.scale) fun m =>
    force (a.significand * 2 ^ (a.scale - m)) fun x =>
      force (b.significand * 2 ^ (b.scale - m)) fun y =>
        if m < 53 then none
        else if a.negative = b.negative ∧ 0 < x then
          some (withSign a.negative (evalRound ((x + y) * 2 ^ 52) 1 (m - 53)))
        else if a.negative ≠ b.negative ∧ y < x then
          some (withSign a.negative (evalRound ((x - y) * 2 ^ 52) 1 (m - 53)))
        else if a.negative ≠ b.negative ∧ x < y then
          some (withSign b.negative (evalRound ((y - x) * 2 ^ 52) 1 (m - 53)))
        else none

theorem evalMul_sound {a b c : Binary64} {n : Nat} (hunits : a.units = n * 2 ^ unitExponent)
    (h : evalMul a.negative n b = some c) : a.mul b = c := by
  unfold evalMul at h
  split at h
  · rename_i hbig
    cases h
    have hb : b.units = b.significand * 2 ^ (b.scale - 1) := rfl
    have hprod : a.units * b.units =
        n * b.significand * 2 ^ (b.scale - 1) * 2 ^ unitExponent := by
      rw [hunits, hb, Nat.mul_assoc n, Nat.mul_assoc n, Nat.mul_assoc n, Nat.mul_comm (2 ^ _)]
    have hscaled := roundUnits_scale (n * b.significand * 2 ^ (b.scale - 1)) 1
      (Nat.two_pow_pos unitExponent)
    rw [Nat.one_mul] at hscaled
    rw [evalRound_eq, roundShifted_eq Nat.one_pos (by rwa [Nat.div_one]), mul, hprod, hscaled]
  · cases h

theorem evalDiv_sound {a b c : Binary64} (h : evalDiv a b = some c) : a.div b = c := by
  unfold evalDiv at h
  split at h
  · rename_i hcond
    obtain ⟨hscale, hbig, hpos⟩ := hcond
    cases h
    have ha : 1 ≤ a.scale := Nat.le_max_right _ _
    have hb : 1 ≤ b.scale := Nat.le_max_right _ _
    have hexp : a.scale - 1 + unitExponent = 53 + (a.scale + 1021 - b.scale) + (b.scale - 1) := by
      unfold unitExponent
      omega
    have hnum : a.units * 2 ^ unitExponent =
        a.significand * 2 ^ 53 * 2 ^ (a.scale + 1021 - b.scale) * 2 ^ (b.scale - 1) := by
      show a.significand * 2 ^ (a.scale - 1) * 2 ^ unitExponent = _
      rw [Nat.mul_assoc, ← Nat.pow_add, hexp, Nat.pow_add, Nat.pow_add]
      simp only [Nat.mul_assoc]
    have hden : b.units = b.significand * 2 ^ (b.scale - 1) := rfl
    rw [evalRound_eq, roundShifted_eq hpos hbig, div, hnum, hden,
      roundUnits_scale _ _ (Nat.two_pow_pos _)]
  · cases h

theorem signedUnits_eq (d : Binary64) {m : Nat} (hm : 1 ≤ m) (hle : m ≤ d.scale) :
    d.signedUnits = signedBy d.negative (d.significand * 2 ^ (d.scale - m)) * 2 ^ (m - 1) := by
  have hexp : d.scale - 1 = d.scale - m + (m - 1) := by omega
  have hunits : d.units = d.significand * 2 ^ (d.scale - m) * 2 ^ (m - 1) := by
    show d.significand * 2 ^ (d.scale - 1) = _
    rw [hexp, Nat.pow_add, Nat.mul_assoc]
  rw [signedUnits, hunits]
  unfold signedBy
  split
  · push_cast
    exact (Int.neg_mul ..).symm
  · push_cast
    rfl

/-- A sum that is not zero has the sign of its units. -/
theorem add_of_sum {a b : Binary64} {negative : Bool} {n m : Nat} (hn : 0 < n) (hm : 53 ≤ m)
    (h : a.signedUnits + b.signedUnits = signedBy negative n * 2 ^ (m - 1)) :
    a.add b = withSign negative (evalRound (n * 2 ^ 52) 1 (m - 53)) := by
  have hpow : (0 : Int) < 2 ^ (m - 1) := by positivity
  have hprod : (0 : Int) < n * 2 ^ (m - 1) := Int.mul_pos (by exact_mod_cast hn) hpow
  have hexp : m - 1 = 52 + (m - 53) := by omega
  have habs : (a.signedUnits + b.signedUnits).natAbs = n * 2 ^ 52 * 2 ^ (m - 53) := by
    have hsign : (signedBy negative n).natAbs = n := by
      unfold signedBy
      split
      · rw [Int.natAbs_neg, Int.natAbs_natCast]
      · rw [Int.natAbs_natCast]
    rw [h, Int.natAbs_mul, hsign, Int.natAbs_pow, hexp, Nat.pow_add, Nat.mul_assoc]
    rfl
  have hbig : 2 ^ 52 ≤ n * 2 ^ 52 / 1 := by
    rw [Nat.div_one]
    exact Nat.le_mul_of_pos_left _ hn
  have hnegative : (decide (a.signedUnits + b.signedUnits < 0) || (a.negative && b.negative)) =
      negative := by
    cases negative with
    | true =>
      have hlt : a.signedUnits + b.signedUnits < 0 := by
        rw [h]
        show -(n : Int) * 2 ^ (m - 1) < 0
        rw [Int.neg_mul]
        omega
      rw [decide_eq_true hlt, Bool.true_or]
    | false =>
      have hgt : 0 < a.signedUnits + b.signedUnits := by
        rw [h]
        exact hprod
      rw [decide_eq_false (by omega), Bool.false_or]
      by_contra hboth
      rw [Bool.not_eq_false, Bool.and_eq_true] at hboth
      have ha : a.signedUnits = -a.units := if_pos hboth.1
      have hb : b.signedUnits = -b.units := if_pos hboth.2
      omega
  rw [evalRound_eq, roundShifted_eq Nat.one_pos hbig, add, habs, hnegative]

theorem evalAdd_sound {a b c : Binary64} (h : evalAdd a b = some c) : a.add b = c := by
  simp only [evalAdd, force_eq] at h
  split at h
  · cases h
  · rename_i hm
    have hone : 1 ≤ min a.scale b.scale := by omega
    have ha := signedUnits_eq a hone (Nat.min_le_left _ _)
    have hb := signedUnits_eq b hone (Nat.min_le_right _ _)
    generalize a.significand * 2 ^ (a.scale - min a.scale b.scale) = x at h ha
    generalize b.significand * 2 ^ (b.scale - min a.scale b.scale) = y at h hb
    generalize min a.scale b.scale = m at h hm ha hb
    have hsum : ∀ (negative : Bool) (n : Nat),
        signedBy a.negative x + signedBy b.negative y = signedBy negative n →
        a.signedUnits + b.signedUnits = signedBy negative n * 2 ^ (m - 1) := by
      intro negative n heq
      rw [ha, hb, ← Int.add_mul, heq]
    split at h
    · rename_i hcond
      cases h
      refine add_of_sum (by omega) (by omega) (hsum _ _ ?_)
      rw [← hcond.1]
      unfold signedBy
      split <;> omega
    · split at h
      · rename_i hcond
        cases h
        refine add_of_sum (by omega) (by omega) (hsum _ _ ?_)
        have hneg : b.negative = !a.negative := by
          cases hna : a.negative <;> cases hnb : b.negative <;> simp_all
        rw [hneg]
        unfold signedBy
        cases a.negative <;> simp <;> omega
      · split at h
        · rename_i hcond
          cases h
          refine add_of_sum (by omega) (by omega) (hsum _ _ ?_)
          have hneg : a.negative = !b.negative := by
            cases hna : a.negative <;> cases hnb : b.negative <;> simp_all
          rw [hneg]
          unfold signedBy
          cases b.negative <;> simp <;> omega
        · cases h

end Binary64
end DseNetwork
