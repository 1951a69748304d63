import DseNetwork.MessageLib.Signals
import Mathlib.Logic.Function.Iterate
import Mathlib.Tactic.IntervalCases

/-
What decoding and encoding again does to a raw value.

A model that receives a message decodes its raw values, and encodes the signals again when
it next packs.  An unscaled value comes back.  A scaled one is divided by a factor that
binary64 only approximates, and the cast drops what is missing from a whole step.
-/

namespace DseNetwork

/-- A raw value decoded and encoded again. -/
def SignalFuncs.reencode {t : MemberType} (f : SignalFuncs t) (raw : t.Raw) : t.Raw :=
  f.encode (f.decode raw)

namespace MessageLib

open Binary64 (force forced evalMul evalAdd evalDiv)

theorem castInt_ofInt (w : Nat) {k : Int} (hlt : k.natAbs < 2 ^ 53) :
    castInt w (Binary64.ofInt k) = BitVec.ofInt w k := by
  obtain ⟨htrunc, hint⟩ := Binary64.toInt64_ofInt hlt
  rw [castInt, htrunc, hint, if_neg (by omega)]

/-- A cast of a value below `2 ^ 15`, which truncates once. -/
def evalCast (w : Nat) (v : Double) : Option (BitVec w) :=
  force (v.numerator / v.denominator) fun k =>
    if v.isFinite = true ∧ k < 2 ^ 15 then some (BitVec.ofInt w (Binary64.signedBy v.negative k))
    else none

theorem evalCast_sound {w : Nat} {v : Double} {x : BitVec w} (h : evalCast w v = some x) :
    castInt w v = x := by
  rw [evalCast, Binary64.force_eq] at h
  split at h
  · rename_i hcond
    obtain ⟨hfinite, hlt⟩ := hcond
    have htrunc : v.trunc = Binary64.signedBy v.negative (v.numerator / v.denominator) := rfl
    generalize v.numerator / v.denominator = k at h hlt htrunc
    have hbounds : -2 ^ 15 < v.trunc ∧ v.trunc < 2 ^ 15 := by
      rw [htrunc, Binary64.signedBy]
      split <;> omega
    have hint : v.toInt64 = v.trunc := by
      rw [Binary64.toInt64, if_pos ⟨hfinite, by omega, by omega⟩]
    rw [castInt, if_neg (by omega), hint, htrunc]
    exact Option.some.inj h
  · cases h

/-- An unscaled value below `2 ^ 53` comes back. -/
theorem unsigned_reencode {t : MemberType} (most : Option Nat) {raw : t.Raw}
    (hlt : raw.toNat < 2 ^ 53) : (unsignedFuncs t most).reencode raw = raw := by
  have hnat : Binary64.ofInt raw.toNat = Binary64.ofNat raw.toNat := by
    rw [Binary64.ofInt, if_neg (by omega), Int.natAbs_natCast]
  rw [SignalFuncs.reencode, unsignedFuncs_encode, unsignedFuncs_decode,
    Binary64.natToDouble_eq hlt, ← hnat, castInt_ofInt _ (by rwa [Int.natAbs_natCast]),
    BitVec.ofInt_natCast, BitVec.ofNat_toNat, BitVec.setWidth_eq]

theorem signed_reencode {t : MemberType} (bounds : Option (Int × Int)) {raw : t.Raw}
    (hlt : raw.toInt.natAbs < 2 ^ 53) : (signedFuncs t bounds).reencode raw = raw := by
  rw [SignalFuncs.reencode, signedFuncs_encode, signedFuncs_decode,
    Binary64.intToDouble_eq hlt, castInt_ofInt _ hlt, BitVec.ofInt_toInt]

/-! ## Descents -/

section

variable {α : Type} (f : α → α) (raw : Nat → α)

/-- The value of magnitude `n` comes to rest after `c` rounds, each of which takes one from
its magnitude. -/
inductive Settles : Nat → Nat → Prop
  | rests {n : Nat} : f (raw n) = raw n → Settles n 0
  | moves {n c : Nat} : f (raw (n + 1)) = raw n → Settles n c → Settles (n + 1) (c + 1)

/-- Evaluate the magnitudes that follow `n`, which comes to rest after `c` rounds. -/
def settleAll [DecidableEq α] (eval : Nat → Option α) (most : Nat) : (fuel n c : Nat) → Bool
  | 0, _, _ => true
  | fuel + 1, n, c =>
    force (n + 1) fun n' =>
      match eval n' with
      | none => false
      | some x =>
        if x = raw n' then settleAll eval most fuel n' 0
        else if x = raw n ∧ c < most then force (c + 1) (settleAll eval most fuel n')
        else false

variable {f raw}

theorem settleAll_sound [DecidableEq α] {eval : Nat → Option α} {most fuel n c : Nat}
    (heval : ∀ k x, n < k → k ≤ n + fuel → eval k = some x → f (raw k) = x)
    (hn : Settles f raw n c) (hc : c ≤ most) (h : settleAll raw eval most fuel n c = true)
    {k : Nat} (hlow : n ≤ k) (hhigh : k ≤ n + fuel) : ∃ c', c' ≤ most ∧ Settles f raw k c' := by
  induction fuel generalizing n c with
  | zero =>
    obtain rfl : k = n := by omega
    exact ⟨c, hc, hn⟩
  | succ fuel ih =>
    rw [settleAll, Binary64.force_eq] at h
    by_cases hk : k = n
    · exact ⟨c, hc, hk ▸ hn⟩
    have hrest : ∀ k x, n + 1 < k → k ≤ n + 1 + fuel → eval k = some x → f (raw k) = x :=
      fun k x hlow hhigh => heval k x (by omega) (by omega)
    cases hx : eval (n + 1) with
    | none =>
      rw [hx] at h
      cases h
    | some x =>
      rw [hx] at h
      dsimp only at h
      have hnext := heval (n + 1) x (by omega) (by omega) hx
      by_cases hrests : x = raw (n + 1)
      · rw [if_pos hrests] at h
        exact ih hrest (.rests (hnext.trans hrests)) (Nat.zero_le most) h (by omega) (by omega)
      · rw [if_neg hrests] at h
        split at h
        · rename_i hmoves
          rw [Binary64.force_eq] at h
          exact ih hrest (.moves (hnext.trans hmoves.1) hn) (by omega) h (by omega) (by omega)
        · cases h

/-- After `j` rounds a descent is at the magnitude less `j`, and at its end it rests. -/
theorem Settles.iterate {n c : Nat} (h : Settles f raw n c) :
    c ≤ n ∧ (∀ j, j ≤ c → f^[j] (raw n) = raw (n - j)) ∧ f (raw (n - c)) = raw (n - c) := by
  induction h with
  | rests hrests =>
    refine ⟨Nat.zero_le _, fun j hj => ?_, hrests⟩
    obtain rfl : j = 0 := by omega
    rfl
  | @moves n c hmoves _ ih =>
    obtain ⟨hle, hdown, hrests⟩ := ih
    have hsub : n + 1 - (c + 1) = n - c := by omega
    refine ⟨by omega, fun j hj => ?_, by rwa [hsub]⟩
    cases j with
    | zero => rfl
    | succ j =>
      have hj' : n + 1 - (j + 1) = n - j := by omega
      rw [Function.iterate_succ_apply, hmoves, hdown j (by omega), hj']

end

namespace Stub

/-! ## Tenths -/

def evalTenths (n : Nat) : Option (BitVec 8) :=
  (evalMul false n tenth).bind fun b => forced b fun b =>
    (evalDiv b tenth).bind fun e => forced e fun e => evalCast 8 e

theorem evalTenths_sound {n : Nat} (hpos : 0 < n) (hlt : n < 2 ^ 53) {x : BitVec 8}
    (h : evalTenths n = some x) :
    castInt 8 (((Binary64.natToDouble n).mul tenth).div tenth) = x := by
  obtain ⟨hunits, hneg, _⟩ := Binary64.units_ofNat hpos hlt
  obtain ⟨b, hb, h⟩ := Option.bind_eq_some_iff.mp h
  rw [Binary64.forced_eq] at h
  obtain ⟨e, he, h⟩ := Option.bind_eq_some_iff.mp h
  rw [Binary64.forced_eq] at h
  rw [← hneg] at hb
  rw [Binary64.natToDouble_eq hlt, Binary64.evalMul_sound hunits hb, Binary64.evalDiv_sound he]
  exact evalCast_sound h

/-- Of the tenths up to 50, 4.3 alone does not come back: it becomes 4.2. -/
theorem tenths_reencode {raw : MemberType.Raw .uint8} (h : (tenthsFuncs 50).isInRange raw = true) :
    (tenthsFuncs 50).reencode raw = if raw.toNat = 43 then 42#_ else raw := by
  have hle : raw.toNat ≤ 50 := of_decide_eq_true h
  have hall : ∀ n, n < 51 → 0 < n →
      evalTenths n = some (if n = 43 then 42#8 else BitVec.ofNat 8 n) := by decide +kernel
  have hnone : castInt 8 (((Binary64.natToDouble 0).mul tenth).div tenth) = BitVec.ofNat 8 0 := by
    decide +kernel
  have hraw : BitVec.ofNat 8 raw.toNat = raw :=
    (BitVec.ofNat_toNat 8 raw).trans (BitVec.setWidth_eq raw)
  have heval : castInt 8 (((Binary64.natToDouble raw.toNat).mul tenth).div tenth) =
      if raw.toNat = 43 then 42#8 else BitVec.ofNat 8 raw.toNat := by
    by_cases hzero : raw.toNat = 0
    · rw [hzero]
      exact hnone
    · exact evalTenths_sound (by omega) (by omega) (hall raw.toNat (by omega) (by omega))
  rw [hraw] at heval
  rw [SignalFuncs.reencode, tenthsFuncs_encode, tenthsFuncs_decode]
  exact heval

/-! ## The temperature -/

def evalTemperature (negative : Bool) (n : Nat) : Option (BitVec 16) :=
  (evalMul negative n hundredth).bind fun b => forced b fun b =>
    (evalAdd b (Binary64.ofNat 250)).bind fun c => forced c fun c =>
      (evalAdd c (Binary64.ofNat 250).neg).bind fun d => forced d fun d =>
        (evalDiv d hundredth).bind fun e => forced e fun e => evalCast 16 e

theorem evalTemperature_sound {raw : MemberType.Raw .int16} {negative : Bool} {n : Nat}
    (hraw : raw.toInt = Binary64.signedBy negative n) (hpos : 0 < n) (hlt : n < 2 ^ 53)
    {x : BitVec 16} (h : evalTemperature negative n = some x) :
    exampleMessageTemperature.reencode raw = x := by
  have habs : raw.toInt.natAbs = n := by
    rw [hraw, Binary64.signedBy]
    split <;> omega
  have hsign : decide (raw.toInt < 0) = negative := by
    rw [hraw, Binary64.signedBy]
    cases negative <;> simp
    omega
  obtain ⟨hunits, hneg, _⟩ := Binary64.units_ofInt (k := raw.toInt) (by omega) (by omega)
  rw [habs] at hunits
  rw [hsign] at hneg
  obtain ⟨b, hb, h⟩ := Option.bind_eq_some_iff.mp h
  rw [Binary64.forced_eq] at h
  obtain ⟨c, hc, h⟩ := Option.bind_eq_some_iff.mp h
  rw [Binary64.forced_eq] at h
  obtain ⟨d, hd, h⟩ := Option.bind_eq_some_iff.mp h
  rw [Binary64.forced_eq] at h
  obtain ⟨e, he, h⟩ := Option.bind_eq_some_iff.mp h
  rw [Binary64.forced_eq] at h
  rw [← hneg] at hb
  rw [SignalFuncs.reencode, exampleMessageTemperature_encode, exampleMessageTemperature_decode,
    Binary64.intToDouble_eq (by omega), Binary64.evalMul_sound hunits hb, Binary64.evalAdd_sound hc,
    Binary64.sub, Binary64.evalAdd_sound hd, Binary64.evalDiv_sound he]
  exact evalCast_sound h

/-- The raw value of a sign and a magnitude. -/
def signedRaw (negative : Bool) (n : Nat) : BitVec 16 :=
  BitVec.ofInt 16 (Binary64.signedBy negative n)

theorem signedRaw_zero (negative : Bool) : signedRaw negative 0 = 0#16 := by
  cases negative <;> rfl

theorem temperature_zero {raw : MemberType.Raw .int16} (h : raw = 0#_) :
    exampleMessageTemperature.reencode raw = raw := by
  have hnone : castInt 16 (((((Binary64.intToDouble 0).mul hundredth).add
      (Binary64.ofNat 250)).sub (Binary64.ofNat 250)).div hundredth) = 0#16 := by
    decide +kernel
  rw [SignalFuncs.reencode, exampleMessageTemperature_encode, exampleMessageTemperature_decode, h,
    BitVec.toInt_zero]
  exact hnone

theorem signedRaw_toInt (negative : Bool) {n : Nat} (hlt : n < 2 ^ 15) :
    (signedRaw negative n).toInt = Binary64.signedBy negative n := by
  rw [signedRaw, BitVec.toInt_ofInt]
  refine Int.bmod_eq_of_le ?_ ?_ <;>
  · unfold Binary64.signedBy
    split <;> push_cast <;> omega

/-- The magnitudes from `256 * j` to the next multiple, of which the first rests. -/
def settlesFrom (negative : Bool) (j : Nat) : Bool :=
  (j == 0 || evalTemperature negative (256 * j) == some (signedRaw negative (256 * j))) &&
    settleAll (signedRaw negative) (evalTemperature negative) 3 256 (256 * j) 0

theorem settlesFrom_sound {negative : Bool} {j : Nat} (hj : j < 8)
    (h : settlesFrom negative j = true) {n : Nat} (hlow : 256 * j ≤ n)
    (hhigh : n ≤ 256 * j + 256) :
    ∃ c, c ≤ 3 ∧ Settles exampleMessageTemperature.reencode (signedRaw negative) n c := by
  obtain ⟨hfirst, hall⟩ := Bool.and_eq_true_iff.mp h
  have heval : ∀ k x, 0 < k → k < 2 ^ 15 → evalTemperature negative k = some x →
      exampleMessageTemperature.reencode (signedRaw negative k) = x :=
    fun k x hpos hlt => evalTemperature_sound (signedRaw_toInt negative hlt) hpos (by omega)
  have hrests : Settles exampleMessageTemperature.reencode (signedRaw negative) (256 * j) 0 := by
    refine .rests ?_
    by_cases hzero : j = 0
    · subst hzero
      exact temperature_zero (signedRaw_zero negative)
    · rw [beq_false_of_ne hzero, Bool.false_or] at hfirst
      exact heval _ _ (by omega) (by omega) (eq_of_beq hfirst)
  exact settleAll_sound (fun k x hlt hle => heval k x (by omega) (by omega)) hrests
    (Nat.zero_le 3) hall hlow hhigh

/-- Every magnitude of the range comes to rest within three rounds. -/
theorem temperature_descends (negative : Bool) {n : Nat} (hle : n ≤ 2048) : ∃ c, c ≤ 3 ∧
    Settles exampleMessageTemperature.reencode (signedRaw negative) n c := by
  have hall : ∀ j, j < 8 → settlesFrom negative j = true := by
    intro j hj
    cases negative <;> interval_cases j <;> decide +kernel
  have hj : (n - 1) / 256 < 8 := by omega
  exact settlesFrom_sound hj (hall _ hj) (by omega) (by omega)

/-! ## Every signal -/

/-- A value in range comes to rest within `k` rounds.  It stays in range, and each round
that moves it takes one from the magnitude of its number. -/
def LibrarySignal.SettlesWithin (ls : LibrarySignal) (k : Nat) : Prop :=
  ∀ raw, ls.funcs.isInRange raw = true → ∃ c, c ≤ k ∧
    (∀ j, j ≤ c → ls.funcs.isInRange (ls.funcs.reencode^[j] raw) = true ∧
      (ls.dbc.number (ls.funcs.reencode^[j] raw)).natAbs = (ls.dbc.number raw).natAbs - j) ∧
    ls.funcs.reencode (ls.funcs.reencode^[c] raw) = ls.funcs.reencode^[c] raw

theorem settles_of_fixed {ls : LibrarySignal}
    (h : ∀ raw, ls.funcs.isInRange raw = true → ls.funcs.reencode raw = raw) (k : Nat) :
    ls.SettlesWithin k := by
  intro raw hraw
  refine ⟨0, Nat.zero_le k, fun j hj => ?_, h raw hraw⟩
  obtain rfl : j = 0 := by omega
  exact ⟨hraw, rfl⟩

theorem unsigned_settles {sig : DbcSignal} {t : MemberType} {most : Nat} (hmost : most < 2 ^ 53)
    (k : Nat) : LibrarySignal.SettlesWithin ⟨sig, t, unsignedFuncs t (some most)⟩ k := by
  refine settles_of_fixed (fun raw hraw => unsigned_reencode (some most) ?_) k
  have hle : raw.toNat ≤ most := of_decide_eq_true hraw
  exact lt_of_le_of_lt hle hmost

theorem byte_settles {sig : DbcSignal} (k : Nat) :
    LibrarySignal.SettlesWithin ⟨sig, .uint8, unsignedFuncs .uint8 none⟩ k := by
  refine settles_of_fixed (fun raw _ => unsigned_reencode none ?_) k
  have hlt : raw.toNat < 2 ^ 8 := raw.isLt
  omega

theorem signed_settles {sig : DbcSignal} {t : MemberType} {lo hi : Int} (hlo : -2 ^ 53 < lo)
    (hhi : hi < 2 ^ 53) (k : Nat) :
    LibrarySignal.SettlesWithin ⟨sig, t, signedFuncs t (some (lo, hi))⟩ k := by
  refine settles_of_fixed (fun raw hraw => signed_reencode (some (lo, hi)) ?_) k
  have hin : (decide (lo ≤ raw.toInt) && decide (raw.toInt ≤ hi)) = true := hraw
  rw [Bool.and_eq_true, decide_eq_true_eq, decide_eq_true_eq] at hin
  omega

theorem int8_settles {sig : DbcSignal} (k : Nat) :
    LibrarySignal.SettlesWithin ⟨sig, .int8, signedFuncs .int8 none⟩ k := by
  refine settles_of_fixed (fun raw _ => signed_reencode none ?_) k
  have hlow : -2 ^ 7 ≤ raw.toInt := BitVec.le_toInt (w := 8) raw
  have hhigh : raw.toInt < 2 ^ 7 := BitVec.toInt_lt (w := 8)
  omega

theorem tenths_settle {sig : DbcSignal} (hsigned : sig.signed = false) {k : Nat} (hk : 1 ≤ k) :
    LibrarySignal.SettlesWithin ⟨sig, .uint8, tenthsFuncs 50⟩ k := by
  intro raw hraw
  have hle : raw.toNat ≤ 50 := of_decide_eq_true hraw
  have hstep := tenths_reencode hraw
  by_cases h43 : raw.toNat = 43
  · rw [if_pos h43] at hstep
    have hnumber : ∀ r : MemberType.Raw .uint8, (sig.number r).natAbs = r.toNat := by
      intro r
      rw [DbcSignal.number, hsigned, if_neg Bool.false_ne_true, Int.natAbs_natCast]
    refine ⟨1, hk, fun j hj => ?_, ?_⟩
    · dsimp only
      rw [hnumber, hnumber, h43]
      obtain rfl | rfl : j = 0 ∨ j = 1 := by omega
      · exact ⟨hraw, h43⟩
      · rw [Function.iterate_one, hstep]
        exact ⟨rfl, rfl⟩
    · dsimp only
      rw [Function.iterate_one, hstep]
      exact tenths_reencode rfl
  · rw [if_neg h43] at hstep
    refine ⟨0, Nat.zero_le k, fun j hj => ?_, hstep⟩
    obtain rfl : j = 0 := by omega
    exact ⟨hraw, rfl⟩

theorem temperature_settles {k : Nat} (hk : 3 ≤ k) :
    LibrarySignal.SettlesWithin ⟨Dbc.temperature, .int16, exampleMessageTemperature⟩ k := by
  intro raw hraw
  have hin : (decide (-2048 ≤ raw.toInt) && decide (raw.toInt ≤ 2047)) = true := hraw
  rw [Bool.and_eq_true, decide_eq_true_eq, decide_eq_true_eq] at hin
  have hsigned : raw.toInt = Binary64.signedBy (decide (raw.toInt < 0)) raw.toInt.natAbs := by
    unfold Binary64.signedBy
    by_cases hneg : raw.toInt < 0
    · rw [decide_eq_true hneg, if_pos rfl]
      omega
    · rw [decide_eq_false hneg, if_neg Bool.false_ne_true]
      omega
  have hform : raw = signedRaw (decide (raw.toInt < 0)) raw.toInt.natAbs := by
    refine BitVec.eq_of_toInt_eq (hsigned.trans ?_)
    exact (signedRaw_toInt _ (by omega)).symm
  obtain ⟨c, hc, hdescends⟩ := temperature_descends (decide (raw.toInt < 0))
    (n := raw.toInt.natAbs) (by omega)
  obtain ⟨hle, hdown, hrests⟩ := hdescends.iterate
  rw [← hform] at hdown
  refine ⟨c, hc.trans hk, fun j hj => ?_, ?_⟩
  · dsimp only
    rw [hdown j hj]
    have htoInt := signedRaw_toInt (decide (raw.toInt < 0)) (n := raw.toInt.natAbs - j) (by omega)
    have habs : (signedRaw (decide (raw.toInt < 0)) (raw.toInt.natAbs - j)).toInt.natAbs =
        raw.toInt.natAbs - j := by
      rw [htoInt, Binary64.signedBy]
      split <;> omega
    refine ⟨?_, habs⟩
    have hrange : -2048 ≤ (signedRaw (decide (raw.toInt < 0)) (raw.toInt.natAbs - j)).toInt ∧
        (signedRaw (decide (raw.toInt < 0)) (raw.toInt.natAbs - j)).toInt ≤ 2047 := by
      rw [htoInt, Binary64.signedBy]
      by_cases hneg : raw.toInt < 0
      · rw [decide_eq_true hneg, if_pos rfl]
        omega
      · rw [decide_eq_false hneg, if_neg Bool.false_ne_true]
        omega
    exact Bool.and_eq_true_iff.mpr ⟨decide_eq_true hrange.1, decide_eq_true hrange.2⟩
  · dsimp only
    rw [hdown c (Nat.le_refl c)]
    exact hrests

/-- Decoding and encoding again settles, at once for the signals of factor one. -/
theorem signals_settle : ∀ ls ∈ signals, ls.SettlesWithin (if ls.dbc.factor = 1 then 0 else 3) := by
  simp only [signals, List.forall_mem_cons]
  exact ⟨unsigned_settles (by decide) _, tenths_settle rfl (by decide +kernel),
    temperature_settles (by decide +kernel), tenths_settle rfl (by decide +kernel),
    byte_settles _, byte_settles _, byte_settles _, byte_settles _,
    unsigned_settles (by decide) _, unsigned_settles (by decide) _,
    unsigned_settles (by decide) _, unsigned_settles (by decide) _,
    int8_settles _, signed_settles (by decide) (by decide) _,
    signed_settles (by decide) (by decide) _, signed_settles (by decide) (by decide) _,
    settles_of_fixed (fun _ _ => rfl) _, unsigned_settles (by decide) _,
    unsigned_settles (by decide) _, byte_settles _, settles_of_fixed (fun _ _ => rfl) _,
    fun _ h => absurd h List.not_mem_nil⟩

theorem signals_settle_temperature :
    LibrarySignal.SettlesWithin ⟨Dbc.temperature, .int16, exampleMessageTemperature⟩
      (if Dbc.temperature.factor = 1 then 0 else 3) :=
  signals_settle ⟨Dbc.temperature, .int16, exampleMessageTemperature⟩ (by simp [signals])

end Stub
end MessageLib
end DseNetwork
