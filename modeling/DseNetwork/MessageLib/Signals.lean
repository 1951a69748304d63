import DseNetwork.MessageLib.Stub
import DseNetwork.Lib.Rounding
import Mathlib.Tactic.NormNum
import Mathlib.Tactic.Linarith

/-
The signal functions of the stub message library, and the raw values that its description
allows.

A raw value is allowed if its field has room for it and, where the description gives a
minimum and a maximum, its physical value is between them.  `(float)` conversions are not
modelled, so that `FloatSignal` and `BarFloat` have no functions here.
-/

namespace DseNetwork
namespace MessageLib

namespace DbcSignal

def number (sig : DbcSignal) {w : Nat} (raw : BitVec w) : Int :=
  if sig.signed then raw.toInt else raw.toNat

def physical (sig : DbcSignal) {w : Nat} (raw : BitVec w) : ℚ :=
  sig.factor * sig.number raw + sig.offset

/-- A minimum and a maximum of zero stand for none. -/
def Allows (sig : DbcSignal) {w : Nat} (raw : BitVec w) : Prop :=
  sig.isFloat = true ∨ sig.field.Fits sig.signed raw ∧
    (sig.minimum = 0 ∧ sig.maximum = 0 ∨
      sig.minimum ≤ sig.physical raw ∧ sig.physical raw ≤ sig.maximum)

variable {sig : DbcSignal} {w : Nat} {raw : BitVec w}

theorem allows_unlimited (hfloat : sig.isFloat = false) (hmin : sig.minimum = 0)
    (hmax : sig.maximum = 0) : sig.Allows raw ↔ sig.field.Fits sig.signed raw := by
  simp [Allows, hfloat, hmin, hmax]

/-- The limits of an integer signal are at `lo` and `hi` steps of its factor. -/
def LimitedBy (sig : DbcSignal) (lo hi : Int) : Prop :=
  sig.isFloat = false ∧ 0 < sig.factor ∧ sig.factor * lo + sig.offset = sig.minimum ∧
    sig.factor * hi + sig.offset = sig.maximum ∧ sig.maximum ≠ 0

instance (sig : DbcSignal) (lo hi : Int) : Decidable (sig.LimitedBy lo hi) :=
  inferInstanceAs (Decidable (_ ∧ _ ∧ _ ∧ _ ∧ _))

theorem LimitedBy.allows_iff {lo hi : Int} (h : sig.LimitedBy lo hi) : sig.Allows raw ↔
    sig.field.Fits sig.signed raw ∧ lo ≤ sig.number raw ∧ sig.number raw ≤ hi := by
  obtain ⟨hfloat, hfactor, hlo, hhi, hmax⟩ := h
  have hlow : sig.minimum ≤ sig.physical raw ↔ lo ≤ sig.number raw := by
    rw [← hlo, physical, add_le_add_iff_right, mul_le_mul_iff_right₀ hfactor]
    exact Int.cast_le
  have hhigh : sig.physical raw ≤ sig.maximum ↔ sig.number raw ≤ hi := by
    rw [← hhi, physical, add_le_add_iff_right, mul_le_mul_iff_right₀ hfactor]
    exact Int.cast_le
  simp [Allows, hfloat, hmax, hlow, hhigh]

end DbcSignal

/-! ## Functions -/

/-- The cast of a double to an integer type.  Outside the type it is undefined in C. -/
def castInt (w : Nat) (v : Double) : BitVec w :=
  if v.isFinite ∧ 2 ^ 63 ≤ v.trunc ∧ v.trunc < 2 ^ 64 then BitVec.ofInt w v.trunc
  else BitVec.ofInt w v.toInt64

/-- The functions of an unsigned signal of factor one and offset zero. -/
def unsignedFuncs (t : MemberType) (most : Option Nat) : SignalFuncs t where
  encode v := castInt _ v
  decode r := Binary64.natToDouble r.toNat
  isInRange r :=
    match most with
    | none => true
    | some m => decide (r.toNat ≤ m)

/-- The functions of a signed signal of factor one and offset zero. -/
def signedFuncs (t : MemberType) (bounds : Option (Int × Int)) : SignalFuncs t where
  encode v := castInt _ v
  decode r := Binary64.intToDouble r.toInt
  isInRange r :=
    match bounds with
    | none => true
    | some (lo, hi) => decide (lo ≤ r.toInt) && decide (r.toInt ≤ hi)

section

variable (t : MemberType) (most : Option Nat) (bounds : Option (Int × Int)) (v : Double) (r : t.Raw)

@[simp] theorem unsignedFuncs_encode : (unsignedFuncs t most).encode v = castInt _ v := rfl

@[simp] theorem unsignedFuncs_decode :
    (unsignedFuncs t most).decode r = Binary64.natToDouble r.toNat := rfl

@[simp] theorem signedFuncs_encode : (signedFuncs t bounds).encode v = castInt _ v := rfl

@[simp] theorem signedFuncs_decode :
    (signedFuncs t bounds).decode r = Binary64.intToDouble r.toInt := rfl

end

/-- The literal `0.1`. -/
def tenth : Double := ⟨0x3FB999999999999A#64⟩

/-- The literal `0.01`. -/
def hundredth : Double := ⟨0x3F847AE147AE147B#64⟩

/-- The functions of a signal of factor `0.1`. -/
def tenthsFuncs (most : Nat) : SignalFuncs .uint8 where
  encode v := castInt _ (v.div tenth)
  decode r := (Binary64.natToDouble r.toNat).mul tenth
  isInRange r := decide (r.toNat ≤ most)

@[simp] theorem tenthsFuncs_encode (most : Nat) (v : Double) :
    (tenthsFuncs most).encode v = castInt _ (v.div tenth) := rfl

@[simp] theorem tenthsFuncs_decode (most : Nat) (r : MemberType.Raw .uint8) :
    (tenthsFuncs most).decode r = (Binary64.natToDouble r.toNat).mul tenth := rfl

namespace Stub

def exampleMessageEnable : SignalFuncs .uint8 := unsignedFuncs .uint8 (some 1)

def exampleMessageAverageRadius : SignalFuncs .uint8 := tenthsFuncs 50

def exampleMessageTemperature : SignalFuncs .int16 where
  encode v := castInt _ ((v.sub (Binary64.ofNat 250)).div hundredth)
  decode r := ((Binary64.intToDouble r.toInt).mul hundredth).add (Binary64.ofNat 250)
  isInRange r := decide (-2048 ≤ r.toInt) && decide (r.toInt ≤ 2047)

@[simp] theorem exampleMessageTemperature_encode (v : Double) :
    exampleMessageTemperature.encode v =
      castInt _ ((v.sub (Binary64.ofNat 250)).div hundredth) := rfl

@[simp] theorem exampleMessageTemperature_decode (r : MemberType.Raw .int16) :
    exampleMessageTemperature.decode r =
      ((Binary64.intToDouble r.toInt).mul hundredth).add (Binary64.ofNat 250) := rfl

def exampleMessage2Radius : SignalFuncs .uint8 := tenthsFuncs 50

def functionExampleCrc : SignalFuncs .uint8 := unsignedFuncs .uint8 none

def functionExampleAlive : SignalFuncs .uint8 := unsignedFuncs .uint8 none

def functionExampleFoo : SignalFuncs .uint8 := unsignedFuncs .uint8 none

def functionExampleBar : SignalFuncs .uint8 := unsignedFuncs .uint8 none

def unsignedTypesUInt8Signal : SignalFuncs .uint8 := unsignedFuncs .uint8 (some 250)

def unsignedTypesUInt16Signal : SignalFuncs .uint16 := unsignedFuncs .uint16 (some 1000)

def unsignedTypesUInt32Signal : SignalFuncs .uint32 := unsignedFuncs .uint32 (some 40000)

def unsignedTypesUInt64Signal : SignalFuncs .uint64 := unsignedFuncs .uint64 (some 800000)

def signedTypesInt8Signal : SignalFuncs .int8 := signedFuncs .int8 none

def signedTypesInt16Signal : SignalFuncs .int16 := signedFuncs .int16 (some (-2501, 2500))

def signedTypesInt32Signal : SignalFuncs .int32 := signedFuncs .int32 (some (-210001, 210000))

def signedTypesInt64Signal : SignalFuncs .int64 := signedFuncs .int64 (some (-900001, 900000))

def floatTypesDoubleSignal : SignalFuncs .double where
  encode v := v.bits
  decode r := ⟨r⟩
  isInRange _ := true

def scheduledMessageScheduleSignal : SignalFuncs .uint8 := unsignedFuncs .uint8 (some 1)

def muxMessageHeaderId : SignalFuncs .uint32 := unsignedFuncs .uint32 (some 16777215)

def muxMessageHeaderDlc : SignalFuncs .uint8 := unsignedFuncs .uint8 none

def muxMessageFooDouble : SignalFuncs .double where
  encode v := v.bits
  decode r := ⟨r⟩
  isInRange _ := true

/-- A signal with its functions, for members of one type. -/
structure LibrarySignal where
  dbc : DbcSignal
  type : MemberType
  funcs : SignalFuncs type

def signals : List LibrarySignal := [
  ⟨Dbc.enable, _, exampleMessageEnable⟩, ⟨Dbc.averageRadius, _, exampleMessageAverageRadius⟩,
  ⟨Dbc.temperature, _, exampleMessageTemperature⟩, ⟨Dbc.radius, _, exampleMessage2Radius⟩,
  ⟨Dbc.crc, _, functionExampleCrc⟩, ⟨Dbc.alive, _, functionExampleAlive⟩,
  ⟨Dbc.foo, _, functionExampleFoo⟩, ⟨Dbc.bar, _, functionExampleBar⟩,
  ⟨Dbc.uInt8Signal, _, unsignedTypesUInt8Signal⟩,
  ⟨Dbc.uInt16Signal, _, unsignedTypesUInt16Signal⟩,
  ⟨Dbc.uInt32Signal, _, unsignedTypesUInt32Signal⟩,
  ⟨Dbc.uInt64Signal, _, unsignedTypesUInt64Signal⟩,
  ⟨Dbc.int8Signal, _, signedTypesInt8Signal⟩, ⟨Dbc.int16Signal, _, signedTypesInt16Signal⟩,
  ⟨Dbc.int32Signal, _, signedTypesInt32Signal⟩, ⟨Dbc.int64Signal, _, signedTypesInt64Signal⟩,
  ⟨Dbc.doubleSignal, _, floatTypesDoubleSignal⟩,
  ⟨Dbc.scheduleSignal, _, scheduledMessageScheduleSignal⟩,
  ⟨Dbc.headerId, _, muxMessageHeaderId⟩, ⟨Dbc.headerDlc, _, muxMessageHeaderDlc⟩,
  ⟨Dbc.fooDouble, _, muxMessageFooDouble⟩]

/-! ## Ranges -/

/-- The range function of a signal accepts exactly the raw values that are allowed. -/
def LibrarySignal.RangeAsDescribed (ls : LibrarySignal) : Prop :=
  ls.type.size = ls.dbc.memberSize ∧
    ∀ raw, ls.funcs.isInRange raw = true ↔ ls.dbc.Allows raw

theorem unsigned_unlimited {t : MemberType} {sig : DbcSignal} {most : Option Nat}
    (hsize : t.size = sig.memberSize) (hfloat : sig.isFloat = false)
    (hsigned : sig.signed = false) (hmin : sig.minimum = 0) (hmax : sig.maximum = 0)
    (hmost : ∀ m, most = some m → m + 1 = 2 ^ sig.len)
    (hnone : most = none → 8 * t.size = sig.len) :
    LibrarySignal.RangeAsDescribed ⟨sig, t, unsignedFuncs t most⟩ := by
  refine ⟨hsize, fun raw => ?_⟩
  rw [DbcSignal.allows_unlimited hfloat hmin hmax, hsigned, BitField.fits_unsigned_iff,
    sig.field_len]
  cases most with
  | none =>
    rw [← hnone rfl]
    exact ⟨fun _ => raw.isLt, fun _ => rfl⟩
  | some m =>
    have hpow := hmost m rfl
    show decide (raw.toNat ≤ m) = true ↔ _
    rw [decide_eq_true_eq]
    omega

theorem unsigned_limited {t : MemberType} {sig : DbcSignal} {funcs : SignalFuncs t} {most : Nat}
    (hrange : ∀ raw, funcs.isInRange raw = decide (raw.toNat ≤ most))
    (hsize : t.size = sig.memberSize) (hsigned : sig.signed = false)
    (hlimits : sig.LimitedBy 0 most) (hroom : most < 2 ^ sig.len) :
    LibrarySignal.RangeAsDescribed ⟨sig, t, funcs⟩ := by
  refine ⟨hsize, fun raw => ?_⟩
  show funcs.isInRange raw = true ↔ sig.Allows raw
  rw [hrange, decide_eq_true_eq, hlimits.allows_iff, DbcSignal.number, hsigned,
    BitField.fits_unsigned_iff, sig.field_len]
  simp only [Bool.false_eq_true, if_false]
  omega

theorem signed_limited {t : MemberType} {sig : DbcSignal} {funcs : SignalFuncs t} {lo hi : Int}
    (hrange : ∀ raw, funcs.isInRange raw = (decide (lo ≤ raw.toInt) && decide (raw.toInt ≤ hi)))
    (hsize : t.size = sig.memberSize) (hsigned : sig.signed = true)
    (hlimits : sig.LimitedBy lo hi) (hlen : 0 < sig.len ∧ sig.len ≤ 8 * t.size)
    (hroom : -2 ^ (sig.len - 1) ≤ lo ∧ hi < 2 ^ (sig.len - 1)) :
    LibrarySignal.RangeAsDescribed ⟨sig, t, funcs⟩ := by
  refine ⟨hsize, fun raw => ?_⟩
  show funcs.isInRange raw = true ↔ sig.Allows raw
  rw [hrange, Bool.and_eq_true, decide_eq_true_eq, decide_eq_true_eq, hlimits.allows_iff,
    DbcSignal.number, hsigned, BitField.fits_signed_iff (by rw [sig.field_len]; exact hlen.1)
      (by rw [sig.field_len]; exact hlen.2), sig.field_len, if_pos rfl]
  omega

theorem full_byte {sig : DbcSignal} (hfloat : sig.isFloat = false) (hsigned : sig.signed = false)
    (hlen : sig.len = 8) (hsize : sig.memberSize = 1)
    (hlimits : sig.minimum = 0 ∧ sig.maximum = 0) :
    LibrarySignal.RangeAsDescribed ⟨sig, .uint8, unsignedFuncs .uint8 none⟩ :=
  unsigned_unlimited hsize.symm hfloat hsigned hlimits.1 hlimits.2 (fun _ h => nomatch h)
    (fun _ => hlen.symm)

/-- The limits of an `int8_t` are those of its field. -/
theorem int8Signal_range :
    LibrarySignal.RangeAsDescribed ⟨Dbc.int8Signal, .int8, signedTypesInt8Signal⟩ := by
  refine @signed_limited _ _ _ (-128) 127 (fun raw => ?_) rfl rfl (by decide +kernel)
    (by decide) (by decide)
  have hlow : -2 ^ 7 ≤ raw.toInt := BitVec.le_toInt raw
  have hhigh : raw.toInt < 2 ^ 7 := BitVec.toInt_lt
  rw [decide_eq_true (by omega : -128 ≤ raw.toInt), decide_eq_true (by omega : raw.toInt ≤ 127)]
  rfl

theorem headerDlc_range :
    LibrarySignal.RangeAsDescribed ⟨Dbc.headerDlc, .uint8, muxMessageHeaderDlc⟩ := by
  refine ⟨rfl, fun raw => ?_⟩
  have hlt : raw.toNat < 2 ^ 8 := raw.isLt
  have hlimits : Dbc.headerDlc.LimitedBy 0 255 := by decide +kernel
  show true = true ↔ Dbc.headerDlc.Allows raw
  rw [hlimits.allows_iff]
  refine iff_of_true rfl ⟨BitField.fits_unsigned_iff.mpr hlt, ?_⟩
  show (0 : Int) ≤ raw.toNat ∧ (raw.toNat : Int) ≤ 255
  omega

theorem signals_range : ∀ ls ∈ signals, ls.RangeAsDescribed := by
  have hbit : ∀ m, some 1 = some m → m + 1 = 2 ^ 1 := fun m h => by cases h; rfl
  have hheader : ∀ m, some 16777215 = some m → m + 1 = 2 ^ 24 := fun m h => by cases h; rfl
  simp only [signals, List.forall_mem_cons]
  exact ⟨unsigned_unlimited rfl rfl rfl rfl rfl hbit (fun h => nomatch h),
    unsigned_limited (fun _ => rfl) rfl rfl (by decide +kernel) (by decide),
    signed_limited (fun _ => rfl) rfl rfl (by decide +kernel) (by decide) (by decide),
    unsigned_limited (fun _ => rfl) rfl rfl (by decide +kernel) (by decide),
    full_byte rfl rfl rfl rfl ⟨rfl, rfl⟩, full_byte rfl rfl rfl rfl ⟨rfl, rfl⟩,
    full_byte rfl rfl rfl rfl ⟨rfl, rfl⟩, full_byte rfl rfl rfl rfl ⟨rfl, rfl⟩,
    unsigned_limited (fun _ => rfl) rfl rfl (by decide +kernel) (by decide),
    unsigned_limited (fun _ => rfl) rfl rfl (by decide +kernel) (by decide),
    unsigned_limited (fun _ => rfl) rfl rfl (by decide +kernel) (by decide),
    unsigned_limited (fun _ => rfl) rfl rfl (by decide +kernel) (by decide),
    int8Signal_range,
    signed_limited (fun _ => rfl) rfl rfl (by decide +kernel) (by decide) (by decide),
    signed_limited (fun _ => rfl) rfl rfl (by decide +kernel) (by decide) (by decide),
    signed_limited (fun _ => rfl) rfl rfl (by decide +kernel) (by decide) (by decide),
    ⟨rfl, fun _ => iff_of_true rfl (.inl rfl)⟩,
    unsigned_unlimited rfl rfl rfl rfl rfl hbit (fun h => nomatch h),
    unsigned_unlimited rfl rfl rfl rfl rfl hheader (fun h => nomatch h),
    headerDlc_range,
    ⟨rfl, fun _ => iff_of_true rfl (.inl rfl)⟩,
    fun _ h => absurd h List.not_mem_nil⟩

/-! ## Structs in range -/

/-- The value in a struct, as the functions of the signal take it. -/
def LibrarySignal.raw (ls : LibrarySignal) (s : Memory) : ls.type.Raw :=
  s.load ls.type.size ls.dbc.memberOffset

/-- A value in range is one that its field has room for. -/
theorem LibrarySignal.RangeAsDescribed.fits {ls : LibrarySignal} (h : ls.RangeAsDescribed)
    (hfull : ls.dbc.isFloat = true → ls.dbc.len = 8 * ls.dbc.memberSize) {s : Memory}
    (hin : ls.funcs.isInRange (ls.raw s) = true) : ls.dbc.Fits s := by
  obtain ⟨hsize, hrange⟩ := h
  have hallows : ls.dbc.Allows (s.load ls.dbc.memberSize ls.dbc.memberOffset) := by
    rw [← hsize]
    exact (hrange _).mp hin
  rcases hallows with hfloat | ⟨hfits, _⟩
  · refine BitField.fits_full ?_ _
    rw [DbcSignal.field_len, hfull hfloat]
  · exact hfits

/-- The signals that have no functions here fill their members. -/
theorem signals_complete : ∀ e ∈ library, ∀ sig ∈ e.dbc.signals,
    sig ∈ signals.map LibrarySignal.dbc ∨ sig.len = 8 * sig.memberSize := by
  simp only [library, List.forall_mem_cons, dbcExampleMessage, dbcExampleMessage2,
    dbcFunctionExample, dbcUnsignedTypes, dbcSignedTypes, dbcFloatTypes, dbcScheduledMessage,
    dbcMuxMessage]
  simp [signals, Dbc.floatSignal, Dbc.barFloat]

theorem signals_full : ∀ ls ∈ signals, ls.dbc.isFloat = true →
    ls.dbc.len = 8 * ls.dbc.memberSize := by
  decide +kernel

/-- The functions of the signals of a frame find their values in range. -/
def Ranged (d : DbcMessage) (s : Memory) : Prop :=
  ∀ ls ∈ signals, ls.dbc ∈ d.present (d.selected s) → ls.funcs.isInRange (ls.raw s) = true

theorem Ranged.fits {e : LibraryMessage} (he : e ∈ library) {s : Memory} (h : Ranged e.dbc s) :
    ∀ sig ∈ e.dbc.present (e.dbc.selected s), sig.Fits s := by
  intro sig hsig
  rcases signals_complete e he sig (DbcMessage.mem_signals hsig) with hmem | hlen
  · obtain ⟨ls, hls, rfl⟩ := List.mem_map.mp hmem
    exact (signals_range ls hls).fits (signals_full ls hls) (h ls hls hsig)
  · refine BitField.fits_full ?_ _
    rw [DbcSignal.field_len, hlen]

/-- A struct that the range functions accept is restored from its payload. -/
theorem inRange_restored : ∀ e ∈ library, ∀ (dst dst' src : Memory) (size : Nat),
    e.dbc.length ≤ size → Ranged e.dbc src →
    ∀ sig ∈ e.dbc.present (e.dbc.selected src),
      sig.raw (e.unpack dst' (e.pack dst src size).dst size).dst = sig.raw src := by
  intro e he dst dst' src size hsize hranged sig hsig
  have hfits := hranged.fits he
  have hmux : ∀ sig, e.dbc.multiplexer = some sig → sig.Fits src := fun sig hmux =>
    hfits sig (List.mem_append_left _ (DbcMessage.multiplexer_mem hmux))
  exact ((library_roundTrip e he dst dst' src size hsize).1 hmux sig hsig).mpr (hfits sig hsig)

/-- Enabled, with a radius of 4.3 and a raw temperature of 200. -/
def exampleStruct : Memory := .ofBytes [1, 43, 200, 0, 17, 2, 0, 0, 5, 1]

theorem inRange_restored_exampleMessage :
    Dbc.temperature.raw (stubExampleMessageUnpack Memory.zero
      (stubExampleMessagePack Memory.zero exampleStruct 8).dst 8).dst =
        Dbc.temperature.raw exampleStruct := by
  have hranged : ∀ ls ∈ signals, ls.funcs.isInRange (ls.raw exampleStruct) = true := by
    decide +kernel
  refine inRange_restored ⟨dbcExampleMessage, exampleMessage, stubExampleMessagePack,
    stubExampleMessageUnpack, rfl, rfl⟩ List.mem_cons_self Memory.zero Memory.zero exampleStruct 8
    (Nat.le_refl 8) (fun ls hls _ => hranged ls hls) Dbc.temperature ?_
  exact List.mem_append_left _ (List.mem_filter.mpr ⟨List.mem_cons_self, rfl⟩)

end Stub
end MessageLib
end DseNetwork
