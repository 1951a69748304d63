import DseNetwork.Lib.Memory
import Mathlib.Data.List.Perm.Basic
import Mathlib.Algebra.Group.Defs
import Mathlib.Algebra.Ring.Int.Defs
import Mathlib.Algebra.Ring.Nat

/-
Bit fields of a payload, and the shift-and-mask code that reads and writes them.

Bit `p` of a payload is bit `p % 8` of its byte `p / 8`.  A field says where the bits of a
value are, and that no two of them are at one place.  Shift-and-mask code moves the bits a
byte at a time; that it moves those of a field and no others is a comparison of two lists.
-/

namespace DseNetwork

namespace Memory

def bit (m : Memory) (p : Nat) : Bool := (m (p / 8)).getLsbD (p % 8)

theorem bit_byte (m : Memory) {a j : Nat} (hj : j < 8) : m.bit (8 * a + j) = (m a).getLsbD j := by
  have hdiv : (8 * a + j) / 8 = a := by omega
  have hmod : (8 * a + j) % 8 = j := by omega
  rw [bit, hdiv, hmod]

theorem byte_ext {m m' : Memory} {a : Nat}
    (h : ∀ p, 8 * a ≤ p → p < 8 * a + 8 → m.bit p = m'.bit p) : m a = m' a := by
  refine BitVec.eq_of_getLsbD_eq (fun j hj => ?_)
  rw [← bit_byte m hj, ← bit_byte m' hj]
  exact h _ (by omega) (by omega)

/-- `memset(m, 0, len)`. -/
def clear (m : Memory) (len : Nat) : Memory := fun a => if a < len then 0#8 else m a

theorem bit_clear {m : Memory} {len p : Nat} (h : p < 8 * len) : (m.clear len).bit p = false := by
  have hlt : p / 8 < len := by omega
  simp [bit, clear, hlt]

/-- `m[byte] |= b`. -/
def orByte (m : Memory) (byte : Nat) (b : Byte) : Memory :=
  fun a => if a = byte then m a ||| b else m a

theorem bit_orByte (m : Memory) (byte : Nat) (b : Byte) (p : Nat) :
    (m.orByte byte b).bit p = (m.bit p || decide (p / 8 = byte) && b.getLsbD (p % 8)) := by
  by_cases h : p / 8 = byte <;> simp [bit, orByte, h]

end Memory

/-! ## Fields -/

/-- The word of the given bits. -/
def ofBits : (w : Nat) → (Nat → Bool) → BitVec w
  | 0, _ => 0#0
  | w + 1, f => BitVec.cons (f w) (ofBits w f)

theorem getLsbD_ofBits (w : Nat) (f : Nat → Bool) (k : Nat) :
    (ofBits w f).getLsbD k = (decide (k < w) && f k) := by
  induction w with
  | zero => simp
  | succ w ih =>
    rw [ofBits, BitVec.getLsbD_cons, ih]
    by_cases hk : k = w
    · simp [hk]
    · have hlt : k < w + 1 ↔ k < w := by omega
      simp [hk, hlt]

structure BitField where
  len : Nat
  /-- The place in the payload of bit `k` of the value. -/
  pos : Nat → Nat
  inj : ∀ k k', k < len → k' < len → pos k = pos k' → k = k'

namespace BitField

/-- From the least significant bit at `start` up. -/
def littleEndian (start len : Nat) : BitField where
  len := len
  pos k := start + k
  inj := fun _ _ _ _ h => Nat.add_left_cancel h

/-- The place of bit `p` when the bits of each byte are counted from the most significant
one. -/
def mirror (p : Nat) : Nat := p / 8 * 8 + (7 - p % 8)

theorem mirror_mirror (p : Nat) : mirror (mirror p) = p := by
  unfold mirror
  omega

/-- From the most significant bit at `start` down, and from the lowest bit of a byte to
the highest bit of the next. -/
def bigEndian (start len : Nat) : BitField where
  len := len
  pos k := mirror (mirror start + (len - 1 - k))
  inj := fun k k' hk hk' h => by
    have hmirror := congrArg mirror h
    rw [mirror_mirror, mirror_mirror] at hmirror
    omega

/-- The places of the bits of the field. -/
def Covers (f : BitField) (p : Nat) : Prop := ∃ k, k < f.len ∧ p = f.pos k

def Disjoint (f g : BitField) : Prop := ∀ p, f.Covers p → ¬ g.Covers p

theorem disjoint_iff {f g : BitField} :
    (∀ k, k < f.len → ∀ k', k' < g.len → f.pos k ≠ g.pos k') ↔ f.Disjoint g :=
  ⟨fun h _ ⟨k, hk, hp⟩ ⟨k', hk', hp'⟩ => h k hk k' hk' (hp.symm.trans hp'),
    fun h k hk k' hk' heq => h (f.pos k) ⟨k, hk, rfl⟩ ⟨k', hk', heq⟩⟩

instance (f g : BitField) : Decidable (f.Disjoint g) := decidable_of_iff _ disjoint_iff

/-- The payload has the bits of the value at the places of the field. -/
def Holds (f : BitField) (m : Memory) {w : Nat} (v : BitVec w) : Prop :=
  ∀ k, k < f.len → m.bit (f.pos k) = v.getLsbD k

/-- The value read from the field, sign extended if it is signed. -/
def read (f : BitField) (signed : Bool) (w : Nat) (m : Memory) : BitVec w :=
  ofBits w (fun k =>
    if k < f.len then m.bit (f.pos k) else signed && m.bit (f.pos (f.len - 1)))

theorem getLsbD_read (f : BitField) (signed : Bool) {w k : Nat} (hk : k < w) (m : Memory) :
    (f.read signed w m).getLsbD k =
      if k < f.len then m.bit (f.pos k) else signed && m.bit (f.pos (f.len - 1)) := by
  rw [read, getLsbD_ofBits, decide_eq_true hk, Bool.true_and]

/-- The bits beyond the field are those that reading fills in. -/
def Fits (f : BitField) (signed : Bool) {w : Nat} (v : BitVec w) : Prop :=
  ∀ k, f.len ≤ k → k < w → v.getLsbD k = (signed && v.getLsbD (f.len - 1))

/-- A value no longer than the field fits. -/
theorem fits_full {f : BitField} {w : Nat} (hw : w ≤ f.len) {signed : Bool} (v : BitVec w) :
    f.Fits signed v :=
  fun k hk hkw => absurd hkw (by omega)

/-- A held value is read back if and only if it fits. -/
theorem Holds.read_eq_iff {f : BitField} {m : Memory} {w : Nat} {v : BitVec w}
    (h : f.Holds m v) (hpos : 0 < f.len) (signed : Bool) :
    f.read signed w m = v ↔ f.Fits signed v := by
  have hlast : m.bit (f.pos (f.len - 1)) = v.getLsbD (f.len - 1) := h _ (by omega)
  constructor
  · intro heq k hk hkw
    have hge : ¬ k < f.len := by omega
    rw [← hlast, ← heq, getLsbD_read f signed hkw, if_neg hge]
  · intro hfits
    refine BitVec.eq_of_getLsbD_eq (fun k hk => ?_)
    rw [getLsbD_read f signed hk]
    by_cases hlt : k < f.len
    · rw [if_pos hlt, h k hlt]
    · rw [if_neg hlt, hlast, hfits k (by omega) hk]

/-- The payload holds the value that is read from it. -/
theorem holds_read (f : BitField) (signed : Bool) {w : Nat} (hw : f.len ≤ w) (m : Memory) :
    f.Holds m (f.read signed w m) := by
  intro k hk
  rw [getLsbD_read f signed (by omega), if_pos hk]

/-- A field as wide as the word has no bits to fill in. -/
theorem read_full {f : BitField} {w : Nat} (hw : w ≤ f.len) (signed signed' : Bool)
    (m : Memory) : f.read signed w m = f.read signed' w m := by
  refine BitVec.eq_of_getLsbD_eq (fun k hk => ?_)
  have hlt : k < f.len := by omega
  rw [getLsbD_read f _ hk, getLsbD_read f _ hk, if_pos hlt, if_pos hlt]

/-- Sign extension of the unsigned value, by a test of its top bit. -/
theorem read_signed {f : BitField} {w bit : Nat} (hbit : bit + 1 = f.len) (hw : f.len ≤ w)
    {ones : BitVec w} (hones : ∀ k, k < w → ones.getLsbD k = decide (f.len ≤ k)) (m : Memory) :
    (if f.read false w m &&& 1#w <<< bit ≠ 0#w then f.read false w m ||| ones
      else f.read false w m) = f.read true w m := by
  have htop : f.len - 1 = bit := by omega
  have hbitw : bit < w := by omega
  have hbitf : bit < f.len := by omega
  have hone : ∀ k, k < w → (1#w <<< bit).getLsbD k = decide (k = bit) := by
    intro k hk
    rw [BitVec.getLsbD_shiftLeft, BitVec.getLsbD_one, Bool.eq_iff_iff]
    simp only [Bool.and_eq_true, Bool.not_eq_true', decide_eq_true_eq, decide_eq_false_iff_not]
    omega
  have htest : (f.read false w m &&& 1#w <<< bit ≠ 0#w) ↔ m.bit (f.pos bit) = true := by
    constructor
    · intro hne
      by_contra hzero
      refine hne (BitVec.eq_of_getLsbD_eq (fun k hk => ?_))
      rw [BitVec.getLsbD_and, hone k hk, getLsbD_read f _ hk, BitVec.getLsbD_zero]
      by_cases hkb : k = bit
      · simpa [hkb, hbitf] using hzero
      · simp [hkb]
    · intro hset heq
      have hk := congrArg (fun x => BitVec.getLsbD x bit) heq
      rw [BitVec.getLsbD_and, hone bit hbitw, getLsbD_read f _ hbitw, if_pos hbitf, hset,
        BitVec.getLsbD_zero] at hk
      simp at hk
  refine BitVec.eq_of_getLsbD_eq (fun k hk => ?_)
  rw [getLsbD_read f true hk, htop]
  by_cases hset : m.bit (f.pos bit) = true
  · rw [if_pos (htest.mpr hset), BitVec.getLsbD_or, hones k hk, getLsbD_read f false hk]
    by_cases hlt : k < f.len
    · have hge : ¬ f.len ≤ k := by omega
      simp [hlt, hge]
    · have hge : f.len ≤ k := by omega
      simp [hlt, hge, hset]
  · rw [if_neg (fun hne => hset (htest.mp hne)), getLsbD_read f false hk]
    by_cases hlt : k < f.len
    · simp [hlt]
    · simp [hlt, hset]

/-! ### What fits, as numbers -/

theorem fits_unsigned_iff {f : BitField} {w : Nat} {v : BitVec w} :
    f.Fits false v ↔ v.toNat < 2 ^ f.len := by
  constructor
  · intro h
    refine Nat.lt_pow_two_of_testBit _ (fun k hk => ?_)
    rw [BitVec.testBit_toNat]
    by_cases hkw : k < w
    · exact h k hk hkw
    · exact BitVec.getLsbD_of_ge v k (by omega)
  · intro h k hk _
    rw [← BitVec.testBit_toNat]
    exact Nat.testBit_lt_two_pow
      (Nat.lt_of_lt_of_le h (Nat.pow_le_pow_right (by decide) hk))

theorem fits_signed_iff {f : BitField} {w : Nat} (hpos : 0 < f.len) (hw : f.len ≤ w)
    {v : BitVec w} :
    f.Fits true v ↔ -2 ^ (f.len - 1) ≤ v.toInt ∧ v.toInt < 2 ^ (f.len - 1) := by
  have hextend : f.Fits true v ↔ (v.setWidth f.len).signExtend w = v := by
    have hlast : f.len - 1 < f.len := by omega
    constructor
    · intro h
      refine BitVec.eq_of_getLsbD_eq (fun k hk => ?_)
      rw [BitVec.getLsbD_signExtend, decide_eq_true hk, Bool.true_and]
      by_cases hlt : k < f.len
      · simp [hlt]
      · rw [if_neg hlt, h k (by omega) hk, BitVec.msb_eq_getLsbD_last, BitVec.getLsbD_setWidth,
          decide_eq_true hlast]
    · intro h k hk hkw
      have hbit := congrArg (fun x => BitVec.getLsbD x k) h
      have hge : ¬ k < f.len := by omega
      rw [BitVec.getLsbD_signExtend, decide_eq_true hkw, Bool.true_and, if_neg hge,
        BitVec.msb_eq_getLsbD_last, BitVec.getLsbD_setWidth, decide_eq_true hlast] at hbit
      exact hbit.symm
  have hto : (v.setWidth f.len).toInt = v.toInt.bmod (2 ^ f.len) := by
    rw [BitVec.toInt_setWidth, BitVec.toInt_eq_toNat_bmod,
      Int.bmod_bmod_of_dvd (Nat.pow_dvd_pow 2 hw)]
  have hpow : (2 : Int) ^ f.len = 2 * 2 ^ (f.len - 1) := by
    rw [← pow_succ']
    congr 1
    omega
  rw [hextend]
  constructor
  · intro h
    have heq : (v.setWidth f.len).toInt = v.toInt := by
      rw [← BitVec.toInt_signExtend_of_le hw, h]
    have hle := BitVec.two_mul_toInt_lt (x := v.setWidth f.len)
    have hge := BitVec.le_two_mul_toInt (x := v.setWidth f.len)
    rw [heq] at hle hge
    omega
  · rintro ⟨hlow, hhigh⟩
    refine BitVec.eq_of_toInt_eq ?_
    rw [BitVec.toInt_signExtend_of_le hw, hto]
    refine Int.bmod_eq_of_le ?_ ?_
    · push_cast
      omega
    · push_cast
      omega

end BitField

/-! ## Shifts and masks -/

section

variable {w : Nat}

def packLeftShift (value : BitVec w) (shift : Nat) (mask : BitVec 8) : BitVec 8 :=
  (value <<< shift).setWidth 8 &&& mask

def packRightShift (value : BitVec w) (shift : Nat) (mask : BitVec 8) : BitVec 8 :=
  (value >>> shift).setWidth 8 &&& mask

def unpackLeftShift (w : Nat) (value : BitVec 8) (shift : Nat) (mask : BitVec 8) : BitVec w :=
  (value &&& mask).setWidth w <<< shift

def unpackRightShift (w : Nat) (value : BitVec 8) (shift : Nat) (mask : BitVec 8) : BitVec w :=
  (value &&& mask).setWidth w >>> shift

end

/-- A call of a shift function, for a byte of the payload. -/
inductive ShiftCall
  | left (byte shift : Nat) (mask : BitVec 8)
  | right (byte shift : Nat) (mask : BitVec 8)

namespace ShiftCall

def byte : ShiftCall → Nat
  | left byte _ _ => byte
  | right byte _ _ => byte

def pack {w : Nat} (value : BitVec w) : ShiftCall → BitVec 8
  | left _ shift mask => packLeftShift value shift mask
  | right _ shift mask => packRightShift value shift mask

def unpack (w : Nat) (src : Memory) : ShiftCall → BitVec w
  | left byte shift mask => unpackLeftShift w (src byte) shift mask
  | right byte shift mask => unpackRightShift w (src byte) shift mask

/-- Each bit of a value that packing moves, with the bit of the payload it goes to. -/
def packMoves (w : Nat) : ShiftCall → List (Nat × Nat)
  | left byte shift mask => (List.range 8).filterMap (fun j =>
      if mask.getLsbD j ∧ shift ≤ j ∧ j < w then some (j - shift, 8 * byte + j) else none)
  | right byte shift mask => (List.range 8).filterMap (fun j =>
      if mask.getLsbD j ∧ shift + j < w then some (shift + j, 8 * byte + j) else none)

/-- Each bit of a value that unpacking sets, with the bit of the payload it comes from. -/
def unpackMoves (w : Nat) : ShiftCall → List (Nat × Nat)
  | left byte shift mask => (List.range 8).filterMap (fun j =>
      if mask.getLsbD j ∧ shift + j < w then some (shift + j, 8 * byte + j) else none)
  | right byte shift mask => (List.range 8).filterMap (fun j =>
      if mask.getLsbD j ∧ shift ≤ j ∧ j < w then some (j - shift, 8 * byte + j) else none)

/-- A call or-s its bits into its byte. -/
theorem pack_iff {w : Nat} (v : BitVec w) (c : ShiftCall) {j : Nat} (hj : j < 8) :
    (c.pack v).getLsbD j = true ↔
      ∃ k, (k, 8 * c.byte + j) ∈ c.packMoves w ∧ v.getLsbD k = true := by
  cases c with
  | left byte shift mask =>
    simp only [pack, packLeftShift, packMoves, ShiftCall.byte, BitVec.getLsbD_and,
      BitVec.getLsbD_setWidth, BitVec.getLsbD_shiftLeft, List.mem_filterMap, List.mem_range]
    constructor
    · intro h
      simp only [Bool.and_eq_true, decide_eq_true_eq, Bool.not_eq_true', decide_eq_false_iff_not,
        Nat.not_lt] at h
      obtain ⟨⟨_, ⟨hw, hshift⟩, hv⟩, hmask⟩ := h
      exact ⟨j - shift, ⟨j, hj, if_pos ⟨hmask, hshift, hw⟩⟩, hv⟩
    · rintro ⟨k, ⟨j', hj', hif⟩, hv⟩
      split at hif
      · rename_i hcond
        simp only [Option.some.injEq, Prod.mk.injEq] at hif
        obtain ⟨rfl, hplace⟩ := hif
        obtain rfl : j' = j := by omega
        simp [hj, hcond.1, hcond.2.1, hcond.2.2, hv]
      · cases hif
  | right byte shift mask =>
    simp only [pack, packRightShift, packMoves, ShiftCall.byte, BitVec.getLsbD_and,
      BitVec.getLsbD_setWidth, BitVec.getLsbD_ushiftRight, List.mem_filterMap, List.mem_range]
    constructor
    · intro h
      simp only [Bool.and_eq_true] at h
      obtain ⟨⟨_, hv⟩, hmask⟩ := h
      exact ⟨shift + j, ⟨j, hj, if_pos ⟨hmask, BitVec.lt_of_getLsbD hv⟩⟩, hv⟩
    · rintro ⟨k, ⟨j', hj', hif⟩, hv⟩
      split at hif
      · rename_i hcond
        simp only [Option.some.injEq, Prod.mk.injEq] at hif
        obtain ⟨rfl, hplace⟩ := hif
        obtain rfl : j' = j := by omega
        simp [hj, hcond.1, hv]
      · cases hif

theorem unpack_iff {w : Nat} (src : Memory) (c : ShiftCall) (k : Nat) :
    (c.unpack w src).getLsbD k = true ↔
      ∃ p, (k, p) ∈ c.unpackMoves w ∧ src.bit p = true := by
  cases c with
  | left byte shift mask =>
    simp only [unpack, unpackLeftShift, unpackMoves, BitVec.getLsbD_and,
      BitVec.getLsbD_setWidth, BitVec.getLsbD_shiftLeft, List.mem_filterMap, List.mem_range]
    constructor
    · intro h
      simp only [Bool.and_eq_true, decide_eq_true_eq, Bool.not_eq_true', decide_eq_false_iff_not,
        Nat.not_lt] at h
      obtain ⟨⟨hk, hshift⟩, _, hbit, hmask⟩ := h
      have hj : k - shift < 8 := BitVec.lt_of_getLsbD hbit
      have hsum : shift + (k - shift) = k := by omega
      refine ⟨8 * byte + (k - shift), ⟨k - shift, hj, ?_⟩, by rwa [Memory.bit_byte src hj]⟩
      rw [if_pos ⟨hmask, by omega⟩, hsum]
    · rintro ⟨p, ⟨j, hj, hif⟩, hbit⟩
      split at hif
      · rename_i hcond
        simp only [Option.some.injEq, Prod.mk.injEq] at hif
        obtain ⟨rfl, rfl⟩ := hif
        rw [Memory.bit_byte src hj] at hbit
        have hjw : j < w := by omega
        simp [hcond.1, hcond.2, hbit, hjw]
      · cases hif
  | right byte shift mask =>
    simp only [unpack, unpackRightShift, unpackMoves, BitVec.getLsbD_and,
      BitVec.getLsbD_setWidth, BitVec.getLsbD_ushiftRight, List.mem_filterMap, List.mem_range]
    constructor
    · intro h
      simp only [Bool.and_eq_true, decide_eq_true_eq] at h
      obtain ⟨hw, hbit, hmask⟩ := h
      have hj : shift + k < 8 := BitVec.lt_of_getLsbD hbit
      have hdiff : shift + k - shift = k := by omega
      refine ⟨8 * byte + (shift + k), ⟨shift + k, hj, ?_⟩, by rwa [Memory.bit_byte src hj]⟩
      rw [if_pos ⟨hmask, by omega, hw⟩, hdiff]
    · rintro ⟨p, ⟨j, hj, hif⟩, hbit⟩
      split at hif
      · rename_i hcond
        simp only [Option.some.injEq, Prod.mk.injEq] at hif
        obtain ⟨rfl, rfl⟩ := hif
        rw [Memory.bit_byte src hj] at hbit
        have hsum : shift + (j - shift) = j := by omega
        simp [hcond.1, hcond.2.2, hbit, hsum]
      · cases hif

theorem packMoves_byte {w : Nat} {c : ShiftCall} {k p : Nat} (h : (k, p) ∈ c.packMoves w) :
    p / 8 = c.byte := by
  cases c <;>
  · simp only [packMoves, List.mem_filterMap, List.mem_range] at h
    obtain ⟨j, hj, hif⟩ := h
    split at hif
    · simp only [Option.some.injEq, Prod.mk.injEq] at hif
      show p / 8 = _
      simp only [ShiftCall.byte]
      omega
    · cases hif

/-! ### Calls in a row -/

/-- `dst[byte] |= pack_..(value, ..)` for each call. -/
def packAll {w : Nat} (calls : List ShiftCall) (value : BitVec w) (dst : Memory) : Memory :=
  calls.foldl (fun dst c => dst.orByte c.byte (c.pack value)) dst

/-- `value |= unpack_..(src[byte], ..)` for each call. -/
def unpackAll (w : Nat) (calls : List ShiftCall) (src : Memory) : BitVec w :=
  calls.foldl (fun value c => value ||| c.unpack w src) 0#w

theorem bit_packAll {w : Nat} (calls : List ShiftCall) (v : BitVec w) (dst : Memory) (p : Nat) :
    (packAll calls v dst).bit p = true ↔ dst.bit p = true ∨
      ∃ k, (k, p) ∈ calls.flatMap (packMoves w) ∧ v.getLsbD k = true := by
  induction calls generalizing dst with
  | nil => simp [packAll]
  | cons c rest ih =>
    rw [packAll, List.foldl_cons]
    refine (ih _).trans ?_
    have hcall : (dst.orByte c.byte (c.pack v)).bit p = true ↔
        dst.bit p = true ∨ ∃ k, (k, p) ∈ c.packMoves w ∧ v.getLsbD k = true := by
      rw [Memory.bit_orByte, Bool.or_eq_true, Bool.and_eq_true, decide_eq_true_eq,
        pack_iff v c (Nat.mod_lt p (by decide))]
      refine or_congr_right ⟨fun ⟨hbyte, k, hk, hv⟩ => ⟨k, ?_, hv⟩, fun ⟨k, hk, hv⟩ => ?_⟩
      · rwa [← hbyte, Nat.div_add_mod] at hk
      · have hbyte := packMoves_byte hk
        refine ⟨hbyte, k, ?_, hv⟩
        rwa [← hbyte, Nat.div_add_mod]
    rw [hcall, List.flatMap_cons, or_assoc, ← exists_or]
    simp only [List.mem_append, or_and_right]

theorem getLsbD_unpackAll (w : Nat) (calls : List ShiftCall) (src : Memory) (k : Nat) :
    (unpackAll w calls src).getLsbD k = true ↔
      ∃ p, (k, p) ∈ calls.flatMap (unpackMoves w) ∧ src.bit p = true := by
  have hfold : ∀ (calls : List ShiftCall) (x : BitVec w),
      (calls.foldl (fun value c => value ||| c.unpack w src) x).getLsbD k = true ↔
        x.getLsbD k = true ∨
          ∃ p, (k, p) ∈ calls.flatMap (unpackMoves w) ∧ src.bit p = true := by
    intro calls
    induction calls with
    | nil => simp
    | cons c rest ih =>
      intro x
      rw [List.foldl_cons, ih, BitVec.getLsbD_or, Bool.or_eq_true, unpack_iff,
        List.flatMap_cons, or_assoc, ← exists_or]
      simp only [List.mem_append, or_and_right]
  rw [unpackAll, hfold]
  simp

/-! ### Calls for a field -/

/-- The moves of the bits of a field. -/
def fieldMoves (f : BitField) : List (Nat × Nat) := (List.range f.len).map (fun k => (k, f.pos k))

theorem mem_fieldMoves {f : BitField} {k p : Nat} :
    (k, p) ∈ fieldMoves f ↔ k < f.len ∧ p = f.pos k := by
  simp only [fieldMoves, List.mem_map, List.mem_range, Prod.mk.injEq]
  exact ⟨fun ⟨_, hk, hk', hp⟩ => hk' ▸ ⟨hk, hp.symm⟩, fun ⟨hk, hp⟩ => ⟨k, hk, rfl, hp.symm⟩⟩

/-- The calls move the bits of the field, in any order. -/
def PacksField (f : BitField) (w : Nat) (calls : List ShiftCall) : Prop :=
  (calls.flatMap (packMoves w)).Perm (fieldMoves f)

instance (f : BitField) (w : Nat) (calls : List ShiftCall) : Decidable (PacksField f w calls) :=
  inferInstanceAs (Decidable (List.Perm _ _))

def UnpacksField (f : BitField) (w : Nat) (calls : List ShiftCall) : Prop :=
  (calls.flatMap (unpackMoves w)).Perm (fieldMoves f)

instance (f : BitField) (w : Nat) (calls : List ShiftCall) : Decidable (UnpacksField f w calls) :=
  inferInstanceAs (Decidable (List.Perm _ _))

theorem PacksField.bit {f : BitField} {w : Nat} {calls : List ShiftCall}
    (h : PacksField f w calls) (v : BitVec w) (dst : Memory) (p : Nat) :
    (packAll calls v dst).bit p = true ↔
      dst.bit p = true ∨ ∃ k, k < f.len ∧ p = f.pos k ∧ v.getLsbD k = true := by
  rw [bit_packAll]
  simp only [h.mem_iff, mem_fieldMoves, and_assoc]

theorem PacksField.bit_outside {f : BitField} {w : Nat} {calls : List ShiftCall}
    (h : PacksField f w calls) (v : BitVec w) (dst : Memory) {p : Nat} (hp : ¬ f.Covers p) :
    (packAll calls v dst).bit p = dst.bit p := by
  refine Bool.eq_iff_iff.mpr ((h.bit v dst p).trans ⟨fun hbit => ?_, .inl⟩)
  exact hbit.resolve_right (fun ⟨k, hk, hpos, _⟩ => hp ⟨k, hk, hpos⟩)

/-- Or-ed into a payload that is clear at the places of the field, the value is held. -/
theorem PacksField.holds {f : BitField} {w : Nat} {calls : List ShiftCall}
    (h : PacksField f w calls) (v : BitVec w) {dst : Memory}
    (hclear : ∀ p, f.Covers p → dst.bit p = false) : f.Holds (packAll calls v dst) v := by
  intro k hk
  refine Bool.eq_iff_iff.mpr ((h.bit v dst _).trans ⟨fun hbit => ?_, fun hv => ?_⟩)
  · rcases hbit with hbit | ⟨k', hk', hpos, hv⟩
    · rw [hclear _ ⟨k, hk, rfl⟩] at hbit
      cases hbit
    · rwa [f.inj k k' hk hk' hpos]
  · exact .inr ⟨k, hk, rfl, hv⟩

theorem UnpacksField.eq_read {f : BitField} {w : Nat} {calls : List ShiftCall}
    (h : UnpacksField f w calls) (src : Memory) :
    unpackAll w calls src = f.read false w src := by
  refine BitVec.eq_of_getLsbD_eq (fun k hk => Bool.eq_iff_iff.mpr ?_)
  rw [getLsbD_unpackAll, BitField.read, getLsbD_ofBits, decide_eq_true hk, Bool.true_and]
  simp only [h.mem_iff, mem_fieldMoves, and_assoc]
  by_cases hlt : k < f.len <;> simp [hlt]

end ShiftCall
end DseNetwork
