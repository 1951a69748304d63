import DseNetwork.Lib.BitField
import DseNetwork.Network.Types
import Mathlib.Data.List.Pairwise

/-
The pack and unpack functions of a message library.

A message library is generated from a message description.  The description places each
signal in the payload and, of multiplexed signals, says which value of the multiplexer
signal selects them.  The generated functions are shift-and-mask calls, one list of them
for each struct member and direction, and a `switch` over the multiplexer signal.
-/

namespace DseNetwork
namespace MessageLib

/-! ## Descriptions -/

inductive ByteOrder
  | motorola
  | intel
  deriving DecidableEq

/-- The part of a signal in a multiplexed message: `M`, `m601` or none. -/
inductive MuxRole
  | plain
  | multiplexer
  | selectedBy (value : Nat)
  deriving DecidableEq

/-- Signals of one frame: not selected by different values. -/
def MuxRole.together : MuxRole → MuxRole → Bool
  | .selectedBy value, .selectedBy value' => value == value'
  | _, _ => true

/-- An `SG_` line, with the struct member that the library keeps the signal in. -/
structure DbcSignal where
  name : String
  role : MuxRole
  start : Nat
  len : Nat
  order : ByteOrder
  signed : Bool
  factor : ℚ
  offset : ℚ
  minimum : ℚ
  maximum : ℚ
  /-- `SIG_VALTYPE_`: the bits are those of a floating point number. -/
  isFloat : Bool
  memberOffset : Nat
  memberSize : Nat

namespace DbcSignal

def field (sig : DbcSignal) : BitField :=
  match sig.order with
  | .motorola => .bigEndian sig.start sig.len
  | .intel => .littleEndian sig.start sig.len

theorem field_len (sig : DbcSignal) : sig.field.len = sig.len := by
  unfold field
  cases sig.order <;> rfl

abbrev Raw (sig : DbcSignal) : Type := BitVec (8 * sig.memberSize)

/-- The value in a struct. -/
def raw (sig : DbcSignal) (s : Memory) : sig.Raw := s.load sig.memberSize sig.memberOffset

/-- The value in a payload. -/
def read (sig : DbcSignal) (payload : Memory) : sig.Raw :=
  sig.field.read sig.signed (8 * sig.memberSize) payload

/-- The struct has a value that the field has room for. -/
def Fits (sig : DbcSignal) (s : Memory) : Prop := sig.field.Fits sig.signed (sig.raw s)

def Disjoint (sig sig' : DbcSignal) : Prop := sig.field.Disjoint sig'.field

instance (sig sig' : DbcSignal) : Decidable (sig.Disjoint sig') :=
  inferInstanceAs (Decidable (sig.field.Disjoint sig'.field))

theorem Disjoint.symm {sig sig' : DbcSignal} (h : sig.Disjoint sig') : sig'.Disjoint sig :=
  fun p hp hp' => h p hp' hp

/-- The members do not meet. -/
def Apart (sig sig' : DbcSignal) : Prop :=
  sig.memberOffset + sig.memberSize ≤ sig'.memberOffset ∨
    sig'.memberOffset + sig'.memberSize ≤ sig.memberOffset

instance (sig sig' : DbcSignal) : Decidable (sig.Apart sig') :=
  inferInstanceAs (Decidable (_ ∨ _))

theorem Apart.symm {sig sig' : DbcSignal} (h : sig.Apart sig') : sig'.Apart sig := Or.symm h

/-- An address that is not the member's. -/
def Misses (sig : DbcSignal) (a : Nat) : Prop :=
  a < sig.memberOffset ∨ sig.memberOffset + sig.memberSize ≤ a

theorem raw_congr {sig : DbcSignal} {s s' : Memory} (h : ∀ a, ¬ sig.Misses a → s a = s' a) :
    sig.raw s = sig.raw s' := by
  refine Memory.load_congr (fun a hlo hhi => h a ?_)
  unfold Misses
  omega

end DbcSignal

/-- A `BO_` block. -/
structure DbcMessage where
  frameId : Nat
  name : String
  length : Nat
  signals : List DbcSignal

namespace DbcMessage

def multiplexer (d : DbcMessage) : Option DbcSignal :=
  d.signals.find? (fun sig => sig.role = .multiplexer)

/-- The signals of every frame of the message. -/
def unmultiplexed (d : DbcMessage) : List DbcSignal :=
  d.signals.filter (fun sig => sig.role = .plain ∨ sig.role = .multiplexer)

def multiplexed (d : DbcMessage) (value : Nat) : List DbcSignal :=
  d.signals.filter (fun sig => sig.role = .selectedBy value)

/-- The signals of a frame whose multiplexer signal has the given value. -/
def present (d : DbcMessage) (value : Nat) : List DbcSignal :=
  d.unmultiplexed ++ d.multiplexed value

/-- The value of the multiplexer signal in a struct. -/
def selected (d : DbcMessage) (s : Memory) : Nat :=
  match d.multiplexer with
  | none => 0
  | some sig => (sig.raw s).toNat

/-- The value of the multiplexer signal in a payload. -/
def carried (d : DbcMessage) (payload : Memory) : Nat :=
  match d.multiplexer with
  | none => 0
  | some sig => (sig.read payload).toNat

/-- Signals of one frame have fields and members of their own, within the message. -/
structure WellFormed (d : DbcMessage) : Prop where
  len_pos : ∀ sig ∈ d.signals, 0 < sig.len
  len_le : ∀ sig ∈ d.signals, sig.len ≤ 8 * sig.memberSize
  within : ∀ sig ∈ d.signals, ∀ k, k < sig.len → sig.field.pos k < 8 * d.length
  disjoint : ∀ value, (d.present value).Pairwise DbcSignal.Disjoint
  apart : ∀ value, (d.present value).Pairwise DbcSignal.Apart

/-- The same, signal by signal. -/
def Checked (d : DbcMessage) : Prop :=
  (∀ sig ∈ d.signals, 0 < sig.len ∧ sig.len ≤ 8 * sig.memberSize ∧
    ∀ k, k < sig.len → sig.field.pos k < 8 * d.length) ∧
  d.signals.Pairwise (fun sig sig' => sig.role.together sig'.role = true →
    sig.Disjoint sig' ∧ sig.Apart sig')

instance (d : DbcMessage) : Decidable d.Checked := inferInstanceAs (Decidable (_ ∧ _))

theorem present_pairwise {d : DbcMessage} {R : DbcSignal → DbcSignal → Prop}
    (hsymm : ∀ sig sig', R sig sig' → R sig' sig)
    (h : d.signals.Pairwise (fun sig sig' => sig.role.together sig'.role = true → R sig sig'))
    (value : Nat) : (d.present value).Pairwise R := by
  have hunmux : ∀ sig ∈ d.unmultiplexed, sig.role = .plain ∨ sig.role = .multiplexer :=
    fun sig hsig => of_decide_eq_true (List.mem_filter.mp hsig).2
  have hmux : ∀ sig ∈ d.multiplexed value, sig.role = .selectedBy value :=
    fun sig hsig => of_decide_eq_true (List.mem_filter.mp hsig).2
  refine List.pairwise_append.mpr ⟨?_, ?_, fun sig hsig sig' hsig' => ?_⟩
  · refine (h.filter _).imp_of_mem (fun {sig sig'} hsig _ hR => hR ?_)
    rcases hunmux sig hsig with hrole | hrole <;> rw [hrole] <;> rfl
  · refine (h.filter _).imp_of_mem (fun {sig sig'} hsig hsig' hR => hR ?_)
    rw [hmux sig hsig, hmux sig' hsig']
    exact beq_self_eq_true value
  · have hne : sig ≠ sig' := by
      rintro rfl
      rcases hunmux sig hsig with hrole | hrole <;> rw [hmux sig hsig'] at hrole <;> cases hrole
    have hsymm' : Std.Symm (fun sig sig' : DbcSignal =>
        sig.role.together sig'.role = true ∧ sig'.role.together sig.role = true → R sig sig') :=
      ⟨fun a b hab hboth => hsymm a b (hab hboth.symm)⟩
    have hboth : d.signals.Pairwise (fun sig sig' =>
        sig.role.together sig'.role = true ∧ sig'.role.together sig.role = true → R sig sig') :=
      h.imp (fun hR hboth => hR hboth.1)
    refine hboth.forall (List.mem_filter.mp hsig).1
      (List.mem_filter.mp hsig').1 hne ⟨?_, ?_⟩ <;>
    · rcases hunmux sig hsig with hrole | hrole <;> rw [hrole, hmux sig' hsig'] <;> rfl

theorem Checked.wellFormed {d : DbcMessage} (h : d.Checked) : d.WellFormed where
  len_pos := fun sig hsig => (h.1 sig hsig).1
  len_le := fun sig hsig => (h.1 sig hsig).2.1
  within := fun sig hsig => (h.1 sig hsig).2.2
  disjoint := present_pairwise (fun _ _ hR => hR.symm) (h.2.imp (fun hR ht => (hR ht).1))
  apart := present_pairwise (fun _ _ hR => hR.symm) (h.2.imp (fun hR ht => (hR ht).2))

theorem mem_signals {d : DbcMessage} {value : Nat} {sig : DbcSignal}
    (h : sig ∈ d.present value) : sig ∈ d.signals := by
  rcases List.mem_append.mp h with h | h
  · exact (List.mem_filter.mp h).1
  · exact (List.mem_filter.mp h).1

theorem multiplexer_mem {d : DbcMessage} {sig : DbcSignal} (h : d.multiplexer = some sig) :
    sig ∈ d.unmultiplexed := by
  have hrole := List.find?_some h
  exact List.mem_filter.mpr ⟨List.mem_of_find?_eq_some h,
    decide_eq_true (.inr (of_decide_eq_true hrole))⟩

/-- `-EINVAL`. -/
def einval : Int := -22

/-- A function packs the message as described: every signal of the frame is at its place,
every other bit of the payload is zero, and nothing beyond the payload is written. -/
structure PackedBy (d : DbcMessage) (pack : PackFunc) : Prop where
  refused : ∀ dst src size, size < d.length → pack dst src size = { rc := einval, dst := dst }
  rc : ∀ dst src size, d.length ≤ size → (pack dst src size).rc = d.length
  holds : ∀ dst src size, d.length ≤ size → ∀ sig ∈ d.present (d.selected src),
    sig.field.Holds (pack dst src size).dst (sig.raw src)
  unused : ∀ dst src size, d.length ≤ size → ∀ p, p < 8 * d.length →
    (∀ sig ∈ d.present (d.selected src), ¬ sig.field.Covers p) →
    (pack dst src size).dst.bit p = false
  beyond : ∀ dst src size a, d.length ≤ a → (pack dst src size).dst a = dst a

/-- A function unpacks the message as described: the member of every signal of the frame
has the value of its field, and no other byte of the struct is written. -/
structure UnpackedBy (d : DbcMessage) (unpack : UnpackFunc) : Prop where
  refused : ∀ dst src size, size < d.length → unpack dst src size = { rc := einval, dst := dst }
  rc : ∀ dst src size, d.length ≤ size → (unpack dst src size).rc = 0
  reads : ∀ dst src size, d.length ≤ size → ∀ sig ∈ d.present (d.carried src),
    sig.raw (unpack dst src size).dst = sig.read src
  others : ∀ dst src size a, (∀ sig ∈ d.present (d.carried src), sig.Misses a) →
    (unpack dst src size).dst a = dst a

/-! ### Round trips -/

variable {d : DbcMessage} {pack : PackFunc} {unpack : UnpackFunc}

/-- A packed payload is of the multiplexer value of its struct, where that fits. -/
theorem carried_pack (h : d.WellFormed) (hp : d.PackedBy pack) {dst src : Memory} {size : Nat}
    (hsize : d.length ≤ size) (hfits : ∀ sig, d.multiplexer = some sig → sig.Fits src) :
    d.carried (pack dst src size).dst = d.selected src := by
  unfold carried selected
  cases hmux : d.multiplexer with
  | none => rfl
  | some sig =>
    have hpresent : sig ∈ d.present (d.selected src) :=
      List.mem_append_left _ (multiplexer_mem hmux)
    have hpos : 0 < sig.field.len := by
      rw [sig.field_len]
      exact h.len_pos sig (mem_signals hpresent)
    have hread := ((hp.holds dst src size hsize sig hpresent).read_eq_iff hpos sig.signed).mpr
      (hfits sig hmux)
    exact congrArg BitVec.toNat hread

/-- Unpacking what was packed restores exactly the values that fit. -/
theorem unpack_pack (h : d.WellFormed) (hp : d.PackedBy pack) (hu : d.UnpackedBy unpack)
    {dst dst' src : Memory} {size : Nat} (hsize : d.length ≤ size)
    (hfits : ∀ sig, d.multiplexer = some sig → sig.Fits src) :
    ∀ sig ∈ d.present (d.selected src),
      (sig.raw (unpack dst' (pack dst src size).dst size).dst = sig.raw src ↔ sig.Fits src) := by
  intro sig hsig
  have hpos : 0 < sig.field.len := by
    rw [sig.field_len]
    exact h.len_pos sig (mem_signals hsig)
  have hcarried : sig ∈ d.present (d.carried (pack dst src size).dst) := by
    rwa [carried_pack h hp hsize hfits]
  rw [hu.reads dst' _ size hsize sig hcarried]
  exact (hp.holds dst src size hsize sig hsig).read_eq_iff hpos sig.signed

theorem selected_unpack (hu : d.UnpackedBy unpack) {dst src : Memory} {size : Nat}
    (hsize : d.length ≤ size) : d.selected (unpack dst src size).dst = d.carried src := by
  unfold carried selected
  cases hmux : d.multiplexer with
  | none => rfl
  | some sig =>
    have hpresent : sig ∈ d.present (d.carried src) :=
      List.mem_append_left _ (multiplexer_mem hmux)
    exact congrArg BitVec.toNat (hu.reads dst src size hsize sig hpresent)

/-- Packing what was unpacked gives the payload, less the bits that no signal has. -/
theorem pack_unpack (h : d.WellFormed) (hp : d.PackedBy pack) (hu : d.UnpackedBy unpack)
    {dst dst' src : Memory} {size : Nat} (hsize : d.length ≤ size) {p : Nat}
    (hpay : p < 8 * d.length) :
    (pack dst' (unpack dst src size).dst size).dst.bit p = true ↔
      src.bit p = true ∧ ∃ sig ∈ d.present (d.carried src), sig.field.Covers p := by
  have hselected : d.selected (unpack dst src size).dst = d.carried src :=
    selected_unpack hu hsize
  by_cases hcovers : ∃ sig ∈ d.present (d.carried src), sig.field.Covers p
  · obtain ⟨sig, hsig, k, hk, rfl⟩ := hcovers
    have hlen : sig.field.len ≤ 8 * sig.memberSize := by
      rw [sig.field_len]
      exact h.len_le sig (mem_signals hsig)
    have hholds := hp.holds dst' _ size hsize sig (by rwa [hselected]) k hk
    rw [hu.reads dst src size hsize sig hsig] at hholds
    have hread := sig.field.holds_read sig.signed hlen src k hk
    rw [hholds]
    show (sig.field.read sig.signed (8 * sig.memberSize) src).getLsbD k = true ↔ _
    rw [← hread]
    exact ⟨fun hbit => ⟨hbit, sig, hsig, k, hk, rfl⟩, fun hbit => hbit.1⟩
  · have hnone := hp.unused dst' (unpack dst src size).dst size hsize p hpay (by
      rw [hselected]
      exact fun sig hsig hc => hcovers ⟨sig, hsig, hc⟩)
    rw [hnone]
    exact ⟨fun hbit => (Bool.false_ne_true hbit).elim, fun hbit => absurd hbit.2 hcovers⟩

end DbcMessage
end MessageLib
end DseNetwork
