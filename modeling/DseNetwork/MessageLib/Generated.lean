import DseNetwork.MessageLib.Codec

/-
The generated code.

A struct member has one list of calls for each direction, and a statement that extends the
sign where its field is narrower than the member.  Code whose calls move the bits that the
description gives each signal packs and unpacks as described.
-/

namespace DseNetwork
namespace MessageLib

/-- The lines of a struct member in the pack and unpack functions. -/
structure Member where
  offset : Nat
  size : Nat
  packCalls : List ShiftCall
  unpackCalls : List ShiftCall
  /-- `if (value & (1u << bit)) value |= ones`, where the field is narrower than a signed
  member. -/
  extension : Option (Nat × Nat)

namespace Member

def extend (m : Member) (value : BitVec (8 * m.size)) : BitVec (8 * m.size) :=
  match m.extension with
  | none => value
  | some (bit, ones) =>
    if value &&& 1#_ <<< bit ≠ 0#_ then value ||| BitVec.ofNat _ ones else value

def value (m : Member) (s : Memory) : BitVec (8 * m.size) := s.load m.size m.offset

def pack (m : Member) (src dst : Memory) : Memory :=
  ShiftCall.packAll m.packCalls (m.value src) dst

def unpack (m : Member) (src dst : Memory) : Memory :=
  dst.store m.size m.offset (m.extend (ShiftCall.unpackAll (8 * m.size) m.unpackCalls src))

/-- A signed value narrower than the member is extended from its top bit, and no other. -/
def ExtendsFor (m : Member) (sig : DbcSignal) : Prop :=
  match m.extension with
  | none => sig.signed = false ∨ sig.len = 8 * m.size
  | some (bit, ones) => sig.signed = true ∧ bit + 1 = sig.len ∧ sig.len ≤ 8 * m.size ∧
      ∀ k, k < 8 * m.size → ones.testBit k = decide (sig.len ≤ k)

instance (m : Member) (sig : DbcSignal) : Decidable (m.ExtendsFor sig) := by
  unfold ExtendsFor
  split <;> infer_instance

/-- The lines of a member are those for a signal. -/
def Follows (m : Member) (sig : DbcSignal) : Prop :=
  m.offset = sig.memberOffset ∧ m.size = sig.memberSize ∧
    ShiftCall.PacksField sig.field (8 * m.size) m.packCalls ∧
    ShiftCall.UnpacksField sig.field (8 * m.size) m.unpackCalls ∧ m.ExtendsFor sig

instance (m : Member) (sig : DbcSignal) : Decidable (m.Follows sig) :=
  inferInstanceAs (Decidable (_ ∧ _ ∧ _ ∧ _ ∧ _))

variable {m : Member} {sig : DbcSignal}

theorem ExtendsFor.extend_read (h : m.ExtendsFor sig) (src : Memory) :
    m.extend (sig.field.read false (8 * m.size) src) =
      sig.field.read sig.signed (8 * m.size) src := by
  unfold ExtendsFor at h
  unfold extend
  cases hext : m.extension with
  | none =>
    rw [hext] at h
    rcases h with h | h
    · rw [h]
    · exact BitField.read_full (by rw [sig.field_len]; omega) false sig.signed src
  | some e =>
    obtain ⟨bit, ones⟩ := e
    rw [hext] at h
    obtain ⟨hsigned, hbit, hlen, hones⟩ := h
    rw [hsigned]
    refine BitField.read_signed (by rw [sig.field_len]; omega) (by rw [sig.field_len]; omega)
      (fun k hk => ?_) src
    rw [BitVec.getLsbD_ofNat, decide_eq_true hk, Bool.true_and, hones k hk, sig.field_len]

theorem Follows.bit_outside (h : m.Follows sig) {src dst : Memory} {p : Nat}
    (hp : ¬ sig.field.Covers p) : (m.pack src dst).bit p = dst.bit p :=
  h.2.2.1.bit_outside _ dst hp

theorem Follows.holds (h : m.Follows sig) {src dst : Memory}
    (hclear : ∀ p, sig.field.Covers p → dst.bit p = false) :
    sig.field.Holds (m.pack src dst) (sig.raw src) := by
  obtain ⟨offset, size, packCalls, unpackCalls, extension⟩ := m
  obtain ⟨rfl, rfl, hpacks, _, _⟩ := h
  exact hpacks.holds _ hclear

theorem Follows.reads (h : m.Follows sig) (src dst : Memory) :
    sig.raw (m.unpack src dst) = sig.read src := by
  obtain ⟨offset, size, packCalls, unpackCalls, extension⟩ := m
  obtain ⟨rfl, rfl, _, hunpacks, hextends⟩ := h
  show Memory.load (dst.store _ _ (extend _ _)) _ _ = _
  rw [Memory.load_store, hunpacks.eq_read]
  exact hextends.extend_read src

theorem Follows.missed (h : m.Follows sig) {src dst : Memory} {a : Nat} (ha : sig.Misses a) :
    m.unpack src dst a = dst a := by
  refine Memory.store_outside _ ?_
  rw [h.1, h.2.1]
  exact ha

theorem Follows.kept (h : m.Follows sig) {other : DbcSignal} (hapart : sig.Apart other)
    (src dst : Memory) : other.raw (m.unpack src dst) = other.raw dst := by
  refine DbcSignal.raw_congr (fun a ha => h.missed ?_)
  unfold DbcSignal.Misses at ha ⊢
  unfold DbcSignal.Apart at hapart
  omega

/-! ### Members in a row -/

def packMembers (ms : List Member) (src dst : Memory) : Memory :=
  ms.foldl (fun dst m => m.pack src dst) dst

def unpackMembers (ms : List Member) (src dst : Memory) : Memory :=
  ms.foldl (fun dst m => m.unpack src dst) dst

variable {ms : List Member} {sigs : List DbcSignal}

theorem bit_packMembers_outside (h : List.Forall₂ Follows ms sigs) {p : Nat}
    (hp : ∀ sig ∈ sigs, ¬ sig.field.Covers p) (src dst : Memory) :
    (packMembers ms src dst).bit p = dst.bit p := by
  induction h generalizing dst with
  | nil => rfl
  | cons hm _ ih =>
    obtain ⟨hfirst, hrest⟩ := List.forall_mem_cons.mp hp
    rw [packMembers, List.foldl_cons]
    exact (ih hrest _).trans (hm.bit_outside hfirst)

theorem packMembers_holds (h : List.Forall₂ Follows ms sigs)
    (hdisjoint : sigs.Pairwise DbcSignal.Disjoint) {src dst : Memory}
    (hclear : ∀ sig ∈ sigs, ∀ p, sig.field.Covers p → dst.bit p = false) :
    ∀ sig ∈ sigs, sig.field.Holds (packMembers ms src dst) (sig.raw src) := by
  induction h generalizing dst with
  | nil => exact fun _ hsig => absurd hsig List.not_mem_nil
  | @cons m sig ms sigs hm hms ih =>
    obtain ⟨hfirst, hrest⟩ := List.pairwise_cons.mp hdisjoint
    obtain ⟨hclear₁, hclear₂⟩ := List.forall_mem_cons.mp hclear
    rw [packMembers, List.foldl_cons]
    refine List.forall_mem_cons.mpr ⟨fun k hk => ?_, ih hrest (fun other hother p hp => ?_)⟩
    · -- What comes behind leaves the field alone.
      have hkept := bit_packMembers_outside hms (p := sig.field.pos k)
        (fun other hother => hfirst other hother _ ⟨k, hk, rfl⟩) src (m.pack src dst)
      exact hkept.trans (hm.holds hclear₁ k hk)
    · rw [hm.bit_outside (fun hc => hfirst other hother p hc hp)]
      exact hclear₂ other hother p hp

theorem packMembers_beyond (h : List.Forall₂ Follows ms sigs) {len : Nat}
    (hwithin : ∀ sig ∈ sigs, ∀ k, k < sig.len → sig.field.pos k < 8 * len)
    (src dst : Memory) {a : Nat} (ha : len ≤ a) : packMembers ms src dst a = dst a := by
  refine Memory.byte_ext (fun p hlo _ => bit_packMembers_outside h (fun sig hsig => ?_) src dst)
  rintro ⟨k, hk, rfl⟩
  rw [sig.field_len] at hk
  have := hwithin sig hsig k hk
  omega

theorem unpackMembers_missed (h : List.Forall₂ Follows ms sigs) {a : Nat}
    (ha : ∀ sig ∈ sigs, sig.Misses a) (src dst : Memory) :
    unpackMembers ms src dst a = dst a := by
  induction h generalizing dst with
  | nil => rfl
  | cons hm _ ih =>
    obtain ⟨hfirst, hrest⟩ := List.forall_mem_cons.mp ha
    rw [unpackMembers, List.foldl_cons]
    exact (ih hrest _).trans (hm.missed hfirst)

theorem unpackMembers_kept (h : List.Forall₂ Follows ms sigs) {other : DbcSignal}
    (hapart : ∀ sig ∈ sigs, sig.Apart other) (src dst : Memory) :
    other.raw (unpackMembers ms src dst) = other.raw dst := by
  induction h generalizing dst with
  | nil => rfl
  | cons hm _ ih =>
    obtain ⟨hfirst, hrest⟩ := List.forall_mem_cons.mp hapart
    rw [unpackMembers, List.foldl_cons]
    exact (ih hrest _).trans (hm.kept hfirst src dst)

theorem unpackMembers_reads (h : List.Forall₂ Follows ms sigs)
    (hapart : sigs.Pairwise DbcSignal.Apart) (src dst : Memory) :
    ∀ sig ∈ sigs, sig.raw (unpackMembers ms src dst) = sig.read src := by
  induction h generalizing dst with
  | nil => exact fun _ hsig => absurd hsig List.not_mem_nil
  | @cons m sig ms sigs hm hms ih =>
    obtain ⟨hfirst, hrest⟩ := List.pairwise_cons.mp hapart
    rw [unpackMembers, List.foldl_cons]
    refine List.forall_mem_cons.mpr ⟨?_, ih hrest _⟩
    have hkept : sig.raw (unpackMembers ms src (m.unpack src dst)) = sig.raw (m.unpack src dst) :=
      unpackMembers_kept hms (fun other hother => (hfirst other hother).symm) src _
    exact hkept.trans (hm.reads src dst)

end Member

/-! ## Messages -/

structure MessageCode where
  length : Nat
  members : List Member
  /-- The member that the `switch` statement is over. -/
  switch : Option Member
  cases : List (Nat × List Member)

namespace MessageCode

/-- The members of the case that a value of the `switch` member selects. -/
def chosen (c : MessageCode) (value : Nat) : List Member := (c.cases.lookup value).getD []

def switchValue (c : MessageCode) (s : Memory) : Nat :=
  match c.switch with
  | none => 0
  | some m => (m.value s).toNat

/-- `stub_*_pack`. -/
def pack (c : MessageCode) : PackFunc := fun dst src size =>
  if size < c.length then { rc := DbcMessage.einval, dst := dst }
  else
    { rc := c.length
      dst := Member.packMembers (c.chosen (c.switchValue src)) src
        (Member.packMembers c.members src (dst.clear c.length)) }

/-- `stub_*_unpack`.  The `switch` is over the member as unpacked by then. -/
def unpack (c : MessageCode) : UnpackFunc := fun dst src size =>
  if size < c.length then { rc := DbcMessage.einval, dst := dst }
  else
    let unpacked := Member.unpackMembers c.members src dst
    { rc := 0
      dst := Member.unpackMembers (c.chosen (c.switchValue unpacked)) src unpacked }

/-- The code is for the signals of the message, in any order. -/
structure Follows (c : MessageCode) (d : DbcMessage) : Prop where
  length : c.length = d.length
  members : ∃ sigs, sigs.Perm d.unmultiplexed ∧ List.Forall₂ Member.Follows c.members sigs
  switch : Option.Rel Member.Follows c.switch d.multiplexer
  cases : ∀ value, ∃ sigs, sigs.Perm (d.multiplexed value) ∧
    List.Forall₂ Member.Follows (c.chosen value) sigs

variable {c : MessageCode} {d : DbcMessage}

theorem Follows.switchValue (h : c.Follows d) (s : Memory) : c.switchValue s = d.selected s := by
  have hrel := h.switch
  unfold MessageCode.switchValue DbcMessage.selected
  generalize c.switch = x, d.multiplexer = y at hrel ⊢
  cases hrel with
  | none => rfl
  | @some m sig hm =>
    obtain ⟨offset, size, _, _, _⟩ := m
    obtain ⟨rfl, rfl, _, _, _⟩ := hm
    rfl

/-- The members for a value of the `switch` member, and the signals they are for. -/
theorem Follows.present (h : c.Follows d) (value : Nat) :
    ∃ sigs, sigs.Perm (d.present value) ∧
      List.Forall₂ Member.Follows (c.members ++ c.chosen value) sigs := by
  obtain ⟨sigs, hperm, hall⟩ := h.members
  obtain ⟨sigs', hperm', hall'⟩ := h.cases value
  exact ⟨sigs ++ sigs', hperm.append hperm', List.rel_append hall hall'⟩

theorem pack_dst {dst src : Memory} {size : Nat} (hsize : c.length ≤ size) :
    (c.pack dst src size).dst = Member.packMembers
      (c.members ++ c.chosen (c.switchValue src)) src (dst.clear c.length) := by
  rw [pack, if_neg (by omega)]
  exact (List.foldl_append ..).symm

theorem Follows.packedBy (h : c.Follows d) (hd : d.WellFormed) : d.PackedBy c.pack where
  refused := fun dst src size hsize => by
    rw [pack, if_pos (by rwa [h.length])]
  rc := fun dst src size hsize => by
    rw [pack, if_neg (by rw [h.length]; omega), h.length]
  holds := fun dst src size hsize sig hsig => by
    obtain ⟨sigs, hperm, hall⟩ := h.present (d.selected src)
    rw [pack_dst (by rwa [h.length]), h.switchValue]
    have hdisjoint : sigs.Pairwise DbcSignal.Disjoint :=
      (hperm.pairwise_iff (fun hxy p hx hy => hxy p hy hx)).mpr (hd.disjoint _)
    refine Member.packMembers_holds hall hdisjoint (fun other hother p hp => ?_) sig
      (hperm.mem_iff.mpr hsig)
    obtain ⟨k, hk, rfl⟩ := hp
    rw [other.field_len] at hk
    have hmem := DbcMessage.mem_signals (hperm.mem_iff.mp hother)
    exact Memory.bit_clear (by rw [h.length]; exact hd.within other hmem k hk)
  unused := fun dst src size hsize p hp hnone => by
    obtain ⟨sigs, hperm, hall⟩ := h.present (d.selected src)
    rw [pack_dst (by rwa [h.length]), h.switchValue,
      Member.bit_packMembers_outside hall (fun sig hsig => hnone sig (hperm.mem_iff.mp hsig))]
    exact Memory.bit_clear (by rwa [h.length])
  beyond := fun dst src size a ha => by
    by_cases hsize : size < c.length
    · rw [pack, if_pos hsize]
    · obtain ⟨sigs, hperm, hall⟩ := h.present (d.selected src)
      rw [pack_dst (Nat.le_of_not_lt hsize), h.switchValue,
        Member.packMembers_beyond hall (fun sig hsig => hd.within sig
          (DbcMessage.mem_signals (hperm.mem_iff.mp hsig))) src _ ha]
      exact if_neg (by rw [h.length]; omega)

theorem Follows.switchValue_unpacked (h : c.Follows d) (hd : d.WellFormed) (src dst : Memory) :
    c.switchValue (Member.unpackMembers c.members src dst) = d.carried src := by
  rw [h.switchValue]
  unfold DbcMessage.selected DbcMessage.carried
  cases hmux : d.multiplexer with
  | none => rfl
  | some sig =>
    obtain ⟨sigs, hperm, hall⟩ := h.members
    have hapart : sigs.Pairwise DbcSignal.Apart :=
      (hperm.pairwise_iff (fun hxy => hxy.symm)).mpr (List.pairwise_append.mp (hd.apart 0)).1
    exact congrArg BitVec.toNat (Member.unpackMembers_reads hall hapart src dst sig
      (hperm.mem_iff.mpr (DbcMessage.multiplexer_mem hmux)))

theorem Follows.unpack_dst (h : c.Follows d) (hd : d.WellFormed) {dst src : Memory} {size : Nat}
    (hsize : d.length ≤ size) : (c.unpack dst src size).dst =
      Member.unpackMembers (c.members ++ c.chosen (d.carried src)) src dst := by
  rw [unpack, if_neg (by rw [h.length]; omega)]
  dsimp only
  rw [h.switchValue_unpacked hd]
  exact (List.foldl_append ..).symm

theorem Follows.unpackedBy (h : c.Follows d) (hd : d.WellFormed) : d.UnpackedBy c.unpack where
  refused := fun dst src size hsize => by
    rw [unpack, if_pos (by rwa [h.length])]
  rc := fun dst src size hsize => by
    rw [unpack, if_neg (by rw [h.length]; omega)]
  reads := fun dst src size hsize sig hsig => by
    obtain ⟨sigs, hperm, hall⟩ := h.present (d.carried src)
    rw [h.unpack_dst hd hsize]
    have hapart : sigs.Pairwise DbcSignal.Apart :=
      (hperm.pairwise_iff (fun hxy => hxy.symm)).mpr (hd.apart _)
    exact Member.unpackMembers_reads hall hapart src dst sig (hperm.mem_iff.mpr hsig)
  others := fun dst src size a ha => by
    by_cases hsize : size < d.length
    · rw [unpack, if_pos (by rwa [h.length])]
    · obtain ⟨sigs, hperm, hall⟩ := h.present (d.carried src)
      rw [h.unpack_dst hd (Nat.le_of_not_lt hsize)]
      exact Member.unpackMembers_missed hall
        (fun sig hsig => ha sig (hperm.mem_iff.mp hsig)) src dst

end MessageCode
end MessageLib
end DseNetwork
