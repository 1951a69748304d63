import DseNetwork.MessageLib.Generated

/-
The message library of the stub network, after `stub.dbc`, `stub.h` and `stub.c`.
-/

namespace DseNetwork
namespace MessageLib
namespace Stub

/-! ## stub.dbc

Of a signal: its name, its part in the multiplexing, start bit, length, byte order and
sign, factor and offset, minimum and maximum, value type, and the offset and size of its
member in the struct of `stub.h`. -/

def Dbc.temperature : DbcSignal :=
  ⟨"Temperature", .plain, 0, 12, .motorola, true, 1/100, 250, 22952/100, 27047/100, false, 2, 2⟩

def Dbc.averageRadius : DbcSignal :=
  ⟨"AverageRadius", .plain, 6, 6, .motorola, false, 1/10, 0, 0, 5, false, 1, 1⟩

def Dbc.enable : DbcSignal :=
  ⟨"Enable", .plain, 7, 1, .motorola, false, 1, 0, 0, 0, false, 0, 1⟩

def dbcExampleMessage : DbcMessage where
  frameId := 496
  name := "ExampleMessage"
  length := 8
  signals := [Dbc.temperature, Dbc.averageRadius, Dbc.enable]

def Dbc.radius : DbcSignal :=
  ⟨"Radius", .plain, 6, 6, .motorola, false, 1/10, 0, 0, 5, false, 0, 1⟩

def dbcExampleMessage2 : DbcMessage where
  frameId := 497
  name := "ExampleMessage2"
  length := 8
  signals := [Dbc.radius]

def Dbc.crc : DbcSignal :=
  ⟨"Crc", .plain, 0, 8, .intel, false, 1, 0, 0, 0, false, 0, 1⟩

def Dbc.alive : DbcSignal :=
  ⟨"Alive", .plain, 8, 8, .intel, false, 1, 0, 0, 0, false, 1, 1⟩

def Dbc.foo : DbcSignal :=
  ⟨"Foo", .plain, 16, 8, .intel, false, 1, 0, 0, 0, false, 2, 1⟩

def Dbc.bar : DbcSignal :=
  ⟨"Bar", .plain, 24, 8, .intel, false, 1, 0, 0, 0, false, 3, 1⟩

def dbcFunctionExample : DbcMessage where
  frameId := 498
  name := "FunctionExample"
  length := 8
  signals := [Dbc.crc, Dbc.alive, Dbc.foo, Dbc.bar]

def Dbc.uInt8Signal : DbcSignal :=
  ⟨"UInt8Signal", .plain, 0, 8, .motorola, false, 1, 0, 0, 250, false, 0, 1⟩

def Dbc.uInt16Signal : DbcSignal :=
  ⟨"UInt16Signal", .plain, 8, 16, .motorola, false, 1, 0, 0, 1000, false, 2, 2⟩

def Dbc.uInt32Signal : DbcSignal :=
  ⟨"UInt32Signal", .plain, 24, 32, .motorola, false, 1, 0, 0, 40000, false, 4, 4⟩

def Dbc.uInt64Signal : DbcSignal :=
  ⟨"UInt64Signal", .plain, 56, 64, .motorola, false, 1, 0, 0, 800000, false, 8, 8⟩

def dbcUnsignedTypes : DbcMessage where
  frameId := 499
  name := "UnsignedTypes"
  length := 16
  signals := [Dbc.uInt8Signal, Dbc.uInt16Signal, Dbc.uInt32Signal, Dbc.uInt64Signal]

def Dbc.int8Signal : DbcSignal :=
  ⟨"Int8Signal", .plain, 0, 8, .motorola, true, 1, 0, -128, 127, false, 0, 1⟩

def Dbc.int16Signal : DbcSignal :=
  ⟨"Int16Signal", .plain, 8, 16, .motorola, true, 1, 0, -2501, 2500, false, 2, 2⟩

def Dbc.int32Signal : DbcSignal :=
  ⟨"Int32Signal", .plain, 24, 32, .motorola, true, 1, 0, -210001, 210000, false, 4, 4⟩

def Dbc.int64Signal : DbcSignal :=
  ⟨"Int64Signal", .plain, 56, 64, .motorola, true, 1, 0, -900001, 900000, false, 8, 8⟩

def dbcSignedTypes : DbcMessage where
  frameId := 500
  name := "SignedTypes"
  length := 16
  signals := [Dbc.int8Signal, Dbc.int16Signal, Dbc.int32Signal, Dbc.int64Signal]

def Dbc.doubleSignal : DbcSignal :=
  ⟨"DoubleSignal", .plain, 0, 64, .intel, true, 1, 0, 0, 0, true, 0, 8⟩

def Dbc.floatSignal : DbcSignal :=
  ⟨"FloatSignal", .plain, 64, 32, .intel, true, 1, 0, 0, 0, true, 8, 4⟩

def dbcFloatTypes : DbcMessage where
  frameId := 501
  name := "FloatTypes"
  length := 16
  signals := [Dbc.doubleSignal, Dbc.floatSignal]

def Dbc.scheduleSignal : DbcSignal :=
  ⟨"ScheduleSignal", .plain, 0, 1, .motorola, false, 1, 0, 0, 0, false, 0, 1⟩

def dbcScheduledMessage : DbcMessage where
  frameId := 502
  name := "ScheduledMessage"
  length := 8
  signals := [Dbc.scheduleSignal]

def Dbc.headerId : DbcSignal :=
  ⟨"Header_ID", .multiplexer, 0, 24, .intel, false, 1, 0, 0, 0, false, 0, 4⟩

def Dbc.headerDlc : DbcSignal :=
  ⟨"Header_DLC", .plain, 24, 8, .intel, false, 1, 0, 0, 255, false, 4, 1⟩

def Dbc.fooDouble : DbcSignal :=
  ⟨"FooDouble", .selectedBy 601, 32, 64, .intel, true, 1, 0, 0, 0, true, 8, 8⟩

def Dbc.barFloat : DbcSignal :=
  ⟨"BarFloat", .selectedBy 602, 32, 32, .intel, true, 1, 0, 0, 0, true, 16, 4⟩

def dbcMuxMessage : DbcMessage where
  frameId := 600
  name := "MuxMessage"
  length := 12
  signals := [Dbc.headerId, Dbc.headerDlc, Dbc.fooDouble, Dbc.barFloat]

/-! ## stub.c -/

def ExampleMessage.enable : Member where
  offset := 0
  size := 1
  packCalls := [.left 0 7 0x80]
  unpackCalls := [.right 0 7 0x80]
  extension := none

def ExampleMessage.averageRadius : Member where
  offset := 1
  size := 1
  packCalls := [.left 0 1 0x7e]
  unpackCalls := [.right 0 1 0x7e]
  extension := none

def ExampleMessage.temperature : Member where
  offset := 2
  size := 2
  packCalls := [.right 0 11 0x01, .right 1 3 0xff, .left 2 5 0xe0]
  unpackCalls := [.left 0 11 0x01, .left 1 3 0xff, .right 2 5 0xe0]
  extension := some (11, 0xf000)

def exampleMessage : MessageCode where
  length := 8
  members := [ExampleMessage.enable, ExampleMessage.averageRadius, ExampleMessage.temperature]
  switch := none
  cases := []

def stubExampleMessagePack : PackFunc := exampleMessage.pack

def stubExampleMessageUnpack : UnpackFunc := exampleMessage.unpack

def ExampleMessage2.radius : Member where
  offset := 0
  size := 1
  packCalls := [.left 0 1 0x7e]
  unpackCalls := [.right 0 1 0x7e]
  extension := none

def exampleMessage2 : MessageCode where
  length := 8
  members := [ExampleMessage2.radius]
  switch := none
  cases := []

def stubExampleMessage2Pack : PackFunc := exampleMessage2.pack

def stubExampleMessage2Unpack : UnpackFunc := exampleMessage2.unpack

def FunctionExample.crc : Member where
  offset := 0
  size := 1
  packCalls := [.left 0 0 0xff]
  unpackCalls := [.right 0 0 0xff]
  extension := none

def FunctionExample.alive : Member where
  offset := 1
  size := 1
  packCalls := [.left 1 0 0xff]
  unpackCalls := [.right 1 0 0xff]
  extension := none

def FunctionExample.foo : Member where
  offset := 2
  size := 1
  packCalls := [.left 2 0 0xff]
  unpackCalls := [.right 2 0 0xff]
  extension := none

def FunctionExample.bar : Member where
  offset := 3
  size := 1
  packCalls := [.left 3 0 0xff]
  unpackCalls := [.right 3 0 0xff]
  extension := none

def functionExample : MessageCode where
  length := 8
  members := [
    FunctionExample.crc, FunctionExample.alive,
    FunctionExample.foo, FunctionExample.bar]
  switch := none
  cases := []

def stubFunctionExamplePack : PackFunc := functionExample.pack

def stubFunctionExampleUnpack : UnpackFunc := functionExample.unpack

def UnsignedTypes.uInt8Signal : Member where
  offset := 0
  size := 1
  packCalls := [.right 0 7 0x01, .left 1 1 0xfe]
  unpackCalls := [.left 0 7 0x01, .right 1 1 0xfe]
  extension := none

def UnsignedTypes.uInt16Signal : Member where
  offset := 2
  size := 2
  packCalls := [.right 1 15 0x01, .right 2 7 0xff, .left 3 1 0xfe]
  unpackCalls := [.left 1 15 0x01, .left 2 7 0xff, .right 3 1 0xfe]
  extension := none

def UnsignedTypes.uInt32Signal : Member where
  offset := 4
  size := 4
  packCalls := [.right 3 31 0x01, .right 4 23 0xff, .right 5 15 0xff, .right 6 7 0xff,
    .left 7 1 0xfe]
  unpackCalls := [.left 3 31 0x01, .left 4 23 0xff, .left 5 15 0xff, .left 6 7 0xff,
    .right 7 1 0xfe]
  extension := none

def UnsignedTypes.uInt64Signal : Member where
  offset := 8
  size := 8
  packCalls := [.right 7 63 0x01, .right 8 55 0xff, .right 9 47 0xff, .right 10 39 0xff,
    .right 11 31 0xff, .right 12 23 0xff, .right 13 15 0xff, .right 14 7 0xff,
    .left 15 1 0xfe]
  unpackCalls := [.left 7 63 0x01, .left 8 55 0xff, .left 9 47 0xff, .left 10 39 0xff,
    .left 11 31 0xff, .left 12 23 0xff, .left 13 15 0xff, .left 14 7 0xff, .right 15 1 0xfe]
  extension := none

def unsignedTypes : MessageCode where
  length := 16
  members := [
    UnsignedTypes.uInt8Signal, UnsignedTypes.uInt16Signal,
    UnsignedTypes.uInt32Signal, UnsignedTypes.uInt64Signal]
  switch := none
  cases := []

def stubUnsignedTypesPack : PackFunc := unsignedTypes.pack

def stubUnsignedTypesUnpack : UnpackFunc := unsignedTypes.unpack

def SignedTypes.int8Signal : Member where
  offset := 0
  size := 1
  packCalls := [.right 0 7 0x01, .left 1 1 0xfe]
  unpackCalls := [.left 0 7 0x01, .right 1 1 0xfe]
  extension := none

def SignedTypes.int16Signal : Member where
  offset := 2
  size := 2
  packCalls := [.right 1 15 0x01, .right 2 7 0xff, .left 3 1 0xfe]
  unpackCalls := [.left 1 15 0x01, .left 2 7 0xff, .right 3 1 0xfe]
  extension := none

def SignedTypes.int32Signal : Member where
  offset := 4
  size := 4
  packCalls := [.right 3 31 0x01, .right 4 23 0xff, .right 5 15 0xff, .right 6 7 0xff,
    .left 7 1 0xfe]
  unpackCalls := [.left 3 31 0x01, .left 4 23 0xff, .left 5 15 0xff, .left 6 7 0xff,
    .right 7 1 0xfe]
  extension := none

def SignedTypes.int64Signal : Member where
  offset := 8
  size := 8
  packCalls := [.right 7 63 0x01, .right 8 55 0xff, .right 9 47 0xff, .right 10 39 0xff,
    .right 11 31 0xff, .right 12 23 0xff, .right 13 15 0xff, .right 14 7 0xff,
    .left 15 1 0xfe]
  unpackCalls := [.left 7 63 0x01, .left 8 55 0xff, .left 9 47 0xff, .left 10 39 0xff,
    .left 11 31 0xff, .left 12 23 0xff, .left 13 15 0xff, .left 14 7 0xff, .right 15 1 0xfe]
  extension := none

def signedTypes : MessageCode where
  length := 16
  members := [
    SignedTypes.int8Signal, SignedTypes.int16Signal,
    SignedTypes.int32Signal, SignedTypes.int64Signal]
  switch := none
  cases := []

def stubSignedTypesPack : PackFunc := signedTypes.pack

def stubSignedTypesUnpack : UnpackFunc := signedTypes.unpack

def FloatTypes.doubleSignal : Member where
  offset := 0
  size := 8
  packCalls := [.left 0 0 0xff, .right 1 8 0xff, .right 2 16 0xff, .right 3 24 0xff,
    .right 4 32 0xff, .right 5 40 0xff, .right 6 48 0xff, .right 7 56 0xff]
  unpackCalls := [.right 0 0 0xff, .left 1 8 0xff, .left 2 16 0xff, .left 3 24 0xff,
    .left 4 32 0xff, .left 5 40 0xff, .left 6 48 0xff, .left 7 56 0xff]
  extension := none

def FloatTypes.floatSignal : Member where
  offset := 8
  size := 4
  packCalls := [.left 8 0 0xff, .right 9 8 0xff, .right 10 16 0xff, .right 11 24 0xff]
  unpackCalls := [.right 8 0 0xff, .left 9 8 0xff, .left 10 16 0xff, .left 11 24 0xff]
  extension := none

def floatTypes : MessageCode where
  length := 16
  members := [FloatTypes.doubleSignal, FloatTypes.floatSignal]
  switch := none
  cases := []

def stubFloatTypesPack : PackFunc := floatTypes.pack

def stubFloatTypesUnpack : UnpackFunc := floatTypes.unpack

def ScheduledMessage.scheduleSignal : Member where
  offset := 0
  size := 1
  packCalls := [.left 0 0 0x01]
  unpackCalls := [.right 0 0 0x01]
  extension := none

def scheduledMessage : MessageCode where
  length := 8
  members := [ScheduledMessage.scheduleSignal]
  switch := none
  cases := []

def stubScheduledMessagePack : PackFunc := scheduledMessage.pack

def stubScheduledMessageUnpack : UnpackFunc := scheduledMessage.unpack

def MuxMessage.headerId : Member where
  offset := 0
  size := 4
  packCalls := [.left 0 0 0xff, .right 1 8 0xff, .right 2 16 0xff]
  unpackCalls := [.right 0 0 0xff, .left 1 8 0xff, .left 2 16 0xff]
  extension := none

def MuxMessage.headerDlc : Member where
  offset := 4
  size := 1
  packCalls := [.left 3 0 0xff]
  unpackCalls := [.right 3 0 0xff]
  extension := none

def MuxMessage.fooDouble : Member where
  offset := 8
  size := 8
  packCalls := [.left 4 0 0xff, .right 5 8 0xff, .right 6 16 0xff, .right 7 24 0xff,
    .right 8 32 0xff, .right 9 40 0xff, .right 10 48 0xff, .right 11 56 0xff]
  unpackCalls := [.right 4 0 0xff, .left 5 8 0xff, .left 6 16 0xff, .left 7 24 0xff,
    .left 8 32 0xff, .left 9 40 0xff, .left 10 48 0xff, .left 11 56 0xff]
  extension := none

def MuxMessage.barFloat : Member where
  offset := 16
  size := 4
  packCalls := [.left 4 0 0xff, .right 5 8 0xff, .right 6 16 0xff, .right 7 24 0xff]
  unpackCalls := [.right 4 0 0xff, .left 5 8 0xff, .left 6 16 0xff, .left 7 24 0xff]
  extension := none

def muxMessage : MessageCode where
  length := 12
  members := [MuxMessage.headerId, MuxMessage.headerDlc]
  switch := some MuxMessage.headerId
  cases := [(601, [MuxMessage.fooDouble]), (602, [MuxMessage.barFloat])]

def stubMuxMessagePack : PackFunc := muxMessage.pack

def stubMuxMessageUnpack : UnpackFunc := muxMessage.unpack

/-! ## The library -/

/-- A message of the library with the code of its two functions. -/
structure LibraryMessage where
  dbc : DbcMessage
  code : MessageCode
  pack : PackFunc
  unpack : UnpackFunc
  pack_eq : pack = code.pack
  unpack_eq : unpack = code.unpack

def library : List LibraryMessage := [
  ⟨dbcExampleMessage, exampleMessage, stubExampleMessagePack, stubExampleMessageUnpack, rfl, rfl⟩,
  ⟨dbcExampleMessage2, exampleMessage2, stubExampleMessage2Pack, stubExampleMessage2Unpack,
    rfl, rfl⟩,
  ⟨dbcFunctionExample, functionExample, stubFunctionExamplePack, stubFunctionExampleUnpack,
    rfl, rfl⟩,
  ⟨dbcUnsignedTypes, unsignedTypes, stubUnsignedTypesPack, stubUnsignedTypesUnpack, rfl, rfl⟩,
  ⟨dbcSignedTypes, signedTypes, stubSignedTypesPack, stubSignedTypesUnpack, rfl, rfl⟩,
  ⟨dbcFloatTypes, floatTypes, stubFloatTypesPack, stubFloatTypesUnpack, rfl, rfl⟩,
  ⟨dbcScheduledMessage, scheduledMessage, stubScheduledMessagePack, stubScheduledMessageUnpack,
    rfl, rfl⟩,
  ⟨dbcMuxMessage, muxMessage, stubMuxMessagePack, stubMuxMessageUnpack, rfl, rfl⟩]

/-- Code without a `switch` is for a message without multiplexing. -/
theorem follows_of_plain {c : MessageCode} {d : DbcMessage} (hlen : c.length = d.length)
    (hswitch : c.switch = none) (hcases : c.cases = [])
    (hplain : ∀ sig ∈ d.signals, sig.role = .plain) {sigs : List DbcSignal}
    (hperm : sigs.Perm d.signals) (hall : List.Forall₂ Member.Follows c.members sigs) :
    c.Follows d where
  length := hlen
  members := by
    refine ⟨sigs, ?_, hall⟩
    rwa [DbcMessage.unmultiplexed, List.filter_eq_self.mpr
      (fun sig hsig => decide_eq_true (.inl (hplain sig hsig)))]
  switch := by
    have hnone : d.multiplexer = none := List.find?_eq_none.mpr (fun sig hsig => by
      rw [hplain sig hsig]
      decide)
    rw [hswitch, hnone]
    exact .none
  cases := fun value => by
    have hnil : d.multiplexed value = [] := List.filter_eq_nil_iff.mpr (fun sig hsig => by
      rw [hplain sig hsig]
      simp)
    refine ⟨[], ?_, ?_⟩
    · rw [hnil]
    · rw [MessageCode.chosen, hcases]
      exact .nil

theorem exampleMessage_follows : exampleMessage.Follows dbcExampleMessage :=
  follows_of_plain rfl rfl rfl (by decide) (List.reverse_perm _) (by decide +kernel)

theorem exampleMessage2_follows : exampleMessage2.Follows dbcExampleMessage2 :=
  follows_of_plain rfl rfl rfl (by decide) (List.Perm.refl _) (by decide +kernel)

theorem functionExample_follows : functionExample.Follows dbcFunctionExample :=
  follows_of_plain rfl rfl rfl (by decide) (List.Perm.refl _) (by decide +kernel)

theorem unsignedTypes_follows : unsignedTypes.Follows dbcUnsignedTypes :=
  follows_of_plain rfl rfl rfl (by decide) (List.Perm.refl _) (by decide +kernel)

theorem signedTypes_follows : signedTypes.Follows dbcSignedTypes :=
  follows_of_plain rfl rfl rfl (by decide) (List.Perm.refl _) (by decide +kernel)

theorem floatTypes_follows : floatTypes.Follows dbcFloatTypes :=
  follows_of_plain rfl rfl rfl (by decide) (List.Perm.refl _) (by decide +kernel)

theorem scheduledMessage_follows : scheduledMessage.Follows dbcScheduledMessage :=
  follows_of_plain rfl rfl rfl (by decide) (List.Perm.refl _) (by decide +kernel)

theorem muxMessage_follows : muxMessage.Follows dbcMuxMessage where
  length := rfl
  members := ⟨dbcMuxMessage.unmultiplexed, List.Perm.refl _, by decide +kernel⟩
  switch := .some (by decide +kernel)
  cases := fun value => by
    refine ⟨dbcMuxMessage.multiplexed value, List.Perm.refl _, ?_⟩
    by_cases h601 : value = 601
    · subst h601
      decide +kernel
    · by_cases h602 : value = 602
      · subst h602
        decide +kernel
      · have hchosen : muxMessage.chosen value = [] := by
          simp [MessageCode.chosen, muxMessage, List.lookup_cons, beq_false_of_ne h601,
            beq_false_of_ne h602]
        have hnil : dbcMuxMessage.multiplexed value = [] := by
          simp [DbcMessage.multiplexed, dbcMuxMessage, Dbc.headerId, Dbc.headerDlc, Dbc.fooDouble,
            Dbc.barFloat, Ne.symm h601, Ne.symm h602]
        rw [hchosen, hnil]
        exact .nil

theorem library_follows : ∀ e ∈ library, e.dbc.Checked ∧ e.code.Follows e.dbc := by
  simp only [library, List.forall_mem_cons]
  exact ⟨⟨by decide +kernel, exampleMessage_follows⟩, ⟨by decide +kernel, exampleMessage2_follows⟩,
    ⟨by decide +kernel, functionExample_follows⟩, ⟨by decide +kernel, unsignedTypes_follows⟩,
    ⟨by decide +kernel, signedTypes_follows⟩, ⟨by decide +kernel, floatTypes_follows⟩,
    ⟨by decide +kernel, scheduledMessage_follows⟩, ⟨by decide +kernel, muxMessage_follows⟩,
    fun _ he => absurd he List.not_mem_nil⟩

/-- Every message is packed and unpacked as `stub.dbc` describes it. -/
theorem library_asDescribed : ∀ e ∈ library,
    e.dbc.WellFormed ∧ e.dbc.PackedBy e.pack ∧ e.dbc.UnpackedBy e.unpack := by
  intro e he
  obtain ⟨hchecked, hfollows⟩ := library_follows e he
  have hd := hchecked.wellFormed
  refine ⟨hd, ?_, ?_⟩
  · rw [e.pack_eq]
    exact hfollows.packedBy hd
  · rw [e.unpack_eq]
    exact hfollows.unpackedBy hd

def muxEntry : LibraryMessage :=
  ⟨dbcMuxMessage, muxMessage, stubMuxMessagePack, stubMuxMessageUnpack, rfl, rfl⟩

theorem library_asDescribed_muxMessage : dbcMuxMessage.PackedBy stubMuxMessagePack ∧
    dbcMuxMessage.UnpackedBy stubMuxMessageUnpack :=
  (library_asDescribed muxEntry (by simp [library, muxEntry])).2

/-- Unpacking restores exactly the packed values that fit their fields, and packing
restores the bits of a payload that a signal has. -/
theorem library_roundTrip : ∀ e ∈ library, ∀ (dst dst' src : Memory) (size : Nat),
    e.dbc.length ≤ size →
    ((∀ sig, e.dbc.multiplexer = some sig → sig.Fits src) →
      ∀ sig ∈ e.dbc.present (e.dbc.selected src),
        (sig.raw (e.unpack dst' (e.pack dst src size).dst size).dst = sig.raw src ↔
          sig.Fits src)) ∧
    ∀ p, p < 8 * e.dbc.length →
      ((e.pack dst' (e.unpack dst src size).dst size).dst.bit p = true ↔
        src.bit p = true ∧ ∃ sig ∈ e.dbc.present (e.dbc.carried src), sig.field.Covers p) := by
  intro e he dst dst' src size hsize
  obtain ⟨hd, hpack, hunpack⟩ := library_asDescribed e he
  exact ⟨fun hfits => DbcMessage.unpack_pack hd hpack hunpack hsize hfits,
    fun _ hp => DbcMessage.pack_unpack hd hpack hunpack hsize hp⟩

/-- A header of identifier 601 and eight bytes of a double. -/
def fooStruct : Memory := .ofBytes [0x59, 2, 0, 0, 8, 0, 0, 0, 1, 2, 3, 4, 5, 6, 7, 8]

theorem library_roundTrip_fooDouble :
    (Dbc.fooDouble.raw (stubMuxMessageUnpack Memory.zero
        (stubMuxMessagePack Memory.zero fooStruct 12).dst 12).dst = Dbc.fooDouble.raw fooStruct ↔
      Dbc.fooDouble.Fits fooStruct) ∧
    ∀ p, p < 96 → ((stubMuxMessagePack Memory.zero
        (stubMuxMessageUnpack Memory.zero fooStruct 12).dst 12).dst.bit p = true ↔
      fooStruct.bit p = true ∧
        ∃ sig ∈ dbcMuxMessage.present (dbcMuxMessage.carried fooStruct), sig.field.Covers p) := by
  obtain ⟨hrestored, hrepacked⟩ := library_roundTrip muxEntry (by simp [library, muxEntry])
    Memory.zero Memory.zero fooStruct 12 (Nat.le_refl 12)
  have hmux : dbcMuxMessage.multiplexer = some Dbc.headerId := rfl
  have hselected : dbcMuxMessage.selected fooStruct = 601 := by decide +kernel
  refine ⟨hrestored (fun sig hsig => ?_) Dbc.fooDouble ?_, hrepacked⟩
  · obtain rfl := Option.some.inj (hmux.symm.trans hsig)
    exact BitField.fits_unsigned_iff.mpr (by decide +kernel)
  · show Dbc.fooDouble ∈ dbcMuxMessage.present (dbcMuxMessage.selected fooStruct)
    rw [hselected]
    exact List.mem_append_right _ (List.mem_singleton.mpr rfl)

end Stub
end MessageLib
end DseNetwork
