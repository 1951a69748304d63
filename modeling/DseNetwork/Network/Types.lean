import DseNetwork.Lib.Memory
import DseNetwork.Lib.Fnv
import DseNetwork.Lib.Binary64

/-
The data of a network, after `network.h`.

A C object is split in two.  What the parser and the loader fix, names, identifiers,
layouts and function pointers, is a constant record.  What a simulation step writes
is a state record.  A pointer to a message is its position in the message list.
-/

namespace DseNetwork

abbrev Double := Binary64

/-! ## Signals -/

/-- `struct_member_primitive_type`.  Any other text is `unknown`, which both marshal
functions report and skip. -/
inductive MemberType
  | uint8 | uint16 | uint32 | uint64
  | int8 | int16 | int32 | int64
  | float | double
  | unknown
  deriving DecidableEq

def MemberType.size : MemberType → Nat
  | .uint8 | .int8 => 1
  | .uint16 | .int16 => 2
  | .uint32 | .int32 | .float => 4
  | .uint64 | .int64 | .double => 8
  | .unknown => 0

/-- A value of the member type as stored: the bit pattern, whatever its signedness. -/
abbrev MemberType.Raw (t : MemberType) : Type := BitVec (8 * t.size)

/-- The encode, decode and range functions that the message library exports for a
signal, in the width of its member type. -/
structure SignalFuncs (t : MemberType) where
  encode : Double → t.Raw
  decode : t.Raw → Double
  isInRange : t.Raw → Bool

structure NetworkSignal where
  /-- `struct_member_name`, absent where the network file does not give it. -/
  name : Option String
  signalName : String
  memberType : MemberType
  bufferOffset : Nat
  initValue : Double
  internal : Bool
  /-- The constant value of an internal signal of a contained message. -/
  value : Double
  muxSignal : Bool
  funcs : SignalFuncs memberType

namespace NetworkSignal

abbrev Raw (ns : NetworkSignal) : Type := ns.memberType.Raw

/-- The address of element `buffer_offset / sizeof(T)` of the buffer seen as a `T[]`. -/
def address (ns : NetworkSignal) : Nat :=
  ns.bufferOffset / ns.memberType.size * ns.memberType.size

def raw (ns : NetworkSignal) (buffer : Memory) : ns.Raw :=
  buffer.load ns.memberType.size ns.address

end NetworkSignal

/-! ## Messages -/

/-- What a call of a pack or unpack function returns and leaves at its destination. -/
structure CallResult where
  rc : Int
  dst : Memory

/-- `int (*)(uint8_t* dst, const void* src, size_t size)`. -/
abbrev PackFunc := Memory → Memory → Nat → CallResult

/-- `int (*)(void* dst, const uint8_t* src, size_t size)`. -/
abbrev UnpackFunc := Memory → Memory → Nat → CallResult

structure FunctionResult where
  rc : Int
  payload : Memory
  /-- The instance data left behind `function->data`. -/
  data : Option Memory

/-- A message function reads its annotations and its instance data, `none` before it
allocated any, and may rewrite the payload. -/
abbrev NetworkFunctionFunc :=
  (annotations : List (String × String)) → (data : Option Memory) →
    (payload : Memory) → (payloadLen : Nat) → FunctionResult

structure NetworkFunction where
  name : String
  annotations : List (String × String)
  function : Option NetworkFunctionFunc

structure NetworkMessage where
  name : String
  frameId : BitVec 32
  frameType : BitVec 8
  signals : List NetworkSignal
  /-- Name of the container message, for a contained message. -/
  container : Option String
  muxId : BitVec 32
  bufferLen : Nat
  cycleTimeMs : Nat
  payloadLen : Nat
  packFunc : Option PackFunc
  unpackFunc : Option UnpackFunc
  encodeFunctions : List NetworkFunction
  decodeFunctions : List NetworkFunction

/-- The fields of a `NetworkMessage` that change while the model runs, with the
instance data of its functions by position. -/
structure MessageState where
  buffer : Memory
  payload : Memory
  bufferChecksum : BitVec 32
  needsTx : Bool
  updateSignals : Bool
  encodeData : Nat → Option Memory
  decodeData : Nat → Option Memory

/-- A message as the parser leaves it: every field from `calloc`. -/
def MessageState.initial : MessageState where
  buffer := Memory.zero
  payload := Memory.zero
  bufferChecksum := 0#32
  needsTx := false
  updateSignals := false
  encodeData := fun _ => none
  decodeData := fun _ => none

/-- An entry of the marshal list, for messages referred to by `ι`. -/
structure MarshalItem (ι : Type) where
  signal : NetworkSignal
  message : ι
  signalVectorIndex : Nat

/-- `NCodecCanMessage`: a frame read from or written to the bus. -/
structure CanMessage where
  frameId : BitVec 32
  frameType : BitVec 8
  buffer : List Byte
  deriving DecidableEq

namespace CanMessage

def len (msg : CanMessage) : Nat := msg.buffer.length

def mem (msg : CanMessage) : Memory := Memory.ofBytes msg.buffer

end CanMessage

/-- The ways a call does not return: a NULL function is called, an array is left, the
process ends in `log_fatal`, or recursion exhausts the stack. -/
inductive Fault
  | nullPointer
  | outOfBounds
  | fatal
  | stackOverflow
  deriving DecidableEq

/-- `simbus_generate_uid_hash` of the first `len` bytes at `key`. -/
def simbusGenerateUidHash (key : Memory) (len : Nat) : BitVec 32 := Fnv.hash (key.bytes len)

/-- The mutable part of a `Network`: its messages, its signal vector and its schedule,
with the alarm of the schedule item of each cyclic message. -/
structure NetworkState (ι : Type) where
  message : ι → MessageState
  signalVector : Nat → Double
  alarm : ι → Nat
  tick : BitVec 32

end DseNetwork
