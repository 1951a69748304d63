import DseNetwork.Network.Model

/-
A message library of unscaled one-byte fields.

The generator of the message library emits, for a signal with factor one and offset
zero, an encode function that is a cast and a decode function that is its inverse, and
pack and unpack functions that copy the fields.  The small networks below use them.
-/

namespace DseNetwork

/-- `encode`, `decode` and `is_in_range` of an unscaled `uint8_t` field. -/
def byteFuncs (isInRange : BitVec 8 → Bool) : SignalFuncs .uint8 where
  encode v := v.toUInt32.setWidth 8
  decode r := Binary64.ofNat r.toNat
  isInRange := isInRange

theorem byteFuncs_encode_decode (isInRange : BitVec 8 → Bool) (r : BitVec 8) :
    (byteFuncs isInRange).encode ((byteFuncs isInRange).decode r) = r := by
  have all : ∀ r : BitVec 8, (Binary64.ofNat r.toNat).toUInt32.setWidth 8 = r := by
    decide +kernel
  exact all r

/-- Packing and unpacking of a struct that is its own payload.  Like generated code, it
refuses a size below the length of the message. -/
def copyFields (len : Nat) : Memory → Memory → Nat → CallResult := fun dst src size =>
  if size < len then { rc := -22, dst := dst }
  else { rc := 0, dst := fun a => if a < len then src a else dst a }

theorem Network.refusalKeeps_copyFields {nm : NetworkMessage} {len : Nat}
    (h : nm.unpackFunc = some (copyFields len)) : Network.RefusalKeeps nm := by
  intro msg b hrc
  simp only [Network.unpackFrame, h, copyFields] at hrc ⊢
  by_cases hsize : msg.len < len
  · rw [if_pos hsize]
  · rw [if_neg hsize] at hrc
    exact absurd rfl hrc

theorem Network.unpacksAgain_copyFields {nm : NetworkMessage} {len : Nat}
    (h : nm.unpackFunc = some (copyFields len)) : Network.UnpacksAgain nm := by
  intro msg b hrc
  simp only [Network.unpackFrame, h, copyFields] at hrc ⊢
  by_cases hsize : msg.len < len
  · rw [if_pos hsize] at hrc
    exact absurd hrc (show (-22 : Int) ≠ 0 by decide)
  · simp only [if_neg hsize, true_and]
    funext a
    by_cases ha : a < len <;> simp [ha]

theorem copyFields_bytes (len : Nat) (payload buffer buffer' : Memory) :
    (copyFields len buffer' (copyFields len payload buffer len).dst len).dst.bytes len =
      buffer.bytes len := by
  refine Memory.bytes_congr (fun a ha => ?_)
  simp [copyFields, ha]

def byteSignal (name : String) (bufferOffset : Nat) (isInRange : BitVec 8 → Bool) :
    NetworkSignal where
  name := some name
  signalName := name
  memberType := .uint8
  bufferOffset := bufferOffset
  initValue := Binary64.ofNat 0
  internal := false
  value := Binary64.ofNat 0
  muxSignal := false
  funcs := byteFuncs isInRange

theorem byteSignal_encode_decode (name : String) (bufferOffset : Nat)
    (isInRange : BitVec 8 → Bool) (r : (byteSignal name bufferOffset isInRange).Raw) :
    (byteSignal name bufferOffset isInRange).funcs.isInRange r = true →
      (byteSignal name bufferOffset isInRange).funcs.encode
        ((byteSignal name bufferOffset isInRange).funcs.decode r) = r :=
  fun _ => byteFuncs_encode_decode isInRange r

def wordSignal (name : String) (bufferOffset initValue : Nat) : NetworkSignal where
  name := some name
  signalName := name
  memberType := .uint32
  bufferOffset := bufferOffset
  initValue := Binary64.ofNat initValue
  internal := false
  value := Binary64.ofNat 0
  muxSignal := false
  funcs := {
    encode := fun v => v.toUInt32
    decode := fun r => Binary64.ofNat r.toNat
    isInRange := fun _ => true }

def longSignal (name : String) (bufferOffset : Nat) : NetworkSignal where
  name := some name
  signalName := name
  memberType := .int64
  bufferOffset := bufferOffset
  initValue := Binary64.ofNat 0
  internal := false
  value := Binary64.ofNat 0
  muxSignal := false
  funcs := {
    encode := fun v => BitVec.ofInt 64 v.toInt64
    decode := fun r => Binary64.ofInt r.toInt
    isInRange := fun _ => true }

/-- An event message whose payload is its struct. -/
def plainMessage (name : String) (frameId : BitVec 32) (len : Nat)
    (signals : List NetworkSignal) : NetworkMessage where
  name := name
  frameId := frameId
  frameType := 0#8
  signals := signals
  container := none
  muxId := 0#32
  bufferLen := len
  cycleTimeMs := 0
  payloadLen := len
  packFunc := some (copyFields len)
  unpackFunc := some (copyFields len)
  encodeFunctions := []
  decodeFunctions := []

/-- The model of a network on its own: nothing is mapped and nothing switches it off. -/
def NetworkModel.alone (network : Network) : NetworkModel where
  network := network
  svSignal := []
  netoffSignal := none
  stack := 2

/-- A step input with the given frames, for a SignalVector that nobody reads. -/
def StepInput.ofFrames (frames : List CanMessage) (modelTime : ℚ) : StepInput where
  scalar := fun _ => Binary64.ofNat 0
  frames := frames
  modelTime := modelTime
  stopTime := modelTime + 1 / 2000

end DseNetwork
