import DseNetwork.Network.Function
import DseNetwork.Lib.ByteSum

/-
The message functions of the example function library, after `counters.c` and `crc.c`.

Each function keeps the position of its byte in instance data, which its first call
allocates and fills from the annotation `position`.
-/

namespace DseNetwork

def EPROTO : Int := 71

def EINVAL : Int := 22

/-! ## Annotations and instance data -/

def isSpace (c : Char) : Bool := c.toNat = 32 || (9 ≤ c.toNat && c.toNat ≤ 13)

/-- `strtoul(value, NULL, 10)` with an `unsigned long` of 64 bits. -/
def strtoul (value : String) : BitVec 64 :=
  let text := value.toList.dropWhile isSpace
  let (negative, digits) : Bool × List Char :=
    match text with
    | '-' :: rest => (true, rest)
    | '+' :: rest => (false, rest)
    | _ => (false, text)
  let magnitude := (digits.takeWhile Char.isDigit).foldl
    (fun n c => 10 * n + (c.toNat - '0'.toNat)) 0
  if 2 ^ 64 ≤ magnitude then BitVec.allOnes 64
  else if negative then -BitVec.ofNat 64 magnitude
  else BitVec.ofNat 64 magnitude

/-- `inst->position`, the one field of `InstanceData`. -/
def instancePosition (inst : Memory) : Byte := inst 0

/-- `network_function_annotation(function, "position")` as it is stored. -/
def annotatedPosition (annotations : List (String × String)) : Option Byte :=
  (annotations.lookup "position").map (fun value => (strtoul value).setWidth 8)

/-- The position that a call works with: that of the instance data, which the call
allocates and fills where there is none. -/
def positionOf (annotations : List (String × String)) (data : Option Memory) : Option Byte :=
  match data with
  | some inst => some (instancePosition inst)
  | none => annotatedPosition annotations

/-- The part that the functions share: without the annotation the instance data stays
cleared, and the call fails.  A message of length zero has no payload. -/
def positioned (body : Nat → Memory → Nat → Int × Memory) : NetworkFunctionFunc :=
  fun annotations data payload payloadLen =>
    if payloadLen = 0 then { rc := EINVAL, payload := payload, data := data }
    else
      let run (inst : Memory) : FunctionResult :=
        let (rc, payload) := body (instancePosition inst).toNat payload payloadLen
        { rc := rc, payload := payload, data := some inst }
      match data with
      | some inst => run inst
      | none =>
        match annotatedPosition annotations with
        | none => { rc := EPROTO, payload := payload, data := some Memory.zero }
        | some position => run (Function.update Memory.zero 0 position)

/-! ## The functions -/

def counterIncUint8 : NetworkFunctionFunc := positioned (fun position payload _ =>
  (0, Function.update payload position (payload position + 1#8)))

def crcGenerate : NetworkFunctionFunc := positioned (fun position payload payloadLen =>
  let crc := (List.range payloadLen).foldl
    (fun crc i => if i = position then crc else crc + payload i) 0#8
  (0, Function.update payload position crc))

def crcValidate : NetworkFunctionFunc := positioned (fun position payload payloadLen =>
  let crc := (List.range payloadLen).reverse.foldl
    (fun crc idx => if idx = position then crc else crc - payload idx) (payload position)
  (if crc ≠ 0#8 then EBADMSG else 0, payload))

variable {annotations : List (String × String)} {data : Option Memory} {payload : Memory}
  {payloadLen : Nat} {position : Byte}

/-- A call with a position runs the body there, and later calls find the position. -/
theorem positioned_of_position (body : Nat → Memory → Nat → Int × Memory)
    (hlen : payloadLen ≠ 0) (h : positionOf annotations data = some position) :
    (positioned body annotations data payload payloadLen).rc =
        (body position.toNat payload payloadLen).1 ∧
      (positioned body annotations data payload payloadLen).payload =
        (body position.toNat payload payloadLen).2 ∧
      positionOf annotations (positioned body annotations data payload payloadLen).data =
        some position := by
  unfold positioned
  rw [if_neg hlen]
  cases data with
  | some inst =>
    have hinst : instancePosition inst = position := Option.some.inj h
    simp [positionOf, hinst]
  | none =>
    have hnone : annotatedPosition annotations = some position := h
    simp [positionOf, hnone, instancePosition]

theorem counterIncUint8_payload (hlen : payloadLen ≠ 0)
    (h : positionOf annotations data = some position) :
    (counterIncUint8 annotations data payload payloadLen).payload =
      Function.update payload position.toNat (payload position.toNat + 1#8) :=
  (positioned_of_position _ hlen h).2.1

/-- The byte that `crc_generate` writes closes the sum of the payload. -/
theorem crcGenerate_payload (hlen : payloadLen ≠ 0)
    (h : positionOf annotations data = some position) :
    (crcGenerate annotations data payload payloadLen).payload =
      Function.update payload position.toNat
        (ByteSum.others payload payloadLen position.toNat) := by
  refine (positioned_of_position _ hlen h).2.1.trans ?_
  dsimp only
  rw [ByteSum.foldl_add, BitVec.zero_add]

/-- `crc_validate` tells whether the sum is closed. -/
theorem crcValidate_rc (hlen : payloadLen ≠ 0)
    (h : positionOf annotations data = some position) :
    (crcValidate annotations data payload payloadLen).rc =
      if ByteSum.Closed payload payloadLen position.toNat then 0 else EBADMSG := by
  refine (positioned_of_position _ hlen h).1.trans ?_
  dsimp only
  rw [ByteSum.foldl_sub]
  by_cases hsum : ByteSum.Closed payload payloadLen position.toNat
  · rw [if_pos hsum, if_neg (not_not.mpr (ByteSum.closed_iff_sub.mp hsum))]
  · rw [if_neg hsum, if_pos (fun hzero => hsum (ByteSum.closed_iff_sub.mpr hzero))]

example : (crcValidate [("position", " 2")] none (Memory.ofBytes [200#8, 100#8, 44#8]) 3).rc
    = 0 := by decide

end DseNetwork
