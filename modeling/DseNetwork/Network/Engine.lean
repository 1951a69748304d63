import DseNetwork.Network.MarshalList

/-
Marshalling between the signal vector and the struct buffers, and packing, after
`engine.c`.
-/

namespace DseNetwork

/-! ## One signal -/

/-- The variable `_value` of a branch of `network_marshal_signals_to_messages`. -/
structure Temporary where
  width : Nat
  signed : Bool

/-- An `intN_t` returned by an encode function, assigned to the variable, and read back
as the `intN_t` that the range function takes and the buffer stores. -/
def Temporary.through (t : Temporary) {w : Nat} (x : BitVec w) : BitVec w :=
  let value : BitVec t.width := x.signExtend t.width
  if t.signed then value.signExtend w else value.setWidth w

/-- The declared type of `_value` in each branch.  A floating point value is assigned
unchanged.  The `int64_t` branch declares an `int16_t`. -/
def MemberType.temporary : MemberType → Option Temporary
  | .uint8 => some ⟨8, false⟩
  | .uint16 => some ⟨16, false⟩
  | .uint32 => some ⟨32, false⟩
  | .uint64 => some ⟨64, false⟩
  | .int8 => some ⟨8, true⟩
  | .int16 => some ⟨16, true⟩
  | .int32 => some ⟨32, true⟩
  | .int64 => some ⟨16, true⟩
  | .float | .double | .unknown => none

def MemberType.convert (t : MemberType) (x : t.Raw) : t.Raw :=
  match t.temporary with
  | some temp => temp.through x
  | none => x

theorem Temporary.through_of_width {w : Nat} (x : BitVec w) (signed : Bool) :
    Temporary.through ⟨w, signed⟩ x = x := by
  cases signed <;> simp [Temporary.through]

/-- Every branch but one assigns the encoded value unchanged. -/
theorem MemberType.convert_eq {t : MemberType} (ht : t ≠ .int64) (x : t.Raw) :
    t.convert x = x := by
  cases t with
  | int64 => exact absurd rfl ht
  | uint8 => exact Temporary.through_of_width (w := 8) x false
  | uint16 => exact Temporary.through_of_width (w := 16) x false
  | uint32 => exact Temporary.through_of_width (w := 32) x false
  | uint64 => exact Temporary.through_of_width (w := 64) x false
  | int8 => exact Temporary.through_of_width (w := 8) x true
  | int16 => exact Temporary.through_of_width (w := 16) x true
  | int32 => exact Temporary.through_of_width (w := 32) x true
  | float => rfl
  | double => rfl
  | unknown => rfl

namespace NetworkSignal

/-- The raw value that is range checked and stored for a signal value. -/
def encodeRaw (ns : NetworkSignal) (v : Double) : ns.Raw :=
  ns.memberType.convert (ns.funcs.encode v)

/-- A branch of `network_marshal_signals_to_messages`. -/
def writeRaw (ns : NetworkSignal) (v : Double) (buffer : Memory) : Memory :=
  if ns.memberType = .unknown then buffer
  else if ns.funcs.isInRange (ns.encodeRaw v) then
    buffer.store ns.memberType.size ns.address (ns.encodeRaw v)
  else buffer

/-- A branch of `network_marshal_messages_to_signals`, from the value `old`. -/
def readValue (ns : NetworkSignal) (buffer : Memory) (old : Double) : Double :=
  if ns.memberType = .unknown then old
  else if ns.funcs.isInRange (ns.raw buffer) then ns.funcs.decode (ns.raw buffer)
  else old

/-- The signal is one the engine marshals and its raw value in the buffer is in range. -/
def InRange (ns : NetworkSignal) (buffer : Memory) : Prop :=
  ns.memberType ≠ .unknown ∧ ns.funcs.isInRange (ns.raw buffer) = true

instance (ns : NetworkSignal) (buffer : Memory) : Decidable (ns.InRange buffer) :=
  inferInstanceAs (Decidable (_ ∧ _))

theorem readValue_of_inRange {ns : NetworkSignal} {buffer : Memory} (h : ns.InRange buffer)
    (old : Double) : ns.readValue buffer old = ns.funcs.decode (ns.raw buffer) := by
  rw [readValue, if_neg h.1, if_pos h.2]

theorem readValue_of_not_inRange {ns : NetworkSignal} {buffer : Memory}
    (h : ¬ ns.InRange buffer) (old : Double) : ns.readValue buffer old = old := by
  rw [readValue]
  by_cases ht : ns.memberType = .unknown
  · rw [if_pos ht]
  · rw [if_neg ht, if_neg (fun hr => h ⟨ht, hr⟩)]

theorem readValue_idem (ns : NetworkSignal) (buffer : Memory) (old : Double) :
    ns.readValue buffer (ns.readValue buffer old) = ns.readValue buffer old := by
  by_cases h : ns.InRange buffer
  · rw [readValue_of_inRange h, readValue_of_inRange h]
  · rw [readValue_of_not_inRange h, readValue_of_not_inRange h]

/-- Marshalling the value into the buffer would store what is already there, or nothing. -/
def Settled (ns : NetworkSignal) (v : Double) (buffer : Memory) : Prop :=
  ns.memberType ≠ .unknown → ns.funcs.isInRange (ns.encodeRaw v) = true →
    ns.encodeRaw v = ns.raw buffer

instance (ns : NetworkSignal) (v : Double) (buffer : Memory) :
    Decidable (ns.Settled v buffer) :=
  inferInstanceAs (Decidable (_ → _ → _))

theorem writeRaw_of_settled {ns : NetworkSignal} {v : Double} {buffer : Memory}
    (h : ns.Settled v buffer) : ns.writeRaw v buffer = buffer := by
  rw [writeRaw]
  by_cases ht : ns.memberType = .unknown
  · rw [if_pos ht]
  · rw [if_neg ht]
    by_cases hr : ns.funcs.isInRange (ns.encodeRaw v) = true
    · rw [if_pos hr, h ht hr]
      exact Memory.store_load buffer _ _
    · rw [if_neg hr]

theorem writeRaw_patch (ns : NetworkSignal) (v : Double) : Memory.Patch (ns.writeRaw v) := by
  unfold writeRaw
  by_cases ht : ns.memberType = .unknown
  · simpa only [if_pos ht] using Memory.Patch.id
  · by_cases hr : ns.funcs.isInRange (ns.encodeRaw v) = true
    · simpa only [if_neg ht, if_pos hr] using Memory.Patch.store _ _ _
    · simpa only [if_neg ht, if_neg hr] using Memory.Patch.id

end NetworkSignal

/-! ## The marshal list -/

/-- A loop over all messages whose body touches only the message at hand. -/
def NetworkState.mapMessages {ι : Type} (f : ι → MessageState → MessageState)
    (s : NetworkState ι) : NetworkState ι :=
  { s with message := fun i => f i (s.message i) }

def NetworkState.modifyMessage {ι : Type} [DecidableEq ι] (s : NetworkState ι) (i : ι)
    (f : MessageState → MessageState) : NetworkState ι :=
  { s with message := Function.update s.message i (f (s.message i)) }

namespace Network

variable (n : Network)

abbrev State : Type := NetworkState n.Ref

/-- `_signal_value`: internal signals of contained messages take a constant value. -/
def signalValue (signalVector : Nat → Double) (mi : n.Item) : Double :=
  if mi.signal.internal ∧ (n.msg mi.message).container.isSome then mi.signal.value
  else signalVector mi.signalVectorIndex

def marshalSignalToMessage (s : n.State) (mi : n.Item) : n.State :=
  s.modifyMessage mi.message (fun st =>
    { st with buffer := mi.signal.writeRaw (n.signalValue s.signalVector mi) st.buffer })

/-- `network_marshal_signals_to_messages`. -/
def marshalSignalsToMessages (marshalList : List n.Item) (s : n.State) : n.State :=
  marshalList.foldl n.marshalSignalToMessage s

def marshalMessageToSignal (s : n.State) (mi : n.Item) : n.State :=
  { s with
    signalVector := Function.update s.signalVector mi.signalVectorIndex
      (mi.signal.readValue (s.message mi.message).buffer (s.signalVector mi.signalVectorIndex)) }

/-- `network_marshal_messages_to_signals`, started at the head of the list.  With
`single` set it returns after one item and leaves the flags alone. -/
def marshalMessagesToSignals (single : Bool) : List n.Item → n.State → n.State
  | [], s => s.mapMessages (fun _ st => { st with updateSignals := false })
  | mi :: rest, s =>
    if (s.message mi.message).updateSignals = false ∧ single = false then
      marshalMessagesToSignals single rest s
    else if single then n.marshalMessageToSignal s mi
    else marshalMessagesToSignals single rest (n.marshalMessageToSignal s mi)

/-- The body of the loop of `network_pack_messages`. -/
def packMessage (nm : NetworkMessage) (st : MessageState) : MessageState :=
  match nm.packFunc with
  | none => st
  | some pack =>
    let st := { st with payload := (pack st.payload st.buffer nm.payloadLen).dst }
    let payloadChecksum := simbusGenerateUidHash st.buffer nm.bufferLen
    if payloadChecksum ≠ st.bufferChecksum then
      if nm.cycleTimeMs ≠ 0 then st
      else { st with needsTx := true, bufferChecksum := payloadChecksum }
    else { st with needsTx := false }

/-- `network_pack_messages`. -/
def packMessages (s : n.State) : n.State := s.mapMessages (fun i => packMessage (n.msg i))

/-! ### Signals to messages -/

/-- The buffer of message `i` after its signals are marshalled into it. -/
def marshalBuffer (signalVector : Nat → Double) (i : n.Ref) (buffer : Memory) : Memory :=
  (n.items i).foldl (fun b mi => mi.signal.writeRaw (n.signalValue signalVector mi) b) buffer

variable {n}

theorem marshalSignalsToMessages_fold (l : List n.Item) (s : n.State) :
    n.marshalSignalsToMessages l s =
      { s with
        message := l.foldl (fun ms mi => Function.update ms mi.message
          { ms mi.message with
            buffer := mi.signal.writeRaw (n.signalValue s.signalVector mi)
              (ms mi.message).buffer }) s.message } := by
  induction l generalizing s with
  | nil => rfl
  | cons mi rest ih =>
    show n.marshalSignalsToMessages rest (n.marshalSignalToMessage s mi) = _
    rw [ih]
    rfl

/-- Marshalling rewrites the buffer of a message and nothing else of it. -/
theorem marshalSignalsToMessages_message (s : n.State) (i : n.Ref) :
    (n.marshalSignalsToMessages n.marshalList s).message i =
      { s.message i with
        buffer := n.marshalBuffer s.signalVector i (s.message i).buffer } := by
  have fold : ∀ (l : List n.Item) (st : MessageState),
      l.foldl (fun st mi => { st with
        buffer := mi.signal.writeRaw (n.signalValue s.signalVector mi) st.buffer }) st =
      { st with buffer := l.foldl (fun b mi =>
        mi.signal.writeRaw (n.signalValue s.signalVector mi) b) st.buffer } := by
    intro l
    induction l with
    | nil => exact fun _ => rfl
    | cons mi rest ih => exact fun st => ih _
  rw [marshalSignalsToMessages_fold]
  have hcell := Sweep.foldl_update_apply (·.message) (fun (mi : n.Item) st => { st with
    buffer := mi.signal.writeRaw (n.signalValue s.signalVector mi) st.buffer })
    n.marshalList s.message i
  exact hcell.trans (fold _ _)

@[simp] theorem marshalSignalsToMessages_signalVector (l : List n.Item) (s : n.State) :
    (n.marshalSignalsToMessages l s).signalVector = s.signalVector := by
  rw [marshalSignalsToMessages_fold]

theorem marshalBuffer_patch (sv : Nat → Double) (i : n.Ref) :
    Memory.Patch (n.marshalBuffer sv i) :=
  Memory.Patch.foldl (n.items i) (fun mi _ => mi.signal.writeRaw_patch (n.signalValue sv mi))

theorem marshalBuffer_idem (sv : Nat → Double) (i : n.Ref) (b : Memory) :
    n.marshalBuffer sv i (n.marshalBuffer sv i b) = n.marshalBuffer sv i b :=
  (marshalBuffer_patch sv i).idem b

theorem marshalBuffer_congr {sv sv' : Nat → Double} {i : n.Ref}
    (h : ∀ mi ∈ n.items i, sv mi.signalVectorIndex = sv' mi.signalVectorIndex) (b : Memory) :
    n.marshalBuffer sv i b = n.marshalBuffer sv' i b := by
  refine List.foldl_ext _ _ b (fun b' mi hmi => ?_)
  rw [signalValue, signalValue, h mi hmi]

theorem marshalBuffer_of_settled {sv : Nat → Double} {i : n.Ref} {b : Memory}
    (h : ∀ mi ∈ n.items i, mi.signal.Settled (n.signalValue sv mi) b) :
    n.marshalBuffer sv i b = b := by
  have fold : ∀ l : List n.Item,
      (∀ mi ∈ l, mi.signal.Settled (n.signalValue sv mi) b) →
      l.foldl (fun b mi => mi.signal.writeRaw (n.signalValue sv mi) b) b = b := by
    intro l hl
    induction l with
    | nil => rfl
    | cons mi rest ih =>
      rw [List.foldl_cons, NetworkSignal.writeRaw_of_settled (hl mi List.mem_cons_self)]
      exact ih (fun mi' h' => hl mi' (List.mem_cons_of_mem mi h'))
  exact fold _ h

/-! ### Messages to signals -/

/-- The list is walked to its end unless `single` is set: the items of messages with
`update_signals` are read, then every flag is cleared. -/
theorem marshalMessagesToSignals_fold (l : List n.Item) (s : n.State) :
    n.marshalMessagesToSignals false l s =
      { s with
        message := fun i => { s.message i with updateSignals := false }
        signalVector := l.foldl (fun sv mi => Function.update sv mi.signalVectorIndex
          (if (s.message mi.message).updateSignals then
            mi.signal.readValue (s.message mi.message).buffer (sv mi.signalVectorIndex)
          else sv mi.signalVectorIndex)) s.signalVector } := by
  induction l generalizing s with
  | nil => rfl
  | cons mi rest ih =>
    rw [marshalMessagesToSignals]
    by_cases hflag : (s.message mi.message).updateSignals = true
    · simp only [hflag, Bool.true_eq_false, false_and, if_false, Bool.false_eq_true]
      rw [ih, List.foldl_cons, hflag]
      rfl
    · have hoff : (s.message mi.message).updateSignals = false := by simpa using hflag
      rw [if_pos ⟨hoff, rfl⟩, ih, List.foldl_cons, hoff]
      simp only [Bool.false_eq_true, if_false, Function.update_eq_self]

@[simp] theorem marshalMessagesToSignals_message (l : List n.Item) (s : n.State) (i : n.Ref) :
    (n.marshalMessagesToSignals false l s).message i =
      { s.message i with updateSignals := false } := by
  rw [marshalMessagesToSignals_fold]

theorem marshalMessagesToSignals_value {mi : n.Item} (hmi : mi ∈ n.marshalList)
    (s : n.State) :
    (n.marshalMessagesToSignals false n.marshalList s).signalVector mi.signalVectorIndex =
      if (s.message mi.message).updateSignals then
        mi.signal.readValue (s.message mi.message).buffer (s.signalVector mi.signalVectorIndex)
      else s.signalVector mi.signalVectorIndex := by
  rw [marshalMessagesToSignals_fold]
  have hcell := Sweep.foldl_update_apply (·.signalVectorIndex)
    (fun (mi : n.Item) v => if (s.message mi.message).updateSignals then
      mi.signal.readValue (s.message mi.message).buffer v else v)
    n.marshalList s.signalVector mi.signalVectorIndex
  rw [Sweep.filter_key_eq_singleton n.nodup_indices hmi] at hcell
  exact hcell

theorem marshalMessagesToSignals_of_not_flagged {s : n.State} {x : Nat}
    (h : ∀ mi ∈ n.marshalList, mi.signalVectorIndex = x →
      (s.message mi.message).updateSignals = false) :
    (n.marshalMessagesToSignals false n.marshalList s).signalVector x = s.signalVector x := by
  by_cases hx : ∃ mi ∈ n.marshalList, mi.signalVectorIndex = x
  · obtain ⟨mi, hmi, rfl⟩ := hx
    rw [marshalMessagesToSignals_value hmi, h mi hmi rfl, if_neg Bool.false_ne_true]
  · have hnone : n.marshalList.filter (fun mi => mi.signalVectorIndex = x) = [] :=
      List.filter_eq_nil_iff.mpr (fun mi hmi heq => hx ⟨mi, hmi, of_decide_eq_true heq⟩)
    rw [marshalMessagesToSignals_fold]
    have hcell := Sweep.foldl_update_apply (·.signalVectorIndex)
      (fun (mi : n.Item) v => if (s.message mi.message).updateSignals then
        mi.signal.readValue (s.message mi.message).buffer v else v)
      n.marshalList s.signalVector x
    rw [hnone] at hcell
    exact hcell

/-! ### Packing -/

@[simp] theorem packMessages_message (s : n.State) (i : n.Ref) :
    (n.packMessages s).message i = packMessage (n.msg i) (s.message i) := rfl

@[simp] theorem packMessages_signalVector (s : n.State) :
    (n.packMessages s).signalVector = s.signalVector := rfl

/-- Packing writes the payload, the checksum and the transmission flag. -/
theorem packMessage_fields (nm : NetworkMessage) (st : MessageState) :
    ∃ payload sum tx, packMessage nm st =
        { st with payload := payload, bufferChecksum := sum, needsTx := tx } ∧
      ∀ pack, nm.packFunc = some pack →
        payload = (pack st.payload st.buffer nm.payloadLen).dst := by
  unfold packMessage
  cases nm.packFunc with
  | none => exact ⟨_, _, _, rfl, fun pack hpack => by cases hpack⟩
  | some pack =>
    have hpayload : ∀ pack', some pack = some pack' →
        (pack st.payload st.buffer nm.payloadLen).dst =
          (pack' st.payload st.buffer nm.payloadLen).dst := fun pack' h => by
      rw [Option.some.inj h]
    dsimp only
    split
    · split
      · exact ⟨_, _, _, rfl, hpayload⟩
      · exact ⟨_, _, _, rfl, hpayload⟩
    · exact ⟨_, _, _, rfl, hpayload⟩

theorem packMessage_buffer (nm : NetworkMessage) (st : MessageState) :
    (packMessage nm st).buffer = st.buffer := by
  obtain ⟨_, _, _, h, _⟩ := packMessage_fields nm st
  rw [h]

theorem packMessage_updateSignals (nm : NetworkMessage) (st : MessageState) :
    (packMessage nm st).updateSignals = st.updateSignals := by
  obtain ⟨_, _, _, h, _⟩ := packMessage_fields nm st
  rw [h]

/-- A packed event message has the checksum of its buffer, and is to be sent when the
checksum was another before. -/
theorem packMessage_event {nm : NetworkMessage} (hpack : nm.packFunc.isSome)
    (hevent : nm.cycleTimeMs = 0) (st : MessageState) :
    (packMessage nm st).bufferChecksum = simbusGenerateUidHash st.buffer nm.bufferLen ∧
      ((packMessage nm st).needsTx = true ↔
        simbusGenerateUidHash st.buffer nm.bufferLen ≠ st.bufferChecksum) := by
  obtain ⟨pack, hp⟩ := Option.isSome_iff_exists.mp hpack
  by_cases hsum : simbusGenerateUidHash st.buffer nm.bufferLen = st.bufferChecksum
  · simp [packMessage, hp, hsum]
  · simp [packMessage, hp, hsum, hevent]

/-- Packing a cyclic message keeps its checksum, and withdraws the transmission when
the checksum is that of the buffer. -/
theorem packMessage_cyclic {nm : NetworkMessage} (hpack : nm.packFunc.isSome)
    (hcyclic : nm.cycleTimeMs ≠ 0) (st : MessageState) :
    (packMessage nm st).bufferChecksum = st.bufferChecksum ∧
      (packMessage nm st).needsTx = (st.needsTx &&
        decide (simbusGenerateUidHash st.buffer nm.bufferLen ≠ st.bufferChecksum)) := by
  obtain ⟨pack, hp⟩ := Option.isSome_iff_exists.mp hpack
  by_cases hsum : simbusGenerateUidHash st.buffer nm.bufferLen = st.bufferChecksum
  · simp [packMessage, hp, hsum]
  · simp [packMessage, hp, hsum, hcyclic]

theorem packMessage_of_none {nm : NetworkMessage} (h : nm.packFunc = none)
    (st : MessageState) : packMessage nm st = st := by
  rw [packMessage, h]

end Network
end DseNetwork
