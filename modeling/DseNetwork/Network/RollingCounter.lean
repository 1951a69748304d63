import DseNetwork.Network.FunctionLibrary
import DseNetwork.Network.StructLayout
import DseNetwork.Network.Cyclic
import DseNetwork.Network.Reception
import Mathlib.Data.List.Chain

/-
A rolling counter and a CRC over a run.

Packing rebuilds the payload from the struct in every step.  The counter lives on since
the payload it was raised in is unpacked, read into its signal, and marshalled back in
each later step.  The byte of the struct is what the proofs follow: a step raises it by
one and sends it, or leaves it as it is and sends nothing.
-/

namespace DseNetwork

/-! ## The encode functions of the message -/

/-- The encode functions are `counter_inc_uint8` at `p` and then `crc_generate` at `q`. -/
structure CounterThenCrc (nm : NetworkMessage) (inc crc : NetworkFunction) (p q : Byte) :
    Prop where
  functions : nm.encodeFunctions = [inc, crc]
  inc_function : inc.function = some counterIncUint8
  inc_position : annotatedPosition inc.annotations = some p
  crc_function : crc.function = some crcGenerate
  crc_position : annotatedPosition crc.annotations = some q
  ne : p ≠ q
  inc_lt : p.toNat < nm.payloadLen
  crc_lt : q.toNat < nm.payloadLen

/-- The instance data of the functions, where they have any, hold their positions. -/
def Configured (inc crc : NetworkFunction) (p q : Byte) (data : Nat → Option Memory) : Prop :=
  positionOf inc.annotations (data 0) = some p ∧ positionOf crc.annotations (data 1) = some q

/-- Byte `p` of the payload is a signal of its own: eight bits, encoded exactly, of any
value, and carried both ways by the pack and unpack functions. -/
structure OwnByte (nm : NetworkMessage) (ns : NetworkSignal) (p : Byte) : Prop where
  signal : ns ∈ nm.signals
  size : ns.memberType = .uint8 ∨ ns.memberType = .int8
  exact : ∀ r, ns.funcs.encode (ns.funcs.decode r) = r
  unlimited : ∀ r, ns.funcs.isInRange r = true
  free : ¬ (ns.internal = true ∧ nm.container.isSome = true)
  packed : ∃ pack, nm.packFunc = some pack ∧ ∀ payload buffer : Memory,
    (pack payload buffer nm.payloadLen).dst p.toNat = buffer ns.bufferOffset
  unpacked : ∀ unpack, nm.unpackFunc = some unpack → ∀ buffer payload : Memory,
    (unpack buffer payload nm.payloadLen).dst ns.bufferOffset = payload p.toNat

namespace CounterThenCrc

variable {ι : Type} {nm : NetworkMessage} {inc crc : NetworkFunction} {p q : Byte}

/-- The second function is handed the payload that the first one left. -/
theorem encodeLoop_pair {i : ι} {f g : NetworkFunction} {F G : NetworkFunctionFunc}
    {st st' : MessageState} {calls : List (FunctionCall ι)} (hf : f.function = some F)
    (hg : g.function = some G) (h : Network.encodeLoop i nm 0 [f, g] st = .ok (st', calls)) :
    let first := F f.annotations (st.encodeData 0) st.payload nm.payloadLen
    let second := G g.annotations (st.encodeData 1) first.payload nm.payloadLen
    st'.payload = second.payload ∧ st'.encodeData 0 = first.data ∧
      st'.encodeData 1 = second.data ∧
      ∃ c ∈ calls, c.message = i ∧ c.function = 0 ∧
        c.payload = st.payload.bytes nm.payloadLen := by
  obtain ⟨_, hsecond, rfl⟩ := Network.encodeLoop_cons hf h
  obtain ⟨_, hnil, rfl⟩ := Network.encodeLoop_cons hg hsecond
  obtain ⟨hst, _⟩ := Prod.mk.inj (Except.ok.inj hnil)
  rw [← hst]
  dsimp only
  rw [Function.update_of_ne Nat.one_ne_zero]
  refine ⟨rfl, ?_, Function.update_self _ _ _, ⟨_, List.mem_cons_self, rfl, rfl, rfl⟩⟩
  rw [Function.update_of_ne Nat.zero_ne_one, Function.update_self]

/-- The functions raise the counter by one and close the sum of the payload. -/
theorem loop (h : CounterThenCrc nm inc crc p q) {i : ι} {st st' : MessageState}
    {calls : List (FunctionCall ι)} (hconf : Configured inc crc p q st.encodeData)
    (hloop : Network.encodeLoop i nm 0 nm.encodeFunctions st = .ok (st', calls)) :
    st'.payload p.toNat = st.payload p.toNat + 1#8 ∧
      ByteSum.Closed st'.payload nm.payloadLen q.toNat ∧
      Configured inc crc p q st'.encodeData ∧
      ∃ c ∈ calls, c.message = i ∧ c.function = 0 ∧
        c.payload = st.payload.bytes nm.payloadLen := by
  have hlen : nm.payloadLen ≠ 0 := Nat.ne_of_gt (Nat.zero_lt_of_lt h.inc_lt)
  have hne : p.toNat ≠ q.toNat := fun heq => h.ne (BitVec.eq_of_toNat_eq heq)
  rw [h.functions] at hloop
  obtain ⟨hpayload, hinc, hcrc, hcall⟩ :=
    encodeLoop_pair h.inc_function h.crc_function hloop
  rw [crcGenerate_payload hlen hconf.2] at hpayload
  refine ⟨?_, ?_, ⟨?_, ?_⟩, hcall⟩
  · rw [hpayload, Function.update_of_ne hne, counterIncUint8_payload hlen hconf.1,
      Function.update_self]
  · rw [hpayload]
    exact ByteSum.closed_update _ _ _
  · rw [hinc]
    exact (positioned_of_position _ hlen hconf.1).2.2
  · rw [hcrc]
    exact (positioned_of_position _ hlen hconf.2).2.2

end CounterThenCrc

/-! ## The byte of the counter in the struct -/

namespace OwnByte

variable {nm : NetworkMessage} {ns : NetworkSignal} {p : Byte}

theorem known (h : OwnByte nm ns p) : ns.memberType ≠ .unknown := by
  rcases h.size with hsize | hsize <;> rw [hsize] <;> decide

theorem encodeRaw_decode (h : OwnByte nm ns p) (r : ns.Raw) :
    ns.encodeRaw (ns.funcs.decode r) = r := by
  have hne : ns.memberType ≠ .int64 := by
    rcases h.size with hsize | hsize <;> rw [hsize] <;> decide
  rw [NetworkSignal.encodeRaw_eq hne, h.exact]

theorem byte_eq (h : OwnByte nm ns p) (hal : ns.Aligned) {b b' : Memory}
    (hraw : ns.raw b = ns.raw b') : b ns.bufferOffset = b' ns.bufferOffset := by
  have hsize : ns.memberType.size = 1 := by
    rcases h.size with hsize | hsize <;> rw [hsize] <;> rfl
  rw [NetworkSignal.raw, NetworkSignal.raw, NetworkSignal.address_of_aligned hal] at hraw
  refine BitVec.eq_of_getLsbD_eq (fun k hk => ?_)
  have hbit := congrArg (fun r => BitVec.getLsbD r k) hraw
  have hlt : k < 8 * ns.memberType.size := by omega
  have hdiv : k / 8 = 0 := Nat.div_eq_of_lt hk
  have hmod : k % 8 = k := Nat.mod_eq_of_lt hk
  simpa only [Memory.getLsbD_load, hlt, decide_true, Bool.true_and, hdiv, Nat.add_zero,
    hmod] using hbit

end OwnByte

namespace NetworkModel

variable {m : NetworkModel} {input : StepInput} {s s' : ModelState m.network}
  {trace : StepTrace m.network} {i : m.network.Ref} {inc crc : NetworkFunction} {p q : Byte}
  {ns : NetworkSignal}

/-! ## What holds between the steps -/

/-- The signal of the member encodes to what the struct holds. -/
def Tracks (s : ModelState m.network) (i : m.network.Ref) (ns : NetworkSignal) : Prop :=
  ∀ mi ∈ m.network.items i, mi.signal = ns →
    mi.signal.encodeRaw (s.network.signalVector mi.signalVectorIndex) =
      mi.signal.raw (s.network.message i).buffer

theorem raw_marshalBuffer_free (hown : OwnByte (m.network.msg i) ns p)
    (hstruct : (m.network.msg i).IsStruct) {mi : m.network.Item} (hmi : mi ∈ m.network.items i)
    (hns : mi.signal = ns) (sv : Nat → Double) (b : Memory) :
    mi.signal.raw (m.network.marshalBuffer sv i b) =
      mi.signal.encodeRaw (sv mi.signalVectorIndex) := by
  subst hns
  have hfree : m.network.signalValue sv mi = sv mi.signalVectorIndex := by
    rw [Network.signalValue, (Network.mem_items.mp hmi).2, if_neg hown.free]
  rw [Network.IsStruct.raw_marshalled hstruct hmi hown.known, hfree,
    NetworkSignal.raw_writeRaw hown.known, if_pos (hown.unlimited _)]

/-- Every step marshals the signal, and what encode functions change is read back. -/
theorem reachable_tracks (hown : OwnByte (m.network.msg i) ns p)
    (hstruct : (m.network.msg i).IsStruct) (h : m.system.Reachable s) : Tracks s i ns := by
  refine h.invariant (P := fun s => Tracks s i ns) ?_ ?_
  · rintro _ ⟨scalar, rfl⟩ mi hmi hns
    rw [modelCreate_signalVector, modelCreate_message]
    dsimp only
    rw [Network.packMessage_buffer]
    exact (raw_marshalBuffer_free hown hstruct hmi hns _ _).symm
  · intro s input trace s' _ _ hn mi hmi hns
    obtain ⟨g⟩ := modelStep_ok hn
    obtain ⟨out, hout⟩ := g.encoded_message i
    obtain ⟨hmem, hmsg⟩ := Network.mem_items.mp hmi
    have hafter := g.after_value hmem
    rw [hmsg] at hafter
    rw [g.after_message, hafter]
    dsimp only
    obtain ⟨hbuffer, hidle, _⟩ := g.packed_fields i
    rcases (Network.encodeMessage_ok hout).2 with ⟨hsame, _, hflag⟩ | ⟨_, hflag, _⟩
    · rw [hflag, hidle, if_neg Bool.false_ne_true, hsame, hbuffer]
      exact (raw_marshalBuffer_free hown hstruct hmi hns _ _).symm
    · subst hns
      rw [hflag, if_pos rfl, NetworkSignal.readValue_of_inRange
        ⟨hown.known, hown.unlimited _⟩, hown.encodeRaw_decode]

theorem reachable_configured (hfun : CounterThenCrc (m.network.msg i) inc crc p q)
    (h : m.system.Reachable s) :
    Configured inc crc p q (s.network.message i).encodeData := by
  refine h.invariant
    (P := fun s => Configured inc crc p q (s.network.message i).encodeData) ?_ ?_
  · rintro _ ⟨scalar, rfl⟩
    obtain ⟨_, _, _, hpacked, _⟩ := Network.packMessage_fields (m.network.msg i)
      { MessageState.initial with
        buffer := m.network.marshalBuffer m.initialSignalVector i Memory.zero }
    rw [modelCreate_message, hpacked]
    exact ⟨hfun.inc_position, hfun.crc_position⟩
  · intro s input trace s' _ hs hn
    obtain ⟨g⟩ := modelStep_ok hn
    obtain ⟨out, hout⟩ := g.encoded_message i
    obtain ⟨_, happly⟩ := g.applied_message i
    have hdata : (g.packed i).encodeData = (s.network.message i).encodeData := by
      rw [(g.packed_fields i).2.2.1, Network.decodeMessage_encodeData happly]
      exact (Network.decodeFromBus_keepsTx g.decode i).2.2.1
    rw [g.after_message]
    dsimp only
    rw [← hdata] at hs
    cases htx : (g.encoded.message i).needsTx with
    | false =>
      rw [(Network.encodeMessage_idle hout htx).1]
      exact hs
    | true =>
      obtain ⟨st, hloop, _, henc, _⟩ := Network.encodeMessage_sent hout htx
      rw [henc]
      exact (hfun.loop hs hloop).2.2.1

/-! ## One step -/

/-- No other model wrote the scalars that the signal of the member is mapped to. -/
def KeptMember (m : NetworkModel) (input : StepInput) (s : ModelState m.network)
    (i : m.network.Ref) (ns : NetworkSignal) : Prop :=
  ∀ e ∈ m.srMap, e.active = true → ∀ mi ∈ m.network.items i, mi.signal = ns →
    e.signalIndex = mi.signalVectorIndex → input.scalar e.vectorIndex = s.scalar e.vectorIndex

/-- The frames that a step writes for message `i`. -/
def framesSent (trace : StepTrace m.network) (i : m.network.Ref) : List CanMessage :=
  (trace.tx.sent.filter (fun e => e.message = i)).map (·.frame)

/-- The hash tells the payload that the encode functions are handed from the one that
they leave. -/
def HashTells (trace : StepTrace m.network) (i : m.network.Ref) : Prop :=
  ∀ c ∈ trace.tx.encodeCalls, c.message = i → c.function = 0 →
    ∀ f ∈ framesSent trace i, Fnv.hash f.buffer ≠ Fnv.hash c.payload

/-- Marshalling leaves the byte of the counter as it was. -/
theorem Stages.packed_byte (g : Stages m input s s' trace) (hs : EndOfStep m s)
    (hown : OwnByte (m.network.msg i) ns p) (hstruct : (m.network.msg i).IsStruct)
    (htracks : Tracks s i ns) (hnone : NotReceived trace i) (hkept : KeptMember m input s i ns) :
    (packedBuffer trace i) ns.bufferOffset =
      (s.network.message i).buffer ns.bufferOffset := by
  obtain ⟨happlied, hsv⟩ := g.applied_untouched hs hnone
  refine hown.byte_eq (hstruct.aligned ns hown.signal) ?_
  rw [packedBuffer, g.rx_message, happlied]
  dsimp only
  by_cases hlisted : ∃ mi ∈ m.network.items i, mi.signal = ns
  · obtain ⟨mi, hmi, hns⟩ := hlisted
    have hvalue : trace.rx.state.signalVector mi.signalVectorIndex =
        s.network.signalVector mi.signalVectorIndex := by
      rw [hsv mi hmi]
      refine copyIn_of_coherent (fun e he ha hidx => ?_)
      rw [hkept e he ha mi hmi hns hidx, hs.scalar e he ha, hidx]
    have hmarshal := raw_marshalBuffer_free hown hstruct hmi hns
      trace.rx.state.signalVector (s.network.message i).buffer
    rw [hvalue, htracks mi hmi hns] at hmarshal
    subst hns
    exact hmarshal
  · exact Network.IsStruct.raw_unlisted hstruct hown.signal
      (fun mi hmi hns => hlisted ⟨mi, hmi, hns⟩) _ _

/-- A step sends nothing and keeps the byte of the counter, or raises it by one and
sends it in a payload whose sum is closed. -/
theorem Stages.counter_step (g : Stages m input s s' trace) (hs : m.system.Reachable s)
    (hfun : CounterThenCrc (m.network.msg i) inc crc p q)
    (hown : OwnByte (m.network.msg i) ns p) (hstruct : (m.network.msg i).IsStruct)
    (hnone : NotReceived trace i) (hkept : KeptMember m input s i ns)
    (htells : HashTells trace i) :
    (framesSent trace i = [] ∧ (s'.network.message i).buffer ns.bufferOffset =
        (s.network.message i).buffer ns.bufferOffset) ∨
      ∃ f, framesSent trace i = [f] ∧ f.len = (m.network.msg i).payloadLen ∧
        ByteSum.Closed f.mem f.len q.toNat ∧
        f.mem p.toNat = (s.network.message i).buffer ns.bufferOffset + 1#8 ∧
        (s'.network.message i).buffer ns.bufferOffset = f.mem p.toNat := by
  obtain ⟨out, hout, hcalls⟩ := g.encoded_calls i
  have hend := reachable_endOfStep m hs
  have hbyte := g.packed_byte hend hown hstruct (reachable_tracks hown hstruct hs) hnone hkept
  rw [framesSent, g.sent_filter, g.after_message]
  cases htx : (g.encoded.message i).needsTx with
  | false =>
    refine .inl ⟨rfl, ?_⟩
    dsimp only
    rw [(Network.encodeMessage_idle hout htx).1]
    dsimp only
    rw [(g.packed_fields i).1, hbyte]
  | true =>
    obtain ⟨st, hloop, hpayload, _, hread⟩ := Network.encodeMessage_sent hout htx
    have hconf : Configured inc crc p q (g.packed i).encodeData := by
      obtain ⟨happlied, _⟩ := g.applied_untouched hend hnone
      rw [(g.packed_fields i).2.2.1, happlied]
      exact reachable_configured hfun hs
    obtain ⟨hraised, hclosed, _, c, hc, hmsg, hzero, hhanded⟩ := hfun.loop hconf hloop
    obtain ⟨pack, hpack, hcarries⟩ := hown.packed
    have hbefore : (g.packed i).payload p.toNat =
        (s.network.message i).buffer ns.bufferOffset := by
      rw [(g.packed_fields i).2.2.2 pack hpack, hcarries, hbyte]
    have hmem : ∀ a, a < (m.network.msg i).payloadLen →
        (Network.txFrame (m.network.msg i) (g.encoded.message i)).mem a = st.payload a := by
      intro a ha
      rw [← hpayload]
      exact Memory.ofBytes_bytes _ ha
    have hlen : (Network.txFrame (m.network.msg i) (g.encoded.message i)).len =
        (m.network.msg i).payloadLen := Memory.length_bytes _ _
    refine .inr ⟨Network.txFrame (m.network.msg i) (g.encoded.message i), rfl, hlen, ?_, ?_, ?_⟩
    · rw [ByteSum.Closed, hlen, hmem _ hfun.crc_lt, hclosed]
      exact (ByteSum.others_congr (fun a ha _ => hmem a ha)).symm
    · rw [hmem _ hfun.inc_lt, hraised, hbefore]
    · have hne : simbusGenerateUidHash st.payload (m.network.msg i).payloadLen ≠
          simbusGenerateUidHash (g.packed i).payload (m.network.msg i).payloadLen := by
        have htold := htells c (hcalls c hc) hmsg hzero
        rw [framesSent, g.sent_filter, htx] at htold
        have hfirst := htold _ (List.mem_singleton_self _)
        rw [hhanded] at hfirst
        rw [← hpayload]
        exact hfirst
      obtain ⟨_, unpack, hunpack, hbuffer⟩ := hread hne
      dsimp only
      rw [hbuffer, hown.unpacked unpack hunpack, hmem _ hfun.inc_lt]

/-! ## Runs -/

/-- The conditions on a step: no frame for the message, nobody else writes its counter,
and no collision of the hash. -/
structure CounterStep (e : ModelStep m.network) (i : m.network.Ref) (ns : NetworkSignal) :
    Prop where
  notReceived : NotReceived e.output i
  kept : KeptMember m e.input e.before i ns
  tells : HashTells e.output i

/-- The frames that a run writes for message `i`, in order. -/
def runFrames (l : List (ModelStep m.network)) (i : m.network.Ref) : List CanMessage :=
  l.flatMap (fun e => framesSent e.output i)

def CountsUp (p : Byte) (f f' : CanMessage) : Prop := f'.mem p.toNat = f.mem p.toNat + 1#8

/-- A payload that differs from that of the frame in exactly one byte. -/
def OneByteOff (f : CanMessage) (payload : Memory) : Prop :=
  ∃ k, k < f.len ∧ payload k ≠ f.mem k ∧ ∀ a, a < f.len → a ≠ k → payload a = f.mem a

/-- `crc_validate` at position `q` accepts the payload of the frame, and rejects each
payload that differs from it in exactly one byte. -/
def Protected (q : Byte) (f : CanMessage) : Prop :=
  ∀ annotations data, positionOf annotations data = some q →
    (crcValidate annotations data f.mem f.len).rc = 0 ∧
      ∀ payload, OneByteOff f payload →
        (crcValidate annotations data payload f.len).rc = EBADMSG

theorem protected_of_closed {f : CanMessage} (hq : q.toNat < f.len)
    (hclosed : ByteSum.Closed f.mem f.len q.toNat) : Protected q f := by
  intro annotations data hposition
  have hlen : f.len ≠ 0 := Nat.ne_of_gt (Nat.zero_lt_of_lt hq)
  rw [crcValidate_rc hlen hposition, if_pos hclosed]
  refine ⟨rfl, ?_⟩
  rintro payload ⟨k, hk, hne, hrest⟩
  rw [crcValidate_rc hlen hposition, if_neg (hclosed.not_of_one_byte hq hk hne hrest)]

/-- The counter in the struct is that of the last frame sent. -/
theorem counter_run (hs : m.system.Reachable s)
    (hfun : CounterThenCrc (m.network.msg i) inc crc p q)
    (hown : OwnByte (m.network.msg i) ns p) (hstruct : (m.network.msg i).IsStruct)
    {l : List (ModelStep m.network)} (hrun : m.system.Run s l s') :
    (∀ e ∈ l, CounterStep e i ns) →
      (runFrames l i).IsChain (CountsUp p) ∧
        (∀ f ∈ (runFrames l i).getLast?,
          f.mem p.toNat = (s'.network.message i).buffer ns.bufferOffset) ∧
        ∀ f ∈ runFrames l i, Protected q f := by
  induction hrun with
  | nil =>
    refine fun _ => ⟨List.isChain_nil, ?_, ?_⟩
    · exact fun f hf => by cases hf
    · exact fun f hf => by cases hf
  | @snoc l s₁ s₂ input trace hrun hn ih =>
    intro hsteps
    obtain ⟨hchain, hlast, hframes⟩ := ih (fun e he => hsteps e (List.mem_append_left _ he))
    have hstep := hsteps ⟨s₁, input, trace, s₂⟩ (by simp)
    obtain ⟨g⟩ := modelStep_ok hn
    have hsplit : runFrames (l ++ [⟨s₁, input, trace, s₂⟩]) i =
        runFrames l i ++ framesSent trace i := by
      simp [runFrames]
    rw [hsplit]
    rcases g.counter_step (hrun.reachable hs) hfun hown hstruct hstep.notReceived hstep.kept
      hstep.tells with ⟨hnone, hbyte⟩ | ⟨f, hone, hlen, hclosed, hraised, hbyte⟩
    · rw [hnone, List.append_nil, hbyte]
      exact ⟨hchain, hlast, hframes⟩
    · rw [hone]
      refine ⟨?_, fun f' hf' => ?_, fun f' hf' => ?_⟩
      · refine List.isChain_append.mpr ⟨hchain, List.isChain_singleton f, fun f₀ hf₀ f' hf' => ?_⟩
        cases hf'
        rw [CountsUp, hraised, hlast f₀ hf₀]
      · rw [List.getLast?_concat] at hf'
        cases hf'
        exact hbyte.symm
      · rcases List.mem_append.mp hf' with hf' | hf'
        · exact hframes f' hf'
        · rw [List.mem_singleton.mp hf']
          exact protected_of_closed (by rw [hlen]; exact hfun.crc_lt) hclosed

/-- Over a run the counters of the frames that a message sends count up by one, and the
CRC protects each of the frames. -/
theorem rolling_counter (hs : m.system.Reachable s) {l : List (ModelStep m.network)}
    (hrun : m.system.Run s l s') (hfun : CounterThenCrc (m.network.msg i) inc crc p q)
    (hown : OwnByte (m.network.msg i) ns p) (hstruct : (m.network.msg i).IsStruct)
    (hsteps : ∀ e ∈ l, CounterStep e i ns) :
    (runFrames l i).IsChain (CountsUp p) ∧ ∀ f ∈ runFrames l i, Protected q f := by
  obtain ⟨hchain, _, hframes⟩ := counter_run hs hfun hown hstruct hrun hsteps
  exact ⟨hchain, hframes⟩

/-! ## A message of a counter, a CRC and a data byte -/

def incFunction : NetworkFunction where
  name := "counter_inc_uint8"
  annotations := [("position", "0")]
  function := some counterIncUint8

def crcFunction : NetworkFunction where
  name := "crc_generate"
  annotations := [("position", "1")]
  function := some crcGenerate

/-- The signals of the message, all of one byte and in the order of the payload. -/
def countedSignals : List NetworkSignal :=
  [byteSignal "counter" 0 (fun _ => true), byteSignal "crc" 1 (fun _ => true),
    byteSignal "data" 2 (fun _ => true)]

def countedMessage : NetworkMessage :=
  { plainMessage "M" 0x1a0#32 3 countedSignals with
    encodeFunctions := [incFunction, crcFunction] }

/-- The data byte is mapped to the SignalVector. -/
def counted : NetworkModel where
  network := .ofMessages [countedMessage] (by simp [countedMessage, plainMessage])
  svSignal := ["data"]
  netoffSignal := none
  stack := 2

def countedRef : counted.network.Ref := ⟨0, Nat.zero_lt_one⟩

def withData (data : Nat) (modelTime : ℚ) : StepInput :=
  { StepInput.ofFrames [] modelTime with scalar := fun _ => Binary64.ofNat data }

theorem countedMessage_functions :
    CounterThenCrc countedMessage incFunction crcFunction 0#8 1#8 where
  functions := rfl
  inc_function := rfl
  inc_position := by decide +kernel
  crc_function := rfl
  crc_position := by decide +kernel
  ne := by decide
  inc_lt := by decide
  crc_lt := by decide

theorem countedMessage_ownByte :
    OwnByte countedMessage (byteSignal "counter" 0 (fun _ => true)) 0#8 where
  signal := List.mem_cons_self
  size := .inl rfl
  exact := byteFuncs_encode_decode _
  unlimited := fun _ => rfl
  free := fun h => absurd h.1 Bool.false_ne_true
  packed := ⟨copyFields 3, rfl, fun _ _ => rfl⟩
  unpacked := by
    rintro unpack ⟨⟩ buffer payload
    rfl

theorem countedMessage_isStruct : countedMessage.IsStruct where
  aligned := by decide +kernel
  apart := by decide +kernel

instance (e : ModelStep m.network) (i : m.network.Ref) : Decidable (HashTells e.output i) :=
  inferInstanceAs (Decidable (∀ c ∈ e.output.tx.encodeCalls, _))

theorem counted_unmapped (input : StepInput) (s : ModelState counted.network) :
    KeptMember counted input s countedRef (byteSignal "counter" 0 (fun _ => true)) := by
  intro e he _ mi hmi hns hidx
  have hother : ∀ e ∈ counted.srMap, ∀ mi ∈ counted.network.items countedRef,
      e.signalIndex = mi.signalVectorIndex → mi.signal.signalName ≠ "counter" := by
    decide +kernel
  exact absurd (congrArg NetworkSignal.signalName hns) (hother e he mi hmi hidx)

theorem rolling_counter_counted : ∃ l : List (ModelStep counted.network),
    (runFrames l countedRef).map (·.buffer) = [[1#8, 8#8, 7#8], [2#8, 11#8, 9#8]] ∧
      (runFrames l countedRef).IsChain (CountsUp 0#8) ∧
      ∀ f ∈ runFrames l countedRef, Protected 1#8 f := by
  obtain ⟨s, hrun⟩ := counted.steps_run
    [withData 7 0, withData 7 (1 / 2000), withData 9 (1 / 1000)]
    (counted.modelCreate fun _ => ⟨0#64⟩)
  refine ⟨_, ?_, rolling_counter (.init ⟨_, rfl⟩) hrun countedMessage_functions
    countedMessage_ownByte countedMessage_isStruct (fun e he => ?_)⟩
  · decide +kernel
  · have hchecked : ∀ e ∈ counted.steps
        [withData 7 0, withData 7 (1 / 2000), withData 9 (1 / 1000)]
        (counted.modelCreate fun _ => ⟨0#64⟩),
        NotReceived e.output countedRef ∧ HashTells e.output countedRef := by decide +kernel
    exact ⟨(hchecked e he).1, counted_unmapped _ _, (hchecked e he).2⟩

end NetworkModel
end DseNetwork
