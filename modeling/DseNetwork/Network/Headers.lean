import DseNetwork.Network.StructLayout
import DseNetwork.Network.Cyclic
import DseNetwork.Network.MarshalComplete

/-
The headers of contained messages.

A contained message has its header as internal signals of constant value.  Reception,
decoding and the update after encode functions all write the struct too, but packing
comes after a marshalling, which stores the constant.
-/

namespace DseNetwork
namespace NetworkModel

variable {m : NetworkModel} {input : StepInput} {s s' : ModelState m.network}
  {trace : StepTrace m.network} {i : m.network.Ref}

/-- A frame written for message `i` is packed from the struct of the step, and in that
struct the member `ns` holds its constant. -/
def CarriesConstant (trace : StepTrace m.network) (i : m.network.Ref)
    (ns : NetworkSignal) : Prop :=
  ∀ sent ∈ trace.tx.sent, sent.message = i →
    ∀ pack, (m.network.msg i).packFunc = some pack →
      (∃ payload : Memory, sent.frame.buffer = (pack payload (packedBuffer trace i)
        (m.network.msg i).payloadLen).dst.bytes (m.network.msg i).payloadLen) ∧
      ns.raw (packedBuffer trace i) = ns.funcs.encode ns.value

/-- The member types of an unsigned integer. -/
def UnsignedType (t : MemberType) : Prop :=
  t = .uint8 ∨ t = .uint16 ∨ t = .uint32 ∨ t = .uint64

theorem UnsignedType.encodeRaw {ns : NetworkSignal} (h : UnsignedType ns.memberType)
    (v : Double) : ns.memberType ≠ .unknown ∧ ns.encodeRaw v = ns.funcs.encode v := by
  have hne : ns.memberType ≠ .unknown ∧ ns.memberType ≠ .int64 := by
    rcases h with h | h | h | h <;> rw [h] <;> decide
  exact ⟨hne.1, NetworkSignal.encodeRaw_eq hne.2 v⟩

/-- Marshalling leaves the constant of an internal member in every struct buffer of a
contained message. -/
theorem packedBuffer_constant {ns : NetworkSignal}
    (hcontained : (m.network.msg i).container.isSome)
    (hstruct : (m.network.msg i).IsStruct) (hinternal : ns.internal = true)
    (htype : UnsignedType ns.memberType)
    (hrange : ns.funcs.isInRange (ns.funcs.encode ns.value) = true)
    (hlisted : m.network.Listed i ns) (trace : StepTrace m.network) :
    ns.raw (packedBuffer trace i) = ns.funcs.encode ns.value := by
  obtain ⟨mi, hmi, rfl⟩ := Network.listed_iff.mp hlisted
  obtain ⟨hknown, hencode⟩ := htype.encodeRaw mi.signal.value
  have hmsg : mi.message = i := (Network.mem_items.mp hmi).2
  have hvalue : ∀ sv, m.network.signalValue sv mi = mi.signal.value := fun sv => by
    rw [Network.signalValue, if_pos ⟨hinternal, by rwa [hmsg]⟩]
  rw [packedBuffer, Network.IsStruct.raw_marshalled hstruct hmi hknown, hvalue,
    NetworkSignal.raw_writeRaw hknown, hencode, if_pos hrange]

/-- Without encode functions the payload that is written is the one that was packed. -/
theorem Stages.sent_packed (g : Stages m input s s' trace)
    (hnil : (m.network.msg i).encodeFunctions = []) {sent : m.network.Sent}
    (hsent : sent ∈ trace.tx.sent) (hmsg : sent.message = i) {pack : PackFunc}
    (hpack : (m.network.msg i).packFunc = some pack) :
    sent.frame.buffer = (pack (g.applied.message i).payload (packedBuffer trace i)
      (m.network.msg i).payloadLen).dst.bytes (m.network.msg i).payloadLen := by
  obtain ⟨out, hout⟩ := g.encoded_message i
  rw [Network.encodeMessage_of_nil hnil] at hout
  have hst := (Prod.mk.inj (Except.ok.inj hout)).1
  have hmem : sent ∈ trace.tx.sent.filter (fun e => e.message = i) :=
    List.mem_filter.mpr ⟨hsent, decide_eq_true hmsg⟩
  rw [g.sent_filter] at hmem
  split at hmem
  · rw [List.mem_singleton.mp hmem, ← (g.packed_fields i).2.2.2 pack hpack, ← hst]
    rfl
  · cases hmem

/-- In every step of a run, a frame of a contained message carries the constants of the
internal members that the loader reaches. -/
theorem header_carried {s₀ sₙ : ModelState m.network} {l : List (ModelStep m.network)}
    (h0 : m.system.init s₀) (hrun : m.system.Run s₀ l sₙ) {e : ModelStep m.network}
    (he : e ∈ l) (hcontained : (m.network.msg i).container.isSome)
    (hnil : (m.network.msg i).encodeFunctions = []) (hstruct : (m.network.msg i).IsStruct)
    {ns : NetworkSignal} (hinternal : ns.internal = true) (htype : UnsignedType ns.memberType)
    (hrange : ns.funcs.isInRange (ns.funcs.encode ns.value) = true)
    (hlisted : m.network.Listed i ns) : CarriesConstant e.output i ns := by
  obtain ⟨_, hstep⟩ := hrun.step_mem (.init h0) he
  obtain ⟨g⟩ := modelStep_ok hstep
  intro sent hsent hmsg pack hpack
  exact ⟨⟨_, g.sent_packed hnil hsent hmsg hpack⟩,
    packedBuffer_constant hcontained hstruct hinternal htype hrange hlisted e.output⟩

/-! ## Headers on the marshal list, and headers that are not -/

def headerSignal (name : String) (bufferOffset value : Nat) : NetworkSignal :=
  { byteSignal name bufferOffset (fun _ => true) with
    internal := true
    value := Binary64.ofNat value }

def headerId : NetworkSignal := headerSignal "header_id" 0 5

def headerDlc : NetworkSignal := headerSignal "header_dlc" 1 1

/-- A contained message, sent every millisecond, of its headers and a byte. -/
def containedMessage : NetworkMessage :=
  { plainMessage "k_0x5" 0x1a0#32 3 [headerId, headerDlc, byteSignal "s" 2 (fun _ => true)] with
    container := some "k"
    muxId := 5#32
    cycleTimeMs := 1 }

def containerMessage : NetworkMessage :=
  plainMessage "k" 0x1a0#32 3
    [{ byteSignal "header_id" 0 (fun _ => true) with muxSignal := true },
      byteSignal "header_dlc" 1 (fun _ => true)]

def containedPair : NetworkModel :=
  .alone (.ofMessages [containerMessage, containedMessage] (by
    simp [containerMessage, containedMessage, plainMessage]))

/-- The container has no `struct_size`, and the loader passes over the message after it. -/
def containedSkipped : NetworkModel :=
  .alone {
    messages := [{ containerMessage with signals := [], bufferLen := 0, payloadLen := 0 },
      containedMessage]
    marshalList := []
    loaded := ⟨[], rfl, rfl⟩ }

theorem containedMessage_isStruct : containedMessage.IsStruct where
  aligned := by decide +kernel
  apart := by decide +kernel

def pairMessage : containedPair.network.Ref := ⟨1, Nat.one_lt_two⟩

def skippedMessage : containedSkipped.network.Ref := ⟨1, Nat.one_lt_two⟩

/-- A frame with a header of another length comes first, and in the frame that is written
the length is that of the message again. -/
theorem header_carried_pair : ∃ l : List (ModelStep containedPair.network), ∃ e ∈ l,
    (e.output.rx.state.message pairMessage).buffer.bytes 3 = [5#8, 3#8, 7#8] ∧
      e.output.tx.sent.map (·.frame.buffer) = [[5#8, 1#8, 7#8]] ∧
      CarriesConstant e.output pairMessage headerDlc := by
  obtain ⟨s, hrun, e, he, hreceived, hsent⟩ := containedPair.steps_check
    [.ofFrames [] 0, .ofFrames [⟨0x1a0#32, 0#8, [5#8, 3#8, 7#8]⟩] (1 / 1000)]
    (containedPair.modelCreate fun _ => ⟨0#64⟩)
    (fun e => (e.output.rx.state.message pairMessage).buffer.bytes 3 = [5#8, 3#8, 7#8] ∧
      e.output.tx.sent.map (·.frame.buffer) = [[5#8, 1#8, 7#8]]) (by decide +kernel)
  have hlisted : containedPair.network.Listed pairMessage headerDlc :=
    ⟨.inr (.inl ⟨rfl, Even.zero⟩), List.mem_cons_of_mem _ List.mem_cons_self⟩
  exact ⟨_, e, he, hreceived, hsent, header_carried (i := pairMessage) ⟨_, rfl⟩ hrun he rfl rfl
    containedMessage_isStruct rfl (.inl rfl) rfl hlisted⟩

/-- The loader passes over a contained message, and its frame has no header. -/
theorem not_header_carried : ¬ ∀ (m : NetworkModel) (s₀ sₙ : ModelState m.network)
    (l : List (ModelStep m.network)), m.system.init s₀ → m.system.Run s₀ l sₙ →
    ∀ e ∈ l, ∀ i, (m.network.msg i).container.isSome →
    (m.network.msg i).encodeFunctions = [] → (m.network.msg i).IsStruct →
    ∀ ns ∈ (m.network.msg i).signals, ns.internal = true → UnsignedType ns.memberType →
    ns.funcs.isInRange (ns.funcs.encode ns.value) = true → CarriesConstant e.output i ns := by
  intro h
  obtain ⟨s, hrun, e, he, ⟨sent, hsent, hmsg⟩, hraw⟩ := containedSkipped.steps_check
    [.ofFrames [] 0, .ofFrames [] (1 / 1000)] (containedSkipped.modelCreate fun _ => ⟨0#64⟩)
    (fun e => (∃ sent ∈ e.output.tx.sent, sent.message = skippedMessage) ∧
      headerId.raw (packedBuffer e.output skippedMessage) ≠ headerId.funcs.encode headerId.value)
    (by decide +kernel)
  exact hraw (h containedSkipped _ s _ ⟨_, rfl⟩ hrun e he skippedMessage rfl rfl
    containedMessage_isStruct headerId List.mem_cons_self rfl (.inl rfl) rfl
    sent hsent hmsg _ rfl).2

end NetworkModel
end DseNetwork
