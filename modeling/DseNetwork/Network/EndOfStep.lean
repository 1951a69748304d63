import DseNetwork.Network.Library

/-
What holds whenever control is outside the model: after `model_create` and after every
`model_step`.
-/

namespace DseNetwork
namespace NetworkModel

/-- No transmission and no update is pending, the checksum of an event message is that
of its buffer, and the SignalVector shows the signals mapped to it. -/
structure EndOfStep (m : NetworkModel) (s : ModelState m.network) : Prop where
  flags : ∀ i, (s.network.message i).needsTx = false ∧
    (s.network.message i).updateSignals = false
  checksum : ∀ i, (m.network.msg i).cycleTimeMs = 0 → (m.network.msg i).packFunc.isSome →
    (s.network.message i).bufferChecksum =
      simbusGenerateUidHash (s.network.message i).buffer (m.network.msg i).bufferLen
  scalar : ∀ e ∈ m.srMap, e.active = true →
    s.scalar e.vectorIndex = s.network.signalVector e.signalIndex

variable {m : NetworkModel} {input : StepInput} {s s' : ModelState m.network}
  {trace : StepTrace m.network}

theorem modelCreate_message (m : NetworkModel) (scalar : Nat → Double) (i : m.network.Ref) :
    (m.modelCreate scalar).network.message i =
      { Network.packMessage (m.network.msg i)
          { MessageState.initial with
            buffer := m.network.marshalBuffer m.initialSignalVector i Memory.zero } with
        needsTx := false } := by
  rw [modelCreate]
  dsimp only [NetworkState.mapMessages]
  rw [Network.packMessages_message, Network.marshalSignalsToMessages_message]
  rfl

@[simp] theorem modelCreate_signalVector (m : NetworkModel) (scalar : Nat → Double) :
    (m.modelCreate scalar).network.signalVector = m.initialSignalVector := by
  rw [modelCreate]
  dsimp only [NetworkState.mapMessages]
  rw [Network.packMessages_signalVector, Network.marshalSignalsToMessages_signalVector]
  rfl

theorem modelCreate_endOfStep (m : NetworkModel) (scalar : Nat → Double) :
    EndOfStep m (m.modelCreate scalar) where
  flags i := by
    rw [modelCreate_message]
    exact ⟨rfl, Network.packMessage_updateSignals _ _⟩
  checksum i hevent hpack := by
    rw [modelCreate_message]
    show (Network.packMessage _ _).bufferChecksum =
      simbusGenerateUidHash (Network.packMessage _ _).buffer _
    rw [(Network.packMessage_event hpack hevent _).1, Network.packMessage_buffer]
  scalar e he ha := by
    rw [modelCreate_signalVector]
    exact copyOut_active he ha _ _

/-- `network_pack_messages` and `network_function_apply_encode` both leave an event
message with the checksum of its buffer. -/
theorem Stages.encoded_checksum (g : Stages m input s s' trace) {i : m.network.Ref}
    (hevent : (m.network.msg i).cycleTimeMs = 0)
    (hpack : (m.network.msg i).packFunc.isSome) :
    (g.encoded.message i).bufferChecksum =
      simbusGenerateUidHash (g.encoded.message i).buffer (m.network.msg i).bufferLen := by
  obtain ⟨out, hout⟩ := g.encoded_message i
  rcases (Network.encodeMessage_ok hout).2 with ⟨hb, hc, _⟩ | ⟨_, _, hc⟩
  · rw [hb, hc, Stages.packed, Network.packMessage_buffer]
    exact (Network.packMessage_event hpack hevent _).1
  · exact hc

theorem modelStep_endOfStep (h : m.modelStep input s = .ok (s', trace)) : EndOfStep m s' := by
  obtain ⟨g⟩ := modelStep_ok h
  refine ⟨fun i => ?_, fun i hevent hpack => ?_, fun e he ha => ?_⟩
  · rw [g.after_message]
    exact ⟨rfl, rfl⟩
  · rw [g.after_message]
    exact g.encoded_checksum hevent hpack
  · rw [g.scalar]
    exact copyOut_active he ha _ _

/-- The end-of-step invariant holds in every reachable state. -/
theorem reachable_endOfStep (m : NetworkModel) {s : ModelState m.network}
    (h : m.system.Reachable s) : EndOfStep m s := by
  refine h.invariant (P := EndOfStep m) ?_ ?_
  · rintro _ ⟨scalar, rfl⟩
    exact modelCreate_endOfStep m scalar
  · intro s input trace s' _ _ hn
    exact modelStep_endOfStep hn

def oneByte : NetworkModel :=
  .alone (.ofMessages [plainMessage "M" 0x1a0#32 1 [byteSignal "s" 0 (fun _ => true)]]
    (by simp [plainMessage]))

theorem reachable_endOfStep_oneByte :
    ∃ s, oneByte.system.Reachable s ∧ s.network.signalVector 0 = Binary64.ofNat 3 ∧
      EndOfStep oneByte s := by
  obtain ⟨s, hrun, e, he, hvalue⟩ := oneByte.steps_check
    [.ofFrames [⟨0x1a0#32, 0#8, [3#8]⟩] 0] (oneByte.modelCreate fun _ => ⟨0#64⟩)
    (fun e => e.after.network.signalVector 0 = Binary64.ofNat 3) (by decide +kernel)
  have hinit : oneByte.system.Reachable (oneByte.modelCreate fun _ => ⟨0#64⟩) :=
    .init ⟨_, rfl⟩
  obtain ⟨hreach, hstep⟩ := hrun.step_mem hinit he
  have hafter : oneByte.system.Reachable e.after := hreach.next hstep
  exact ⟨e.after, hafter, hvalue, reachable_endOfStep oneByte hafter⟩

/-! ## What a step writes -/

def writes (trace : StepTrace m.network) (i : m.network.Ref) : Nat :=
  (trace.tx.sent.filter (fun e => e.message = i)).length

/-- A message is written once when it is to be sent after the encode functions, which
takes a packed message that is to be sent and a network that is on. -/
theorem Stages.writes_eq (g : Stages m input s s' trace) (i : m.network.Ref) :
    writes trace i = if (g.packed i).needsTx && !m.netOff input.scalar then 1 else 0 := by
  obtain ⟨out, hout⟩ := g.encoded_message i
  rw [writes, g.sent_filter, (Network.encodeMessage_ok hout).1]
  split <;> rfl

theorem Stages.rx_needsTx (g : Stages m input s s' trace) (i : m.network.Ref) :
    (trace.rx.state.message i).needsTx = (s.network.message i).needsTx := by
  obtain ⟨out, hout⟩ := g.applied_message i
  rw [g.rx_message]
  exact (Network.decodeMessage_fields hout).2.2.trans
    (Network.decodeFromBus_keepsTx g.decode i).2.1

end NetworkModel
end DseNetwork
