import DseNetwork.Network.EndOfStep

/-
Transmission of cyclic messages.

An alarm resets the checksum of its message to zero to have packing find it changed.
The one struct whose hash is zero is then found unchanged, and packing withdraws the
transmission.
-/

namespace DseNetwork
namespace NetworkModel

variable {m : NetworkModel} {input : StepInput} {s s' : ModelState m.network}
  {trace : StepTrace m.network}

def alarmFired (trace : StepTrace m.network) (i : m.network.Ref) : Prop :=
  m.network.AlarmFired trace.ticks trace.rx.state i

/-- Message `i` is written once if its alarm fired, and not at all if it did not. -/
def WrittenByAlarm (trace : StepTrace m.network) (i : m.network.Ref) : Prop :=
  (alarmFired trace i → writes trace i = 1) ∧ (¬ alarmFired trace i → writes trace i = 0)

instance (trace : StepTrace m.network) (i : m.network.Ref) : Decidable (alarmFired trace i) :=
  inferInstanceAs (Decidable (m.network.AlarmFired _ _ _))

/-- The struct buffer of message `i` as packing finds it. -/
def packedBuffer (trace : StepTrace m.network) (i : m.network.Ref) : Memory :=
  m.network.marshalBuffer trace.rx.state.signalVector i (trace.rx.state.message i).buffer

/-- Every message, event or cyclic, goes to the encode functions with the struct that
packing found. -/
theorem Stages.packed_fields (g : Stages m input s s' trace) (i : m.network.Ref) :
    (g.packed i).buffer = packedBuffer trace i ∧ (g.packed i).updateSignals = false ∧
      (g.packed i).encodeData = (g.applied.message i).encodeData ∧
      ∀ pack, (m.network.msg i).packFunc = some pack → (g.packed i).payload =
        (pack (g.applied.message i).payload (packedBuffer trace i)
          (m.network.msg i).payloadLen).dst := by
  obtain ⟨_, _, htick⟩ := Network.scheduleTicks_message trace.ticks trace.rx.state i
  obtain ⟨_, _, _, hpacked, hpayload⟩ := Network.packMessage_fields (m.network.msg i)
    { g.ticked.message i with
      buffer := m.network.marshalBuffer trace.rx.state.signalVector i
        (g.ticked.message i).buffer }
  rw [← g.tick] at htick
  rw [htick, g.rx_message] at hpayload
  rw [Stages.packed, hpacked, htick, g.rx_message, packedBuffer, g.rx_message]
  exact ⟨rfl, rfl, rfl, hpayload⟩

/-- A cyclic message is to be sent after packing when its alarm fired and the hash of
its struct is not the zero that the alarm left for a checksum. -/
theorem Stages.packed_cyclic (g : Stages m input s s' trace) (hs : EndOfStep m s)
    {i : m.network.Ref} (hcyclic : (m.network.msg i).cycleTimeMs ≠ 0)
    (hpack : (m.network.msg i).packFunc.isSome) :
    (g.packed i).needsTx = true ↔ alarmFired trace i ∧
      simbusGenerateUidHash (packedBuffer trace i) (m.network.msg i).bufferLen ≠ 0#32 := by
  have hidle : (trace.rx.state.message i).needsTx = false :=
    (g.rx_needsTx i).trans (hs.flags i).1
  obtain ⟨hfired, hquiet⟩ := Network.scheduleTicks_cyclic hcyclic trace.ticks trace.rx.state
  rw [← g.tick] at hfired hquiet
  rw [Stages.packed, (Network.packMessage_cyclic hpack hcyclic _).2]
  by_cases hfire : alarmFired trace i
  · rw [hfired hfire]
    simp only [Bool.true_and, decide_eq_true_eq]
    exact ⟨fun hne => ⟨hfire, hne⟩, fun h => h.2⟩
  · rw [hquiet hfire, hidle]
    simp [hfire]

/-- In every step of a run, a cyclic message is written once for its alarm and not at
all without it, exactly if it is not a struct of hash zero that the alarm finds. -/
theorem writtenByAlarm_iff {s₀ sₙ : ModelState m.network} {l : List (ModelStep m.network)}
    (h0 : m.system.init s₀) (hrun : m.system.Run s₀ l sₙ) {e : ModelStep m.network}
    (he : e ∈ l) (hon : m.netOff e.input.scalar = false) {i : m.network.Ref}
    (hcyclic : (m.network.msg i).cycleTimeMs ≠ 0)
    (hpack : (m.network.msg i).packFunc.isSome) :
    WrittenByAlarm e.output i ↔
      ¬ (alarmFired e.output i ∧
        simbusGenerateUidHash (packedBuffer e.output i) (m.network.msg i).bufferLen = 0#32) := by
  obtain ⟨hreach, hstep⟩ := hrun.step_mem (.init h0) he
  obtain ⟨g⟩ := modelStep_ok hstep
  have hpacked := g.packed_cyclic (reachable_endOfStep m hreach) hcyclic hpack
  rw [WrittenByAlarm, g.writes_eq, hon]
  by_cases hfire : alarmFired e.output i
  · by_cases hzero :
        simbusGenerateUidHash (packedBuffer e.output i) (m.network.msg i).bufferLen = 0#32
    · have hno : (g.packed i).needsTx = false := by
        rw [Bool.eq_false_iff]
        exact fun htx => (hpacked.mp htx).2 hzero
      simp [hfire, hzero, hno]
    · have hyes : (g.packed i).needsTx = true := hpacked.mpr ⟨hfire, hzero⟩
      simp [hfire, hzero, hyes]
  · have hno : (g.packed i).needsTx = false := by
      rw [Bool.eq_false_iff]
      exact fun htx => hfire (hpacked.mp htx).1
    simp [hfire, hno]

def everyMilli (initValue : Nat) : NetworkModel :=
  .alone (.ofMessages [{ plainMessage "M" 0x1a0#32 4 [wordSignal "s" 0 initValue] with
    cycleTimeMs := 1 }] (by simp [plainMessage]))

def everyMilliMessage (initValue : Nat) : (everyMilli initValue).network.Ref :=
  ⟨0, Nat.zero_lt_one⟩

def firstMilli (initValue : Nat) : List (ModelStep (everyMilli initValue).network) :=
  (everyMilli initValue).steps [.ofFrames [] 0, .ofFrames [] (1 / 1000)]
    ((everyMilli initValue).modelCreate fun _ => ⟨0#64⟩)

theorem writtenByAlarm_everyMilli : ∃ e ∈ firstMilli 7,
    alarmFired e.output (everyMilliMessage 7) ∧ writes e.output (everyMilliMessage 7) = 1 := by
  obtain ⟨s, hrun, e, he, hfire, hhash⟩ := (everyMilli 7).steps_check
    [.ofFrames [] 0, .ofFrames [] (1 / 1000)] ((everyMilli 7).modelCreate fun _ => ⟨0#64⟩)
    (fun e => alarmFired e.output (everyMilliMessage 7) ∧
      simbusGenerateUidHash (packedBuffer e.output (everyMilliMessage 7)) 4 ≠ 0#32)
    (by decide +kernel)
  have hiff := writtenByAlarm_iff (l := firstMilli 7) (i := everyMilliMessage 7) ⟨_, rfl⟩ hrun he
    rfl (by decide +kernel) (by decide +kernel)
  exact ⟨e, he, hfire, (hiff.mpr (fun hz => hhash hz.2)).1 hfire⟩

/-- A field that encodes to the bytes `cc 24 31 c4` is never sent. -/
theorem not_writtenByAlarm : ¬ ∀ (m : NetworkModel) (s₀ sₙ : ModelState m.network)
    (l : List (ModelStep m.network)), m.system.init s₀ → m.system.Run s₀ l sₙ →
    (∀ e ∈ l, m.netOff e.input.scalar = false) →
    ∀ e ∈ l, ∀ i, (m.network.msg i).cycleTimeMs ≠ 0 → (m.network.msg i).packFunc.isSome →
      WrittenByAlarm e.output i := by
  intro h
  obtain ⟨s, hrun, e, he, hfire, hnone⟩ := (everyMilli 0xc43124cc).steps_check
    [.ofFrames [] 0, .ofFrames [] (1 / 1000)]
    ((everyMilli 0xc43124cc).modelCreate fun _ => ⟨0#64⟩)
    (fun e => alarmFired e.output (everyMilliMessage 0xc43124cc) ∧
      writes e.output (everyMilliMessage 0xc43124cc) = 0) (by decide +kernel)
  have hone := (h (everyMilli 0xc43124cc) _ s (firstMilli 0xc43124cc) ⟨_, rfl⟩ hrun
    (fun _ _ => rfl) e he (everyMilliMessage 0xc43124cc) (by decide +kernel)
    (by decide +kernel)).1 hfire
  rw [hnone] at hone
  exact absurd hone (by decide)

end NetworkModel
end DseNetwork
