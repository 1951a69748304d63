import DseNetwork.Network.Cyclic
import DseNetwork.Network.Reception

/-
Changes of the signals of an event message.

A step finds a changed struct by its checksum, against the checksum of the struct that
the step before left.  A change that the checksum does not show is not sent: one beyond
`buffer_len`, and one to a struct of equal hash.
-/

namespace DseNetwork
namespace NetworkModel

variable {m : NetworkModel} {input : StepInput} {s s' : ModelState m.network}
  {trace : StepTrace m.network} {i : m.network.Ref}

/-- The struct that packing finds has another checksum than the one the last step left. -/
def ChecksumDiffers (before : ModelState m.network) (trace : StepTrace m.network)
    (i : m.network.Ref) : Prop :=
  simbusGenerateUidHash (packedBuffer trace i) (m.network.msg i).bufferLen ≠
    simbusGenerateUidHash (before.network.message i).buffer (m.network.msg i).bufferLen

instance (before : ModelState m.network) (trace : StepTrace m.network) (i : m.network.Ref) :
    Decidable (ChecksumDiffers before trace i) :=
  inferInstanceAs (Decidable (_ ≠ _))

theorem Stages.packed_local (g : Stages m input s s' trace) (hs : EndOfStep m s)
    (hevent : (m.network.msg i).cycleTimeMs = 0) (hpack : (m.network.msg i).packFunc.isSome)
    (hnone : NotReceived trace i) :
    (g.packed i).needsTx = true ↔ ChecksumDiffers s trace i := by
  have hticked : g.ticked.message i = trace.rx.state.message i := by
    rw [g.tick, Network.scheduleTicks_event hevent]
  have hsum : (trace.rx.state.message i).bufferChecksum =
      simbusGenerateUidHash (s.network.message i).buffer (m.network.msg i).bufferLen := by
    rw [g.rx_message, (g.applied_untouched hs hnone).1]
    exact hs.checksum i hevent hpack
  rw [Stages.packed, (Network.packMessage_event hpack hevent _).2, hticked]
  dsimp only
  rw [hsum]
  exact Iff.rfl

/-- Some byte of a signal of message `i` is another after marshalling than at the end of
the step before. -/
def LocalChange (before : ModelState m.network) (trace : StepTrace m.network)
    (i : m.network.Ref) : Prop :=
  ∃ ns ∈ (m.network.msg i).signals, ∃ k, k < ns.memberType.size ∧
    packedBuffer trace i (ns.bufferOffset + k) ≠
      (before.network.message i).buffer (ns.bufferOffset + k)

instance (before : ModelState m.network) (trace : StepTrace m.network) (i : m.network.Ref) :
    Decidable (LocalChange before trace i) :=
  inferInstanceAs (Decidable (∃ ns ∈ (m.network.msg i).signals, ∃ k, k < _ ∧ _))

/-- A step with the network on and no frame for an event message writes the message
exactly when its checksum shows a change, and so for every local change but those that
leave the checksum as it is. -/
theorem local_change_written {s₀ sₙ : ModelState m.network} {l : List (ModelStep m.network)}
    (h0 : m.system.init s₀) (hrun : m.system.Run s₀ l sₙ) {e : ModelStep m.network}
    (he : e ∈ l) (hon : m.netOff e.input.scalar = false)
    (hevent : (m.network.msg i).cycleTimeMs = 0) (hpack : (m.network.msg i).packFunc.isSome)
    (hnone : NotReceived e.output i) :
    writes e.output i = if ChecksumDiffers e.before e.output i then 1 else 0 := by
  obtain ⟨hreach, hstep⟩ := hrun.step_mem (.init h0) he
  obtain ⟨g⟩ := modelStep_ok hstep
  have hpacked := g.packed_local (reachable_endOfStep m hreach) hevent hpack hnone
  rw [g.writes_eq, hon]
  by_cases hsum : ChecksumDiffers e.before e.output i
  · rw [if_pos hsum, hpacked.mpr hsum]
    rfl
  · have hidle : (g.packed i).needsTx = false :=
      Bool.eq_false_iff.mpr (fun htx => hsum (hpacked.mp htx))
    rw [if_neg hsum, hidle]
    rfl

/-! ## A word that changes -/

/-- One field of four bytes, mapped to the SignalVector. -/
def mappedWord : NetworkModel where
  network := .ofMessages [plainMessage "M" 0x1a0#32 4 [wordSignal "s" 0 0x382bb32]]
    (by simp [plainMessage])
  svSignal := ["s"]
  netoffSignal := none
  stack := 2

def mappedWordMessage : mappedWord.network.Ref := ⟨0, Nat.zero_lt_one⟩

def toWord (value : Nat) : List StepInput :=
  [{ StepInput.ofFrames [] 0 with scalar := fun _ => Binary64.ofNat value }]

theorem local_change_written_word :
    ∃ l : List (ModelStep mappedWord.network), ∃ e ∈ l,
      LocalChange e.before e.output mappedWordMessage ∧
        writes e.output mappedWordMessage = 1 := by
  obtain ⟨s, hrun, e, he, hchange, hsum, hnone⟩ := mappedWord.steps_check (toWord 7)
    (mappedWord.modelCreate fun _ => ⟨0#64⟩)
    (fun e => LocalChange e.before e.output mappedWordMessage ∧
      ChecksumDiffers e.before e.output mappedWordMessage ∧
      NotReceived e.output mappedWordMessage) (by decide +kernel)
  exact ⟨_, e, he, hchange,
    (local_change_written ⟨_, rfl⟩ hrun he rfl rfl rfl hnone).trans (if_pos hsum)⟩

/-- The bytes `32 bb 82 03` and `60 0a 2b f7` have the same hash. -/
theorem not_local_change_written : ¬ ∀ (m : NetworkModel) (s₀ sₙ : ModelState m.network)
    (l : List (ModelStep m.network)), m.system.init s₀ → m.system.Run s₀ l sₙ →
    ∀ e ∈ l, m.netOff e.input.scalar = false → ∀ i, (m.network.msg i).cycleTimeMs = 0 →
    (m.network.msg i).packFunc.isSome → NotReceived e.output i →
    LocalChange e.before e.output i → writes e.output i = 1 := by
  intro h
  obtain ⟨s, hrun, e, he, hchange, hnone, hlost⟩ := mappedWord.steps_check (toWord 0xf72b0a60)
    (mappedWord.modelCreate fun _ => ⟨0#64⟩)
    (fun e => LocalChange e.before e.output mappedWordMessage ∧
      NotReceived e.output mappedWordMessage ∧ writes e.output mappedWordMessage = 0)
    (by decide +kernel)
  have hone := h mappedWord _ s _ ⟨_, rfl⟩ hrun e he rfl mappedWordMessage rfl rfl hnone hchange
  rw [hlost] at hone
  exact absurd hone (by decide)

end NetworkModel
end DseNetwork
