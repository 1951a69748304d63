import DseNetwork.Network.Steady
import DseNetwork.Network.RoundTrip

/-
Frames that are not answered.

A received struct stays unsent when packing finds it as reception left it.  Each field
decides: one that was read into its signal marshals back, one that was not, being out of
range, or in a frame filtered or rejected, is overwritten with the value of old.
-/

namespace DseNetwork
namespace NetworkModel

variable {m : NetworkModel} {input : StepInput} {s s' : ModelState m.network}
  {trace : StepTrace m.network} {i : m.network.Ref} {pre post : List CanMessage}
  {f : CanMessage}

/-- Every field of the last accepted frame of message `i` marshals back to what it is:
fields that were read, by the update or for the mux signal, and fields that were not. -/
def EchoFree (m : NetworkModel) (input : StepInput) (s : ModelState m.network)
    (i : m.network.Ref) (frames : List CanMessage) : Prop :=
  ∀ pre f post,
    Network.LastAccepted (m.network.msg i) (s.network.message i) frames pre f post →
    ∀ mi ∈ m.network.items i,
      m.network.SettlesIn mi (m.updatedBy s i pre f = true ∨ m.network.IsMux mi)
        (m.decodedValue input s mi frames) (m.frameStruct s i pre f)

theorem Stages.not_echoed (g : Stages m input s s' trace) (hs : EndOfStep m s)
    (hagrees : Agrees s i) (hlib : m.network.LibraryRoundTrips)
    (hkeep : Network.RefusalKeeps (m.network.msg i))
    (hevent : (m.network.msg i).cycleTimeMs = 0) (hquiet : QuietScalars m input s)
    (honce : Network.Once i trace.rx.received)
    (hecho : EchoFree m input s i (Network.framesOf i trace.rx.received)) :
    (g.packed i).needsTx = false := by
  rcases Network.lastAccepted_or_refused hkeep (s.network.message i)
    (Network.framesOf i trace.rx.received) with hrefused | ⟨pre, f, post, hlast⟩
  · obtain ⟨happlied, hsv⟩ := g.applied_refused hs hkeep honce hrefused
    refine g.not_sent hs hevent ?_ (fun hpack => ?_)
    · rw [happlied]
      refine (Network.marshalBuffer_congr (fun mi hmi => ?_) _).trans hagrees
      rw [hsv mi hmi, copyIn_kept hs (hquiet.kept i) hmi]
    · rw [happlied]
      exact hs.checksum i hevent hpack
  · obtain ⟨hbuffer, hsum, _⟩ := g.applied_received hkeep honce hlast
    refine g.not_sent hs hevent ?_ (fun _ => by rw [hsum, hbuffer])
    rw [hbuffer]
    refine Network.marshalBuffer_of_settled (fun mi hmi => ?_)
    obtain ⟨hread, hkept⟩ := g.rx_value_received hkeep honce hlast hmi
    exact Network.settled_of_settlesIn hlib (Network.mem_items.mp hmi).1
      (hecho pre f post hlast mi hmi) hread hkept

/-- In every step of a run in which no other model changes a scalar, an event message
without encode functions is not written if the fields of its last accepted frame all
marshal back. -/
theorem no_echo {s₀ sₙ : ModelState m.network} {l : List (ModelStep m.network)}
    (h0 : m.system.init s₀) (hrun : m.system.Run s₀ l sₙ)
    (hlib : m.network.LibraryRoundTrips) (hkeep : Network.RefusalKeeps (m.network.msg i))
    (hevent : (m.network.msg i).cycleTimeMs = 0)
    (hnil : (m.network.msg i).encodeFunctions = []) {e : ModelStep m.network} (he : e ∈ l)
    (hagain : ∀ j, Network.UnpacksAgain (m.network.msg j))
    (hquiet : QuietScalars m e.input e.before)
    (hecho : EchoFree m e.input e.before i (Network.framesOf i e.output.rx.received)) :
    writes e.output i = 0 := by
  obtain ⟨hreach, hstep⟩ := hrun.step_mem (.init h0) he
  obtain ⟨g⟩ := modelStep_ok hstep
  rw [g.writes_eq, g.not_echoed (reachable_endOfStep m hreach)
    (reachable_agrees hevent hnil hreach) hlib hkeep hevent hquiet
    (g.once hagain i) hecho]
  rfl

/-! ## A field with a range -/

def rangedByte : NetworkModel :=
  .alone (.ofMessages [plainMessage "M" 0x1a0#32 1
    [byteSignal "s" 0 (fun r => decide (r.toNat < 100))]] (by simp [plainMessage]))

def rangedByteMessage : rangedByte.network.Ref := ⟨0, Nat.zero_lt_one⟩

theorem rangedByte_msg (i : rangedByte.network.Ref) : rangedByte.network.msg i =
    plainMessage "M" 0x1a0#32 1 [byteSignal "s" 0 (fun r => decide (r.toNat < 100))] :=
  List.mem_singleton.mp (List.getElem_mem _)

theorem rangedByte_libraryRoundTrips : rangedByte.network.LibraryRoundTrips :=
  Network.libraryRoundTrips_of_signals (by
    simpa [rangedByte, NetworkModel.alone, Network.ofMessages, plainMessage] using
      byteSignal_encode_decode "s" 0 _)

theorem rangedByte_refusalKeeps (i : rangedByte.network.Ref) :
    Network.RefusalKeeps (rangedByte.network.msg i) :=
  Network.refusalKeeps_copyFields (by rw [rangedByte_msg]; rfl)

theorem rangedByte_unpacksAgain (i : rangedByte.network.Ref) :
    Network.UnpacksAgain (rangedByte.network.msg i) :=
  Network.unpacksAgain_copyFields (by rw [rangedByte_msg]; rfl)

theorem rangedByte_laidOut : rangedByte.network.LaidOut where
  known := by decide +kernel
  aligned := by decide +kernel
  apart := by decide +kernel
  visible := by decide +kernel

def thenByte (b : Byte) : List (ModelStep rangedByte.network) :=
  rangedByte.steps [.ofFrames [] 0, .ofFrames [byteFrame b] (1 / 2000)]
    (rangedByte.modelCreate fun _ => ⟨0#64⟩)

theorem no_echo_inRange : ∃ e ∈ thenByte 42#8,
    Network.framesOf rangedByteMessage e.output.rx.received = [byteFrame 42#8] ∧
      writes e.output rangedByteMessage = 0 := by
  obtain ⟨s, hrun, e, he, hframes, hsettles⟩ := rangedByte.steps_check
    [.ofFrames [] 0, .ofFrames [byteFrame 42#8] (1 / 2000)]
    (rangedByte.modelCreate fun _ => ⟨0#64⟩)
    (fun e => Network.framesOf rangedByteMessage e.output.rx.received = [byteFrame 42#8] ∧
      ∀ mi ∈ rangedByte.network.items rangedByteMessage, rangedByte.network.SettlesIn mi
        (rangedByte.updatedBy e.before rangedByteMessage [] (byteFrame 42#8) = true ∨
          rangedByte.network.IsMux mi)
        (rangedByte.decodedValue e.input e.before mi [byteFrame 42#8])
        (rangedByte.frameStruct e.before rangedByteMessage [] (byteFrame 42#8)))
    (by decide +kernel)
  refine ⟨e, he, hframes, no_echo (l := thenByte 42#8) ⟨_, rfl⟩ hrun
    rangedByte_libraryRoundTrips (rangedByte_refusalKeeps _) rfl rfl he
    rangedByte_unpacksAgain (fun k hk => absurd hk (Nat.not_lt_zero k)) ?_⟩
  intro pre f post hlast
  have hsplit := hlast.split
  rw [hframes, List.singleton_eq_append_iff] at hsplit
  rw [hframes]
  obtain ⟨rfl, hf⟩ | ⟨_, hf⟩ := hsplit
  · rw [(List.cons.inj hf).1]
    exact hsettles
  · cases hf

/-- A value out of range is answered with the value of old. -/
theorem not_no_echo : ¬ ∀ (m : NetworkModel) (s₀ sₙ : ModelState m.network)
    (l : List (ModelStep m.network)), m.system.init s₀ → m.system.Run s₀ l sₙ →
    m.network.LibraryRoundTrips → m.network.LaidOut →
    (∀ i, Network.RefusalKeeps (m.network.msg i)) →
    (∀ i, Network.UnpacksAgain (m.network.msg i)) →
    ∀ e ∈ l.tail, m.netOff e.input.scalar = false → QuietScalars m e.input e.before →
    ∀ i, (m.network.msg i).cycleTimeMs = 0 → (m.network.msg i).encodeFunctions = [] →
      writes e.output i = 0 := by
  intro h
  obtain ⟨s, hrun⟩ := rangedByte.steps_run
    [.ofFrames [] 0, .ofFrames [byteFrame 200#8] (1 / 2000)]
    (rangedByte.modelCreate fun _ => ⟨0#64⟩)
  obtain ⟨e, he, hcheck⟩ := List.any_eq_true.mp (show (thenByte 200#8).tail.any (fun e =>
    writes e.output rangedByteMessage = 1) = true by decide +kernel)
  have hnone := h rangedByte _ s (thenByte 200#8) ⟨_, rfl⟩ hrun rangedByte_libraryRoundTrips
    rangedByte_laidOut rangedByte_refusalKeeps rangedByte_unpacksAgain e he rfl
    (fun k hk => absurd hk (Nat.not_lt_zero k)) rangedByteMessage rfl rfl
  rw [of_decide_eq_true hcheck] at hnone
  exact absurd hnone (by decide)

end NetworkModel
end DseNetwork
