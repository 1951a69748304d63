import DseNetwork.Network.Reception
import DseNetwork.Network.Library

/-
Received updates that reach the signal vector, and those that are lost.

The filter compares the struct of a frame with a checksum that reception, packing and
the alarms all write.  A frame that comes twice in a step withdraws its own update, and
so does a frame that repeats the last struct sent or received after the values changed
or were refused by a range.
-/

namespace DseNetwork

/-- `encode(decode(raw)) = raw` for every raw value in range. -/
def Network.LibraryRoundTrips (n : Network) : Prop :=
  ∀ mi ∈ n.marshalList, ∀ r, mi.signal.funcs.isInRange r = true →
    mi.signal.funcs.encode (mi.signal.funcs.decode r) = r

theorem Network.libraryRoundTrips_of_signals {n : Network}
    (h : ∀ nm ∈ n.messages, ∀ ns ∈ nm.signals, ∀ r, ns.funcs.isInRange r = true →
      ns.funcs.encode (ns.funcs.decode r) = r) : n.LibraryRoundTrips :=
  fun mi hmi => h _ (List.getElem_mem mi.message.isLt) mi.signal (Network.signal_mem hmi)

namespace NetworkModel

variable {m : NetworkModel} {input : StepInput} {s s' : ModelState m.network}
  {trace : StepTrace m.network} {i : m.network.Ref} {pre post : List CanMessage}
  {f : CanMessage}

/-- After the RX part, every signal of message `i` whose raw field in frame `f` is in
range has a value that encodes to that field. -/
def UpdateKept (s : ModelState m.network) (trace : StepTrace m.network) (i : m.network.Ref)
    (pre : List CanMessage) (f : CanMessage) : Prop :=
  ∀ mi ∈ m.network.items i, mi.signal.InRange (m.frameStruct s i pre f) →
    mi.signal.funcs.encode (trace.rx.state.signalVector mi.signalVectorIndex) =
      mi.signal.raw (m.frameStruct s i pre f)

/-- Before the step, every signal of message `i` whose raw field in frame `f` is in range
has a value that encodes to that field, or is the mux signal. -/
def AlreadyPresent (s : ModelState m.network) (i : m.network.Ref)
    (pre : List CanMessage) (f : CanMessage) : Prop :=
  ∀ mi ∈ m.network.items i, mi.signal.InRange (m.frameStruct s i pre f) →
    m.network.IsMux mi ∨
      mi.signal.funcs.encode (s.network.signalVector mi.signalVectorIndex) =
        mi.signal.raw (m.frameStruct s i pre f)

theorem Stages.rx_value_inRange (g : Stages m input s s' trace) (hs : EndOfStep m s)
    (hnil : (m.network.msg i).decodeFunctions = []) (hkept : KeptScalars m input s i)
    (honce : Network.Once i trace.rx.received)
    (hkeep : Network.RefusalKeeps (m.network.msg i))
    (hlast : Network.LastAccepted (m.network.msg i) (s.network.message i)
      (Network.framesOf i trace.rx.received) pre f post)
    {mi : m.network.Item} (hmi : mi ∈ m.network.items i)
    (hrange : mi.signal.InRange (m.frameStruct s i pre f)) :
    (¬ Network.Filtered (m.network.msg i) (s.network.message i) pre f ∨ m.network.IsMux mi →
      trace.rx.state.signalVector mi.signalVectorIndex =
        mi.signal.funcs.decode (mi.signal.raw (m.frameStruct s i pre f))) ∧
    (Network.Filtered (m.network.msg i) (s.network.message i) pre f → ¬ m.network.IsMux mi →
      trace.rx.state.signalVector mi.signalVectorIndex =
        s.network.signalVector mi.signalVectorIndex) := by
  obtain ⟨hread, hleft⟩ := g.rx_value_received hkeep honce hlast hmi
  constructor
  · intro hseen
    exact hread hrange (hseen.imp_left (updatedBy_of_nil hnil).mpr)
  · intro hfiltered hmux
    have hunread : ¬ (m.updatedBy s i pre f = true ∨ m.network.IsMux mi) := by
      rintro (hup | hismux)
      · exact (updatedBy_of_nil hnil).mp hup hfiltered
      · exact hmux hismux
    rw [hleft (fun h => hunread h.2), decodedValue, if_neg hmux]
    exact copyIn_kept hs hkept hmi

/-- In every step of a run, the update of the last accepted frame is kept exactly when
the frame is not filtered as a repetition, or brings nothing new. -/
theorem updateKept_iff {s₀ sₙ : ModelState m.network} {l : List (ModelStep m.network)}
    (h0 : m.system.init s₀) (hrun : m.system.Run s₀ l sₙ) {e : ModelStep m.network}
    (he : e ∈ l) (hlib : m.network.LibraryRoundTrips)
    (hkeep : Network.RefusalKeeps (m.network.msg i))
    (hagain : ∀ j, Network.UnpacksAgain (m.network.msg j))
    (hnil : (m.network.msg i).decodeFunctions = []) (hkept : KeptScalars m e.input e.before i)
    (hlast : Network.LastAccepted (m.network.msg i) (e.before.network.message i)
      (Network.framesOf i e.output.rx.received) pre f post) :
    UpdateKept e.before e.output i pre f ↔
      ¬ Network.Filtered (m.network.msg i) (e.before.network.message i) pre f ∨
        AlreadyPresent e.before i pre f := by
  obtain ⟨hreach, hstep⟩ := hrun.step_mem (.init h0) he
  obtain ⟨g⟩ := modelStep_ok hstep
  have hs := reachable_endOfStep m hreach
  have honce := g.once hagain i
  have hfrom : ∀ mi ∈ m.network.items i, mi.signal.InRange (m.frameStruct e.before i pre f) →
      mi.signal.funcs.encode (mi.signal.funcs.decode
        (mi.signal.raw (m.frameStruct e.before i pre f))) =
          mi.signal.raw (m.frameStruct e.before i pre f) :=
    fun mi hmi hrange => hlib mi (Network.mem_items.mp hmi).1 _ hrange.2
  constructor
  · intro hkeptUpdate
    by_cases hfiltered :
        Network.Filtered (m.network.msg i) (e.before.network.message i) pre f
    · refine .inr (fun mi hmi hrange => ?_)
      by_cases hmux : m.network.IsMux mi
      · exact .inl hmux
      · have hvalue :=
          (g.rx_value_inRange hs hnil hkept honce hkeep hlast hmi hrange).2 hfiltered hmux
        have hencode := hkeptUpdate mi hmi hrange
        rw [hvalue] at hencode
        exact .inr hencode
    · exact .inl hfiltered
  · intro hcond mi hmi hrange
    obtain ⟨hnew, hold⟩ := g.rx_value_inRange hs hnil hkept honce hkeep hlast hmi hrange
    by_cases hseen :
        ¬ Network.Filtered (m.network.msg i) (e.before.network.message i) pre f ∨
          m.network.IsMux mi
    · rw [hnew hseen]
      exact hfrom mi hmi hrange
    · rw [not_or, not_not] at hseen
      rw [hold hseen.1 hseen.2]
      rcases hcond with hno | hpresent
      · exact absurd hseen.1 hno
      · exact (hpresent mi hmi hrange).resolve_left hseen.2

/-! ## A frame, and the same frame twice -/

def structs (nm : NetworkMessage) (st : MessageState) (frames : List CanMessage) :
    List Memory :=
  frames.inits.map (fun pre => (pre.foldl (Network.rxMessage nm) st).buffer)

/-- Different structs among these have different checksums. -/
def NoCollision (nm : NetworkMessage) (bs : List Memory) : Prop :=
  bs.Pairwise (fun b b' =>
    simbusGenerateUidHash b nm.bufferLen = simbusGenerateUidHash b' nm.bufferLen →
      b.bytes nm.bufferLen = b'.bytes nm.bufferLen)

instance (nm : NetworkMessage) (bs : List Memory) : Decidable (NoCollision nm bs) :=
  inferInstanceAs (Decidable (List.Pairwise _ _))

instance (s : ModelState m.network) (trace : StepTrace m.network) (i : m.network.Ref)
    (pre : List CanMessage) (f : CanMessage) : Decidable (UpdateKept s trace i pre f) :=
  inferInstanceAs (Decidable (∀ mi ∈ m.network.items i, _))

def oneByteMessage : oneByte.network.Ref := ⟨0, Nat.zero_lt_one⟩

theorem oneByte_libraryRoundTrips : oneByte.network.LibraryRoundTrips :=
  Network.libraryRoundTrips_of_signals (by
    simpa [oneByte, NetworkModel.alone, Network.ofMessages, plainMessage] using
      byteSignal_encode_decode "s" 0 _)

theorem oneByte_unpackFunc (i : oneByte.network.Ref) :
    (oneByte.network.msg i).unpackFunc = some (copyFields 1) := by
  rw [show oneByte.network.msg i = plainMessage "M" 0x1a0#32 1
    [byteSignal "s" 0 (fun _ => true)] from List.mem_singleton.mp (List.getElem_mem _)]
  rfl

theorem oneByte_refusalKeeps (i : oneByte.network.Ref) :
    Network.RefusalKeeps (oneByte.network.msg i) :=
  Network.refusalKeeps_copyFields (oneByte_unpackFunc i)

theorem oneByte_unpacksAgain (i : oneByte.network.Ref) :
    Network.UnpacksAgain (oneByte.network.msg i) :=
  Network.unpacksAgain_copyFields (oneByte_unpackFunc i)

def byteFrame (b : Byte) : CanMessage := ⟨0x1a0#32, 0#8, [b]⟩

def firstFrames (bytes : List Byte) : List (ModelStep oneByte.network) :=
  oneByte.steps [.ofFrames (bytes.map byteFrame) 0] (oneByte.modelCreate fun _ => ⟨0#64⟩)

theorem updateKept_oneFrame : ∃ e ∈ firstFrames [3#8],
    UpdateKept e.before e.output oneByteMessage [] (byteFrame 3#8) := by
  obtain ⟨s, hrun, e, he, hframes, hnew⟩ := oneByte.steps_check
    [.ofFrames [byteFrame 3#8] 0] (oneByte.modelCreate fun _ => ⟨0#64⟩)
    (fun e => Network.framesOf oneByteMessage e.output.rx.received = [byteFrame 3#8] ∧
      ¬ Network.Filtered (oneByte.network.msg oneByteMessage)
        (e.before.network.message oneByteMessage) [] (byteFrame 3#8)) (by decide +kernel)
  exact ⟨e, he, (updateKept_iff ⟨_, rfl⟩ hrun he oneByte_libraryRoundTrips
    (oneByte_refusalKeeps _) oneByte_unpacksAgain rfl (fun e' he' => by cases he')
    ⟨hframes, rfl, fun g hg => by cases hg⟩).mpr (.inl hnew)⟩

/-- The second of two equal frames takes the update of the first back. -/
theorem not_updateKept : ¬ ∀ (m : NetworkModel) (s₀ sₙ : ModelState m.network)
    (l : List (ModelStep m.network)), m.system.init s₀ → m.system.Run s₀ l sₙ →
    m.network.LibraryRoundTrips → ∀ e ∈ l, ∀ i pre f post,
    Network.RefusalKeeps (m.network.msg i) →
    (∀ j, Network.UnpacksAgain (m.network.msg j)) →
    (m.network.msg i).decodeFunctions = [] → KeptScalars m e.input e.before i →
    NoCollision (m.network.msg i) (structs (m.network.msg i) (e.before.network.message i)
      (Network.framesOf i e.output.rx.received)) →
    Network.LastAccepted (m.network.msg i) (e.before.network.message i)
      (Network.framesOf i e.output.rx.received) pre f post →
    UpdateKept e.before e.output i pre f := by
  intro h
  obtain ⟨s, hrun, e, he, hframes, hcollision, hlost⟩ := oneByte.steps_check
    [.ofFrames [byteFrame 3#8, byteFrame 3#8] 0] (oneByte.modelCreate fun _ => ⟨0#64⟩)
    (fun e =>
      Network.framesOf oneByteMessage e.output.rx.received = [byteFrame 3#8, byteFrame 3#8] ∧
      NoCollision (oneByte.network.msg oneByteMessage)
        (structs (oneByte.network.msg oneByteMessage) (e.before.network.message oneByteMessage)
          (Network.framesOf oneByteMessage e.output.rx.received)) ∧
      ¬ UpdateKept e.before e.output oneByteMessage [byteFrame 3#8] (byteFrame 3#8))
    (by decide +kernel)
  exact hlost (h oneByte _ s (firstFrames [3#8, 3#8]) ⟨_, rfl⟩ hrun oneByte_libraryRoundTrips
    e he oneByteMessage [byteFrame 3#8] (byteFrame 3#8) [] (oneByte_refusalKeeps _)
    oneByte_unpacksAgain rfl (fun e' he' => by cases he') hcollision
    ⟨hframes, rfl, fun g hg => by cases hg⟩)

end NetworkModel
end DseNetwork
