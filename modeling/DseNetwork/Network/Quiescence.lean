import DseNetwork.Network.Echo

/-
Runs in which nothing comes from outside.

Encode functions rewrite the payload of a message as it is sent.  The changed payload is
unpacked and read into the signals, and a step later those signals are packed again: the
message comes to rest if each field that was unpacked marshals back.
-/

namespace DseNetwork
namespace NetworkModel

variable {m : NetworkModel} {input : StepInput} {s s' : ModelState m.network}
  {trace : StepTrace m.network} {i : m.network.Ref}

/-- A step without frames, with the network on, in which no other model changed a
scalar of the SignalVector. -/
structure QuietStep (e : ModelStep m.network) : Prop where
  frames : e.input.frames = []
  on : m.netOff e.input.scalar = false
  scalars : QuietScalars m e.input e.before

/-- Message `i` as a quiet step packs it. -/
def quietPacked (m : NetworkModel) (s : ModelState m.network) (i : m.network.Ref) :
    MessageState :=
  Network.packMessage (m.network.msg i)
    { s.network.message i with
      buffer := m.network.marshalBuffer s.network.signalVector i (s.network.message i).buffer }

/-- If the encode functions of message `i` change the payload that is about to be sent,
every field of the struct it unpacks to marshals back. -/
def FunctionsSettle (m : NetworkModel) (s : ModelState m.network) (i : m.network.Ref) : Prop :=
  ∀ st out, Network.encodeMessage false i (m.network.msg i) (m.quietPacked s i) = .ok (st, out) →
    st.updateSignals = true → ∀ mi ∈ m.network.items i,
      m.network.SettlesIn mi True (s.network.signalVector mi.signalVectorIndex) st.buffer

theorem Stages.rx_quiet (g : Stages m input s s' trace) (hs : EndOfStep m s)
    (hframes : input.frames = []) (hscalars : QuietScalars m input s) (i : m.network.Ref) :
    g.applied.message i = s.network.message i ∧
      ∀ mi ∈ m.network.items i, trace.rx.state.signalVector mi.signalVectorIndex =
        s.network.signalVector mi.signalVectorIndex := by
  have hdecode := g.decode
  rw [hframes] at hdecode
  obtain ⟨hdecoded, _⟩ := Prod.mk.inj (Except.ok.inj hdecode)
  have happlied : ∀ j, g.applied.message j = s.network.message j := by
    intro j
    rw [g.applied_idle (by rw [← hdecoded]; exact (hs.flags j).2), ← hdecoded]
  refine ⟨happlied i, fun mi hmi => ?_⟩
  rw [g.rx_value (Network.mem_items.mp hmi).1, happlied, (hs.flags mi.message).2,
    if_neg Bool.false_ne_true, ← hdecoded]
  exact copyIn_kept hs (hscalars.kept i) hmi

theorem Stages.packed_quiet (g : Stages m input s s' trace) (hs : EndOfStep m s)
    (hframes : input.frames = []) (hscalars : QuietScalars m input s)
    (hevent : (m.network.msg i).cycleTimeMs = 0) : g.packed i = m.quietPacked s i := by
  obtain ⟨happlied, hsv⟩ := g.rx_quiet hs hframes hscalars i
  have hsame : { s.network.message i with updateSignals := false } = s.network.message i := by
    have hoff := (hs.flags i).2
    cases hst : s.network.message i
    rw [hst] at hoff
    simp only at hoff
    rw [hoff]
  rw [Stages.packed, quietPacked, g.ticked_event hevent, happlied, hsame,
    Network.marshalBuffer_congr hsv]

theorem Stages.quiet_agrees (g : Stages m input s s' trace) (hs : EndOfStep m s)
    (hframes : input.frames = []) (hscalars : QuietScalars m input s)
    (hevent : (m.network.msg i).cycleTimeMs = 0) (hagrees : Agrees s i) :
    Agrees s' i ∧ writes trace i = 0 := by
  obtain ⟨happlied, hsv⟩ := g.rx_quiet hs hframes hscalars i
  have htx : (g.packed i).needsTx = false := by
    refine g.not_sent hs hevent ?_ (fun hpack => ?_)
    · rw [happlied]
      exact (Network.marshalBuffer_congr hsv _).trans hagrees
    · rw [happlied]
      exact hs.checksum i hevent hpack
  obtain ⟨out, hout⟩ := g.encoded_message i
  have hidle : (g.encoded.message i).needsTx = false := by
    rw [(Network.encodeMessage_ok hout).1, htx, Bool.false_and]
  have hst := (Network.encodeMessage_idle hout hidle).1
  refine ⟨g.agrees_of_unchanged hevent (by rw [hst]) (by rw [hst]), ?_⟩
  rw [g.writes_eq, htx]
  rfl

/-- A quiet step brings a message into agreement, if what its encode functions did to
the payload marshals back. -/
theorem Stages.quiet_settles (g : Stages m input s s' trace) (hs : EndOfStep m s)
    (hlib : m.network.LibraryRoundTrips) (hframes : input.frames = [])
    (hon : m.netOff input.scalar = false) (hscalars : QuietScalars m input s)
    (hevent : (m.network.msg i).cycleTimeMs = 0) (hsettle : FunctionsSettle m s i) :
    Agrees s' i := by
  obtain ⟨_, hsv⟩ := g.rx_quiet hs hframes hscalars i
  obtain ⟨out, hout⟩ := g.encoded_message i
  rcases (Network.encodeMessage_ok hout).2 with ⟨hbuffer, _, hflag⟩ | ⟨_, hflag, _⟩
  · exact g.agrees_of_unchanged hevent hbuffer hflag
  · rw [hon, g.packed_quiet hs hframes hscalars hevent] at hout
    rw [Agrees, g.after_message]
    refine Network.marshalBuffer_of_settled (fun mi hmi => ?_)
    obtain ⟨hmem, rfl⟩ := Network.mem_items.mp hmi
    have hafter := g.after_value hmem
    rw [hflag, if_pos rfl, hsv mi hmi] at hafter
    refine Network.settled_of_settlesIn hlib hmem (hsettle _ _ hout hflag mi hmi)
      (fun hrange _ => ?_) (fun hno => ?_)
    · rw [hafter, NetworkSignal.readValue_of_inRange hrange]
    · rw [hafter, NetworkSignal.readValue_of_not_inRange (fun hrange => hno ⟨hrange, trivial⟩)]

/-- A quiet run from a reachable state: after its first step, the event messages that
settle in that step agree and are not written again. -/
theorem quiescent (hs : m.system.Reachable s) (hlib : m.network.LibraryRoundTrips)
    {l : List (ModelStep m.network)} (hrun : m.system.Run s l s')
    (hquiet : ∀ e ∈ l, QuietStep e) (hevent : (m.network.msg i).cycleTimeMs = 0)
    (hsettle : FunctionsSettle m s i) : ∀ e ∈ l.tail, writes e.output i = 0 := by
  have hrest : l = [] ∨ (Agrees s' i ∧ ∀ e ∈ l.tail, writes e.output i = 0) := by
    induction hrun with
    | nil => exact .inl rfl
    | @snoc l s₁ s₂ input trace hrun hn ih =>
      have hlast := hquiet ⟨s₁, input, trace, s₂⟩ (by simp)
      have hend := reachable_endOfStep m (hrun.reachable hs)
      obtain ⟨g⟩ := modelStep_ok hn
      rcases ih (fun e he => hquiet e (List.mem_append_left _ he)) with rfl | ⟨hagrees, htail⟩
      · have hfirst := hrun.eq_of_nil rfl
        subst hfirst
        refine .inr ⟨g.quiet_settles hend hlib hlast.frames hlast.on hlast.scalars hevent
          hsettle, fun e he => ?_⟩
        cases he
      · obtain ⟨hafter, hnone⟩ :=
          g.quiet_agrees hend hlast.frames hlast.scalars hevent hagrees
        refine .inr ⟨hafter, fun e he => ?_⟩
        cases l with
        | nil => cases he
        | cons a rest =>
          rw [List.cons_append, List.tail_cons] at he
          rcases List.mem_append.mp he with he | he
          · exact htail e he
          · rw [List.mem_singleton.mp he]
            exact hnone
  rcases hrest with rfl | ⟨_, htail⟩
  · exact fun e he => absurd he List.not_mem_nil
  · exact htail

/-! ## An encode function that writes a field -/

/-- What a message packs it unpacks again. -/
def PackInverts (nm : NetworkMessage) : Prop :=
  ∀ pack unpack, nm.packFunc = some pack → nm.unpackFunc = some unpack →
    ∀ payload buffer buffer' : Memory,
      (unpack buffer' (pack payload buffer nm.payloadLen).dst nm.payloadLen).dst.bytes
        nm.bufferLen = buffer.bytes nm.bufferLen

/-- A function that writes the first byte of the payload, with one value when it is first
called and with another from then on. -/
def writeByte (first later : Byte) : NetworkFunction where
  name := "write_byte"
  annotations := []
  function := some (fun _ data payload _ =>
    { rc := 0
      payload := Function.update payload 0 (if data.isNone then first else later)
      data := some Memory.zero })

/-- A network of one event message with one field, whose range ends at a hundred and
which the function writes.  The signal is mapped to the SignalVector. -/
def writtenByte (first later : Byte) : NetworkModel where
  network := .ofMessages [{ plainMessage "M" 0x1a0#32 1
    [byteSignal "s" 0 (fun r => decide (r.toNat < 100))] with
      encodeFunctions := [writeByte first later] }] (by simp [plainMessage])
  svSignal := ["s"]
  netoffSignal := none
  stack := 2

section
variable (first later : Byte)

def writtenByteMessage : (writtenByte first later).network.Ref := ⟨0, Nat.zero_lt_one⟩

theorem writtenByte_msg (i : (writtenByte first later).network.Ref) :
    (writtenByte first later).network.msg i = { plainMessage "M" 0x1a0#32 1
      [byteSignal "s" 0 (fun r => decide (r.toNat < 100))] with
        encodeFunctions := [writeByte first later] } :=
  List.mem_singleton.mp (List.getElem_mem _)

theorem writtenByte_libraryRoundTrips :
    (writtenByte first later).network.LibraryRoundTrips :=
  Network.libraryRoundTrips_of_signals (by
    simpa [writtenByte, Network.ofMessages, plainMessage] using
      byteSignal_encode_decode "s" 0 _)

theorem writtenByte_packInverts (i : (writtenByte first later).network.Ref) :
    PackInverts ((writtenByte first later).network.msg i) := by
  rw [writtenByte_msg]
  rintro pack unpack ⟨⟩ ⟨⟩ payload buffer buffer'
  exact copyFields_bytes 1 payload buffer buffer'

end

def withValue (value : Nat) (modelTime : ℚ) : StepInput :=
  { StepInput.ofFrames [] modelTime with scalar := fun _ => Binary64.ofNat value }

/-- The state after a first step, in which the value became five. -/
def afterFive (first later : Byte) : ModelState (writtenByte first later).network :=
  (writtenByte first later).stepped (withValue 5 0)
    ((writtenByte first later).modelCreate fun _ => ⟨0#64⟩)

theorem afterFive_reachable (first later : Byte) :
    (writtenByte first later).system.Reachable (afterFive first later) :=
  stepped_reachable _ (.init ⟨_, rfl⟩)

def thenValues (first later : Byte) (values : Nat × Nat) :
    List (ModelStep (writtenByte first later).network) :=
  (writtenByte first later).steps
    [withValue values.1 (1 / 2000), withValue values.2 (1 / 1000)] (afterFive first later)

instance (e : ModelStep m.network) : Decidable (QuietStep e) :=
  decidable_of_iff (e.input.frames = [] ∧ m.netOff e.input.scalar = false ∧
      ∀ k, k < m.svSignal.length → e.input.scalar k = e.before.scalar k)
    ⟨fun h => ⟨h.1, h.2.1, h.2.2⟩, fun h => ⟨h.frames, h.on, h.scalars⟩⟩

instance (s : ModelState m.network) (i : m.network.Ref) : Decidable (FunctionsSettle m s i) :=
  match h : Network.encodeMessage false i (m.network.msg i) (m.quietPacked s i) with
  | .error _ => isTrue (fun st out hok => by rw [h] at hok; cases hok)
  | .ok (st, out) =>
    decidable_of_iff (st.updateSignals = true → ∀ mi ∈ m.network.items i,
        m.network.SettlesIn mi True (s.network.signalVector mi.signalVectorIndex) st.buffer)
      ⟨fun hset st' out' hok => by rw [h] at hok; cases hok; exact hset,
        fun hset => hset st out h⟩

theorem quiescent_inRange : ∃ e ∈ (thenValues 200#8 42#8 (5, 42)).tail,
    writes e.output (writtenByteMessage _ _) = 0 := by
  obtain ⟨s, hrun⟩ := (writtenByte 200#8 42#8).steps_run
    [withValue 5 (1 / 2000), withValue 42 (1 / 1000)] (afterFive _ _)
  have hquiet : ∀ e ∈ thenValues 200#8 42#8 (5, 42), QuietStep e := by decide +kernel
  have hrest := quiescent (afterFive_reachable _ _) (writtenByte_libraryRoundTrips _ _) hrun
    hquiet (i := writtenByteMessage _ _) rfl (by decide +kernel)
  obtain ⟨e, he, _⟩ := List.any_eq_true.mp (show (thenValues 200#8 42#8 (5, 42)).tail.any
    (fun _ => true) = true by decide +kernel)
  exact ⟨e, he, hrest e he⟩

/-- A value out of range that the function writes is sent in every step. -/
theorem not_quiescent : ¬ ∀ (m : NetworkModel) (s sₙ : ModelState m.network)
    (l : List (ModelStep m.network)), m.system.Reachable s → m.system.Run s l sₙ →
    m.network.LibraryRoundTrips → (∀ i, PackInverts (m.network.msg i)) →
    (∀ e ∈ l, QuietStep e) →
    ∀ i, (m.network.msg i).cycleTimeMs = 0 → ∀ e ∈ l.tail, writes e.output i = 0 := by
  intro h
  obtain ⟨s, hrun⟩ := (writtenByte 200#8 200#8).steps_run
    [withValue 5 (1 / 2000), withValue 5 (1 / 1000)] (afterFive _ _)
  obtain ⟨e, he, hsent⟩ := List.any_eq_true.mp (show (thenValues 200#8 200#8 (5, 5)).tail.any
    (fun e => writes e.output (writtenByteMessage _ _) = 1) = true by decide +kernel)
  have hnone := h _ _ s (thenValues 200#8 200#8 (5, 5)) (afterFive_reachable _ _) hrun
    (writtenByte_libraryRoundTrips _ _) (writtenByte_packInverts _ _) (by decide +kernel)
    (writtenByteMessage _ _) rfl e he
  rw [of_decide_eq_true hsent] at hnone
  exact absurd hnone (by decide)

end NetworkModel
end DseNetwork
