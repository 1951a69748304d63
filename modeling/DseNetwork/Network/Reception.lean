import DseNetwork.Network.EndOfStep
import DseNetwork.Network.Nesting
import Mathlib.Data.List.Induction

/-
What becomes of a received frame.

A frame passes through three stores: the struct buffer it is unpacked to, the payload
that decode functions are handed, and the signal vector.  Reception fills the first, and
the flag `update_signals`, cleared and set for each frame, decides about the third.
Nothing fills the second.
-/

namespace DseNetwork
namespace Network

/-! ## The last frame that was accepted -/

/-- The struct that frame `f` leaves in a message, after the frames `pre`. -/
def unpacked (nm : NetworkMessage) (st : MessageState) (pre : List CanMessage)
    (f : CanMessage) : Memory :=
  (unpackFrame nm f (pre.foldl (rxMessage nm) st).buffer).dst

/-- Of the frames that a message received, `f` is the last that `unpack_func` accepts. -/
structure LastAccepted (nm : NetworkMessage) (st : MessageState)
    (frames pre : List CanMessage) (f : CanMessage) (post : List CanMessage) : Prop where
  split : frames = pre ++ f :: post
  accepted : (unpackFrame nm f (pre.foldl (rxMessage nm) st).buffer).rc = 0
  refused : ∀ g ∈ post, (unpackFrame nm g (unpacked nm st pre f)).rc ≠ 0

/-- The frame is filtered as a repetition: its struct has the checksum of the message. -/
def Filtered (nm : NetworkMessage) (st : MessageState) (pre : List CanMessage)
    (f : CanMessage) : Prop :=
  simbusGenerateUidHash (unpacked nm st pre f) nm.bufferLen =
    (pre.foldl (rxMessage nm) st).bufferChecksum

instance (nm : NetworkMessage) (st : MessageState) (pre : List CanMessage) (f : CanMessage) :
    Decidable (Filtered nm st pre f) :=
  inferInstanceAs (Decidable (_ = _))

variable {nm : NetworkMessage} {st : MessageState} {frames pre post : List CanMessage}
  {f : CanMessage}

theorem rxMessage_refused {g : CanMessage} (hkeep : RefusalKeeps nm)
    (h : (unpackFrame nm g st.buffer).rc ≠ 0) : rxMessage nm st g = st := by
  rw [rxMessage, if_pos h, hkeep g _ h]

theorem rxFold_refused (hkeep : RefusalKeeps nm)
    (h : ∀ g ∈ post, (unpackFrame nm g st.buffer).rc ≠ 0) :
    post.foldl (rxMessage nm) st = st := by
  induction post with
  | nil => rfl
  | cons g rest ih =>
    rw [List.foldl_cons, rxMessage_refused hkeep (h g List.mem_cons_self)]
    exact ih (fun g' hg => h g' (List.mem_cons_of_mem g hg))

/-- The state in which the last accepted frame is checked. -/
def checked (nm : NetworkMessage) (st : MessageState) (pre : List CanMessage)
    (f : CanMessage) : MessageState :=
  checkMessage nm { pre.foldl (rxMessage nm) st with buffer := unpacked nm st pre f }

theorem checked_buffer : (checked nm st pre f).buffer = unpacked nm st pre f :=
  (checkMessage_fields _ _).1

theorem checked_checksum : (checked nm st pre f).bufferChecksum =
    simbusGenerateUidHash (unpacked nm st pre f) nm.bufferLen :=
  (checkMessage_fields _ _).2.2.2.2

theorem checked_updateSignals :
    (checked nm st pre f).updateSignals = true ↔ ¬ Filtered nm st pre f :=
  checkMessage_updateSignals _ _

theorem LastAccepted.fold (h : LastAccepted nm st frames pre f post)
    (hkeep : post = [] ∨ RefusalKeeps nm) :
    frames.foldl (rxMessage nm) st = checked nm st pre f := by
  have hf : rxMessage nm (pre.foldl (rxMessage nm) st) f = checked nm st pre f := by
    rw [rxMessage, if_neg (not_not.mpr h.accepted)]
    rfl
  rw [h.split, List.foldl_append, List.foldl_cons, hf]
  rcases hkeep with rfl | hkeep
  · rfl
  · exact rxFold_refused hkeep (by rw [checked_buffer]; exact h.refused)

/-- Either all frames were refused, or one was the last to be accepted. -/
theorem lastAccepted_or_refused (hkeep : RefusalKeeps nm) (st : MessageState)
    (frames : List CanMessage) :
    (∀ g ∈ frames, (unpackFrame nm g st.buffer).rc ≠ 0) ∨
      ∃ pre f post, LastAccepted nm st frames pre f post := by
  induction frames using List.reverseRecOn with
  | nil => exact .inl (fun g hg => absurd hg List.not_mem_nil)
  | append_singleton frames g ih =>
    by_cases hg : (unpackFrame nm g (frames.foldl (rxMessage nm) st).buffer).rc = 0
    · exact .inr ⟨frames, g, [], rfl, hg, fun g' hg' => absurd hg' List.not_mem_nil⟩
    · rcases ih with hrefused | ⟨pre, f, post, hlast⟩
      · rw [rxFold_refused hkeep hrefused] at hg
        refine .inl (fun g' hg' => ?_)
        rcases List.mem_append.mp hg' with hmem | hmem
        · exact hrefused g' hmem
        · rwa [List.mem_singleton.mp hmem]
      · rw [hlast.fold (.inr hkeep), checked_buffer] at hg
        refine .inr ⟨pre, f, post ++ [g], by rw [hlast.split]; simp, hlast.accepted,
          fun g' hg' => ?_⟩
        rcases List.mem_append.mp hg' with hmem | hmem
        · exact hlast.refused g' hmem
        · rwa [List.mem_singleton.mp hmem]

variable {n : Network} {i : n.Ref}

theorem rxFrames_refused {mi : n.Item} {p : MessageState × Double}
    (hkeep : RefusalKeeps (n.msg i))
    (h : ∀ g ∈ post, (unpackFrame (n.msg i) g p.1.buffer).rc ≠ 0) :
    n.rxFrames i mi p post = p := by
  induction post with
  | nil => rfl
  | cons g rest ih =>
    have hg := h g List.mem_cons_self
    rw [rxFrames, List.foldl_cons, rxMessage_refused hkeep hg, rxMux, if_pos hg]
    exact ih (fun g' hg' => h g' (List.mem_cons_of_mem g hg'))

theorem LastAccepted.mux (h : LastAccepted (n.msg i) st frames pre f post)
    (hkeep : post = [] ∨ RefusalKeeps (n.msg i)) (mi : n.Item) (v : Double) :
    ∃ v', (n.rxFrames i mi (st, v) frames).2 =
      mi.signal.readValue (unpacked (n.msg i) st pre f) v' := by
  refine ⟨(n.rxFrames i mi (st, v) pre).2, ?_⟩
  have hfst := rxFrames_fst i mi (st, v) pre
  have hf : n.rxFrames i mi (st, v) (pre ++ [f]) = (checked (n.msg i) st pre f,
      mi.signal.readValue (unpacked (n.msg i) st pre f) (n.rxFrames i mi (st, v) pre).2) := by
    rw [rxFrames, List.foldl_append]
    show (rxMessage (n.msg i) (n.rxFrames i mi (st, v) pre).1 f,
      n.rxMux i mi f (n.rxFrames i mi (st, v) pre).1 _) = _
    rw [hfst, rxMessage, rxMux, if_neg (not_not.mpr h.accepted),
      if_neg (not_not.mpr h.accepted)]
    rfl
  have hsplit : frames = (pre ++ [f]) ++ post := by rw [h.split]; simp
  rw [hsplit, rxFrames, List.foldl_append]
  show (n.rxFrames i mi (n.rxFrames i mi (st, v) (pre ++ [f])) post).2 = _
  rw [hf]
  rcases hkeep with rfl | hkeep
  · rfl
  · rw [rxFrames_refused hkeep (by rw [checked_buffer]; exact h.refused)]

end Network

namespace NetworkModel

variable {m : NetworkModel} {input : StepInput} {s s' : ModelState m.network}
  {trace : StepTrace m.network} {i : m.network.Ref}

/-! ## The stages of a step, for a message and its items -/

theorem Stages.once (g : Stages m input s s' trace)
    (hagain : ∀ j, Network.UnpacksAgain (m.network.msg j)) (i : m.network.Ref) :
    Network.Once i trace.rx.received :=
  Network.decodeFromBus_once hagain g.decode i

theorem Stages.decoded_message (g : Stages m input s s' trace)
    (honce : Network.Once i trace.rx.received) :
    g.decoded.message i = (Network.framesOf i trace.rx.received).foldl
      (Network.rxMessage (m.network.msg i)) (s.network.message i) :=
  Network.decodeFromBus_message g.decode honce

/-- The value of an item ahead of `network_marshal_messages_to_signals`: that of a mux
signal has seen the frames, any other is as it was copied in. -/
def decodedValue (m : NetworkModel) (input : StepInput) (s : ModelState m.network)
    (mi : m.network.Item) (frames : List CanMessage) : Double :=
  let v := m.copyIn input.scalar s.network.signalVector mi.signalVectorIndex
  if m.network.IsMux mi then
    (m.network.rxFrames mi.message mi (s.network.message mi.message, v) frames).2
  else v

theorem Stages.decoded_value (g : Stages m input s s' trace) {mi : m.network.Item}
    (hmi : mi ∈ m.network.marshalList) (honce : Network.Once mi.message trace.rx.received) :
    g.decoded.signalVector mi.signalVectorIndex =
      m.decodedValue input s mi (Network.framesOf mi.message trace.rx.received) := by
  unfold decodedValue
  by_cases hmux : m.network.IsMux mi
  · rw [if_pos hmux]
    exact Network.decodeFromBus_mux g.decode ((Network.isMux_iff hmi).mp hmux) honce
  · rw [if_neg hmux]
    refine (Network.decodeFromBus_frame g.decode).2.2 _ (fun j mj hmj => ?_)
    exact Network.index_ne_muxMi (Network.mem_items.mpr ⟨hmi, rfl⟩)
      (fun h => hmux ((Network.isMux_iff hmi).mpr h)) hmj

theorem Stages.rx_value_eq (g : Stages m input s s' trace) {mi : m.network.Item}
    (hmi : mi ∈ m.network.marshalList) (honce : Network.Once mi.message trace.rx.received) :
    trace.rx.state.signalVector mi.signalVectorIndex =
      let v := m.decodedValue input s mi (Network.framesOf mi.message trace.rx.received)
      if (g.applied.message mi.message).updateSignals then
        mi.signal.readValue (g.applied.message mi.message).buffer v
      else v := by
  rw [g.rx_value hmi, g.decoded_value hmi honce]

/-- Frames that leave a message and the value of its mux signal alone: the entries of its
signals are as they were copied in. -/
theorem Stages.applied_kept (g : Stages m input s s' trace) (hs : EndOfStep m s)
    (honce : Network.Once i trace.rx.received)
    (hframes : (Network.framesOf i trace.rx.received).foldl
      (Network.rxMessage (m.network.msg i)) (s.network.message i) = s.network.message i)
    (hmux : ∀ (mi : m.network.Item) (v : Double), m.network.rxFrames i mi
      (s.network.message i, v) (Network.framesOf i trace.rx.received) =
        (s.network.message i, v)) :
    g.applied.message i = s.network.message i ∧
      ∀ mi ∈ m.network.items i, trace.rx.state.signalVector mi.signalVectorIndex =
        m.copyIn input.scalar s.network.signalVector mi.signalVectorIndex := by
  have hdecoded : g.decoded.message i = s.network.message i := by
    rw [g.decoded_message honce, hframes]
  have happlied : g.applied.message i = s.network.message i := by
    rw [g.applied_idle (by rw [hdecoded]; exact (hs.flags i).2), hdecoded]
  refine ⟨happlied, fun mi hmi => ?_⟩
  obtain ⟨hmem, rfl⟩ := Network.mem_items.mp hmi
  rw [g.rx_value_eq hmem honce, happlied, (hs.flags mi.message).2]
  dsimp only
  rw [if_neg Bool.false_ne_true, decodedValue]
  by_cases hismux : m.network.IsMux mi
  · rw [if_pos hismux, hmux]
  · rw [if_neg hismux]

theorem Stages.applied_refused (g : Stages m input s s' trace) (hs : EndOfStep m s)
    (hkeep : Network.RefusalKeeps (m.network.msg i))
    (honce : Network.Once i trace.rx.received)
    (hrefused : ∀ f ∈ Network.framesOf i trace.rx.received,
      (Network.unpackFrame (m.network.msg i) f (s.network.message i).buffer).rc ≠ 0) :
    g.applied.message i = s.network.message i ∧
      ∀ mi ∈ m.network.items i, trace.rx.state.signalVector mi.signalVectorIndex =
        m.copyIn input.scalar s.network.signalVector mi.signalVectorIndex :=
  g.applied_kept hs honce (Network.rxFold_refused hkeep hrefused)
    (fun _ _ => Network.rxFrames_refused hkeep hrefused)

/-- No frame of the step came to message `i`. -/
def NotReceived (trace : StepTrace m.network) (i : m.network.Ref) : Prop :=
  ∀ r ∈ trace.rx.received, i ∉ r.messages

instance (trace : StepTrace m.network) (i : m.network.Ref) : Decidable (NotReceived trace i) :=
  inferInstanceAs (Decidable (∀ r ∈ trace.rx.received, _))

theorem Stages.applied_untouched (g : Stages m input s s' trace) (hs : EndOfStep m s)
    (hnone : NotReceived trace i) :
    g.applied.message i = s.network.message i ∧
      ∀ mi ∈ m.network.items i, trace.rx.state.signalVector mi.signalVectorIndex =
        m.copyIn input.scalar s.network.signalVector mi.signalVectorIndex := by
  have hframes : Network.framesOf i trace.rx.received = [] := by
    rw [Network.framesOf, List.map_eq_nil_iff]
    exact List.filter_eq_nil_iff.mpr (fun r hr => by simpa using hnone r hr)
  have honce : Network.Once i trace.rx.received := fun r hr => by
    rw [List.count_eq_zero_of_not_mem (hnone r hr)]
    exact Nat.zero_le 1
  refine g.applied_kept hs honce ?_ (fun mi v => ?_)
  · rw [hframes]
    rfl
  · rw [hframes]
    rfl

/-- No other model changed the SignalVector entries of message `i`. -/
def KeptScalars (m : NetworkModel) (input : StepInput) (s : ModelState m.network)
    (i : m.network.Ref) : Prop :=
  ∀ e ∈ m.srMap, e.active = true → ∀ mi ∈ m.network.items i,
    e.signalIndex = mi.signalVectorIndex → input.scalar e.vectorIndex = s.scalar e.vectorIndex

theorem copyIn_kept (hs : EndOfStep m s) (hkept : KeptScalars m input s i)
    {mi : m.network.Item} (hmi : mi ∈ m.network.items i) :
    m.copyIn input.scalar s.network.signalVector mi.signalVectorIndex =
      s.network.signalVector mi.signalVectorIndex := by
  refine copyIn_of_coherent (fun e he ha hidx => ?_)
  rw [hkept e he ha mi hmi hidx, hs.scalar e he ha, hidx]

/-! ## The last accepted frame in a step -/

/-- The struct that frame `f` leaves in message `i`. -/
def frameStruct (m : NetworkModel) (s : ModelState m.network) (i : m.network.Ref)
    (pre : List CanMessage) (f : CanMessage) : Memory :=
  Network.unpacked (m.network.msg i) (s.network.message i) pre f

/-- Message `i` is updated by frame `f`: the frame is not filtered and its decode
functions, if any, let it pass. -/
def updatedBy (m : NetworkModel) (s : ModelState m.network) (i : m.network.Ref)
    (pre : List CanMessage) (f : CanMessage) : Bool :=
  match Network.decodeMessage i (m.network.msg i)
      (Network.checked (m.network.msg i) (s.network.message i) pre f) with
  | .ok (st, _) => st.updateSignals
  | .error _ => false

theorem updatedBy_of_nil {s : ModelState m.network} {pre : List CanMessage} {f : CanMessage}
    (hnil : (m.network.msg i).decodeFunctions = []) : m.updatedBy s i pre f = true ↔
      ¬ Network.Filtered (m.network.msg i) (s.network.message i) pre f := by
  rw [updatedBy, Network.decodeMessage_of_nil hnil]
  exact Network.checked_updateSignals

variable {pre post : List CanMessage} {f : CanMessage}

theorem Stages.applied_received (g : Stages m input s s' trace)
    (hkeep : Network.RefusalKeeps (m.network.msg i))
    (honce : Network.Once i trace.rx.received)
    (hlast : Network.LastAccepted (m.network.msg i) (s.network.message i)
      (Network.framesOf i trace.rx.received) pre f post) :
    (g.applied.message i).buffer = m.frameStruct s i pre f ∧
      (g.applied.message i).bufferChecksum =
        simbusGenerateUidHash (m.frameStruct s i pre f) (m.network.msg i).bufferLen ∧
      (g.applied.message i).updateSignals = m.updatedBy s i pre f := by
  obtain ⟨out, hout⟩ := g.applied_message i
  rw [g.decoded_message honce, hlast.fold (.inr hkeep)] at hout
  obtain ⟨hbuffer, hsum, _⟩ := Network.decodeMessage_fields hout
  refine ⟨hbuffer.trans Network.checked_buffer, hsum.trans Network.checked_checksum, ?_⟩
  rw [updatedBy, hout]

theorem Stages.rx_value_received (g : Stages m input s s' trace)
    (hkeep : Network.RefusalKeeps (m.network.msg i))
    (honce : Network.Once i trace.rx.received)
    (hlast : Network.LastAccepted (m.network.msg i) (s.network.message i)
      (Network.framesOf i trace.rx.received) pre f post)
    {mi : m.network.Item} (hmi : mi ∈ m.network.items i) :
    (mi.signal.InRange (m.frameStruct s i pre f) →
      (m.updatedBy s i pre f = true ∨ m.network.IsMux mi) →
      trace.rx.state.signalVector mi.signalVectorIndex =
        mi.signal.funcs.decode (mi.signal.raw (m.frameStruct s i pre f))) ∧
    (¬ (mi.signal.InRange (m.frameStruct s i pre f) ∧
        (m.updatedBy s i pre f = true ∨ m.network.IsMux mi)) →
      trace.rx.state.signalVector mi.signalVectorIndex =
        m.decodedValue input s mi (Network.framesOf i trace.rx.received)) := by
  obtain ⟨hbuffer, _, hflag⟩ := g.applied_received hkeep honce hlast
  obtain ⟨hmem, rfl⟩ := Network.mem_items.mp hmi
  rw [g.rx_value_eq hmem honce, hbuffer, hflag]
  dsimp only
  constructor
  · intro hrange hread
    by_cases hup : m.updatedBy s mi.message pre f = true
    · rw [if_pos hup, NetworkSignal.readValue_of_inRange hrange]
    · have hmux := hread.resolve_left hup
      obtain ⟨v', hv'⟩ := hlast.mux (.inr hkeep) mi
        (m.copyIn input.scalar s.network.signalVector mi.signalVectorIndex)
      rw [if_neg hup, decodedValue, if_pos hmux, hv']
      exact NetworkSignal.readValue_of_inRange hrange v'
  · intro hno
    by_cases hup : m.updatedBy s mi.message pre f = true
    · have hout : ¬ mi.signal.InRange (m.frameStruct s mi.message pre f) :=
        fun hrange => hno ⟨hrange, .inl hup⟩
      rw [if_pos hup, NetworkSignal.readValue_of_not_inRange hout]
    · rw [if_neg hup]

end NetworkModel
end DseNetwork
