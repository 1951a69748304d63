import DseNetwork.Network.LostUpdate

/-
What the decode functions of a message are handed.

They read the payload of the message, which packing wrote for the values before the
frame arrived.  They judge the frame only where it is one that the model would have sent
itself.
-/

namespace DseNetwork
namespace NetworkModel

variable {m : NetworkModel} {input : StepInput} {s s' : ModelState m.network}
  {trace : StepTrace m.network} {i : m.network.Ref}

abbrev received (trace : StepTrace m.network) (i : m.network.Ref) : List CanMessage :=
  Network.framesOf i trace.rx.received

/-- Every decode function of message `i` that is called is handed the bytes of the last
frame that the message received. -/
def HandedLastFrame (trace : StepTrace m.network) (i : m.network.Ref) : Prop :=
  ∀ c ∈ trace.rx.decodeCalls, c.message = i →
    ∃ pre f, received trace i = pre ++ [f] ∧ c.payload = f.buffer

/-- A frame that a decode function rejects leaves the entries of the message as they were
copied in. -/
def RejectedKept (input : StepInput) (s : ModelState m.network) (trace : StepTrace m.network)
    (i : m.network.Ref) : Prop :=
  ∀ pre f, received trace i = pre ++ [f] →
    (∃ c ∈ trace.rx.decodeCalls, c.message = i ∧ c.payload = f.buffer ∧ c.rc = EBADMSG) →
    ∀ mi ∈ m.network.items i, trace.rx.state.signalVector mi.signalVectorIndex =
      m.copyIn input.scalar s.network.signalVector mi.signalVectorIndex

/-- A changed frame that all decode functions accept updates the signals in range. -/
def AcceptedUpdates (s : ModelState m.network) (trace : StepTrace m.network)
    (i : m.network.Ref) : Prop :=
  ∀ pre f, received trace i = pre ++ [f] →
    ¬ Network.Filtered (m.network.msg i) (s.network.message i) pre f →
    (∀ c ∈ trace.rx.decodeCalls, c.message = i → c.payload = f.buffer ∧ c.rc = 0) →
    ∀ mi ∈ m.network.items i, mi.signal.InRange (m.frameStruct s i pre f) →
      trace.rx.state.signalVector mi.signalVectorIndex =
        mi.signal.funcs.decode (mi.signal.raw (m.frameStruct s i pre f))

/-- The decode functions of message `i` decide about the frames it received. -/
structure DecodesReceived (input : StepInput) (s : ModelState m.network)
    (trace : StepTrace m.network) (i : m.network.Ref) : Prop where
  handed : HandedLastFrame trace i
  rejected : RejectedKept input s trace i
  accepted : AcceptedUpdates s trace i

/-- The last frame of message `i` is filtered as a repetition, or has the bytes that the
payload of the message had before the step, which no decode function but the last
changes. -/
def PayloadCurrent (s : ModelState m.network) (frames : List CanMessage)
    (i : m.network.Ref) : Prop :=
  ∀ pre f, frames = pre ++ [f] →
    let nm := m.network.msg i
    let st := s.network.message i
    Network.Filtered nm st pre f ∨
      (st.payload.bytes nm.payloadLen = f.buffer ∧
        Network.PassesOn nm 0 nm.decodeFunctions st.decodeData st.payload)

/-- The frames of message `i` bring nothing new for its mux signal, if it has one. -/
def MuxKept (m : NetworkModel) (input : StepInput) (s : ModelState m.network)
    (frames : List CanMessage) (i : m.network.Ref) : Prop :=
  ∀ mi ∈ m.network.items i, m.network.IsMux mi →
    m.decodedValue input s mi frames =
      m.copyIn input.scalar s.network.signalVector mi.signalVectorIndex

/-- The calls of the decode functions of message `i`: none without a frame or for a
filtered one, else those of the loop over the functions on the payload of before. -/
theorem Stages.decodeCalls (g : Stages m input s s' trace) (hs : EndOfStep m s)
    (honce : Network.Once i trace.rx.received)
    (haccept : ∀ f ∈ received trace i, ∀ b,
      (Network.unpackFrame (m.network.msg i) f b).rc = 0) :
    ∃ out, (∀ c, (c ∈ trace.rx.decodeCalls ∧ c.message = i) ↔ c ∈ out) ∧
      (received trace i = [] → out = []) ∧
      ∀ pre f, received trace i = pre ++ [f] →
        let st := Network.checked (m.network.msg i) (s.network.message i) pre f
        g.decoded.message i = st ∧
          (Network.Filtered (m.network.msg i) (s.network.message i) pre f →
            out = [] ∧ g.applied.message i = st) ∧
          (¬ Network.Filtered (m.network.msg i) (s.network.message i) pre f →
            Network.decodeLoop i (m.network.msg i) 0 (m.network.msg i).decodeFunctions st =
              .ok (g.applied.message i, out)) := by
  obtain ⟨out, hout, hcalls⟩ := Network.functionApplyDecode_calls g.apply i
  refine ⟨out, hcalls, fun hnone => ?_, fun pre f hlast => ?_⟩
  · have hidle : g.decoded.message i = s.network.message i := by
      rw [g.decoded_message honce, show Network.framesOf i trace.rx.received = [] from hnone]
      rfl
    rw [hidle, Network.decodeMessage, if_pos (hs.flags i).2] at hout
    exact (Prod.mk.inj (Except.ok.inj hout)).2.symm
  · have hacc : Network.LastAccepted (m.network.msg i) (s.network.message i)
        (Network.framesOf i trace.rx.received) pre f [] :=
      ⟨hlast, haccept f (by rw [hlast]; simp) _, fun g hg => absurd hg List.not_mem_nil⟩
    have hdecoded := (g.decoded_message honce).trans (hacc.fold (.inl rfl))
    rw [hdecoded, Network.decodeMessage] at hout
    refine ⟨hdecoded, fun hfiltered => ?_, fun hnew => ?_⟩
    · have hoff : (Network.checked (m.network.msg i) (s.network.message i) pre
          f).updateSignals = false := by
        rw [Bool.eq_false_iff]
        exact fun h => Network.checked_updateSignals.mp h hfiltered
      rw [if_pos hoff] at hout
      obtain ⟨hst, hnil⟩ := Prod.mk.inj (Except.ok.inj hout)
      exact ⟨hnil.symm, hst.symm⟩
    · have hon := Network.checked_updateSignals.mpr hnew
      rwa [if_neg (by simp [hon])] at hout

theorem Stages.checked_payload (g : Stages m input s s' trace) {pre : List CanMessage}
    {f : CanMessage}
    (hdecoded : g.decoded.message i =
      Network.checked (m.network.msg i) (s.network.message i) pre f) :
    (Network.checked (m.network.msg i) (s.network.message i) pre f).payload =
        (s.network.message i).payload ∧
      (Network.checked (m.network.msg i) (s.network.message i) pre f).decodeData =
        (s.network.message i).decodeData := by
  obtain ⟨hpayload, _, _, hdata⟩ := Network.decodeFromBus_keepsTx g.decode i
  rw [← hdecoded]
  exact ⟨hpayload, hdata⟩

theorem Stages.handed_iff (g : Stages m input s s' trace) (hs : EndOfStep m s)
    (honce : Network.Once i trace.rx.received)
    (hsome : ∃ nf ∈ (m.network.msg i).decodeFunctions, nf.function.isSome)
    (haccept : ∀ f ∈ received trace i, ∀ b,
      (Network.unpackFrame (m.network.msg i) f b).rc = 0) :
    HandedLastFrame trace i ↔ PayloadCurrent s (received trace i) i := by
  obtain ⟨out, hcalls, hnone, hlast⟩ := g.decodeCalls hs honce haccept
  have hhanded : HandedLastFrame trace i ↔
      ∀ c ∈ out, ∃ pre f, received trace i = pre ++ [f] ∧ c.payload = f.buffer := by
    constructor
    · intro h c hc
      obtain ⟨hmem, hmsg⟩ := (hcalls c).mpr hc
      exact h c hmem hmsg
    · intro h c hmem hmsg
      exact h c ((hcalls c).mp ⟨hmem, hmsg⟩)
  rw [hhanded]
  rcases List.eq_nil_or_concat (received trace i) with hnil | ⟨pre, f, hframes⟩
  · rw [hnone hnil, hnil]
    refine ⟨fun _ pre f h => ?_, fun _ c hc => absurd hc List.not_mem_nil⟩
    exact absurd h (by simp)
  · rw [List.concat_eq_append] at hframes
    obtain ⟨hdecoded, hfiltered, hnew⟩ := hlast pre f hframes
    obtain ⟨hpayload, hdata⟩ := g.checked_payload hdecoded
    -- The last frame is the only candidate.
    have hcalled : (∀ c ∈ out, ∃ pre f, received trace i = pre ++ [f] ∧
        c.payload = f.buffer) ↔ ∀ c ∈ out, c.payload = f.buffer := by
      refine forall₂_congr (fun c _ => ⟨?_, fun h => ⟨pre, f, hframes, h⟩⟩)
      rintro ⟨pre', f', hframes', h⟩
      rw [hframes] at hframes'
      rw [h, List.singleton_inj.mp (List.append_inj' hframes' rfl).2]
    have hcurrent : PayloadCurrent s (received trace i) i ↔
        Network.Filtered (m.network.msg i) (s.network.message i) pre f ∨
          ((s.network.message i).payload.bytes (m.network.msg i).payloadLen = f.buffer ∧
            Network.PassesOn (m.network.msg i) 0 (m.network.msg i).decodeFunctions
              (s.network.message i).decodeData (s.network.message i).payload) := by
      refine ⟨fun h => h pre f hframes, fun h pre' f' hframes' => ?_⟩
      rw [hframes] at hframes'
      obtain ⟨rfl, hlast⟩ := List.append_inj' hframes' rfl
      rwa [← List.singleton_inj.mp hlast]
    rw [hcalled, hcurrent]
    by_cases hfilter : Network.Filtered (m.network.msg i) (s.network.message i) pre f
    · rw [(hfiltered hfilter).1]
      exact ⟨fun _ => .inl hfilter, fun _ c hc => absurd hc List.not_mem_nil⟩
    · rw [Network.decodeLoop_handed (hnew hfilter) hsome, hpayload, hdata]
      exact ⟨.inr, fun h => h.resolve_left hfilter⟩

theorem Stages.rejectedKept (g : Stages m input s s' trace) (hs : EndOfStep m s)
    (honce : Network.Once i trace.rx.received)
    (haccept : ∀ f ∈ received trace i, ∀ b,
      (Network.unpackFrame (m.network.msg i) f b).rc = 0)
    (hmux : MuxKept m input s (received trace i) i) : RejectedKept input s trace i := by
  obtain ⟨out, hcalls, _, hlast⟩ := g.decodeCalls hs honce haccept
  rintro pre f hframes ⟨c, hmem, hmsg, _, hbad⟩ mi hmi
  obtain ⟨hdecoded, hfiltered, hnew⟩ := hlast pre f hframes
  have hflag : ¬ (g.applied.message i).updateSignals = true := by
    by_cases hfilter : Network.Filtered (m.network.msg i) (s.network.message i) pre f
    · rw [(hfiltered hfilter).2]
      exact fun h => Network.checked_updateSignals.mp h hfilter
    · intro h
      have hno := ((Network.decodeLoop_calls (hnew hfilter)).2.2.mp h).2
      exact hno ⟨c, (hcalls c).mp ⟨hmem, hmsg⟩, hbad⟩
  obtain ⟨hml, rfl⟩ := Network.mem_items.mp hmi
  rw [g.rx_value_eq hml honce]
  dsimp only
  rw [if_neg hflag]
  by_cases hismux : m.network.IsMux mi
  · exact hmux mi hmi hismux
  · rw [decodedValue, if_neg hismux]

theorem Stages.acceptedUpdates (g : Stages m input s s' trace) (hs : EndOfStep m s)
    (honce : Network.Once i trace.rx.received)
    (haccept : ∀ f ∈ received trace i, ∀ b,
      (Network.unpackFrame (m.network.msg i) f b).rc = 0) : AcceptedUpdates s trace i := by
  obtain ⟨out, hcalls, _, hlast⟩ := g.decodeCalls hs honce haccept
  intro pre f hframes hnew hverdict mi hmi hrange
  obtain ⟨hdecoded, _, hloop⟩ := hlast pre f hframes
  have hrun := hloop hnew
  have hflag : (g.applied.message i).updateSignals = true := by
    refine (Network.decodeLoop_calls hrun).2.2.mpr
      ⟨Network.checked_updateSignals.mpr hnew, ?_⟩
    rintro ⟨c, hc, hbad⟩
    obtain ⟨hmem, hmsg⟩ := (hcalls c).mpr hc
    rw [(hverdict c hmem hmsg).2] at hbad
    exact absurd hbad (by decide)
  have hbuffer : (g.applied.message i).buffer = m.frameStruct s i pre f :=
    (Network.decodeLoop_fields hrun).1.trans Network.checked_buffer
  obtain ⟨hml, rfl⟩ := Network.mem_items.mp hmi
  rw [g.rx_value_eq hml honce]
  dsimp only
  rw [if_pos hflag, hbuffer, NetworkSignal.readValue_of_inRange hrange]

/-- In every step of a run, the decode functions of a message are handed the last frame
exactly when the message already had it for a payload or the frame is filtered; where
that is so, and the frames do not change a mux signal of the message, the functions
decide about the frame. -/
theorem handedLastFrame_iff {s₀ sₙ : ModelState m.network} {l : List (ModelStep m.network)}
    (h0 : m.system.init s₀) (hrun : m.system.Run s₀ l sₙ) {e : ModelStep m.network}
    (he : e ∈ l) (hagain : ∀ j, Network.UnpacksAgain (m.network.msg j))
    (hsome : ∃ nf ∈ (m.network.msg i).decodeFunctions, nf.function.isSome)
    (haccept : ∀ f ∈ received e.output i, ∀ b,
      (Network.unpackFrame (m.network.msg i) f b).rc = 0) :
    (HandedLastFrame e.output i ↔ PayloadCurrent e.before (received e.output i) i) ∧
      (PayloadCurrent e.before (received e.output i) i →
        MuxKept m e.input e.before (received e.output i) i →
          DecodesReceived e.input e.before e.output i) := by
  obtain ⟨hreach, hstep⟩ := hrun.step_mem (.init h0) he
  obtain ⟨g⟩ := modelStep_ok hstep
  have hs := reachable_endOfStep m hreach
  have honce := g.once hagain i
  have hiff := g.handed_iff hs honce hsome haccept
  exact ⟨hiff, fun hcurrent hmux => ⟨hiff.mpr hcurrent, g.rejectedKept hs honce haccept hmux,
    g.acceptedUpdates hs honce haccept⟩⟩

/-! ## A decode function that rejects a value -/

/-- A check of the payload that rejects the value seven. -/
def rejectSeven : NetworkFunction where
  name := "reject_seven"
  annotations := []
  function := some (fun _ data payload _ =>
    { rc := if payload 0 = 7#8 then EBADMSG else 0
      payload := payload
      data := data })

def checkedByte : NetworkModel :=
  .alone (.ofMessages [{ plainMessage "M" 0x1a0#32 1 [byteSignal "s" 0 (fun _ => true)] with
    cycleTimeMs := 5
    decodeFunctions := [rejectSeven] }] (by simp [plainMessage]))

def checkedByteMessage : checkedByte.network.Ref := ⟨0, Nat.zero_lt_one⟩

theorem checkedByte_unpacksAgain (i : checkedByte.network.Ref) :
    Network.UnpacksAgain (checkedByte.network.msg i) := by
  have hall : ∀ nm ∈ checkedByte.network.messages, nm.unpackFunc = some (copyFields 1) := by
    simp [checkedByte, NetworkModel.alone, Network.ofMessages, plainMessage]
  exact Network.unpacksAgain_copyFields (hall _ (List.getElem_mem i.isLt))

theorem checkedByte_accepts (b : Byte) (buffer : Memory) :
    (Network.unpackFrame (checkedByte.network.msg checkedByteMessage) (byteFrame b) buffer).rc =
      0 := rfl

/-- After a step that sends a seven, a five and a seven are received: the seven is handed
to the function, which rejects it. -/
theorem handedLastFrame_sameBytes :
    ∃ e ∈ checkedByte.steps [.ofFrames [byteFrame 7#8] 0,
        .ofFrames [byteFrame 5#8, byteFrame 7#8] (1 / 1000)]
        (checkedByte.modelCreate fun _ => ⟨0#64⟩),
      (∃ c ∈ e.output.rx.decodeCalls,
        c.message = checkedByteMessage ∧ c.payload = [7#8] ∧ c.rc = EBADMSG) ∧
        DecodesReceived e.input e.before e.output checkedByteMessage := by
  obtain ⟨s, hrun, e, he, hframes, hcall, hpayload⟩ := checkedByte.steps_check
    [.ofFrames [byteFrame 7#8] 0, .ofFrames [byteFrame 5#8, byteFrame 7#8] (1 / 1000)]
    (checkedByte.modelCreate fun _ => ⟨0#64⟩)
    (fun e => received e.output checkedByteMessage = [byteFrame 5#8, byteFrame 7#8] ∧
      (∃ c ∈ e.output.rx.decodeCalls,
        c.message = checkedByteMessage ∧ c.payload = [7#8] ∧ c.rc = EBADMSG) ∧
      (e.before.network.message checkedByteMessage).payload.bytes 1 = [7#8])
    (by decide +kernel)
  have haccept : ∀ f ∈ received e.output checkedByteMessage, ∀ b,
      (Network.unpackFrame (checkedByte.network.msg checkedByteMessage) f b).rc = 0 := by
    intro f hf b
    rw [hframes, List.mem_pair] at hf
    rcases hf with rfl | rfl
    · exact checkedByte_accepts 5#8 b
    · exact checkedByte_accepts 7#8 b
  have hnomux : ∀ mi ∈ checkedByte.network.items checkedByteMessage,
      ¬ checkedByte.network.IsMux mi := by decide +kernel
  refine ⟨e, he, hcall, (handedLastFrame_iff ⟨_, rfl⟩ hrun he checkedByte_unpacksAgain
    ⟨rejectSeven, List.mem_singleton_self _, rfl⟩ haccept).2 ?_ ?_⟩
  · intro pre f h
    rw [hframes] at h
    have hsplit : [byteFrame 5#8] ++ [byteFrame 7#8] = pre ++ [f] := h
    obtain ⟨-, hlast⟩ := List.append_inj' hsplit rfl
    rw [← List.singleton_inj.mp hlast]
    exact .inr ⟨hpayload, fun h => by simp at h, trivial⟩
  · intro mi hmi hmux
    exact absurd hmux (hnomux mi hmi)

/-- A frame that the function would reject is not handed to it. -/
theorem not_handedLastFrame : ¬ ∀ (m : NetworkModel) (s₀ sₙ : ModelState m.network)
    (l : List (ModelStep m.network)), m.system.init s₀ → m.system.Run s₀ l sₙ →
    ∀ e ∈ l, (∀ j, Network.UnpacksAgain (m.network.msg j)) → ∀ i,
    (∃ nf ∈ (m.network.msg i).decodeFunctions, nf.function.isSome) →
    (∀ f ∈ received e.output i, ∀ b,
      (Network.unpackFrame (m.network.msg i) f b).rc = 0) →
    DecodesReceived e.input e.before e.output i := by
  intro h
  obtain ⟨s, hrun, e, he, hframes, c, hc, hmsg, hpayload⟩ := checkedByte.steps_check
    [.ofFrames [byteFrame 7#8] 0] (checkedByte.modelCreate fun _ => ⟨0#64⟩)
    (fun e => received e.output checkedByteMessage = [byteFrame 7#8] ∧
      ∃ c ∈ e.output.rx.decodeCalls, c.message = checkedByteMessage ∧ c.payload = [0#8])
    (by decide +kernel)
  have haccept : ∀ f ∈ received e.output checkedByteMessage, ∀ b,
      (Network.unpackFrame (checkedByte.network.msg checkedByteMessage) f b).rc = 0 := by
    intro f hf b
    rw [hframes, List.mem_singleton] at hf
    rw [hf]
    exact checkedByte_accepts 7#8 b
  obtain ⟨pre, f, hlast, hbytes⟩ := (h checkedByte _ s _ ⟨_, rfl⟩ hrun e he
    checkedByte_unpacksAgain checkedByteMessage ⟨rejectSeven, List.mem_singleton_self _, rfl⟩
    haccept).handed
      c hc hmsg
  rw [hframes, List.singleton_eq_append_iff] at hlast
  obtain ⟨rfl, hf⟩ | ⟨_, hf⟩ := hlast
  · rw [List.singleton_inj.mp hf, hpayload] at hbytes
    exact absurd hbytes (by decide)
  · simp at hf

end NetworkModel
end DseNetwork
