import DseNetwork.Network.LocalChange

/-
Steps with the network off.

Transmission is withdrawn in `network_function_apply_encode`, after packing and the
alarms have marked messages for it.  What is left of a step is `listenStep`, the step
without the two calls that send.  The marks that it never clears make no difference to
anything else, so states are compared without them.
-/

namespace DseNetwork

/-! ## States without their marks -/

def MessageState.dropTx (st : MessageState) : MessageState := { st with needsTx := false }

/-- A state without the marks for transmission. -/
def NetworkState.dropTx {ι : Type} (s : NetworkState ι) : NetworkState ι :=
  s.mapMessages (fun _ st => st.dropTx)

namespace Network

variable {n : Network}

theorem modifyMessage_dropTx {s : n.State} {i : n.Ref} {f : MessageState → MessageState}
    (hf : ∀ st : MessageState, f st.dropTx = (f st).dropTx) :
    s.dropTx.modifyMessage i f = (s.modifyMessage i f).dropTx := by
  have hmessage : (s.dropTx.modifyMessage i f).message = (s.modifyMessage i f).dropTx.message := by
    funext j
    by_cases hij : j = i
    · subst hij
      rw [modifyMessage_self]
      show f (s.message j).dropTx = ((s.modifyMessage j f).message j).dropTx
      rw [modifyMessage_self, hf]
    · rw [modifyMessage_of_ne hij]
      show (s.message j).dropTx = ((s.modifyMessage i f).message j).dropTx
      rw [modifyMessage_of_ne hij]
  show NetworkState.mk _ _ _ _ = NetworkState.mk _ _ _ _
  rw [NetworkState.mk.injEq]
  exact ⟨hmessage, rfl, rfl, rfl⟩

theorem checkMessage_dropTx (nm : NetworkMessage) (st : MessageState) :
    checkMessage nm st.dropTx = (checkMessage nm st).dropTx := by
  by_cases h : simbusGenerateUidHash st.buffer nm.bufferLen = st.bufferChecksum
  · simp [checkMessage, MessageState.dropTx, h]
  · simp [checkMessage, MessageState.dropTx, h]

theorem readMux_dropTx (i : n.Ref) (s : n.State) :
    n.readMux i s.dropTx = (n.readMux i s).dropTx := by
  unfold readMux
  cases n.muxMi i <;> rfl

theorem processContained_dropTx
    {call : n.Ref → n.State → Except Fault (n.State × List n.Ref)}
    (hcall : ∀ k s, call k s.dropTx = (call k s).map (fun r => (r.1.dropTx, r.2)))
    (i : n.Ref) (frameId : BitVec 32) (s : n.State) :
    n.processContained call i frameId s.dropTx =
      (n.processContained call i frameId s).map (fun r => (r.1.dropTx, r.2)) := by
  rw [processContained_eq, processContained_eq, readMux_dropTx]
  have hnext : n.nextMessage i frameId (n.readMux i s).dropTx =
      n.nextMessage i frameId (n.readMux i s) := rfl
  rw [hnext]
  cases n.nextMessage i frameId (n.readMux i s) with
  | none => rfl
  | some k => exact hcall k _

/-- Reception neither reads nor writes the marks. -/
theorem processMessage_dropTx (stack : Nat) (i : n.Ref) (msg : CanMessage) (s : n.State) :
    n.processMessage stack i msg s.dropTx =
      (n.processMessage stack i msg s).map (fun r => (r.1.dropTx, r.2)) := by
  induction stack generalizing i s with
  | zero => rfl
  | succ stack ih =>
    rw [processMessage, processMessage]
    cases (n.msg i).unpackFunc with
    | none => rfl
    | some unpack =>
      have hbuffer : (s.dropTx.message i).buffer = (s.message i).buffer := rfl
      dsimp only
      rw [hbuffer, modifyMessage_dropTx (f := fun st => { st with
        buffer := (unpack (s.message i).buffer msg.mem msg.len).dst }) (fun _ => rfl)]
      by_cases hrc : (unpack (s.message i).buffer msg.mem msg.len).rc ≠ 0
      · rw [if_pos hrc, if_pos hrc]
        rfl
      · rw [if_neg hrc, if_neg hrc, processContained_dropTx (fun k s => ih k s)]
        cases n.processContained (fun k s => n.processMessage stack k msg s) i msg.frameId
          (s.modifyMessage i fun st => { st with
            buffer := (unpack (s.message i).buffer msg.mem msg.len).dst }) with
        | error e => rfl
        | ok r =>
          show Except.ok (r.1.dropTx.modifyMessage i (checkMessage (n.msg i)), i :: r.2) = _
          rw [modifyMessage_dropTx (checkMessage_dropTx _)]
          rfl

theorem decodeFromBus_dropTx (stack : Nat) (frames : List CanMessage) (s : n.State) :
    n.decodeFromBus stack frames s.dropTx =
      (n.decodeFromBus stack frames s).map (fun r => (r.1.dropTx, r.2)) := by
  have hframe : ∀ (msg : CanMessage) (s : n.State), n.processCanFrame stack msg s.dropTx =
      (n.processCanFrame stack msg s).map (fun r => (r.1.dropTx, r.2)) := by
    intro msg s
    unfold processCanFrame
    cases n.findMessage msg.frameId (List.finRange n.messages.length) with
    | none => rfl
    | some i => exact processMessage_dropTx stack i msg s
  induction frames generalizing s with
  | nil => rfl
  | cons msg rest ih =>
    rw [decodeFromBus, decodeFromBus, hframe]
    cases n.processCanFrame stack msg s with
    | error e => rfl
    | ok r =>
      show (n.decodeFromBus stack rest r.1.dropTx >>= _) = _
      rw [ih]
      show _ = Except.map _ (n.decodeFromBus stack rest r.1 >>= _)
      cases n.decodeFromBus stack rest r.1 with
      | error e => rfl
      | ok r' => rfl

theorem decodeLoop_dropTx {ι : Type} (i : ι) (nm : NetworkMessage) (k : Nat)
    (fs : List NetworkFunction) (st : MessageState) :
    decodeLoop i nm k fs st.dropTx =
      (decodeLoop i nm k fs st).map (fun r => (r.1.dropTx, r.2)) := by
  induction fs generalizing k st with
  | nil => rfl
  | cons nf rest ih =>
    cases hf : nf.function with
    | none =>
      rw [decodeLoop, decodeLoop, hf]
      exact ih (k + 1) st
    | some f =>
      have hgo := ih (k + 1)
        { st with
          payload := (f nf.annotations (st.decodeData k) st.payload nm.payloadLen).payload
          decodeData := Function.update st.decodeData k
            (f nf.annotations (st.decodeData k) st.payload nm.payloadLen).data
          updateSignals := st.updateSignals &&
            (f nf.annotations (st.decodeData k) st.payload nm.payloadLen).rc = 0 }
      rw [decodeLoop_some hf i nm k rest st]
      by_cases hrc : (f nf.annotations (st.decodeData k) st.payload nm.payloadLen).rc = 0 ∨
          (f nf.annotations (st.decodeData k) st.payload nm.payloadLen).rc = EBADMSG
      · refine (decodeLoop_some hf i nm k rest st.dropTx).trans ((if_pos hrc).trans ?_)
        dsimp only
        rw [if_pos hrc]
        refine (congrArg (Except.map _) hgo).trans ?_
        cases decodeLoop i nm (k + 1) rest _ with
        | error e => rfl
        | ok r => rfl
      · refine (decodeLoop_some hf i nm k rest st.dropTx).trans ((if_neg hrc).trans ?_)
        dsimp only
        rw [if_neg hrc]
        rfl

theorem functionApplyDecode_dropTx (s : n.State) :
    n.functionApplyDecode s.dropTx =
      (n.functionApplyDecode s).map (fun r => (r.1.dropTx, r.2)) := by
  have hbody : ∀ (i : n.Ref) (st : MessageState), decodeMessage i (n.msg i) st.dropTx =
      (decodeMessage i (n.msg i) st).map (fun r => (r.1.dropTx, r.2)) := by
    intro i st
    unfold decodeMessage
    by_cases hoff : st.updateSignals = false
    · rw [if_pos hoff]
      exact if_pos hoff
    · rw [if_neg hoff]
      exact (if_neg hoff).trans (decodeLoop_dropTx i _ 0 _ st)
  rw [functionApplyDecode, functionApplyDecode]
  show (Sweep.sweep _ _ (fun i => (s.message i).dropTx) >>= _) = _
  rw [Sweep.sweep_map hbody]
  cases Sweep.sweep (fun i => decodeMessage i (n.msg i)) (List.finRange n.messages.length)
    s.message with
  | error e => rfl
  | ok r => rfl

/-- With the network off the marks are withdrawn, and no function is called. -/
theorem functionApplyEncode_off (s : n.State) :
    n.functionApplyEncode true s = .ok (s.dropTx, []) := by
  have hbody : ∀ i, encodeMessage true i (n.msg i) (s.message i) =
      .ok ((s.message i).dropTx, []) := fun i => rfl
  obtain ⟨message, calls, hsweep⟩ := Sweep.sweep_complete (List.nodup_finRange _)
    (fun i _ => ⟨_, _, hbody i⟩)
  obtain ⟨_, hin, hcalls⟩ := Sweep.sweep_ok (List.nodup_finRange _) hsweep
  have hmessage : message = fun i => (s.message i).dropTx := by
    funext i
    have hcell := hin i (List.mem_finRange i)
    rw [hbody] at hcell
    exact (Prod.mk.inj (Except.ok.inj hcell)).1.symm
  have hnone : calls = [] := by
    rw [hcalls, List.flatMap_eq_nil_iff]
    exact fun i _ => Sweep.emitted_of_ok (hbody i)
  rw [functionApplyEncode, hsweep, hmessage, hnone]
  rfl

theorem encodeToBus_dropTx (s : n.State) : n.encodeToBus s.dropTx = (s.dropTx, []) := by
  refine Prod.ext rfl ?_
  exact List.filterMap_eq_nil_iff.mpr (fun i _ => rfl)

theorem marshalMessagesToSignals_dropTx (l : List n.Item) (s : n.State) :
    n.marshalMessagesToSignals false l s.dropTx =
      (n.marshalMessagesToSignals false l s).dropTx := by
  rw [marshalMessagesToSignals_fold, marshalMessagesToSignals_fold]
  rfl

theorem marshalSignalsToMessages_dropTx (l : List n.Item) (s : n.State) :
    n.marshalSignalsToMessages l s.dropTx = (n.marshalSignalsToMessages l s).dropTx := by
  induction l generalizing s with
  | nil => rfl
  | cons mi rest ih =>
    have hfirst : n.marshalSignalToMessage s.dropTx mi =
        (n.marshalSignalToMessage s mi).dropTx := modifyMessage_dropTx (fun _ => rfl)
    show n.marshalSignalsToMessages rest (n.marshalSignalToMessage s.dropTx mi) = _
    rw [hfirst]
    exact ih _

theorem packMessages_dropTx (s : n.State) :
    (n.packMessages s.dropTx).dropTx = (n.packMessages s).dropTx := by
  have hbody : ∀ (nm : NetworkMessage) (st : MessageState),
      (packMessage nm st.dropTx).dropTx = (packMessage nm st).dropTx := by
    intro nm st
    unfold packMessage MessageState.dropTx
    cases nm.packFunc with
    | none => rfl
    | some pack =>
      dsimp only
      by_cases hsum : simbusGenerateUidHash st.buffer nm.bufferLen ≠ st.bufferChecksum
      · rw [if_pos hsum, if_pos hsum]
        by_cases hcyclic : nm.cycleTimeMs ≠ 0
        · rw [if_pos hcyclic, if_pos hcyclic]
        · rw [if_neg hcyclic, if_neg hcyclic]
      · rw [if_neg hsum, if_neg hsum]
  show NetworkState.mk _ _ _ _ = NetworkState.mk _ _ _ _
  rw [NetworkState.mk.injEq]
  exact ⟨funext (fun i => hbody _ _), rfl, rfl, rfl⟩

theorem scheduleTick_dropTx (s : n.State) :
    (n.scheduleTick s.dropTx).dropTx = (n.scheduleTick s).dropTx := by
  have hbody : ∀ (tick : BitVec 32) (c a : Nat) (st : MessageState),
      (scheduleItemTick tick c a st.dropTx).1 = (scheduleItemTick tick c a st).1 ∧
        (scheduleItemTick tick c a st.dropTx).2.dropTx =
          (scheduleItemTick tick c a st).2.dropTx := by
    intro tick c a st
    unfold scheduleItemTick
    by_cases htick : tick = 0#32
    · simp [htick, MessageState.dropTx]
    · rcases a with _ | _ | a
      · simp [htick, MessageState.dropTx]
      · by_cases hc : c = 0 <;> simp [htick, hc, MessageState.dropTx]
      · simp [htick, MessageState.dropTx]
  show NetworkState.mk _ _ _ _ = NetworkState.mk _ _ _ _
  rw [NetworkState.mk.injEq]
  refine ⟨funext (fun i => ?_), rfl, funext (fun i => ?_), rfl⟩
  · show MessageState.dropTx (if _ then _ else _) = MessageState.dropTx (if _ then _ else _)
    by_cases hevent : (n.msg i).cycleTimeMs = 0
    · rw [if_pos hevent, if_pos hevent]
      rfl
    · rw [if_neg hevent, if_neg hevent]
      exact (hbody _ _ _ _).2
  · show (if _ then _ else _) = if _ then _ else _
    by_cases hevent : (n.msg i).cycleTimeMs = 0
    · rw [if_pos hevent, if_pos hevent]
      rfl
    · rw [if_neg hevent, if_neg hevent]
      exact (hbody _ _ _ _).1

theorem scheduleTicks_dropTx (k : Nat) (s : n.State) :
    (n.scheduleTicks k s.dropTx).dropTx = (n.scheduleTicks k s).dropTx := by
  induction k with
  | zero => rfl
  | succ k ih =>
    rw [scheduleTicks_succ, scheduleTicks_succ, ← scheduleTick_dropTx, ih, scheduleTick_dropTx]

end Network

namespace NetworkModel

variable {m : NetworkModel} {input : StepInput} {s s' s₀ : ModelState m.network}
  {trace : StepTrace m.network} {i : m.network.Ref}

/-! ## A model that only listens -/

/-- The TX part of `model_step` without `network_function_apply_encode` and
`network_encode_to_bus`. -/
def listenTx (m : NetworkModel) (s : m.network.State) : m.network.State :=
  m.network.marshalMessagesToSignals false m.network.marshalList
    (m.network.packMessages (m.network.marshalSignalsToMessages m.network.marshalList s))

/-- `model_step` as it would be without encode functions and transmission. -/
def listenStep (m : NetworkModel) (input : StepInput) (s : ModelState m.network) :
    Except Fault (ModelState m.network) := do
  let rx ← m.receive input s.network
  let net := m.network.scheduleTicks (initialTicks input.modelTime s.initTickDone) rx.state
  let ticks := stepTicks input.modelTime s.lastTick
  let net := m.listenTx (m.network.scheduleTicks ticks.toNat net)
  .ok {
    network := net
    initTickDone := s.initTickDone || decide (input.modelTime = 0)
    lastTick := if 0 < ticks then input.modelTime else s.lastTick
    scalar := m.copyOut net.signalVector input.scalar }

def listening (m : NetworkModel) : System (ModelState m.network) StepInput Unit where
  init s := ∃ scalar, s = m.modelCreate scalar
  next s input _ s' := m.listenStep input s = .ok s'

/-- Two states of the model that differ in the marks for transmission at most. -/
def SameButTx (s s₀ : ModelState m.network) : Prop :=
  { s with network := s.network.dropTx } = { s₀ with network := s₀.network.dropTx }

theorem sameButTx_iff : SameButTx s s₀ ↔ s.network.dropTx = s₀.network.dropTx ∧
    s.initTickDone = s₀.initTickDone ∧ s.lastTick = s₀.lastTick ∧ s.scalar = s₀.scalar :=
  iff_of_eq (ModelState.mk.injEq _ _ _ _ _ _ _ _)

theorem receive_dropTx (m : NetworkModel) (input : StepInput) (s : m.network.State) :
    m.receive input s.dropTx = (m.receive input s).map
      (fun rx => { rx with state := rx.state.dropTx }) := by
  rw [receive, receive]
  show (m.network.decodeFromBus m.stack input.frames (NetworkState.dropTx
    { s with signalVector := m.copyIn input.scalar s.signalVector }) >>= _) = _
  rw [Network.decodeFromBus_dropTx]
  cases m.network.decodeFromBus m.stack input.frames
    { s with signalVector := m.copyIn input.scalar s.signalVector } with
  | error e => rfl
  | ok r =>
    show (m.network.functionApplyDecode r.1.dropTx >>= _) = _
    rw [Network.functionApplyDecode_dropTx]
    show _ = Except.map _ (m.network.functionApplyDecode r.1 >>= _)
    cases m.network.functionApplyDecode r.1 with
    | error e => rfl
    | ok r' =>
      show Except.ok (Reception.mk (m.network.marshalMessagesToSignals false
        m.network.marshalList r'.1.dropTx) r.2 r'.2) = _
      rw [Network.marshalMessagesToSignals_dropTx]
      rfl

theorem listenTx_dropTx (s : m.network.State) :
    (m.listenTx s.dropTx).dropTx = (m.listenTx s).dropTx := by
  rw [listenTx, listenTx, Network.marshalSignalsToMessages_dropTx,
    ← Network.marshalMessagesToSignals_dropTx, Network.packMessages_dropTx,
    Network.marshalMessagesToSignals_dropTx]

/-- With the network off the TX part sends nothing, calls no encode function, and leaves
what a model that only listens has, but for the marks. -/
theorem transmit_off (s : m.network.State) :
    m.transmit true s =
      .ok { state := (m.listenTx s).dropTx, encodeCalls := [], sent := [] } := by
  rw [transmit]
  show (m.network.functionApplyEncode true _ >>= _) = _
  rw [Network.functionApplyEncode_off]
  show Except.ok (Transmission.mk (m.network.marshalMessagesToSignals false
    m.network.marshalList (m.network.encodeToBus (NetworkState.dropTx _)).1) _
    (m.network.encodeToBus (NetworkState.dropTx _)).2) = _
  rw [Network.encodeToBus_dropTx, Network.marshalMessagesToSignals_dropTx]
  rfl

/-- A step with the network off sends nothing, calls no encode function, and goes on as
the model that only listens does. -/
theorem modelStep_off (hstep : m.modelStep input s = .ok (s', trace))
    (hoff : m.netOff input.scalar = true) (hsame : SameButTx s s₀) :
    trace.tx.sent = [] ∧ trace.tx.encodeCalls = [] ∧
      ∃ s₀', m.listenStep input s₀ = .ok s₀' ∧ SameButTx s' s₀' := by
  obtain ⟨hnet, htick, hlast, _⟩ := sameButTx_iff.mp hsame
  rw [modelStep] at hstep
  obtain ⟨rx, hrx, hstep⟩ := bind_eq_ok.mp hstep
  dsimp only at hstep
  rw [hoff, transmit_off] at hstep
  cases hstep
  refine ⟨rfl, rfl, ?_⟩
  have hdrop : (m.receive input s₀.network).map (fun rx => { rx with state := rx.state.dropTx }) =
      .ok { rx with state := rx.state.dropTx } := by
    rw [← receive_dropTx, ← hnet, receive_dropTx, hrx]
    rfl
  obtain ⟨rx₀, hrx₀, hsim⟩ := map_eq_ok.mp hdrop
  have hstate : rx₀.state.dropTx = rx.state.dropTx := (Reception.mk.injEq _ _ _ _ _ _ |>.mp hsim).1
  have hticks : ∀ k (a b : m.network.State), a.dropTx = b.dropTx →
      (m.network.scheduleTicks k a).dropTx = (m.network.scheduleTicks k b).dropTx := by
    intro k a b hab
    rw [← Network.scheduleTicks_dropTx, hab, Network.scheduleTicks_dropTx]
  have hend : ∀ a b : m.network.State, a.dropTx = b.dropTx →
      (m.listenTx a).dropTx = (m.listenTx b).dropTx := by
    intro a b hab
    rw [← listenTx_dropTx, hab, listenTx_dropTx]
  have hafter := hend _ _ (hticks (stepTicks input.modelTime s.lastTick).toNat _ _
    (hticks (initialTicks input.modelTime s.initTickDone) _ _ hstate.symm))
  refine ⟨_, by rw [listenStep, hrx₀]; rfl, sameButTx_iff.mpr ⟨?_, ?_, ?_, ?_⟩⟩
  · dsimp only
    rw [← htick, ← hlast]
    exact hafter
  · rw [htick]
  · rw [hlast]
  · have hsv := congrArg NetworkState.signalVector hafter
    dsimp only
    rw [← htick, ← hlast]
    exact congrArg (fun sv => m.copyOut sv input.scalar) hsv

/-! ## Runs with the network off, and the step after them -/

/-- What the rest of the simulation sees of the signals after a step. -/
def SameSignals (e : ModelStep m.network) (e₀ : Step (ModelState m.network) StepInput Unit) :
    Prop :=
  e₀.input = e.input ∧ e₀.after.network.signalVector = e.after.network.signalVector ∧
    e₀.after.scalar = e.after.scalar

theorem run_off {l : List (ModelStep m.network)} (hrun : m.system.Run s l s') :
    (∀ e ∈ l, m.netOff e.input.scalar = true) →
      (∀ e ∈ l, e.output.tx.sent = [] ∧ e.output.tx.encodeCalls = []) ∧
        ∃ l₀ s₀, m.listening.Run s l₀ s₀ ∧ List.Forall₂ SameSignals l l₀ ∧ SameButTx s' s₀ := by
  induction hrun with
  | nil =>
    refine fun _ => ⟨fun e he => absurd he List.not_mem_nil, ?_⟩
    exact ⟨[], s, .nil, .nil, rfl⟩
  | @snoc l s₁ s₂ input trace hrun hn ih =>
    intro hoff
    obtain ⟨hsilent, l₀, s₀, hrun₀, hsignals, hsame⟩ :=
      ih (fun e he => hoff e (List.mem_append_left _ he))
    obtain ⟨hsent, hcalls, s₀', hn₀, hsame'⟩ :=
      modelStep_off hn (hoff ⟨s₁, input, trace, s₂⟩ (by simp)) hsame
    obtain ⟨hnet, _, _, hscalar⟩ := sameButTx_iff.mp hsame'
    refine ⟨fun e he => ?_, l₀ ++ [⟨s₀, input, (), s₀'⟩], s₀', .snoc hrun₀ hn₀, ?_, hsame'⟩
    · rcases List.mem_append.mp he with he | he
      · exact hsilent e he
      · rw [List.mem_singleton.mp he]
        exact ⟨hsent, hcalls⟩
    · refine List.rel_append hsignals (.cons ⟨rfl, ?_, hscalar.symm⟩ .nil)
      exact (congrArg NetworkState.signalVector hnet).symm

/-- What calls for a transmission of message `i` in a step without reception: its alarm,
or for an event message a struct of another checksum than at the end of the last step. -/
def CallsForTx (before : ModelState m.network) (trace : StepTrace m.network)
    (i : m.network.Ref) : Prop :=
  alarmFired trace i ∨ ((m.network.msg i).cycleTimeMs = 0 ∧ ChecksumDiffers before trace i)

theorem Stages.not_received (g : Stages m input s s' trace) (hframes : input.frames = []) :
    ∀ i, NotReceived trace i := by
  have hdecode := g.decode
  rw [hframes] at hdecode
  intro i r hr
  rw [← (Prod.mk.inj (Except.ok.inj hdecode)).2] at hr
  exact absurd hr List.not_mem_nil

/-- In a step without reception nothing is written but what this step calls for. -/
theorem Stages.written_calledFor (g : Stages m input s s' trace) (hs : EndOfStep m s)
    (hnone : NotReceived trace i) (hwritten : writes trace i ≠ 0) : CallsForTx s trace i := by
  have htx : (g.packed i).needsTx = true := by
    rw [g.writes_eq] at hwritten
    by_contra htx
    rw [Bool.not_eq_true] at htx
    rw [htx, Bool.false_and, if_neg Bool.false_ne_true] at hwritten
    exact hwritten rfl
  have hidle : (trace.rx.state.message i).needsTx = false :=
    (g.rx_needsTx i).trans (hs.flags i).1
  by_cases hevent : (m.network.msg i).cycleTimeMs = 0
  · refine .inr ⟨hevent, (g.packed_local hs hevent ?_ hnone).mp htx⟩
    rw [Option.isSome_iff_ne_none]
    intro hpack
    rw [Stages.packed, Network.packMessage_of_none hpack, g.tick,
      Network.scheduleTicks_event hevent] at htx
    exact Bool.false_ne_true (hidle.symm.trans htx)
  · -- Packing withdraws the mark of a cyclic message or leaves it, so the alarm set it.
    by_contra hno
    have hquiet : g.ticked.message i = trace.rx.state.message i := by
      rw [g.tick]
      exact (Network.scheduleTicks_cyclic hevent _ _).2 (fun hfire => hno (.inl hfire))
    rw [Stages.packed, hquiet] at htx
    cases hpack : (m.network.msg i).packFunc with
    | none =>
      rw [Network.packMessage_of_none hpack] at htx
      exact Bool.false_ne_true (hidle.symm.trans htx)
    | some pack =>
      rw [(Network.packMessage_cyclic (by rw [hpack]; rfl) hevent _).2] at htx
      dsimp only at htx
      rw [hidle, Bool.false_and] at htx
      exact Bool.false_ne_true htx

/-- In a run with the network off no frame is written, no encode function is called, and
the signals are those of the model that only listens.  In a step after it with the
network on and no frame received, nothing is written but what that step calls for. -/
theorem netOff_silent (hs : m.system.Reachable s) {l : List (ModelStep m.network)}
    (hrun : m.system.Run s l s') (hoff : ∀ e ∈ l, m.netOff e.input.scalar = true) :
    (∀ e ∈ l, e.output.tx.sent = [] ∧ e.output.tx.encodeCalls = []) ∧
      (∃ l₀ s₀, m.listening.Run s l₀ s₀ ∧ List.Forall₂ SameSignals l l₀) ∧
      ∀ input trace s'', m.modelStep input s' = .ok (s'', trace) →
        m.netOff input.scalar = false → input.frames = [] →
        ∀ i, writes trace i ≠ 0 → CallsForTx s' trace i := by
  obtain ⟨hsilent, l₀, s₀, hrun₀, hsignals, _⟩ := run_off hrun hoff
  refine ⟨hsilent, ⟨l₀, s₀, hrun₀, hsignals⟩, fun input trace s'' hstep _ hframes i hw => ?_⟩
  obtain ⟨g⟩ := modelStep_ok hstep
  exact g.written_calledFor (reachable_endOfStep m (hrun.reachable hs))
    (g.not_received hframes i) hw

/-! ## A network that is switched off -/

def switched : NetworkModel where
  network := oneByte.network
  svSignal := ["s", "off"]
  netoffSignal := some "off"
  stack := 2

def switchedInput (value off : Nat) (modelTime : ℚ) : StepInput :=
  { StepInput.ofFrames [] modelTime with
    scalar := fun k => Binary64.ofNat (if k = 0 then value else off) }

def switchedFirst : ModelState switched.network :=
  switched.stepped (switchedInput 5 1 0) (switched.modelCreate fun _ => ⟨0#64⟩)

/-- The state after two steps with the network off, in which the value changes. -/
def switchedOff : ModelState switched.network :=
  switched.stepped (switchedInput 6 1 (1 / 2000)) switchedFirst

def switchedMessage : switched.network.Ref := ⟨0, Nat.zero_lt_one⟩

/-- With the network on again, a step that leaves the value as it is writes nothing, and
one that changes it writes one frame. -/
theorem netOff_silent_switched : ∃ l : List (ModelStep switched.network),
    switched.system.Run (switched.modelCreate fun _ => ⟨0#64⟩) l switchedOff ∧
      l.map (fun e => e.after.network.signalVector 0) = [Binary64.ofNat 5, Binary64.ofNat 6] ∧
      (∀ e ∈ l, e.output.tx.sent = [] ∧ e.output.tx.encodeCalls = []) ∧
      (∃ l₀ s₀, switched.listening.Run (switched.modelCreate fun _ => ⟨0#64⟩) l₀ s₀ ∧
        List.Forall₂ SameSignals l l₀) ∧
      (switched.modelStep (switchedInput 6 0 (1 / 1000)) switchedOff).toOption.map
        (fun r => writes r.2 switchedMessage) = some 0 ∧
      ∃ r, switched.modelStep (switchedInput 7 0 (1 / 1000)) switchedOff = .ok r ∧
        writes r.2 switchedMessage = 1 ∧ CallsForTx switchedOff r.2 switchedMessage := by
  obtain ⟨first, hfirst⟩ := switched.stepped_ok (switchedInput 5 1 0)
    (switched.modelCreate fun _ => ⟨0#64⟩) (by decide +kernel)
  obtain ⟨second, hsecond⟩ := switched.stepped_ok (switchedInput 6 1 (1 / 2000)) switchedFirst
    (by decide +kernel)
  have hrun : switched.system.Run _ _ switchedOff := (System.Run.nil.snoc hfirst).snoc hsecond
  have hoff : switched.netOff (switchedInput 5 1 0).scalar = true ∧
      switched.netOff (switchedInput 6 1 (1 / 2000)).scalar = true := by decide +kernel
  obtain ⟨hsilent, hlisten, hback⟩ := netOff_silent (.init ⟨_, rfl⟩) hrun
    (List.forall_mem_cons.mpr ⟨hoff.1, List.forall_mem_singleton.mpr hoff.2⟩)
  have hvalues : [switchedFirst.network.signalVector 0, switchedOff.network.signalVector 0] =
      [Binary64.ofNat 5, Binary64.ofNat 6] := by decide +kernel
  have hsame : (switched.modelStep (switchedInput 6 0 (1 / 1000)) switchedOff).toOption.map
      (fun r => writes r.2 switchedMessage) = some 0 := by decide +kernel
  obtain ⟨trace, hstep⟩ := switched.stepped_ok (switchedInput 7 0 (1 / 1000)) switchedOff
    (by decide +kernel)
  have hchanged : (switched.modelStep (switchedInput 7 0 (1 / 1000)) switchedOff).toOption.map
      (fun r => writes r.2 switchedMessage) = some 1 := by decide +kernel
  rw [hstep] at hchanged
  have hone : writes trace switchedMessage = 1 := Option.some.inj hchanged
  have hon : switched.netOff (switchedInput 7 0 (1 / 1000)).scalar = false := by decide +kernel
  refine ⟨_, hrun, ?_, hsilent, hlisten, hsame, _, hstep, hone, ?_⟩
  · simpa only [List.nil_append, List.cons_append, List.map_cons, List.map_nil] using hvalues
  · exact hback _ trace _ hstep hon rfl switchedMessage (hone ▸ Nat.one_ne_zero)

end NetworkModel
end DseNetwork
