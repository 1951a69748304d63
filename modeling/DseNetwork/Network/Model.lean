import DseNetwork.Network.Encoder
import DseNetwork.Network.Function
import DseNetwork.Network.Schedule
import DseNetwork.Lib.Transition

/-
The simulation model, after `model.c`: `model_create`, `model_step`, and the runs that
they span.

Between two steps any other model may write the scalars of the SignalVector, so the
scalars that a step finds are an input of the step, with the frames read from the codec.
-/

namespace DseNetwork

/-- `(int)q` for a finite value: rounded toward zero, and out of range the least `int`,
as the x86-64 conversion has it. -/
def toInt32 (q : ℚ) : Int :=
  let t := q.num.tdiv q.den
  if -2 ^ 31 ≤ t ∧ t < 2 ^ 31 then t else -2 ^ 31

structure SRMap where
  active : Bool
  vectorIndex : Nat
  signalIndex : Nat

/-- What `model_create` finds in the `ModelDesc`: the loaded network, the names of the
SignalVector and the name of the network-off signal.  `stack` bounds the recursion of
`_process_message`. -/
structure NetworkModel where
  network : Network
  svSignal : List String
  netoffSignal : Option String
  stack : Nat

/-- The `NetworkModelDesc` fields that change, with the scalars of the SignalVector. -/
structure ModelState (n : Network) where
  network : n.State
  initTickDone : Bool
  lastTick : ℚ
  scalar : Nat → Double

/-- What a step reads from outside. -/
structure StepInput where
  scalar : Nat → Double
  frames : List CanMessage
  modelTime : ℚ
  stopTime : ℚ

structure Reception (n : Network) where
  state : n.State
  received : List n.Received
  decodeCalls : List (FunctionCall n.Ref)

structure Transmission (n : Network) where
  state : n.State
  encodeCalls : List (FunctionCall n.Ref)
  sent : List n.Sent

/-- What a step does to the outside: its two parts, the number of calls of
`network_schedule_tick`, and the value left in `*model_time`. -/
structure StepTrace (n : Network) where
  rx : Reception n
  ticks : Nat
  tx : Transmission n
  modelTime : ℚ

abbrev ModelStep (n : Network) : Type := Step (ModelState n) StepInput (StepTrace n)

namespace NetworkModel

/-- The mapping of the SignalVector entry `svIdx`: to the first signal of that name, and
never to an internal signal, whose name is empty. -/
def mapSignal (m : NetworkModel) (svIdx : Nat) (svSigName : String) : SRMap :=
  match m.network.signalName.findIdx? (fun ntSigName =>
      svSigName = ntSigName ∧ ntSigName ≠ "") with
  | some sigIdx => { active := true, vectorIndex := svIdx, signalIndex := sigIdx }
  | none => { active := false, vectorIndex := 0, signalIndex := 0 }

def srMap (m : NetworkModel) : List SRMap := m.svSignal.mapIdx m.mapSignal

/-- `SignalVector -> Network`. -/
def copyIn (m : NetworkModel) (scalar signalVector : Nat → Double) : Nat → Double :=
  m.srMap.foldl (fun sv e => if e.active then
    Function.update sv e.signalIndex (scalar e.vectorIndex) else sv) signalVector

/-- `Network -> SignalVector`. -/
def copyOut (m : NetworkModel) (signalVector scalar : Nat → Double) : Nat → Double :=
  m.srMap.foldl (fun sc e => if e.active then
    Function.update sc e.vectorIndex (signalVector e.signalIndex) else sc) scalar

/-- The entry that `netoff_value` points to, where the SignalVector has it. -/
def netoffValue (m : NetworkModel) : Option Nat := m.netoffSignal.bind m.svSignal.idxOf?

/-- `n->netoff_value && *(n->netoff_value) != 0.0` -/
def netOff (m : NetworkModel) (scalar : Nat → Double) : Bool :=
  match m.netoffValue with
  | some k => !(scalar k).isZero
  | none => false

def initialSignalVector (m : NetworkModel) : Nat → Double :=
  m.network.marshalList.foldl
    (fun sv mi => Function.update sv mi.signalVectorIndex mi.signal.initValue)
    (fun _ => ⟨0#64⟩)

/-- `model_create`, on a SignalVector with the given scalars. -/
def modelCreate (m : NetworkModel) (scalar : Nat → Double) : ModelState m.network :=
  let s : m.network.State := m.network.scheduleReset
    { message := fun _ => MessageState.initial
      signalVector := m.initialSignalVector
      alarm := fun _ => 0
      tick := 0#32 }
  let scalar := m.copyOut s.signalVector scalar
  let s := m.network.marshalSignalsToMessages m.network.marshalList s
  let s := m.network.packMessages s
  { network := s.mapMessages (fun _ st => { st with needsTx := false })
    initTickDone := false
    lastTick := 0
    scalar := scalar }

/-- The RX part of `model_step`. -/
def receive (m : NetworkModel) (input : StepInput) (s : m.network.State) :
    Except Fault (Reception m.network) := do
  let s := { s with signalVector := m.copyIn input.scalar s.signalVector }
  let (s, received) ← m.network.decodeFromBus m.stack input.frames s
  let (s, decodeCalls) ← m.network.functionApplyDecode s
  .ok {
    state := m.network.marshalMessagesToSignals false m.network.marshalList s
    received := received
    decodeCalls := decodeCalls }

/-- The calls of `network_schedule_tick` for the initial tick. -/
def initialTicks (modelTime : ℚ) (initTickDone : Bool) : Nat :=
  if modelTime = 0 ∧ initTickDone = false then 1 else 0

/-- `int ticks = (((*model_time - m->last_tick) / 0.001) * 1.01);` -/
def stepTicks (modelTime lastTick : ℚ) : Int :=
  toInt32 ((modelTime - lastTick) / (1 / 1000) * (101 / 100))

/-- The TX part of `model_step`, up to the copy to the SignalVector. -/
def transmit (m : NetworkModel) (netOff : Bool) (s : m.network.State) :
    Except Fault (Transmission m.network) := do
  let s := m.network.marshalSignalsToMessages m.network.marshalList s
  let s := m.network.packMessages s
  let (s, encodeCalls) ← m.network.functionApplyEncode netOff s
  let (s, sent) := m.network.encodeToBus s
  .ok {
    state := m.network.marshalMessagesToSignals false m.network.marshalList s
    encodeCalls := encodeCalls
    sent := sent }

/-- `model_step`. -/
def modelStep (m : NetworkModel) (input : StepInput) (s : ModelState m.network) :
    Except Fault (ModelState m.network × StepTrace m.network) := do
  let rx ← m.receive input s.network
  let initial := initialTicks input.modelTime s.initTickDone
  let net := m.network.scheduleTicks initial rx.state
  let ticks := stepTicks input.modelTime s.lastTick
  let net := m.network.scheduleTicks ticks.toNat net
  let tx ← m.transmit (m.netOff input.scalar) net
  .ok (
    { network := tx.state
      initTickDone := s.initTickDone || decide (input.modelTime = 0)
      lastTick := if 0 < ticks then input.modelTime else s.lastTick
      scalar := m.copyOut tx.state.signalVector input.scalar },
    { rx := rx
      ticks := initial + ticks.toNat
      tx := tx
      modelTime := input.stopTime })

/-- The runs of the model: from `model_create`, any sequence of steps that complete. -/
def system (m : NetworkModel) :
    System (ModelState m.network) StepInput (StepTrace m.network) where
  init s := ∃ scalar, s = m.modelCreate scalar
  next s input trace s' := m.modelStep input s = .ok (s', trace)

/-! ## The stages of a step -/

/-- The states between the passes of a completed step. -/
structure Stages (m : NetworkModel) (input : StepInput) (s s' : ModelState m.network)
    (trace : StepTrace m.network) where
  /-- After `network_decode_from_bus`. -/
  decoded : m.network.State
  /-- After `network_function_apply_decode`. -/
  applied : m.network.State
  /-- After the schedule ticks. -/
  ticked : m.network.State
  /-- After `network_function_apply_encode`. -/
  encoded : m.network.State
  decode : m.network.decodeFromBus m.stack input.frames
    { s.network with signalVector := m.copyIn input.scalar s.network.signalVector } =
      .ok (decoded, trace.rx.received)
  apply : m.network.functionApplyDecode decoded = .ok (applied, trace.rx.decodeCalls)
  rx : trace.rx.state =
    m.network.marshalMessagesToSignals false m.network.marshalList applied
  tick : ticked = m.network.scheduleTicks trace.ticks trace.rx.state
  encode : m.network.functionApplyEncode (m.netOff input.scalar)
    (m.network.packMessages
      (m.network.marshalSignalsToMessages m.network.marshalList ticked)) =
        .ok (encoded, trace.tx.encodeCalls)
  sent : trace.tx.sent = (m.network.encodeToBus encoded).2
  network : s'.network = m.network.marshalMessagesToSignals false m.network.marshalList
    (m.network.encodeToBus encoded).1
  scalar : s'.scalar = m.copyOut s'.network.signalVector input.scalar
  ticks : trace.ticks =
    initialTicks input.modelTime s.initTickDone + (stepTicks input.modelTime s.lastTick).toNat
  initTickDone : s'.initTickDone = (s.initTickDone || decide (input.modelTime = 0))
  lastTick : s'.lastTick =
    if 0 < stepTicks input.modelTime s.lastTick then input.modelTime else s.lastTick

variable {m : NetworkModel} {input : StepInput} {s s' : ModelState m.network}
  {trace : StepTrace m.network}

/-- A completed step went through its stages. -/
theorem modelStep_ok (h : m.modelStep input s = .ok (s', trace)) :
    Nonempty (Stages m input s s' trace) := by
  rw [modelStep] at h
  obtain ⟨rx, hrx, h⟩ := bind_eq_ok.mp h
  obtain ⟨tx, htx, h⟩ := bind_eq_ok.mp h
  cases h
  rw [receive] at hrx
  obtain ⟨⟨decoded, received⟩, hdecode, hrx⟩ := bind_eq_ok.mp hrx
  obtain ⟨⟨applied, decodeCalls⟩, happly, hrx⟩ := bind_eq_ok.mp hrx
  cases hrx
  rw [transmit] at htx
  obtain ⟨⟨encoded, encodeCalls⟩, hencode, htx⟩ := bind_eq_ok.mp htx
  cases htx
  exact ⟨{
    decoded := decoded
    applied := applied
    ticked := _
    encoded := encoded
    decode := hdecode
    apply := happly
    rx := rfl
    tick := Network.scheduleTicks_add _ _ _
    encode := hencode
    sent := rfl
    network := rfl
    scalar := rfl
    ticks := rfl
    initTickDone := rfl
    lastTick := rfl }⟩

namespace Stages

/-- A message as `network_function_apply_encode` finds it. -/
def packed (g : Stages m input s s' trace) (i : m.network.Ref) : MessageState :=
  Network.packMessage (m.network.msg i)
    { g.ticked.message i with
      buffer := m.network.marshalBuffer trace.rx.state.signalVector i
        (g.ticked.message i).buffer }

theorem applied_message (g : Stages m input s s' trace) (i : m.network.Ref) :
    ∃ out, Network.decodeMessage i (m.network.msg i) (g.decoded.message i) =
      .ok (g.applied.message i, out) :=
  (Network.functionApplyDecode_ok g.apply).2.2.2 i

/-- The decode functions are not called for a message without an update. -/
theorem applied_idle (g : Stages m input s s' trace) {i : m.network.Ref}
    (h : (g.decoded.message i).updateSignals = false) :
    g.applied.message i = g.decoded.message i := by
  obtain ⟨out, hout⟩ := g.applied_message i
  rw [Network.decodeMessage, if_pos h] at hout
  exact (Prod.mk.inj (Except.ok.inj hout)).1.symm

theorem rx_message (g : Stages m input s s' trace) (i : m.network.Ref) :
    trace.rx.state.message i = { g.applied.message i with updateSignals := false } := by
  rw [g.rx, Network.marshalMessagesToSignals_message]

theorem ticked_signalVector (g : Stages m input s s' trace) :
    g.ticked.signalVector = trace.rx.state.signalVector := by
  rw [g.tick, Network.scheduleTicks_signalVector]

theorem encoded_calls (g : Stages m input s s' trace) (i : m.network.Ref) :
    ∃ out, Network.encodeMessage (m.netOff input.scalar) i (m.network.msg i) (g.packed i) =
        .ok (g.encoded.message i, out) ∧ ∀ c ∈ out, c ∈ trace.tx.encodeCalls := by
  obtain ⟨out, hout, hcalls⟩ := Network.functionApplyEncode_calls g.encode i
  rw [Network.packMessages_message, Network.marshalSignalsToMessages_message,
    g.ticked_signalVector] at hout
  exact ⟨out, hout, hcalls⟩

theorem encoded_message (g : Stages m input s s' trace) (i : m.network.Ref) :
    ∃ out, Network.encodeMessage (m.netOff input.scalar) i (m.network.msg i) (g.packed i) =
      .ok (g.encoded.message i, out) := by
  obtain ⟨out, hout, _⟩ := g.encoded_calls i
  exact ⟨out, hout⟩

theorem encoded_signalVector (g : Stages m input s s' trace) :
    g.encoded.signalVector = trace.rx.state.signalVector := by
  rw [(Network.functionApplyEncode_ok g.encode).1, Network.packMessages_signalVector,
    Network.marshalSignalsToMessages_signalVector, g.ticked_signalVector]

theorem after_message (g : Stages m input s s' trace) (i : m.network.Ref) :
    s'.network.message i =
      { g.encoded.message i with
        needsTx := false
        updateSignals := false } := by
  rw [g.network, Network.marshalMessagesToSignals_message, Network.encodeToBus_message]

theorem sent_filter (g : Stages m input s s' trace) (i : m.network.Ref) :
    trace.tx.sent.filter (fun e => e.message = i) =
      if (g.encoded.message i).needsTx then
        [{ message := i
           frame := Network.txFrame (m.network.msg i) (g.encoded.message i) }]
      else [] := by
  rw [g.sent, Network.encodeToBus_sent]

theorem rx_value (g : Stages m input s s' trace) {mi : m.network.Item}
    (hmi : mi ∈ m.network.marshalList) :
    trace.rx.state.signalVector mi.signalVectorIndex =
      if (g.applied.message mi.message).updateSignals then
        mi.signal.readValue (g.applied.message mi.message).buffer
          (g.decoded.signalVector mi.signalVectorIndex)
      else g.decoded.signalVector mi.signalVectorIndex := by
  rw [g.rx, Network.marshalMessagesToSignals_value hmi,
    (Network.functionApplyDecode_ok g.apply).1]

theorem after_value (g : Stages m input s s' trace) {mi : m.network.Item}
    (hmi : mi ∈ m.network.marshalList) :
    s'.network.signalVector mi.signalVectorIndex =
      if (g.encoded.message mi.message).updateSignals then
        mi.signal.readValue (g.encoded.message mi.message).buffer
          (trace.rx.state.signalVector mi.signalVectorIndex)
      else trace.rx.state.signalVector mi.signalVectorIndex := by
  rw [g.network, Network.marshalMessagesToSignals_value hmi, Network.encodeToBus_signalVector,
    g.encoded_signalVector]
  rfl

end Stages

/-! ## The mapping of the SignalVector -/

theorem srMap_active {m : NetworkModel} {e : SRMap} (he : e ∈ m.srMap) (ha : e.active = true) :
    m.srMap[e.vectorIndex]? = some e := by
  obtain ⟨svIdx, hlt, rfl⟩ := List.mem_mapIdx.mp he
  have hindex : (m.mapSignal svIdx m.svSignal[svIdx]).vectorIndex = svIdx := by
    unfold mapSignal at ha ⊢
    split at ha
    · rfl
    · cases ha
  rw [hindex, srMap, List.getElem?_mapIdx, List.getElem?_eq_getElem hlt]
  rfl

theorem srMap_inj {m : NetworkModel} {e e' : SRMap} (he : e ∈ m.srMap) (ha : e.active = true)
    (he' : e' ∈ m.srMap) (ha' : e'.active = true) (heq : e.vectorIndex = e'.vectorIndex) :
    e = e' := by
  have hget := srMap_active he ha
  rw [heq, srMap_active he' ha'] at hget
  exact (Option.some.inj hget).symm

/-- After the copy to the SignalVector every active entry has the value of its signal. -/
theorem copyOut_active {m : NetworkModel} {e : SRMap} (he : e ∈ m.srMap)
    (ha : e.active = true) (signalVector scalar : Nat → Double) :
    m.copyOut signalVector scalar e.vectorIndex = signalVector e.signalIndex := by
  have loop : ∀ (l : List SRMap), (∀ e' ∈ l, e' ∈ m.srMap) → ∀ sc : Nat → Double,
      (e ∈ l ∨ sc e.vectorIndex = signalVector e.signalIndex) →
      l.foldl (fun sc e => if e.active then
        Function.update sc e.vectorIndex (signalVector e.signalIndex) else sc) sc
          e.vectorIndex = signalVector e.signalIndex := by
    intro l
    induction l with
    | nil =>
      rintro _ sc (hmem | hsc)
      · cases hmem
      · exact hsc
    | cons a rest ih =>
      intro hl sc hor
      refine ih (fun e' h' => hl e' (List.mem_cons_of_mem a h')) _ ?_
      dsimp only
      by_cases hact : a.active = true
      · by_cases hidx : e.vectorIndex = a.vectorIndex
        · have hsame := srMap_inj he ha (hl a List.mem_cons_self) hact hidx
          subst hsame
          exact .inr (by rw [if_pos hact, Function.update_self])
        · rw [if_pos hact, Function.update_of_ne hidx]
          rcases hor with hmem | hsc
          · rcases List.mem_cons.mp hmem with rfl | hmem
            · exact absurd rfl hidx
            · exact .inl hmem
          · exact .inr hsc
      · rw [if_neg hact]
        rcases hor with hmem | hsc
        · rcases List.mem_cons.mp hmem with rfl | hmem
          · exact absurd ha hact
          · exact .inl hmem
        · exact .inr hsc
  exact loop m.srMap (fun _ h => h) scalar (.inl he)

theorem copyIn_of_coherent {m : NetworkModel} {scalar signalVector : Nat → Double} {x : Nat}
    (h : ∀ e ∈ m.srMap, e.active = true → e.signalIndex = x →
      scalar e.vectorIndex = signalVector x) :
    m.copyIn scalar signalVector x = signalVector x := by
  have loop : ∀ (l : List SRMap), (∀ e ∈ l, e ∈ m.srMap) → ∀ sv : Nat → Double,
      sv x = signalVector x →
      l.foldl (fun sv e => if e.active then
        Function.update sv e.signalIndex (scalar e.vectorIndex) else sv) sv x =
          signalVector x := by
    intro l
    induction l with
    | nil => exact fun _ _ hsv => hsv
    | cons a rest ih =>
      intro hl sv hsv
      refine ih (fun e he => hl e (List.mem_cons_of_mem a he)) _ ?_
      dsimp only
      by_cases hact : a.active = true
      · by_cases hidx : a.signalIndex = x
        · rw [if_pos hact, hidx, Function.update_self]
          exact h a (hl a List.mem_cons_self) hact hidx
        · rw [if_pos hact, Function.update_of_ne (Ne.symm hidx), hsv]
      · rw [if_neg hact, hsv]
  exact loop m.srMap (fun _ h => h) signalVector rfl

/-! ## Executed runs -/

def stepped (m : NetworkModel) (input : StepInput) (s : ModelState m.network) :
    ModelState m.network :=
  match m.modelStep input s with
  | .error _ => s
  | .ok (s', _) => s'

theorem stepped_reachable {m : NetworkModel} (input : StepInput) {s : ModelState m.network}
    (hs : m.system.Reachable s) : m.system.Reachable (m.stepped input s) := by
  unfold stepped
  split
  · exact hs
  · rename_i s' trace hstep
    exact hs.next hstep

theorem stepped_ok (m : NetworkModel) (input : StepInput) (s : ModelState m.network)
    (h : (m.modelStep input s).isOk) :
    ∃ trace, m.modelStep input s = .ok (m.stepped input s, trace) := by
  unfold stepped
  cases hstep : m.modelStep input s with
  | error e =>
    rw [hstep] at h
    exact absurd h Bool.false_ne_true
  | ok r => exact ⟨r.2, rfl⟩

def steps (m : NetworkModel) :
    List StepInput → ModelState m.network → List (ModelStep m.network)
  | [], _ => []
  | input :: rest, s =>
    match m.modelStep input s with
    | .error _ => []
    | .ok (s', trace) => ⟨s, input, trace, s'⟩ :: m.steps rest s'

theorem steps_run (m : NetworkModel) (inputs : List StepInput) (s : ModelState m.network) :
    ∃ s', m.system.Run s (m.steps inputs s) s' := by
  induction inputs generalizing s with
  | nil => exact ⟨s, System.Run.nil⟩
  | cons input rest ih =>
    rw [steps]
    split
    · exact ⟨s, System.Run.nil⟩
    · rename_i s' trace hstep
      obtain ⟨s'', hrun⟩ := ih s'
      exact ⟨s'', hrun.cons hstep⟩

/-- An executed run with a step that passes a check. -/
theorem steps_check (m : NetworkModel) (inputs : List StepInput) (s : ModelState m.network)
    (check : ModelStep m.network → Prop) [DecidablePred check]
    (h : (m.steps inputs s).any (fun e => check e) = true) :
    ∃ s', m.system.Run s (m.steps inputs s) s' ∧ ∃ e ∈ m.steps inputs s, check e := by
  obtain ⟨s', hrun⟩ := m.steps_run inputs s
  obtain ⟨e, he, hcheck⟩ := List.any_eq_true.mp h
  exact ⟨s', hrun, e, he, of_decide_eq_true hcheck⟩

end NetworkModel
end DseNetwork
