import DseNetwork.Lib.Interleave
import DseNetwork.Lib.Simulation
import DseNetwork.Network.Recursion

/-
The order in which the frames of a step are read.

A frame is processed for messages of its own frame identifier, the contained ones
included.  It reads and writes their structs and the entries of their mux signals, so
that frames of different identifiers can be exchanged.
-/

namespace DseNetwork
namespace Network

variable {n : Network} {msg : CanMessage} {i j k : n.Ref} {a b : BitVec 32}

/-! ## The part of the state that belongs to an identifier -/

/-- The entry is that of the mux signal of a message with the frame identifier. -/
def MuxEntry (n : Network) (frameId : BitVec 32) (x : Nat) : Prop :=
  ∃ j, (n.msg j).frameId = frameId ∧ (n.muxMi j).map (·.signalVectorIndex) = some x

instance (frameId : BitVec 32) (x : Nat) : Decidable (n.MuxEntry frameId x) :=
  inferInstanceAs (Decidable (∃ _, _))

/-- The second state, with what belongs to the frame identifier as in the first. -/
def overlay (n : Network) (frameId : BitVec 32) (s t : n.State) : n.State :=
  { t with
    message := fun j => if (n.msg j).frameId = frameId then s.message j else t.message j
    signalVector := fun x =>
      if n.MuxEntry frameId x then s.signalVector x else t.signalVector x }

theorem overlay_self (frameId : BitVec 32) (s : n.State) : n.overlay frameId s s = s := by
  simp only [overlay, ite_self]

theorem MuxEntry.unique {x : Nat} (ha : n.MuxEntry a x) (hb : n.MuxEntry b x) : a = b := by
  obtain ⟨i, rfl, hi⟩ := ha
  obtain ⟨j, rfl, hj⟩ := hb
  obtain ⟨mi, hmi, hix⟩ := Option.map_eq_some_iff.mp hi
  obtain ⟨mj, hmj, hjx⟩ := Option.map_eq_some_iff.mp hj
  by_cases hij : i = j
  · rw [hij]
  · exact absurd (hix.trans hjx.symm) (muxMi_index_ne hmi hmj hij)

theorem overlay_comm (hne : a ≠ b) (s t u : n.State) :
    n.overlay a s (n.overlay b t u) = n.overlay b t (n.overlay a s u) := by
  simp only [overlay, NetworkState.mk.injEq, and_true]
  constructor
  · funext j
    by_cases ha : (n.msg j).frameId = a
    · rw [if_pos ha, if_neg (fun hb => hne (ha.symm.trans hb)), if_pos ha]
    · rw [if_neg ha, if_neg ha]
  · funext x
    by_cases ha : n.MuxEntry a x
    · rw [if_pos ha, if_neg (fun hb => hne (ha.unique hb)), if_pos ha]
    · rw [if_neg ha, if_neg ha]

/-- Changes of another identifier do not show. -/
theorem overlay_other (hne : a ≠ b) (s t : n.State) : n.overlay b (n.overlay a s t) t = t := by
  obtain ⟨message, signalVector, alarm, tick⟩ := t
  simp only [overlay, NetworkState.mk.injEq, and_true]
  constructor
  · funext j
    by_cases hb : (n.msg j).frameId = b
    · rw [if_pos hb, if_neg (fun ha => hne (ha.symm.trans hb))]
    · rw [if_neg hb]
  · funext x
    by_cases hb : n.MuxEntry b x
    · rw [if_pos hb, if_neg (fun ha => hne (ha.unique hb))]
    · rw [if_neg hb]

/-! ## One frame -/

theorem overlay_modifyMessage (s t : n.State) (f : MessageState → MessageState) :
    (n.overlay (n.msg i).frameId s t).modifyMessage i f =
      n.overlay (n.msg i).frameId (s.modifyMessage i f) t := by
  simp only [NetworkState.modifyMessage, overlay, NetworkState.mk.injEq, and_true]
  funext j
  by_cases hij : j = i
  · subst hij
    simp only [Function.update_self, if_true]
  · simp only [Function.update_of_ne hij]

theorem overlay_message (s t : n.State) :
    (n.overlay (n.msg i).frameId s t).message i = s.message i :=
  if_pos rfl

theorem muxEntry_of_muxMi {mi : n.Item} (h : n.muxMi i = some mi) :
    n.MuxEntry (n.msg i).frameId mi.signalVectorIndex :=
  ⟨i, rfl, by rw [h]; rfl⟩

theorem overlay_value {mi : n.Item} (h : n.muxMi i = some mi) (s t : n.State) :
    (n.overlay (n.msg i).frameId s t).signalVector mi.signalVectorIndex =
      s.signalVector mi.signalVectorIndex :=
  if_pos (muxEntry_of_muxMi h)

theorem overlay_readMux (s t : n.State) :
    n.readMux i (n.overlay (n.msg i).frameId s t) =
      n.overlay (n.msg i).frameId (n.readMux i s) t := by
  unfold readMux
  cases hmux : n.muxMi i with
  | none => rfl
  | some mi =>
    have hmsg : mi.message = i := (mem_items.mp (muxMi_mem hmux).1).2
    simp only [marshalMessageToSignal]
    rw [overlay_value hmux, hmsg, overlay_message]
    simp only [overlay, NetworkState.mk.injEq, and_true, true_and]
    funext x
    by_cases hx : x = mi.signalVectorIndex
    · subst hx
      rw [Function.update_self, if_pos (muxEntry_of_muxMi hmux), Function.update_self]
    · rw [Function.update_of_ne hx, Function.update_of_ne hx]

theorem overlay_handedOn (msg : CanMessage) (s t : n.State) :
    n.handedOn i msg (n.overlay (n.msg i).frameId s t) =
      n.overlay (n.msg i).frameId (n.handedOn i msg s) t := by
  rw [handedOn, handedOn, overlay_message, overlay_modifyMessage, overlay_readMux]

theorem overlay_nextMessage (frameId : BitVec 32) (s t : n.State) :
    n.nextMessage i frameId (n.overlay (n.msg i).frameId s t) = n.nextMessage i frameId s := by
  unfold nextMessage
  cases hmux : n.muxMi i with
  | none => rfl
  | some mi => simp only [overlay_value hmux]

theorem nextMessage_frameId {frameId : BitVec 32} {s : n.State}
    (h : n.nextMessage i frameId s = some k) : (n.msg k).frameId = frameId := by
  unfold nextMessage at h
  cases hmux : n.muxMi i with
  | none =>
    rw [hmux] at h
    cases h
  | some mi =>
    rw [hmux] at h
    exact (findMuxMessage_eq_some.mp h).2.1.1

/-- Processing a frame reads and writes what belongs to its identifier and nothing else. -/
theorem processMessage_overlay (stack : Nat) (hi : (n.msg i).frameId = msg.frameId)
    (s t : n.State) : n.processMessage stack i msg (n.overlay msg.frameId s t) =
      (n.processMessage stack i msg s).map (fun r => (n.overlay msg.frameId r.1 t, r.2)) := by
  induction stack generalizing i s with
  | zero => rfl
  | succ stack ih =>
    have hmessage : (n.overlay msg.frameId s t).message i = s.message i := by
      rw [← hi, overlay_message]
    cases hu : (n.msg i).unpackFunc with
    | none =>
      rw [processMessage_null hu, processMessage_null hu]
      rfl
    | some unpack =>
      have hsome : (n.msg i).unpackFunc.isSome := by rw [hu]; rfl
      by_cases hrc : (unpackFrame (n.msg i) msg (s.message i).buffer).rc = 0
      · have hrc' : (unpackFrame (n.msg i) msg
            ((n.overlay msg.frameId s t).message i).buffer).rc = 0 := by
          rwa [hmessage]
        have hhanded : n.handedOn i msg (n.overlay msg.frameId s t) =
            n.overlay msg.frameId (n.handedOn i msg s) t := by
          rw [← hi]
          exact overlay_handedOn msg s t
        have hnext : n.nextMessage i msg.frameId
            (n.overlay msg.frameId (n.handedOn i msg s) t) =
              n.nextMessage i msg.frameId (n.handedOn i msg s) := by
          conv_lhs => rw [← hi]
          conv_rhs => rw [← hi]
          exact overlay_nextMessage _ _ _
        have hcheck : ∀ u : n.State, (n.overlay msg.frameId u t).modifyMessage i
            (checkMessage (n.msg i)) =
              n.overlay msg.frameId (u.modifyMessage i (checkMessage (n.msg i))) t := by
          intro u
          rw [← hi]
          exact overlay_modifyMessage u t _
        rw [processMessage_accepted hrc', processMessage_accepted hrc, hhanded, hnext]
        cases hk : n.nextMessage i msg.frameId (n.handedOn i msg s) with
        | none => exact congrArg (fun u => Except.ok (u, [i])) (hcheck _)
        | some k =>
          rw [Option.elim_some, Option.elim_some, ih (nextMessage_frameId hk)]
          cases n.processMessage stack k msg (n.handedOn i msg s) with
          | error e => rfl
          | ok r => exact congrArg (fun u => Except.ok (u, i :: r.2)) (hcheck _)
      · rw [processMessage_refused hsome (by rwa [hmessage]), processMessage_refused hsome hrc,
          hmessage]
        rw [← hi]
        exact congrArg (fun u => Except.ok (u, [i])) (overlay_modifyMessage s t _)

theorem findMessage_frameId {frameId : BitVec 32} {l : List n.Ref}
    (h : n.findMessage frameId l = some i) : (n.msg i).frameId = frameId := by
  induction l with
  | nil => cases h
  | cons j rest ih =>
    rw [findMessage] at h
    by_cases hzero : (n.msg j).frameId = 0#32
    · rw [if_pos hzero] at h
      cases h
    · rw [if_neg hzero] at h
      by_cases hid : (n.msg j).frameId = frameId
      · rw [if_pos hid] at h
        cases h
        exact hid
      · rw [if_neg hid] at h
        exact ih h

theorem processCanFrame_overlay (stack : Nat) (msg : CanMessage) (s t : n.State) :
    n.processCanFrame stack msg (n.overlay msg.frameId s t) =
      (n.processCanFrame stack msg s).map (fun r => (n.overlay msg.frameId r.1 t, r.2)) := by
  unfold processCanFrame
  cases hfind : n.findMessage msg.frameId (List.finRange n.messages.length) with
  | none => rfl
  | some i => exact processMessage_overlay stack (findMessage_frameId hfind) s t

/-! ## The frames of a step -/

/-- One iteration of the loop of `network_decode_from_bus`. -/
def receiveFrame (n : Network) (stack : Nat) (msg : CanMessage) (s : n.State) :
    Except Fault (n.State × n.Received) :=
  (n.processCanFrame stack msg s).map (fun r => (r.1, { frame := msg, messages := r.2 }))

theorem decodeFromBus_eq_run (stack : Nat) (frames : List CanMessage) (s : n.State) :
    n.decodeFromBus stack frames s = Interleave.run (n.receiveFrame stack) frames s := by
  induction frames generalizing s with
  | nil => rfl
  | cons msg rest ih =>
    rw [decodeFromBus, Interleave.run, receiveFrame]
    cases n.processCanFrame stack msg s with
    | error e => rfl
    | ok r =>
      show (n.decodeFromBus stack rest r.1 >>= _) = (Interleave.run _ rest r.1 >>= _)
      rw [ih]

theorem receiveFrame_overlay (stack : Nat) (msg : CanMessage) (s t : n.State) :
    n.receiveFrame stack msg (n.overlay msg.frameId s t) =
      (n.receiveFrame stack msg s).map (fun r => (n.overlay msg.frameId r.1 t, r.2)) := by
  rw [receiveFrame, receiveFrame, processCanFrame_overlay]
  cases n.processCanFrame stack msg s <;> rfl

/-- What a frame leaves is the state it found, but for what belongs to its identifier. -/
theorem receiveFrame_kept {stack : Nat} {s s' : n.State} {r : n.Received}
    (h : n.receiveFrame stack msg s = .ok (s', r)) : s' = n.overlay msg.frameId s' s := by
  have hself := receiveFrame_overlay stack msg s s
  rw [overlay_self, h] at hself
  exact (Prod.mk.inj (Except.ok.inj hself)).1

theorem receiveFrame_exchange (n : Network) (stack : Nat) :
    Interleave.Exchange (n.receiveFrame stack) CanMessage.frameId := by
  intro f g s s₁ s₂ o p hne hf hg
  have hs₁ := receiveFrame_kept hf
  have hs₂ := receiveFrame_kept hg
  -- Frame `g` finds in `s` what it finds behind `f`, and `f` behind `g` what it found in `s`.
  have hsg : n.overlay g.frameId s₁ s = s := by
    rw [hs₁]
    exact overlay_other hne s₁ s
  have hsf : n.overlay f.frameId s (n.overlay g.frameId s₂ s) = n.overlay g.frameId s₂ s := by
    rw [overlay_comm hne, overlay_self]
  have hend : n.overlay f.frameId s₁ (n.overlay g.frameId s₂ s) = s₂ := by
    rw [overlay_comm hne, ← hs₁, ← hs₂]
  refine ⟨n.overlay g.frameId s₂ s, ?_, ?_⟩
  · have hbefore := receiveFrame_overlay stack g s₁ s
    rw [hsg, hg] at hbefore
    exact hbefore
  · have hafter := receiveFrame_overlay stack f s (n.overlay g.frameId s₂ s)
    rw [hsf, hf] at hafter
    rw [hafter, ← hend]
    exact congrArg (fun t => Except.ok (n.overlay f.frameId s₁ t, o)) (by rw [hend])

/-- The frames of a step in another order, which keeps that of each frame identifier. -/
theorem decodeFromBus_interleaved {stack : Nat} {frames frames' : List CanMessage}
    (hframes : Interleave.SameChannels CanMessage.frameId frames frames') {s s' : n.State}
    {log : List n.Received} (h : n.decodeFromBus stack frames s = .ok (s', log)) :
    ∃ log', n.decodeFromBus stack frames' s = .ok (s', log') ∧
      Interleave.SameChannels (fun r : n.Received => r.frame.frameId) log log' := by
  rw [decodeFromBus_eq_run] at h
  obtain ⟨log', hrun, hlog⟩ := Interleave.run_interleaved (receiveFrame_exchange n stack)
    (fun r : n.Received => r.frame.frameId) (fun msg s t r hr => by
      obtain ⟨_, _, heq⟩ := map_eq_ok.mp hr
      cases heq
      rfl) hframes h
  rw [← decodeFromBus_eq_run] at hrun
  exact ⟨log', hrun, hlog⟩

end Network

/-! ## Runs -/

namespace NetworkModel

variable {m : NetworkModel} {input input' : StepInput} {s s' : ModelState m.network}
  {trace : StepTrace m.network}

/-- The same input, but for the order of frames of different identifiers. -/
structure Reordered (input input' : StepInput) : Prop where
  frames : Interleave.SameChannels CanMessage.frameId input.frames input'.frames
  rest : input' = { input with frames := input'.frames }

/-- The same step, but for the order in which frames of different identifiers came. -/
structure SameEffect (e e' : ModelStep m.network) : Prop where
  before : e'.before = e.before
  after : e'.after = e.after
  received : Interleave.SameChannels (fun r : m.network.Received => r.frame.frameId)
    e.output.rx.received e'.output.rx.received
  output : e'.output = { e.output with
    rx := { e.output.rx with received := e'.output.rx.received } }

theorem receive_reordered (h : Reordered input input') {s : m.network.State}
    {rx : Reception m.network} (hrx : m.receive input s = .ok rx) :
    ∃ received, m.receive input' s = .ok { rx with received := received } ∧
      Interleave.SameChannels (fun r : m.network.Received => r.frame.frameId) rx.received
        received := by
  rw [receive] at hrx
  obtain ⟨⟨decoded, received⟩, hdecode, hrx⟩ := bind_eq_ok.mp hrx
  obtain ⟨⟨applied, calls⟩, happly, hrx⟩ := bind_eq_ok.mp hrx
  cases hrx
  obtain ⟨received', hdecode', hsame⟩ := Network.decodeFromBus_interleaved h.frames hdecode
  refine ⟨received', ?_, hsame⟩
  rw [h.rest, receive]
  exact bind_eq_ok.mpr ⟨_, hdecode', bind_eq_ok.mpr ⟨_, happly, rfl⟩⟩

theorem modelStep_reordered (h : Reordered input input')
    (hstep : m.modelStep input s = .ok (s', trace)) :
    ∃ trace', m.modelStep input' s = .ok (s', trace') ∧
      SameEffect ⟨s, input, trace, s'⟩ ⟨s, input', trace', s'⟩ := by
  rw [modelStep] at hstep
  obtain ⟨rx, hrx, hstep⟩ := bind_eq_ok.mp hstep
  obtain ⟨tx, htx, hstep⟩ := bind_eq_ok.mp hstep
  cases hstep
  obtain ⟨received, hrx', hsame⟩ := receive_reordered h hrx
  refine ⟨{
    rx := { rx with received := received }
    ticks := initialTicks input.modelTime s.initTickDone +
      (stepTicks input.modelTime s.lastTick).toNat
    tx := tx
    modelTime := input.stopTime }, ?_, ⟨rfl, rfl, hsame, rfl⟩⟩
  rw [modelStep]
  refine bind_eq_ok.mpr ⟨_, hrx', ?_⟩
  rw [h.rest]
  exact bind_eq_ok.mpr ⟨tx, htx, rfl⟩

/-- A run whose steps read their frames in other orders goes through the same states and
writes the same frames, as long as each frame identifier keeps its order. -/
theorem frame_order {l : List (ModelStep m.network)} (hrun : m.system.Run s l s')
    {inputs : List StepInput}
    (hinputs : List.Forall₂ (fun input e => Reordered e.input input) inputs l) :
    ∃ l', m.system.Run s l' s' ∧ l'.map (·.input) = inputs ∧ List.Forall₂ SameEffect l l' := by
  induction hrun generalizing inputs with
  | nil =>
    cases hinputs
    exact ⟨[], .nil, rfl, .nil⟩
  | @snoc l s₁ s₂ input trace hrun hn ih =>
    have hfirst := List.forall₂_take_append _ _ _ hinputs
    have hlast := List.forall₂_drop_append _ _ _ hinputs
    obtain ⟨l', hrun', hmap, hsame⟩ := ih hfirst
    cases hdrop : inputs.drop l.length with
    | nil =>
      rw [hdrop] at hlast
      cases hlast
    | cons input' rest =>
      rw [hdrop] at hlast
      obtain ⟨hreorder, hnil⟩ := List.forall₂_cons.mp hlast
      rw [List.forall₂_nil_right_iff] at hnil
      subst hnil
      obtain ⟨trace', hstep', heffect⟩ := modelStep_reordered hreorder hn
      refine ⟨l' ++ [⟨s₁, input', trace', s₂⟩], hrun'.snoc hstep', ?_,
        List.rel_append hsame (.cons heffect .nil)⟩
      rw [List.map_append, hmap, List.map_singleton, ← hdrop, List.take_append_drop]

def twoBytes : NetworkModel :=
  .alone (.ofMessages [
    plainMessage "A" 0x1a0#32 1 [byteSignal "a" 0 (fun _ => true)],
    plainMessage "B" 0x1a1#32 1 [byteSignal "b" 0 (fun _ => true)]] (by decide))

def taggedFrame (frameId : BitVec 32) (b : Byte) : CanMessage := ⟨frameId, 0#8, [b]⟩

theorem frame_order_twoBytes :
    ∃ l' s', twoBytes.system.Run (twoBytes.modelCreate fun _ => ⟨0#64⟩) l' s' ∧
      l'.map (·.input) =
        [StepInput.ofFrames [taggedFrame 0x1a1#32 2#8, taggedFrame 0x1a0#32 1#8] 0] := by
  have hok : (twoBytes.modelStep
      (StepInput.ofFrames [taggedFrame 0x1a0#32 1#8, taggedFrame 0x1a1#32 2#8] 0)
      (twoBytes.modelCreate fun _ => ⟨0#64⟩)).isOk = true := by decide +kernel
  cases hstep : twoBytes.modelStep
      (StepInput.ofFrames [taggedFrame 0x1a0#32 1#8, taggedFrame 0x1a1#32 2#8] 0)
      (twoBytes.modelCreate fun _ => ⟨0#64⟩) with
  | error e =>
    rw [hstep] at hok
    cases hok
  | ok r =>
    have hswap : Reordered
        (StepInput.ofFrames [taggedFrame 0x1a0#32 1#8, taggedFrame 0x1a1#32 2#8] 0)
        (StepInput.ofFrames [taggedFrame 0x1a1#32 2#8, taggedFrame 0x1a0#32 1#8] 0) :=
      ⟨.swap (by decide) [], rfl⟩
    obtain ⟨l', hrun, hmap, _⟩ := frame_order (System.Run.nil.snoc hstep) (.cons hswap .nil)
    exact ⟨l', r.1, hrun, hmap⟩

end NetworkModel
end DseNetwork
