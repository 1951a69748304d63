import DseNetwork.Network.EmbeddedRuns

/-
The order of the messages.

The messages of a network stand in another order in a second one.  Where no message is
reached through another, a frame finds the same message in both.
-/

namespace DseNetwork
namespace Network

variable {n n' : Network}

/-! ## Networks of independent messages -/

/-- No message is reached through another: contained messages are reached through mux
signals only. -/
structure Independent (n : Network) : Prop where
  muxSignal : ∀ nm ∈ n.messages, ∀ ns ∈ nm.signals, ns.muxSignal = false
  frameIds : n.frameIds.Nodup
  nonzero : 0#32 ∉ n.frameIds
  bufferLen : ∀ nm ∈ n.messages, nm.bufferLen ≠ 0
  signalNames : ((n.messages.flatMap (·.signals)).map (·.signalName)).Nodup

theorem frameId_inj (h : n.frameIds.Nodup) {i j : n.Ref}
    (heq : (n.msg i).frameId = (n.msg j).frameId) : i = j := by
  have hget : ∀ k : n.Ref, n.frameIds[k.val]? = some (n.msg k).frameId := fun k => by
    rw [frameIds, List.getElem?_map, List.getElem?_eq_getElem k.isLt]
    rfl
  have hlt : i.val < n.frameIds.length := by
    rw [frameIds, List.length_map]
    exact i.isLt
  exact Fin.ext ((List.getElem?_inj hlt h).mp ((hget i).trans (heq ▸ (hget j).symm)))

/-- An item is determined by the name of its signal. -/
theorem Independent.item_inj (h : n.Independent) {mi mj : n.Item} (hmi : mi ∈ n.marshalList)
    (hmj : mj ∈ n.marshalList) (heq : mi.signal.signalName = mj.signal.signalName) :
    mi = mj := by
  have hsub : (n.marshalList.map (·.signal)).Sublist (n.messages.flatMap (·.signals)) := by
    rw [marshalList_signals h.bufferLen]
    exact List.Sublist.flatMap_right _ (fun nm _ => List.takeWhile_sublist _)
  have hnames : (n.marshalList.map (fun mi => mi.signal.signalName)).Nodup := by
    have hmapped := (hsub.map (·.signalName)).nodup h.signalNames
    rwa [List.map_map] at hmapped
  exact List.inj_on_of_nodup_map hnames hmi hmj heq

theorem Independent.regular (h : n.Independent) : n.Regular where
  bufferLen := h.bufferLen
  nonzero := h.nonzero
  names mi hmi mj hmj hne heq := by
    have hleft := itemName_of_ne hne rfl
    have hright := itemName_of_ne hne heq.symm
    exact h.item_inj hmi hmj (hleft.trans hright.symm)

/-- Each message has one place among the messages in another order. -/
theorem exists_embedding (h : n.Independent) (hperm : n'.messages.Perm n.messages) :
    ∃ p : Embedding n' n, Function.Bijective p.origin := by
  have hthere : ∀ i : n'.Ref, ∃ j : n.Ref, n.msg j = n'.msg i := fun i => by
    obtain ⟨j, hj⟩ := List.get_of_mem (hperm.mem_iff.mp (msg_mem i))
    exact ⟨j, hj⟩
  choose origin hmsg using hthere
  have hinj : Function.Injective origin := fun i j hij => by
    refine frameId_inj ((hperm.map _).nodup_iff.mpr h.frameIds) ?_
    rw [← hmsg i, ← hmsg j, hij]
  refine ⟨⟨origin, hmsg, hinj⟩, hinj, fun j => ?_⟩
  obtain ⟨i, hi⟩ := List.get_of_mem (hperm.mem_iff.mpr (msg_mem j))
  refine ⟨i, frameId_inj h.frameIds ?_⟩
  rw [hmsg i]
  exact congrArg (·.frameId) hi

/-- The one message with a frame identifier is found in any order. -/
theorem Independent.closed (h : n.Independent) {p : Embedding n' n}
    (hp : Function.Surjective p.origin) (frameId : BitVec 32) : p.Closed frameId := by
  intro P hP
  cases hfind : (List.finRange n'.messages.length).find? (fun i => P (n'.msg i)) with
  | none =>
    refine List.find?_eq_none.mpr (fun j _ => ?_)
    obtain ⟨i, rfl⟩ := hp j
    rw [p.msg]
    exact List.find?_eq_none.mp hfind i (List.mem_finRange i)
  | some i =>
    have hown := List.find?_some hfind
    have hi : P (n.msg (p.origin i)) = true := by rwa [p.msg]
    cases hfind' : (List.finRange n.messages.length).find? (fun j => P (n.msg j)) with
    | none => exact absurd hi (List.find?_eq_none.mp hfind' _ (List.mem_finRange _))
    | some j =>
      have hj := List.find?_some hfind'
      rw [frameId_inj h.frameIds ((hP _ hj).trans (hP _ hi).symm)]
      rfl

theorem finRange_origin {p : Embedding n' n} (hp : Function.Bijective p.origin) :
    ((List.finRange n'.messages.length).map p.origin).Perm
      (List.finRange n.messages.length) := by
  refine (List.perm_ext_iff_of_nodup ((List.nodup_finRange _).map hp.1)
    (List.nodup_finRange _)).mpr (fun j => ?_)
  obtain ⟨i, hi⟩ := hp.2 j
  exact iff_of_true (List.mem_map.mpr ⟨i, List.mem_finRange i, hi⟩) (List.mem_finRange j)

end Network

namespace NetworkModel

variable {m : NetworkModel} {n' : Network}

/-! ## Runs -/

/-- A step of either model: the same input, the same scalars after it, and the same
frames up to their order. -/
def SameStep (e : ModelStep m.network) (e' : ModelStep n') : Prop :=
  e'.input = e.input ∧ e'.after.scalar = e.after.scalar ∧
    (e'.output.tx.sent.map (·.frame)).Perm (e.output.tx.sent.map (·.frame))

/-- No scalar is foreign where each message has a place. -/
theorem SameScalars.eq {p : Network.Embedding n' m.network} (hp : Function.Surjective p.origin)
    {scalar scalar' : Nat → Double} (hs : SameScalars p scalar scalar') : scalar' = scalar := by
  funext k
  refine hs k ?_
  rintro ⟨mi, _, hno, _⟩
  obtain ⟨i, hi⟩ := hp mi.message
  exact hno i hi

/-- The order of the messages shows in no scalar, and in the frames of a step only as
their order. -/
theorem message_order (h : m.network.Independent) (hperm : n'.messages.Perm m.network.messages)
    {scalar : Nat → Double} {l : List (ModelStep m.network)} {s : ModelState m.network}
    (hrun : m.system.Run (m.modelCreate scalar) l s) :
    ((m.onNetwork n').modelCreate scalar).scalar = (m.modelCreate scalar).scalar ∧
      ∃ l' s', (m.onNetwork n').system.Run ((m.onNetwork n').modelCreate scalar) l' s' ∧
        List.Forall₂ SameStep l l' := by
  obtain ⟨p, hp⟩ := Network.exists_embedding h hperm
  have hrx : p.ReceivesAlike m.stack := fun msg s t hs =>
    hs.processCanFrame h.regular m.stack (h.closed hp.2 msg.frameId)
  have hframes : FramesFollow p (fun sent sent' => sent'.Perm sent) := by
    intro s t hs
    rw [hs.encodeToBus_frames, Network.encodeToBus_frames]
    exact (Network.finRange_origin hp).filterMap _
  obtain ⟨l', s', hrun', hsteps⟩ := run_embedded p h.regular hrx hframes hrun
  exact ⟨(modelCreate_embedded p h.regular scalar).scalar.eq hp.2, l', s', hrun',
    hsteps.imp (fun _ _ he => ⟨he.input, he.after.scalar.eq hp.2, he.sent⟩)⟩

/-! ## Two messages in either order -/

def byteMessage (name : String) (frameId : BitVec 32) (signal : String) : NetworkMessage :=
  plainMessage name frameId 1 [byteSignal signal 0 (fun _ => true)]

def pairModel : NetworkModel where
  network := .ofMessages [byteMessage "A" 0x1a0#32 "a", byteMessage "B" 0x1a1#32 "b"]
    (by simp [byteMessage, plainMessage])
  svSignal := ["b", "a"]
  netoffSignal := none
  stack := 2

def swappedPair : Network :=
  .ofMessages [byteMessage "B" 0x1a1#32 "b", byteMessage "A" 0x1a0#32 "a"]
    (by simp [byteMessage, plainMessage])

theorem pairModel_independent : pairModel.network.Independent where
  muxSignal := by simp [pairModel, Network.ofMessages, byteMessage, plainMessage, byteSignal]
  frameIds := by decide
  nonzero := by decide
  bufferLen := by simp [pairModel, Network.ofMessages, byteMessage, plainMessage]
  signalNames := by decide +kernel

/-- Both messages are written in a step of the run. -/
theorem message_order_pair : ∃ l : List (ModelStep pairModel.network),
    (∃ e ∈ l, e.output.tx.sent.length = 2) ∧
      ∃ l' s', (pairModel.onNetwork swappedPair).system.Run
        ((pairModel.onNetwork swappedPair).modelCreate fun _ => ⟨0#64⟩) l' s' ∧
        List.Forall₂ SameStep l l' := by
  obtain ⟨s, hrun, e, he, hsent⟩ := pairModel.steps_check
    [{ StepInput.ofFrames [] 0 with scalar := fun k => Binary64.ofNat (k + 3) }]
    (pairModel.modelCreate fun _ => ⟨0#64⟩) (fun e => e.output.tx.sent.length = 2)
    (by decide +kernel)
  exact ⟨_, ⟨e, he, hsent⟩,
    (message_order pairModel_independent (List.Perm.swap _ _ _) hrun).2⟩

end NetworkModel
end DseNetwork
