import DseNetwork.Network.Interleaving
import DseNetwork.Network.MessageOrder

/-
Part of a network.

The messages of some frame identifiers make a network of their own.  What a model does
with them it also does on that network, with the same input: frames, containers and their
contained messages stay within one identifier, and no signal belongs to two messages.
-/

namespace DseNetwork
namespace Network

/-- The messages of `part` are those messages of `n` that have an identifier in `S`, in
order. -/
structure Part (S : BitVec 32 → Bool) (n part : Network) where
  origin : part.Ref → n.Ref
  msg : ∀ i, n.msg (origin i) = part.msg i
  kept : (List.finRange n.messages.length).filter (fun j => S (n.msg j).frameId) =
    (List.finRange part.messages.length).map origin

variable {S : BitVec 32 → Bool} {n part : Network}

namespace Part

theorem own (p : Part S n part) (i : part.Ref) : S (part.msg i).frameId = true := by
  have hmem : p.origin i ∈ (List.finRange n.messages.length).filter
      (fun j => S (n.msg j).frameId) := by
    rw [p.kept]
    exact List.mem_map_of_mem (List.mem_finRange i)
  rw [← p.msg i]
  exact (List.mem_filter.mp hmem).2

theorem injective (p : Part S n part) : Function.Injective p.origin := by
  have hnodup : ((List.finRange part.messages.length).map p.origin).Nodup := by
    rw [← p.kept]
    exact (List.nodup_finRange _).filter _
  exact fun i j hij =>
    List.inj_on_of_nodup_map hnodup (List.mem_finRange i) (List.mem_finRange j) hij

def embedding (p : Part S n part) : Embedding part n := ⟨p.origin, p.msg, p.injective⟩

variable {p : Part S n part}

/-- A search for a message that only the part can have. -/
theorem find?_origin (p : Part S n part) {P : NetworkMessage → Bool}
    (hP : ∀ nm, P nm = true → S nm.frameId = true) :
    (List.finRange n.messages.length).find? (fun j => P (n.msg j)) =
      ((List.finRange part.messages.length).find? (fun i => P (part.msg i))).map p.origin := by
  have hboth : (fun j : n.Ref => P (n.msg j)) =
      fun j => decide (S (n.msg j).frameId = true ∧ P (n.msg j) = true) := by
    funext j
    rw [Bool.eq_iff_iff, decide_eq_true_eq]
    exact ⟨fun hj => ⟨hP _ hj, hj⟩, fun hj => hj.2⟩
  rw [hboth, ← List.find?_filter, p.kept, List.find?_map]
  refine congrArg (Option.map p.origin) (congrArg (List.find? · _) (funext fun i => ?_))
  rw [Function.comp_apply, p.msg]

/-- A frame of the part finds its message and the contained ones in it. -/
theorem closed (p : Part S n part) {frameId : BitVec 32} (hid : S frameId = true) :
    p.embedding.Closed frameId :=
  fun _ hP => p.find?_origin (fun nm hnm => by rw [hP nm hnm, hid])

variable {s : n.State} {t : part.State}

/-- A frame of another identifier is not for the part and changes nothing of it. -/
theorem processCanFrame_other (hs : p.embedding.Projects s t) {stack : Nat} {msg : CanMessage}
    (hid : S msg.frameId = false) {r : n.State × List n.Ref}
    (hr : n.processCanFrame stack msg s = .ok r) :
    part.processCanFrame stack msg t = .ok (t, []) ∧ p.embedding.Projects r.1 t := by
  constructor
  · unfold processCanFrame
    cases hfind : part.findMessage msg.frameId (List.finRange part.messages.length) with
    | none => rfl
    | some i =>
      have hown := p.own i
      rw [findMessage_frameId hfind, hid] at hown
      cases hown
  · have hkept : r.1 = n.overlay msg.frameId r.1 s :=
      receiveFrame_kept (r := ⟨msg, r.2⟩) (map_eq_ok.mpr ⟨r, hr, rfl⟩)
    have hne : ∀ i, (n.msg (p.embedding.origin i)).frameId ≠ msg.frameId := by
      intro i heq
      have hown := p.own i
      rw [← p.embedding.msg i, heq, hid] at hown
      cases hown
    rw [hkept]
    refine ⟨fun i => ?_, fun mi mi' ht => ?_, hs.alarm, hs.tick⟩
    · show _ = if _ then _ else _
      rw [if_neg (hne i), hs.message]
    · have hentry : ¬ n.MuxEntry msg.frameId mi'.signalVectorIndex := by
        rintro ⟨j, hj, hmux⟩
        obtain ⟨mj, hmj, hidx⟩ := Option.map_eq_some_iff.mp hmux
        obtain ⟨hmem, hmsg⟩ := mem_items.mp (muxMi_mem hmj).1
        refine hne mi.message ?_
        rw [← ht.message, ← eq_of_index_eq hmem ht.right hidx, hmsg, hj]
      show _ = if _ then _ else _
      rw [if_neg hentry, hs.values mi mi' ht]

theorem receivesAlike (p : Part S n part) (h : n.Regular) (stack : Nat) :
    p.embedding.ReceivesAlike stack := by
  intro msg s t hs
  cases hid : S msg.frameId with
  | true => exact hs.processCanFrame h stack (p.closed hid)
  | false =>
    intro r hr
    obtain ⟨hnone, hprojects⟩ := processCanFrame_other hs hid hr
    exact ⟨_, hnone, hprojects⟩

/-- The part writes those frames of the network that have its identifiers. -/
theorem encodeToBus_frames (hs : p.embedding.Projects s t) :
    (part.encodeToBus t).2.map (·.frame) =
      ((n.encodeToBus s).2.map (·.frame)).filter (fun f => S f.frameId) := by
  rw [hs.encodeToBus_frames, Network.encodeToBus_frames, List.filter_filterMap]
  show ((List.finRange part.messages.length).map p.origin).filterMap _ = _
  rw [← p.kept, List.filterMap_filter]
  refine congrArg (List.filterMap · _) (funext fun j => ?_)
  by_cases htx : (s.message j).needsTx = true
  · simp [written, htx, txFrame, Option.filter]
  · simp [written, htx]

end Part
end Network

namespace NetworkModel

variable {S : BitVec 32 → Bool} {m : NetworkModel} {part : Network}

/-! ## Runs -/

/-- A step on the part with the input of a step on the network: the messages of the part,
the scalars of their signals and the frames written of their identifiers are the same. -/
structure PartStep (p : Network.Part S m.network part) (e : ModelStep m.network)
    (e' : ModelStep part) : Prop where
  input : e'.input = e.input
  after : ProjectsModel p.embedding e.after e'.after
  sent : e'.output.tx.sent.map (·.frame) =
    (e.output.tx.sent.map (·.frame)).filter (fun f => S f.frameId)

/-- The messages of the frame identifiers in `S`. -/
def ownRefs (n : Network) (S : BitVec 32 → Bool) : List n.Ref :=
  (List.finRange n.messages.length).filter (fun j => S (n.msg j).frameId)

theorem ownMessages_sized {n : Network} (h : n.Regular) (S : BitVec 32 → Bool) :
    ∀ nm ∈ (ownRefs n S).map n.msg, nm.bufferLen ≠ 0 := by
  intro nm hnm
  obtain ⟨j, _, rfl⟩ := List.mem_map.mp hnm
  exact h.bufferLen _ (Network.msg_mem j)

/-- The network of these messages alone. -/
def only (n : Network) (h : n.Regular) (S : BitVec 32 → Bool) : Network :=
  .ofMessages ((ownRefs n S).map n.msg) (ownMessages_sized h S)

def onlyPart (n : Network) (h : n.Regular) (S : BitVec 32 → Bool) :
    Network.Part S n (only n h S) where
  origin i := (ownRefs n S).get (i.cast (List.length_map _))
  msg i := (List.getElem_map n.msg).symm
  kept := by
    have hlength : (only n h S).messages.length = (ownRefs n S).length := List.length_map _
    refine List.ext_get ?_ (fun k hk hk' => ?_)
    · rw [List.length_map, List.length_finRange, hlength]
      rfl
    · rw [List.get_eq_getElem, List.get_eq_getElem, List.getElem_map, List.getElem_finRange]
      rfl

/-- Other messages do not show: every run of a model is followed, step by step, by a run of
the model on the messages of some frame identifiers alone. -/
theorem isolated (h : m.network.Regular) (S : BitVec 32 → Bool) {scalar : Nat → Double}
    {l : List (ModelStep m.network)} {s : ModelState m.network}
    (hrun : m.system.Run (m.modelCreate scalar) l s) :
    ∃ l' s', (m.onNetwork (only m.network h S)).system.Run
        ((m.onNetwork (only m.network h S)).modelCreate scalar) l' s' ∧
      List.Forall₂ (PartStep (onlyPart m.network h S)) l l' := by
  have hframes : FramesFollow (onlyPart m.network h S).embedding
      (fun sent sent' => sent' = sent.filter (fun f => S f.frameId)) :=
    fun _ _ => Network.Part.encodeToBus_frames
  obtain ⟨l', s', hrun', hsteps⟩ := run_embedded (onlyPart m.network h S).embedding h
    ((onlyPart m.network h S).receivesAlike h m.stack) hframes hrun
  exact ⟨l', s', hrun', hsteps.imp (fun _ _ he => ⟨he.input, he.after, he.sent⟩)⟩

/-! ## One of two messages -/

/-- The model writes both messages in its step, the part one of them. -/
theorem isolated_pair : ∃ l : List (ModelStep pairModel.network),
    (∃ e ∈ l, e.output.tx.sent.length = 2) ∧
      ∃ l' s', (pairModel.onNetwork (only pairModel.network
          pairModel_independent.regular (· = 0x1a1#32))).system.Run
        ((pairModel.onNetwork (only pairModel.network
          pairModel_independent.regular (· = 0x1a1#32))).modelCreate
            fun _ => ⟨0#64⟩) l' s' ∧
      List.Forall₂ (PartStep (onlyPart pairModel.network
        pairModel_independent.regular (· = 0x1a1#32))) l l' := by
  obtain ⟨s, hrun, e, he, hsent⟩ := pairModel.steps_check
    [{ StepInput.ofFrames [] 0 with scalar := fun k => Binary64.ofNat (k + 3) }]
    (pairModel.modelCreate fun _ => ⟨0#64⟩) (fun e => e.output.tx.sent.length = 2)
    (by decide +kernel)
  exact ⟨_, ⟨e, he, hsent⟩, isolated _ (· = 0x1a1#32) hrun⟩

end NetworkModel
end DseNetwork
