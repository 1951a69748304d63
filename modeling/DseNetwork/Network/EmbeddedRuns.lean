import DseNetwork.Network.Embedding

/-
Runs on the messages of another network.

A model steps on the messages that stand among those of its network as it steps on the
whole network with the same input.  A scalar is mapped to twins, or it has the name of a
signal that only the whole network has.
-/

namespace DseNetwork
namespace NetworkModel

/-- The model on another network. -/
def onNetwork (m : NetworkModel) (n' : Network) : NetworkModel := { m with network := n' }

variable {m : NetworkModel} {part : Network} {p : Network.Embedding part m.network}

/-! ## The mapping table -/

/-- The scalar has the name of a signal of a message that has no place in the embedding. -/
def Foreign (p : Network.Embedding part m.network) (k : Nat) : Prop :=
  ∃ mi ∈ m.network.marshalList, (∀ i, p.origin i ≠ mi.message) ∧
    m.svSignal[k]? = some (Network.itemName mi)

/-- Entries that map a scalar to twins, or one that is active for the network at most, and
then for a foreign scalar. -/
inductive SameEntry (p : Network.Embedding part m.network) : SRMap → SRMap → Prop
  | twins {mi : part.Item} {mi' : m.network.Item} {k : Nat} : p.Twin mi mi' →
      SameEntry p ⟨true, k, mi'.signalVectorIndex⟩ ⟨true, k, mi.signalVectorIndex⟩
  | foreign {mi' : m.network.Item} {k : Nat} : mi' ∈ m.network.marshalList →
      (∀ i, p.origin i ≠ mi'.message) → Foreign p k →
      SameEntry p ⟨true, k, mi'.signalVectorIndex⟩ ⟨false, 0, 0⟩
  | none : SameEntry p ⟨false, 0, 0⟩ ⟨false, 0, 0⟩

theorem mapSignal_embedded (h : m.network.Regular) {k : Nat} {name : String}
    (hk : m.svSignal[k]? = some name) :
    SameEntry p (m.mapSignal k name) ((m.onNetwork part).mapSignal k name) := by
  rcases (m.onNetwork part).mapSignal_cases k name with
    ⟨mi, hne, ⟨⟨hmi, hname⟩, _⟩, he⟩ | ⟨hno, he⟩
  · obtain ⟨mi', ht⟩ := p.exists_twin h hmi
    have hname' := (ht.itemName h).trans hname
    rcases m.mapSignal_cases k name with ⟨mj, _, ⟨⟨hmj, hnamej⟩, _⟩, he'⟩ | ⟨hno', _⟩
    · have hsame := h.names mi' ht.right mj hmj (by rw [hname']; exact hne)
        (hname'.trans hnamej.symm)
      rw [he, he', ← hsame]
      exact .twins ht
    · exact absurd hname' (hno'.resolve_left hne mi' ht.right)
  · rw [he]
    rcases m.mapSignal_cases k name with ⟨mj, hne, ⟨⟨hmj, hnamej⟩, _⟩, he'⟩ | ⟨_, he'⟩
    · rw [he']
      have hforeign : ∀ i, p.origin i ≠ mj.message := by
        intro i hi
        obtain ⟨mi, ht⟩ := p.exists_twin_of h hmj hi
        exact hno.resolve_left hne mi ht.left ((ht.itemName h).symm.trans hnamej)
      exact .foreign hmj hforeign ⟨mj, hmj, hforeign, by rw [hk, hnamej]⟩
    · rw [he']
      exact .none

theorem srMap_embedded (h : m.network.Regular) :
    List.Forall₂ (SameEntry p) m.srMap (m.onNetwork part).srMap := by
  have hlength : m.srMap.length = (m.onNetwork part).srMap.length := by
    rw [srMap, srMap, List.length_mapIdx, List.length_mapIdx]
    rfl
  refine List.forall₂_iff_get.mpr ⟨hlength, fun k hk hk' => ?_⟩
  have hsv : k < m.svSignal.length := by rwa [srMap, List.length_mapIdx] at hk
  simp only [srMap, List.get_eq_getElem, List.getElem_mapIdx]
  exact mapSignal_embedded h (List.getElem?_eq_getElem hsv)

theorem copyIn_embedded (h : m.network.Regular) (scalar : Nat → Double)
    {sv sv' : Nat → Double} (hsv : p.SameValues sv sv') :
    p.SameValues (m.copyIn scalar sv) ((m.onNetwork part).copyIn scalar sv') := by
  refine List.rel_foldl (P := p.SameValues) (R := SameEntry p) ?_ hsv (srMap_embedded h)
  rintro sv sv' hsv _ _ (@⟨mi, mi', k, ht⟩ | @⟨mi', k, hmem, hforeign, _⟩ | _)
  · simp only [if_true]
    exact hsv.update ht _
  · simp only [if_true, Bool.false_eq_true, if_false]
    intro mj mj' htj
    have hne : mj'.signalVectorIndex ≠ mi'.signalVectorIndex := by
      intro heq
      refine hforeign mj.message ?_
      rw [← Network.eq_of_index_eq htj.right hmem heq, htj.message]
    rw [Function.update_of_ne hne, hsv mj mj' htj]
  · simp only [Bool.false_eq_true, if_false]
    exact hsv

/-- The scalars that do not have the name of a foreign signal are the same. -/
def SameScalars (p : Network.Embedding part m.network) (scalar scalar' : Nat → Double) : Prop :=
  ∀ k, ¬ Foreign p k → scalar' k = scalar k

theorem copyOut_embedded (h : m.network.Regular) (scalar : Nat → Double)
    {sv sv' : Nat → Double} (hsv : p.SameValues sv sv') :
    SameScalars p (m.copyOut sv scalar) ((m.onNetwork part).copyOut sv' scalar) := by
  refine List.rel_foldl (P := SameScalars p) (R := SameEntry p) ?_ (fun _ _ => rfl)
    (srMap_embedded h)
  rintro sc sc' hsc _ _ (@⟨mi, mi', k, ht⟩ | @⟨mi', k, _, _, hforeign⟩ | _) x hx
  · simp only [if_true]
    by_cases hxk : x = k
    · rw [hxk, Function.update_self, Function.update_self, hsv mi mi' ht]
    · rw [Function.update_of_ne hxk, Function.update_of_ne hxk, hsc x hx]
  · simp only [if_true, Bool.false_eq_true, if_false]
    have hxk : x ≠ k := fun heq => hx (heq ▸ hforeign)
    rw [Function.update_of_ne hxk, hsc x hx]
  · simp only [Bool.false_eq_true, if_false]
    exact hsc x hx

/-! ## Steps -/

structure ProjectsModel (p : Network.Embedding part m.network) (s : ModelState m.network)
    (t : ModelState part) : Prop where
  network : p.Projects s.network t.network
  initTickDone : t.initTickDone = s.initTickDone
  lastTick : t.lastTick = s.lastTick
  scalar : SameScalars p s.scalar t.scalar

/-- A step on `part` with the input of a step on the network, and frames in a relation. -/
structure EmbeddedStep (p : Network.Embedding part m.network)
    (F : List CanMessage → List CanMessage → Prop) (e : ModelStep m.network)
    (e' : ModelStep part) : Prop where
  input : e'.input = e.input
  after : ProjectsModel p e.after e'.after
  sent : F (e.output.tx.sent.map (·.frame)) (e'.output.tx.sent.map (·.frame))

variable {F : List CanMessage → List CanMessage → Prop}

theorem receive_embedded (h : m.network.Regular) (hrx : p.ReceivesAlike m.stack)
    {s : m.network.State} {t : part.State} (hs : p.Projects s t) (input : StepInput) :
    Follows (fun r r' => p.Projects r.state r'.state) (m.receive input s)
      ((m.onNetwork part).receive input t) := by
  have hin : p.Projects { s with signalVector := m.copyIn input.scalar s.signalVector }
      { t with signalVector := (m.onNetwork part).copyIn input.scalar t.signalVector } :=
    ⟨hs.message, copyIn_embedded h input.scalar hs.values, hs.alarm, hs.tick⟩
  refine (hin.decodeFromBus hrx input.frames).bind (fun r r' hr => ?_)
  exact hr.functionApplyDecode.bind (fun u u' hu => .ok (hu.marshalMessagesToSignals h))

/-- The frames are in the relation if those written for related states are. -/
def FramesFollow (p : Network.Embedding part m.network)
    (F : List CanMessage → List CanMessage → Prop) : Prop :=
  ∀ (s : m.network.State) (t : part.State), p.Projects s t →
    F ((m.network.encodeToBus s).2.map (·.frame)) ((part.encodeToBus t).2.map (·.frame))

theorem transmit_embedded (h : m.network.Regular) (hframes : FramesFollow p F)
    {s : m.network.State} {t : part.State} (hs : p.Projects s t) (netOff : Bool) :
    Follows (fun r r' => p.Projects r.state r'.state ∧
        F (r.sent.map (·.frame)) (r'.sent.map (·.frame)))
      (m.transmit netOff s) ((m.onNetwork part).transmit netOff t) := by
  refine ((hs.marshalSignalsToMessages h).packMessages.functionApplyEncode netOff).bind
    (fun r r' hr => ?_)
  exact .ok ⟨hr.encodeToBus.marshalMessagesToSignals h, hframes _ _ hr⟩

theorem modelStep_embedded (h : m.network.Regular) (hrx : p.ReceivesAlike m.stack)
    (hframes : FramesFollow p F) :
    m.system.Simulates (m.onNetwork part).system (ProjectsModel p) (EmbeddedStep p F) := by
  intro s input trace s' t ht hstep
  have hfollows : Follows (fun r r' => ProjectsModel p r.1 r'.1 ∧
      F (r.2.tx.sent.map (·.frame)) (r'.2.tx.sent.map (·.frame)))
      (m.modelStep input s) ((m.onNetwork part).modelStep input t) := by
    refine (receive_embedded h hrx ht.network input).bind (fun rx rx' hrx => ?_)
    have hticked : p.Projects
        (m.network.scheduleTicks (stepTicks input.modelTime s.lastTick).toNat
          (m.network.scheduleTicks (initialTicks input.modelTime s.initTickDone) rx.state))
        (part.scheduleTicks (stepTicks input.modelTime t.lastTick).toNat
          (part.scheduleTicks (initialTicks input.modelTime t.initTickDone) rx'.state)) := by
      rw [ht.lastTick, ht.initTickDone]
      exact (hrx.scheduleTicks _).scheduleTicks _
    refine (transmit_embedded h hframes hticked (m.netOff input.scalar)).bind ?_
    rintro tx tx' ⟨htx, hsent⟩
    refine .ok ⟨⟨htx, ?_, ?_, copyOut_embedded h input.scalar htx.values⟩, hsent⟩
    · dsimp only
      rw [ht.initTickDone]
    · dsimp only
      rw [ht.lastTick]
  obtain ⟨⟨t', trace'⟩, hstep', hsame, hsent⟩ := hfollows _ hstep
  exact ⟨input, trace', t', hstep', hsame, rfl, hsame, hsent⟩

/-! ## Runs -/

theorem initialSignalVector_value {mi : m.network.Item} (hmi : mi ∈ m.network.marshalList) :
    m.initialSignalVector mi.signalVectorIndex = mi.signal.initValue := by
  have hcell := Sweep.foldl_update_apply (·.signalVectorIndex)
    (fun (mi : m.network.Item) _ => mi.signal.initValue) m.network.marshalList
    (fun _ => (⟨0#64⟩ : Double)) mi.signalVectorIndex
  rw [Sweep.filter_key_eq_singleton m.network.nodup_indices hmi] at hcell
  exact hcell

theorem modelCreate_embedded (p : Network.Embedding part m.network) (h : m.network.Regular)
    (scalar : Nat → Double) :
    ProjectsModel p (m.modelCreate scalar) ((m.onNetwork part).modelCreate scalar) := by
  have hvalues :
      p.SameValues m.initialSignalVector (m.onNetwork part).initialSignalVector := by
    intro mi mi' ht
    rw [initialSignalVector_value ht.right, ht.signal h]
    exact initialSignalVector_value (m := m.onNetwork part) ht.left
  have hinitial : p.Projects
      (m.network.scheduleReset ⟨fun _ => .initial, m.initialSignalVector, fun _ => 0, 0#32⟩)
      (part.scheduleReset
        ⟨fun _ => .initial, (m.onNetwork part).initialSignalVector, fun _ => 0, 0#32⟩) :=
    ⟨fun _ => rfl, hvalues, fun _ => rfl, rfl⟩
  have hcreated := (hinitial.marshalSignalsToMessages h).packMessages.encodeToBus
  exact ⟨hcreated, rfl, rfl, copyOut_embedded h scalar hvalues⟩

/-- A run of the model is followed, step by step, by a run of the model on `part`. -/
theorem run_embedded (p : Network.Embedding part m.network) (h : m.network.Regular)
    (hrx : p.ReceivesAlike m.stack) (hframes : FramesFollow p F) {scalar : Nat → Double}
    {l : List (ModelStep m.network)} {s : ModelState m.network}
    (hrun : m.system.Run (m.modelCreate scalar) l s) :
    ∃ l' s', (m.onNetwork part).system.Run ((m.onNetwork part).modelCreate scalar) l' s' ∧
      List.Forall₂ (EmbeddedStep p F) l l' := by
  obtain ⟨l', s', hrun', _, hsteps⟩ := hrun.simulate (modelStep_embedded h hrx hframes)
    (modelCreate_embedded p h scalar)
  exact ⟨l', s', hrun', hsteps⟩

end NetworkModel
end DseNetwork
