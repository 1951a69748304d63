import DseNetwork.Generate.Kind
import DseNetwork.Network.Mapping
import DseNetwork.Network.Library

/-
Signal groups for a network, after `signalgroup.go`, and the SignalVector they give the
model.

The generator emits the name of every signal of the network, internal or not, and as
often as it occurs.  The model maps an entry to the first signal with its name.
-/

namespace DseNetwork

/-- `generateSignalVector`, for the network name given to the command. -/
def generateSignalVector (name : String) (network : Kind.Network) : Kind.SignalGroup where
  metadata := some {
    name := name
    annotations := none
    labels := some [("channel", "signal_vector"), ("model", name)] }
  signals := network.messages.flatMap (fun m =>
    match m.signals with
    | none => []
    | some signals => signals.map (fun s => { signal := s.signal }))

/-- The engine and the generator read the same network file: message by message the
same signals. -/
def SameSignals (network : Kind.Network) (n : Network) : Prop :=
  n.messages.map (fun nm => nm.signals.map (·.signalName)) =
    network.messages.map (fun m => (m.signals.getD []).map (·.signal))

theorem generateSignalVector_signals (name : String) (network : Kind.Network) :
    (generateSignalVector name network).signals.map (·.signal) =
      (network.messages.map (fun m => (m.signals.getD []).map (·.signal))).flatten := by
  rw [generateSignalVector, List.map_flatMap, ← List.flatMap_def]
  refine List.flatMap_congr (fun m _ => ?_)
  cases m.signals with
  | none => rfl
  | some signals => exact List.map_map

/-- Every signal of the engine's network is emitted. -/
theorem SameSignals.mem {network : Kind.Network} {n : Network} (h : SameSignals network n)
    (name : String) {mi : n.Item} (hmi : mi ∈ n.marshalList) :
    mi.signal.signalName ∈ (generateSignalVector name network).signals.map (·.signal) := by
  rw [generateSignalVector_signals, ← h]
  refine List.mem_flatten.mpr ⟨_, List.mem_map_of_mem (List.getElem_mem mi.message.isLt), ?_⟩
  exact List.mem_map_of_mem (Network.signal_mem hmi)

namespace NetworkModel

variable {m : NetworkModel}

/-- The names of the signals that the SignalVector is to be mapped to. -/
def mappedNames (m : NetworkModel) : List String :=
  (m.network.marshalList.filter (fun mi => !mi.signal.internal)).map (·.signal.signalName)

/-- Entries of the SignalVector with one name have one scalar. -/
def OneScalar (m : NetworkModel) (scalar : Nat → Double) : Prop :=
  ∀ j k, j < m.svSignal.length → m.svSignal[j]? = m.svSignal[k]? → scalar j = scalar k

/-- Every signal that is not internal is connected to the SignalVector. -/
structure Connected (m : NetworkModel) : Prop where
  target : ∀ mi ∈ m.network.marshalList, mi.signal.internal = false →
    ∃ e ∈ m.srMap, e.active = true ∧ e.signalIndex = mi.signalVectorIndex ∧
      m.svSignal[e.vectorIndex]? = some mi.signal.signalName
  /-- After the first loop of `model_step`. -/
  copiedIn : ∀ mi ∈ m.network.marshalList, mi.signal.internal = false →
    ∀ k, m.svSignal[k]? = some mi.signal.signalName →
    ∀ (input : StepInput) (s : ModelState m.network), m.OneScalar input.scalar →
      m.copyIn input.scalar s.network.signalVector mi.signalVectorIndex = input.scalar k
  /-- After the last loop of `model_step`. -/
  copiedOut : ∀ mi ∈ m.network.marshalList, mi.signal.internal = false →
    ∀ k, m.svSignal[k]? = some mi.signal.signalName →
    ∀ input s s' trace, m.modelStep input s = .ok (s', trace) →
      s'.scalar k = s'.network.signalVector mi.signalVectorIndex
  internal : ∀ e ∈ m.srMap, e.active = true → ∀ mi ∈ m.network.marshalList,
    mi.signalVectorIndex = e.signalIndex → mi.signal.internal = false

theorem itemName_of_mapped {mi : m.network.Item} (h : mi.signal.internal = false) :
    Network.itemName mi = mi.signal.signalName := by
  rw [Network.itemName, h]
  rfl

theorem mapped_of_itemName {mi : m.network.Item} (h : Network.itemName mi ≠ "") :
    mi.signal.internal = false := by
  by_contra hinternal
  exact h (if_pos (by simpa using hinternal))

/-- With distinct names an entry is mapped to the item with its name. -/
theorem mapSignal_of_distinct (hnodup : m.mappedNames.Nodup) (hempty : "" ∉ m.mappedNames)
    {mi : m.network.Item} (hmi : mi ∈ m.network.marshalList)
    (hmapped : mi.signal.internal = false) (k : Nat) :
    m.mapSignal k mi.signal.signalName =
      { active := true, vectorIndex := k, signalIndex := mi.signalVectorIndex } := by
  have hmem : ∀ {mj : m.network.Item}, mj ∈ m.network.marshalList →
      mj.signal.internal = false →
      mj ∈ m.network.marshalList.filter (fun mi => !mi.signal.internal) := fun hmj hj =>
    List.mem_filter.mpr ⟨hmj, by rw [hj]; rfl⟩
  rcases m.mapSignal_cases k mi.signal.signalName with
    ⟨mj, hne, ⟨⟨hmj, hname⟩, _⟩, heq⟩ | ⟨hno, _⟩
  · have hj := mapped_of_itemName (hname.trans_ne hne)
    rw [itemName_of_mapped hj] at hname
    rw [heq, List.inj_on_of_nodup_map hnodup (hmem hmj hj) (hmem hmi hmapped) hname]
  · rcases hno with hnil | hno
    · exact absurd (hnil ▸ List.mem_map_of_mem (hmem hmi hmapped)) hempty
    · exact absurd (itemName_of_mapped hmapped) (hno mi hmi)

/-- No internal signal is a target, whatever the names. -/
theorem srMap_mapped {e : SRMap} (he : e ∈ m.srMap) (ha : e.active = true)
    {mi : m.network.Item} (hmi : mi ∈ m.network.marshalList)
    (hidx : mi.signalVectorIndex = e.signalIndex) : mi.signal.internal = false := by
  obtain ⟨name, mj, hne, _, ⟨⟨hmj, hname⟩, _⟩, hj⟩ := srMap_firstNamed he ha
  rw [Network.eq_of_index_eq hmi hmj (hidx.trans hj)]
  exact mapped_of_itemName (hname.trans_ne hne)

/-- The target of an entry that has an item's name and index is the first item of that
name, so the name is not empty and the item the first. -/
theorem Connected.first (h : m.Connected) {mi : m.network.Item}
    (hmi : mi ∈ m.network.marshalList) (hmapped : mi.signal.internal = false) :
    mi.signal.signalName ≠ "" ∧ Network.FirstNamed mi.signal.signalName mi := by
  obtain ⟨e, he, ha, hidx, hname⟩ := h.target mi hmi hmapped
  obtain ⟨name, mj, hne, hname', hfirst, hj⟩ := srMap_firstNamed he ha
  have hsame := Network.eq_of_index_eq hmi hfirst.1.1 (hidx.symm.trans hj)
  rw [hname, Option.some.injEq] at hname'
  rw [hname', hsame]
  exact ⟨hne, hfirst⟩

theorem Connected.distinct (h : m.Connected) : m.mappedNames.Nodup ∧ "" ∉ m.mappedNames := by
  have hnodup : (m.network.marshalList.filter (fun mi => !mi.signal.internal)).Nodup :=
    (List.Nodup.of_map _ m.network.nodup_indices).filter _
  refine ⟨hnodup.map_on (fun mi hmi mj hmj heq => ?_), fun hempty => ?_⟩
  · obtain ⟨hmi, hi⟩ := List.mem_filter.mp hmi
    obtain ⟨hmj, hj⟩ := List.mem_filter.mp hmj
    obtain ⟨_, _, hfirsti⟩ := h.first hmi (by simpa using hi)
    obtain ⟨_, _, hfirstj⟩ := h.first hmj (by simpa using hj)
    have hle := hfirsti mj hmj ((itemName_of_mapped (by simpa using hj)).trans heq.symm)
    have hge := hfirstj mi hmi ((itemName_of_mapped (by simpa using hi)).trans heq)
    exact Network.eq_of_index_eq hmi hmj (Nat.le_antisymm hle hge)
  · obtain ⟨mi, hmem, hnil⟩ := List.mem_map.mp hempty
    obtain ⟨hmi, hi⟩ := List.mem_filter.mp hmem
    exact (h.first hmi (by simpa using hi)).1 hnil

/-- With distinct names every entry of an item's name is mapped to the item, and there is
such an entry on a SignalVector with all names. -/
theorem connected_of_distinct (hnodup : m.mappedNames.Nodup) (hempty : "" ∉ m.mappedNames)
    (hholds : ∀ mi ∈ m.network.marshalList, mi.signal.signalName ∈ m.svSignal) :
    m.Connected := by
  have hentry : ∀ mi ∈ m.network.marshalList, mi.signal.internal = false →
      ∀ k, m.svSignal[k]? = some mi.signal.signalName →
        { active := true, vectorIndex := k, signalIndex := mi.signalVectorIndex } ∈
          m.srMap := fun mi hmi hmapped k hk =>
    mapSignal_of_distinct hnodup hempty hmi hmapped k ▸ mapSignal_mem hk
  have hthere : ∀ mi ∈ m.network.marshalList, mi.signal.internal = false →
      ∃ e ∈ m.srMap, e.active = true ∧ e.signalIndex = mi.signalVectorIndex ∧
        m.svSignal[e.vectorIndex]? = some mi.signal.signalName := fun mi hmi hmapped => by
    obtain ⟨k, hk⟩ := List.getElem?_of_mem (hholds mi hmi)
    exact ⟨_, hentry mi hmi hmapped k hk, rfl, rfl, hk⟩
  refine ⟨hthere, fun mi hmi hmapped k hk input s hone => ?_,
    fun mi hmi hmapped k hk input s s' trace hstep => ?_,
    fun e he ha mi hmi hidx => srMap_mapped he ha hmi hidx⟩
  · obtain ⟨e, he, ha, hidx, _⟩ := hthere mi hmi hmapped
    refine copyIn_of_targets ⟨e, he, ha, hidx⟩ (fun e he ha hidx => ?_)
    obtain ⟨name', mj, _, hname', ⟨⟨hmj, hnamej⟩, _⟩, hj⟩ := srMap_firstNamed he ha
    have hsameitem := Network.eq_of_index_eq hmi hmj (hidx.symm.trans hj)
    rw [← hnamej, ← hsameitem, itemName_of_mapped hmapped, ← hk] at hname'
    obtain ⟨hlt, _⟩ := List.getElem?_eq_some_iff.mp (hname'.trans hk)
    exact hone _ _ hlt hname'
  · obtain ⟨g⟩ := modelStep_ok hstep
    rw [g.scalar]
    exact copyOut_active (hentry mi hmi hmapped k hk) rfl _ _

/-- On a SignalVector that has the names emitted for the network, every signal is
connected exactly when the names to be mapped are distinct and none is empty. -/
theorem connected_iff {name : String} {network : Kind.Network}
    (hsame : SameSignals network m.network)
    (hholds : ∀ s ∈ (generateSignalVector name network).signals, s.signal ∈ m.svSignal) :
    m.Connected ↔ m.mappedNames.Nodup ∧ "" ∉ m.mappedNames := by
  refine ⟨Connected.distinct, fun hdistinct => ?_⟩
  refine connected_of_distinct hdistinct.1 hdistinct.2 (fun mi hmi => ?_)
  obtain ⟨s, hs, heq⟩ := List.mem_map.mp (hsame.mem name hmi)
  exact heq ▸ hholds s hs

/-! ## Signals of one name in two messages -/

/-- Two messages with a byte each, and a SignalVector with both names. -/
def twoSignals (first second : String) : NetworkModel where
  network := .ofMessages [plainMessage "A" 0x1a0#32 1 [byteSignal first 0 (fun _ => true)],
    plainMessage "B" 0x1a1#32 1 [byteSignal second 0 (fun _ => true)]] (by simp [plainMessage])
  svSignal := [first, second]
  netoffSignal := none
  stack := 2

/-- The same network as a document. -/
def twoSignalsKind (first second : String) : Kind.Network where
  metadata := none
  messages := [
    { message := "A", annotations := none
      signals := some [{ signal := first, annotations := none }] },
    { message := "B", annotations := none
      signals := some [{ signal := second, annotations := none }] }]

theorem twoSignals_same (first second : String) :
    SameSignals (twoSignalsKind first second) (twoSignals first second).network := rfl

theorem twoSignals_holds (first second : String) :
    ∀ s ∈ (generateSignalVector "can" (twoSignalsKind first second)).signals,
      s.signal ∈ (twoSignals first second).svSignal := by
  simp [generateSignalVector, twoSignalsKind, twoSignals]

theorem connected_twoSignals : (twoSignals "crc_a" "crc_b").Connected :=
  (connected_iff (twoSignals_same "crc_a" "crc_b")
    (twoSignals_holds "crc_a" "crc_b")).mpr (by decide +kernel)

/-- The second of two signals with one name is the target of no entry. -/
theorem not_connected : ¬ ∀ (m : NetworkModel) (name : String) (network : Kind.Network),
    SameSignals network m.network →
    (∀ s ∈ (generateSignalVector name network).signals, s.signal ∈ m.svSignal) →
    m.Connected := by
  intro h
  have hconnected := h (twoSignals "crc" "crc") "can" (twoSignalsKind "crc" "crc")
    (twoSignals_same "crc" "crc") (twoSignals_holds "crc" "crc")
  have htargets : ∀ mi ∈ (twoSignals "crc" "crc").network.marshalList,
      ∃ e ∈ (twoSignals "crc" "crc").srMap, e.signalIndex = mi.signalVectorIndex :=
    fun mi hmi => by
      obtain ⟨e, he, _, hidx, _⟩ := hconnected.target mi hmi (by revert mi; decide +kernel)
      exact ⟨e, he, hidx⟩
  exact absurd htargets (by decide +kernel)

end NetworkModel
end DseNetwork
