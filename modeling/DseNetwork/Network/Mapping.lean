import DseNetwork.Network.Model

/-
The mapping of the SignalVector, entry by entry.

`network_get_signal_names` names item `i` of the marshal list at index `i`, with the
empty name for an internal signal.  An entry of the SignalVector is mapped to the first
item that has its name.
-/

namespace DseNetwork
namespace Network

variable {n : Network}

/-- The name of an item in `n->signal_name`. -/
def itemName (mi : n.Item) : String := if mi.signal.internal then "" else mi.signal.signalName

theorem signalName_eq (n : Network) : n.signalName = n.marshalList.map itemName :=
  getSignalNamesFrom_names n.marshalList 0

/-- An item stands in the marshal list at its index into the signal vector. -/
theorem marshalList_index {mi : n.Item} (h : mi ∈ n.marshalList) :
    n.marshalList[mi.signalVectorIndex]? = some mi := by
  obtain ⟨items, _, hml⟩ := n.loaded
  rw [hml, getSignalNames, getSignalNamesFrom_items] at h ⊢
  obtain ⟨k, hk, rfl⟩ := List.mem_mapIdx.mp h
  rw [List.getElem?_mapIdx]
  simp [hk]

theorem index_of_get {k : Nat} {mi : n.Item} (h : n.marshalList[k]? = some mi) :
    mi.signalVectorIndex = k := by
  obtain ⟨items, _, hml⟩ := n.loaded
  have hlist := congrArg (·[k]?) hml
  rw [h, getSignalNames, getSignalNamesFrom_items, List.getElem?_mapIdx] at hlist
  obtain ⟨_, _, hmi⟩ := Option.map_eq_some_iff.mp hlist.symm
  rw [← hmi]
  exact Nat.zero_add k

/-- `mi` is the first item of the marshal list that has the name. -/
def FirstNamed (name : String) (mi : n.Item) : Prop :=
  (mi ∈ n.marshalList ∧ itemName mi = name) ∧
    ∀ mj ∈ n.marshalList, itemName mj = name → mi.signalVectorIndex ≤ mj.signalVectorIndex

end Network

namespace NetworkModel

variable {m : NetworkModel}

/-- An entry is mapped to the first item with its name, or it is inactive: no item has
its name, or its name is empty. -/
theorem mapSignal_cases (m : NetworkModel) (svIdx : Nat) (name : String) :
    (∃ mi : m.network.Item, name ≠ "" ∧ Network.FirstNamed name mi ∧
      m.mapSignal svIdx name =
        { active := true, vectorIndex := svIdx, signalIndex := mi.signalVectorIndex }) ∨
    ((name = "" ∨ ∀ mi ∈ m.network.marshalList, Network.itemName mi ≠ name) ∧
      m.mapSignal svIdx name = { active := false, vectorIndex := 0, signalIndex := 0 }) := by
  unfold mapSignal
  rw [Network.signalName_eq, List.findIdx?_map]
  cases hfind : m.network.marshalList.findIdx?
      ((fun ntSigName => decide (name = ntSigName ∧ ntSigName ≠ "")) ∘ Network.itemName) with
  | none =>
    refine .inr ⟨?_, rfl⟩
    rw [List.findIdx?_eq_none_iff] at hfind
    by_cases hname : name = ""
    · exact .inl hname
    · refine .inr (fun mi hmi heq => ?_)
      have hno := hfind mi hmi
      simp [heq, hname] at hno
  | some k =>
    refine .inl ?_
    obtain ⟨hlt, hk, hbefore⟩ := List.findIdx?_eq_some_iff_getElem.mp hfind
    obtain ⟨hname, hne⟩ := of_decide_eq_true hk
    have hindex := Network.index_of_get (List.getElem?_eq_getElem hlt)
    refine ⟨m.network.marshalList[k], by rwa [hname],
      ⟨⟨List.getElem_mem hlt, hname.symm⟩, fun mj hmj hmjname => ?_⟩, by rw [hindex]⟩
    rw [hindex]
    by_contra hlater
    have hget := Network.marshalList_index hmj
    obtain ⟨hltj, hgetj⟩ := List.getElem?_eq_some_iff.mp hget
    refine hbefore mj.signalVectorIndex (Nat.lt_of_not_le hlater) (decide_eq_true ?_)
    rw [hgetj, hmjname]
    exact ⟨rfl, by rwa [hname]⟩

theorem mem_srMap {e : SRMap} (he : e ∈ m.srMap) :
    ∃ k name, m.svSignal[k]? = some name ∧ e = m.mapSignal k name := by
  obtain ⟨k, hk, rfl⟩ := List.mem_mapIdx.mp he
  exact ⟨k, m.svSignal[k], List.getElem?_eq_getElem hk, rfl⟩

theorem mapSignal_mem {k : Nat} {name : String} (h : m.svSignal[k]? = some name) :
    m.mapSignal k name ∈ m.srMap := by
  obtain ⟨hk, rfl⟩ := List.getElem?_eq_some_iff.mp h
  exact List.mem_mapIdx.mpr ⟨k, hk, rfl⟩

/-- An active entry maps the scalar of a name to the first item with the name. -/
theorem srMap_firstNamed {e : SRMap} (he : e ∈ m.srMap) (ha : e.active = true) :
    ∃ name, ∃ mi : m.network.Item, name ≠ "" ∧ m.svSignal[e.vectorIndex]? = some name ∧
      Network.FirstNamed name mi ∧ e.signalIndex = mi.signalVectorIndex := by
  obtain ⟨k, name, hk, rfl⟩ := mem_srMap he
  rcases m.mapSignal_cases k name with ⟨mi, hne, hfirst, heq⟩ | ⟨_, heq⟩
  · rw [heq]
    exact ⟨name, mi, hne, hk, hfirst, rfl⟩
  · rw [heq] at ha
    cases ha

/-- An entry of the signal vector that is a target is set, to the value that all its
scalars have. -/
theorem copyIn_of_targets {scalar signalVector : Nat → Double} {x : Nat} {v : Double}
    (htarget : ∃ e ∈ m.srMap, e.active = true ∧ e.signalIndex = x)
    (hv : ∀ e ∈ m.srMap, e.active = true → e.signalIndex = x → scalar e.vectorIndex = v) :
    m.copyIn scalar signalVector x = v := by
  have loop : ∀ l : List SRMap, (∀ e ∈ l, e ∈ m.srMap) → ∀ sv : Nat → Double,
      ((∃ e ∈ l, e.active = true ∧ e.signalIndex = x) ∨ sv x = v) →
      l.foldl (fun sv e => if e.active then
        Function.update sv e.signalIndex (scalar e.vectorIndex) else sv) sv x = v := by
    intro l
    induction l with
    | nil =>
      rintro _ sv (⟨e, he, _⟩ | hsv)
      · cases he
      · exact hsv
    | cons a rest ih =>
      intro hl sv hor
      refine ih (fun e he => hl e (List.mem_cons_of_mem a he)) _ ?_
      dsimp only
      by_cases ha : a.active = true ∧ a.signalIndex = x
      · rw [if_pos ha.1, ha.2, Function.update_self]
        exact .inr (hv a (hl a List.mem_cons_self) ha.1 ha.2)
      · have hkeep : (if a.active then
            Function.update sv a.signalIndex (scalar a.vectorIndex) else sv) x = sv x := by
          split
          · exact Function.update_of_ne (fun heq => ha ⟨by assumption, heq.symm⟩) _ _
          · rfl
        rcases hor with ⟨e, he, hact, hidx⟩ | hsv
        · rcases List.mem_cons.mp he with rfl | he
          · exact absurd ⟨hact, hidx⟩ ha
          · exact .inl ⟨e, he, hact, hidx⟩
        · exact .inr (hkeep.trans hsv)
  exact loop m.srMap (fun _ h => h) signalVector (.inl htarget)

end NetworkModel
end DseNetwork
