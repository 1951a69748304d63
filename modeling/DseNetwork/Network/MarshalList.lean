import DseNetwork.Network.Types
import Mathlib.Data.List.FinRange
import Mathlib.Data.List.Nodup
import DseNetwork.Lib.Sweep

/-
The marshal list, after `network_load_marshal_lists` and `network_get_signal_names`.

The messages are walked through references of any type, `msg` giving the record behind
a reference.  A network refers to its messages by position.
-/

namespace DseNetwork

variable {ι : Type}

/-- The inner loop over the signals of one message: it stops at the first signal that
has no `struct_member_name`. -/
def marshalSignals (i : ι) : List NetworkSignal → List (MarshalItem ι)
  | [] => []
  | ns :: rest =>
    match ns.name with
    | none => []
    | some _ => { signal := ns, message := i, signalVectorIndex := 0 } :: marshalSignals i rest

/-- The outer loop.  A message without `buffer_len` advances the pointer in the loop
body and once more in the loop header, so the element after it is not looked at: the
next message, or the terminator of the array. -/
def loadMarshalLists (msg : ι → NetworkMessage) :
    List ι → Except Fault (List (MarshalItem ι))
  | [] => .ok []
  | i :: rest =>
    if (msg i).bufferLen = 0 then
      match rest with
      | [] => .error .outOfBounds
      | _ :: rest' => loadMarshalLists msg rest'
    else
      match loadMarshalLists msg rest with
      | .ok items => .ok (marshalSignals i (msg i).signals ++ items)
      | .error e => .error e

theorem marshalSignals_signal (i : ι) (signals : List NetworkSignal) :
    ∀ mi ∈ marshalSignals i signals, mi.message = i ∧ mi.signal ∈ signals := by
  induction signals with
  | nil => exact fun mi h => absurd h List.not_mem_nil
  | cons ns rest ih =>
    intro mi h
    rw [marshalSignals] at h
    cases hname : ns.name with
    | none =>
      rw [hname] at h
      cases h
    | some name =>
      rw [hname] at h
      rcases List.mem_cons.mp h with rfl | h
      · exact ⟨rfl, List.mem_cons_self⟩
      · exact ⟨(ih mi h).1, List.mem_cons_of_mem ns (ih mi h).2⟩

theorem loadMarshalLists_signal {msg : ι → NetworkMessage} {l : List ι}
    {items : List (MarshalItem ι)} (h : loadMarshalLists msg l = .ok items) :
    ∀ mi ∈ items, mi.signal ∈ (msg mi.message).signals := by
  fun_induction loadMarshalLists msg l generalizing items with
  | case1 =>
    cases h
    exact fun mi hmi => absurd hmi List.not_mem_nil
  | case2 i hlen => cases h
  | case3 i hlen j rest ih => exact ih h
  | case4 i rest hlen items' hrest ih =>
    cases h
    intro mi hmi
    rcases List.mem_append.mp hmi with hmi | hmi
    · obtain ⟨rfl, hsignal⟩ := marshalSignals_signal i _ mi hmi
      exact hsignal
    · exact ih hrest mi hmi
  | case5 i rest hlen e hrest ih => cases h

theorem marshalSignals_signals (i : ι) (signals : List NetworkSignal) :
    (marshalSignals i signals).map (·.signal) = signals.takeWhile (·.name.isSome) := by
  induction signals with
  | nil => rfl
  | cons ns rest ih =>
    rw [marshalSignals]
    cases hname : ns.name with
    | none => rw [List.takeWhile_cons_of_neg (by simp [hname])]; rfl
    | some name =>
      rw [List.takeWhile_cons_of_pos (by simp [hname]), ← ih]
      rfl

theorem marshalSignals_sublist (i : ι) (signals : List NetworkSignal) :
    ((marshalSignals i signals).map (·.signal)).Sublist signals := by
  rw [marshalSignals_signals]
  exact List.takeWhile_sublist _

theorem loadMarshalLists_message {msg : ι → NetworkMessage} {l : List ι}
    {items : List (MarshalItem ι)} (h : loadMarshalLists msg l = .ok items) :
    ∀ mi ∈ items, mi.message ∈ l := by
  fun_induction loadMarshalLists msg l generalizing items with
  | case1 =>
    cases h
    exact fun mi hmi => absurd hmi List.not_mem_nil
  | case2 i hlen => cases h
  | case3 i hlen j rest ih =>
    exact fun mi hmi => List.mem_cons_of_mem i (List.mem_cons_of_mem j (ih h mi hmi))
  | case4 i rest hlen items' hrest ih =>
    cases h
    intro mi hmi
    rcases List.mem_append.mp hmi with hmi | hmi
    · rw [(marshalSignals_signal i _ mi hmi).1]
      exact List.mem_cons_self
    · exact List.mem_cons_of_mem i (ih hrest mi hmi)
  | case5 i rest hlen e hrest ih => cases h

/-- The items of a message are its signals in order, as far as the loops take them. -/
theorem loadMarshalLists_sublist [DecidableEq ι] {msg : ι → NetworkMessage} {l : List ι}
    (hl : l.Nodup) {items : List (MarshalItem ι)} (h : loadMarshalLists msg l = .ok items)
    (j : ι) : ((items.filter (fun mi => mi.message = j)).map (·.signal)).Sublist
      (msg j).signals := by
  fun_induction loadMarshalLists msg l generalizing items with
  | case1 =>
    cases h
    exact List.nil_sublist _
  | case2 i hlen => cases h
  | case3 i hlen k rest ih => exact ih (List.nodup_cons.mp (List.nodup_cons.mp hl).2).2 h
  | case4 i rest hlen items' hrest ih =>
    cases h
    obtain ⟨hi, hnodup⟩ := List.nodup_cons.mp hl
    have hown : ∀ mi ∈ marshalSignals i (msg i).signals, mi.message = i :=
      fun mi hmi => (marshalSignals_signal i _ mi hmi).1
    rw [List.filter_append]
    by_cases hij : i = j
    · subst hij
      have hnone : items'.filter (fun mi => mi.message = i) = [] :=
        List.filter_eq_nil_iff.mpr (fun mi hmi heq =>
          hi (of_decide_eq_true heq ▸ loadMarshalLists_message hrest mi hmi))
      rw [hnone, List.append_nil,
        List.filter_eq_self.mpr (fun mi hmi => decide_eq_true (hown mi hmi))]
      exact marshalSignals_sublist i _
    · have hnone : (marshalSignals i (msg i).signals).filter (fun mi => mi.message = j) = [] :=
        List.filter_eq_nil_iff.mpr (fun mi hmi heq =>
          hij ((hown mi hmi).symm.trans (of_decide_eq_true heq)))
      rw [hnone, List.nil_append]
      exact ih hnodup hrest
  | case5 i rest hlen e hrest ih => cases h

theorem loadMarshalLists_of_sized (msg : ι → NetworkMessage) (l : List ι)
    (h : ∀ i ∈ l, (msg i).bufferLen ≠ 0) :
    loadMarshalLists msg l = .ok (l.flatMap (fun i => marshalSignals i (msg i).signals)) := by
  induction l with
  | nil => rfl
  | cons i rest ih =>
    unfold loadMarshalLists
    rw [if_neg (h i List.mem_cons_self), ih (fun j hj => h j (List.mem_cons_of_mem i hj)),
      List.flatMap_cons]

/-- The loop of `network_get_signal_names` from offset `svOffset` on: the name of each
item, and the items with their index into the signal vector. -/
def getSignalNamesFrom (svOffset : Nat) :
    List (MarshalItem ι) → List String × List (MarshalItem ι)
  | [] => ([], [])
  | mi :: rest =>
    let name := if mi.signal.internal then "" else mi.signal.signalName
    let tail := getSignalNamesFrom (svOffset + 1) rest
    (name :: tail.1, { mi with signalVectorIndex := svOffset } :: tail.2)

def getSignalNames (ml : List (MarshalItem ι)) : List String × List (MarshalItem ι) :=
  getSignalNamesFrom 0 ml

theorem getSignalNamesFrom_items (ml : List (MarshalItem ι)) (k : Nat) :
    (getSignalNamesFrom k ml).2 =
      ml.mapIdx (fun j mi => { mi with signalVectorIndex := k + j }) := by
  induction ml generalizing k with
  | nil => rfl
  | cons mi rest ih =>
    rw [getSignalNamesFrom, List.mapIdx_cons, ih (k + 1)]
    simp only [Nat.add_zero, Nat.add_assoc, Nat.add_comm 1]

theorem getSignalNamesFrom_names (ml : List (MarshalItem ι)) (k : Nat) :
    (getSignalNamesFrom k ml).1 =
      ml.map (fun mi => if mi.signal.internal then "" else mi.signal.signalName) := by
  induction ml generalizing k with
  | nil => rfl
  | cons mi rest ih => rw [getSignalNamesFrom, List.map_cons, ih (k + 1)]

theorem getSignalNamesFrom_filter [DecidableEq ι] (ml : List (MarshalItem ι)) (k : Nat) (j : ι) :
    ((getSignalNamesFrom k ml).2.filter (fun mi => mi.message = j)).map (·.signal) =
      (ml.filter (fun mi => mi.message = j)).map (·.signal) := by
  induction ml generalizing k with
  | nil => rfl
  | cons mi rest ih =>
    rw [getSignalNamesFrom]
    by_cases hj : mi.message = j
    · simp [hj, ih]
    · simp [hj, ih]

theorem getSignalNames_indices (ml : List (MarshalItem ι)) :
    (getSignalNames ml).2.map (·.signalVectorIndex) = List.range ml.length := by
  rw [getSignalNames, getSignalNamesFrom_items]
  refine List.ext_getElem (by simp) (fun j h1 h2 => ?_)
  simp

/-! ## Loaded networks -/

/-- A network whose marshal list is the one the loader builds.  The list is a field so
that it is computed once; `loaded` fixes it. -/
structure Network where
  messages : List NetworkMessage
  marshalList : List (MarshalItem (Fin messages.length))
  loaded : ∃ items, loadMarshalLists (fun i => messages[i]) (List.finRange messages.length)
      = .ok items ∧ marshalList = (getSignalNames items).2

namespace Network

/-- The network of messages that all have a size. -/
def ofMessages (messages : List NetworkMessage) (h : ∀ nm ∈ messages, nm.bufferLen ≠ 0) :
    Network where
  messages := messages
  marshalList := (getSignalNames ((List.finRange messages.length).flatMap
    (fun i => marshalSignals i messages[i].signals))).2
  loaded := ⟨_, loadMarshalLists_of_sized _ _ (fun i _ => h _ (List.getElem_mem i.isLt)), rfl⟩

abbrev Ref (n : Network) : Type := Fin n.messages.length

def msg (n : Network) (i : n.Ref) : NetworkMessage := n.messages[i]

abbrev Item (n : Network) : Type := MarshalItem n.Ref

/-- `n->signal_name`. -/
def signalName (n : Network) : List String := (getSignalNames n.marshalList).1

def items (n : Network) (i : n.Ref) : List n.Item :=
  n.marshalList.filter (fun mi => mi.message = i)

theorem mem_items {n : Network} {i : n.Ref} {mi : n.Item} :
    mi ∈ n.items i ↔ mi ∈ n.marshalList ∧ mi.message = i := by
  simp [items]

theorem signal_mem {n : Network} {mi : n.Item} (h : mi ∈ n.marshalList) :
    mi.signal ∈ (n.msg mi.message).signals := by
  obtain ⟨items, hload, hml⟩ := n.loaded
  rw [hml, getSignalNames, getSignalNamesFrom_items] at h
  obtain ⟨k, hk, rfl⟩ := List.mem_mapIdx.mp h
  have hsignal := loadMarshalLists_signal hload items[k] (List.getElem_mem hk)
  exact hsignal

theorem items_sublist (n : Network) (i : n.Ref) :
    ((n.items i).map (·.signal)).Sublist (n.msg i).signals := by
  obtain ⟨items, hload, hml⟩ := n.loaded
  rw [Network.items, hml, getSignalNames, getSignalNamesFrom_filter]
  exact loadMarshalLists_sublist (List.nodup_finRange _) hload i

theorem nodup_indices (n : Network) : (n.marshalList.map (·.signalVectorIndex)).Nodup := by
  obtain ⟨items, _, hml⟩ := n.loaded
  rw [hml, getSignalNames_indices]
  exact List.nodup_range

theorem eq_of_index_eq {n : Network} {mi mi' : n.Item} (h : mi ∈ n.marshalList)
    (h' : mi' ∈ n.marshalList) (heq : mi.signalVectorIndex = mi'.signalVectorIndex) :
    mi = mi' :=
  List.inj_on_of_nodup_map n.nodup_indices h h' heq

/-- One iteration of the last loop of `network_load_marshal_lists`. -/
def setMux (n : Network) (mux : n.Ref → Option n.Item) (mi : n.Item) : n.Ref → Option n.Item :=
  if mi.signal.muxSignal then Function.update mux mi.message (some mi) else mux

/-- `mux_signal->mux_mi` of each message: the item of its last mux signal. -/
def muxMi (n : Network) : n.Ref → Option n.Item := n.marshalList.foldl n.setMux (fun _ => none)

theorem muxMi_mem {n : Network} {i : n.Ref} {mi : n.Item} (h : n.muxMi i = some mi) :
    mi ∈ n.items i ∧ mi.signal.muxSignal = true := by
  have loop : ∀ (l : List n.Item) (mux : n.Ref → Option n.Item),
      (∀ mi ∈ l, mi ∈ n.marshalList) →
      (∀ j mj, mux j = some mj → mj ∈ n.items j ∧ mj.signal.muxSignal = true) →
      ∀ j mj, l.foldl n.setMux mux j = some mj → mj ∈ n.items j ∧ mj.signal.muxSignal = true := by
    intro l
    induction l with
    | nil => exact fun mux _ hmux => hmux
    | cons a rest ih =>
      intro mux hl hmux
      refine ih _ (fun b hb => hl b (List.mem_cons_of_mem a hb)) (fun j mj hj => ?_)
      rw [setMux] at hj
      by_cases ha : a.signal.muxSignal = true
      · rw [if_pos ha] at hj
        by_cases hij : j = a.message
        · subst hij
          rw [Function.update_self, Option.some.injEq] at hj
          subst hj
          exact ⟨mem_items.mpr ⟨hl a List.mem_cons_self, rfl⟩, ha⟩
        · rw [Function.update_of_ne hij] at hj
          exact hmux j mj hj
      · rw [if_neg ha] at hj
        exact hmux j mj hj
  exact loop n.marshalList _ (fun _ h => h) (fun _ _ h => by cases h) i mi h

theorem muxMi_eq_none {n : Network} {i : n.Ref}
    (h : ∀ ns ∈ (n.msg i).signals, ns.muxSignal = false) : n.muxMi i = none := by
  cases hmux : n.muxMi i with
  | none => rfl
  | some mi =>
    obtain ⟨hmi, hflag⟩ := muxMi_mem hmux
    rw [h mi.signal ((n.items_sublist i).subset (List.mem_map_of_mem hmi))] at hflag
    cases hflag

end Network
end DseNetwork
