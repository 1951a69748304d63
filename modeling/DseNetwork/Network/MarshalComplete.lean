import DseNetwork.Network.Library
import Mathlib.Algebra.Group.Even

/-
When the marshal list is complete.

The walk over the messages looks at every other message of a stretch without
`buffer_len`, and the walk over the signals ends at the first one without a name.  Both
are harmless in some networks; these are exactly the networks with a complete list.
-/

namespace DseNetwork

variable {ι : Type}

/-! ## The complete list -/

def namedItems (i : ι) (signals : List NetworkSignal) : List (MarshalItem ι) :=
  (signals.filter (·.name.isSome)).map
    (fun ns => { signal := ns, message := i, signalVectorIndex := 0 })

def messageItems (msg : ι → NetworkMessage) (i : ι) : List (MarshalItem ι) :=
  if (msg i).bufferLen = 0 then [] else namedItems i (msg i).signals

/-- One item for each named signal of each message with a `buffer_len`, in order. -/
def completeList (msg : ι → NetworkMessage) (l : List ι) : List (MarshalItem ι) :=
  l.flatMap (messageItems msg)

/-- The loader ends inside the array with the complete list, whose items then have their
positions as indices and their names at these positions. -/
def MarshalComplete (msg : ι → NetworkMessage) (l : List ι) : Prop :=
  ∃ items, loadMarshalLists msg l = .ok items ∧ items = completeList msg l ∧
    (getSignalNames items).2 = items.mapIdx (fun k mi => { mi with signalVectorIndex := k }) ∧
    (getSignalNames items).1 =
      items.map (fun mi => if mi.signal.internal then "" else mi.signal.signalName)

/-! ## The condition -/

/-- No signal with a name comes after one without. -/
def NamedFirst : List NetworkSignal → Prop
  | [] => True
  | ns :: rest =>
    if ns.name.isSome then NamedFirst rest else ∀ ns' ∈ rest, ns'.name.isSome = false

/-- With `k` messages without `buffer_len` just before: the number of such messages
ahead of a message with a named signal, and ahead of the end, is even. -/
def EvenGaps : Nat → List NetworkMessage → Prop
  | k, [] => Even k
  | k, nm :: rest =>
    if nm.bufferLen = 0 then EvenGaps (k + 1) rest
    else ((∃ ns ∈ nm.signals, ns.name.isSome) → Even k) ∧ EvenGaps 0 rest

theorem evenGaps_add_two (k : Nat) (l : List NetworkMessage) :
    EvenGaps (k + 2) l ↔ EvenGaps k l := by
  have heven : Even (k + 2) ↔ Even k := by simp [Nat.even_add]
  induction l generalizing k with
  | nil => exact heven
  | cons nm rest ih =>
    unfold EvenGaps
    by_cases hlen : nm.bufferLen = 0
    · rw [if_pos hlen, if_pos hlen]
      exact ih (k + 1) (by simp [Nat.even_add])
    · rw [if_neg hlen, if_neg hlen, heven]

/-! ## One message -/

theorem namedItems_cons (i : ι) (ns : NetworkSignal) (rest : List NetworkSignal) :
    namedItems i (ns :: rest) =
      if ns.name.isSome then
        { signal := ns, message := i, signalVectorIndex := 0 } :: namedItems i rest
      else namedItems i rest := by
  by_cases hname : ns.name.isSome = true <;> simp [namedItems, hname]

theorem namedItems_eq_nil {i : ι} {signals : List NetworkSignal} :
    namedItems i signals = [] ↔ ¬ ∃ ns ∈ signals, ns.name.isSome = true := by
  simp [namedItems, List.filter_eq_nil_iff]

theorem marshalSignals_initial (i : ι) (signals : List NetworkSignal) :
    marshalSignals i signals <+: namedItems i signals := by
  induction signals with
  | nil => exact List.prefix_refl _
  | cons ns rest ih =>
    rw [marshalSignals, namedItems_cons]
    cases hname : ns.name with
    | none => exact List.nil_prefix
    | some name => exact (List.prefix_cons_inj _).mpr ih

theorem marshalSignals_eq_iff (i : ι) (signals : List NetworkSignal) :
    marshalSignals i signals = namedItems i signals ↔ NamedFirst signals := by
  induction signals with
  | nil => exact ⟨fun _ => trivial, fun _ => rfl⟩
  | cons ns rest ih =>
    rw [marshalSignals, NamedFirst, namedItems_cons]
    cases hname : ns.name with
    | none =>
      simp only [Option.isSome_none, Bool.false_eq_true, if_false]
      rw [eq_comm, namedItems_eq_nil]
      simp
    | some name =>
      simp only [Option.isSome_some, if_true]
      rw [List.cons_inj_right, ih]

/-! ## The walk -/

theorem completeList_cons (msg : ι → NetworkMessage) (i : ι) (rest : List ι) :
    completeList msg (i :: rest) = messageItems msg i ++ completeList msg rest :=
  List.flatMap_cons

theorem loadMarshalLists_length {msg : ι → NetworkMessage} {l : List ι}
    {items : List (MarshalItem ι)} (h : loadMarshalLists msg l = .ok items) :
    items.length ≤ (completeList msg l).length := by
  fun_induction loadMarshalLists msg l generalizing items with
  | case1 =>
    cases h
    exact Nat.zero_le _
  | case2 i hlen => cases h
  | case3 i hlen j rest ih =>
    have hle := ih h
    rw [completeList_cons, completeList_cons, List.length_append, List.length_append]
    omega
  | case4 i rest hlen items' hrest ih =>
    cases h
    have hle := ih hrest
    have hprefix := (marshalSignals_initial i (msg i).signals).length_le
    rw [completeList_cons, List.length_append, List.length_append, messageItems, if_neg hlen]
    omega
  | case5 i rest hlen e hrest ih => cases h

theorem loadMarshalLists_skipped (msg : ι → NetworkMessage) (j : ι) (rest : List ι) :
    loadMarshalLists msg rest = .ok (completeList msg (j :: rest)) ↔
      messageItems msg j = [] ∧ loadMarshalLists msg rest = .ok (completeList msg rest) := by
  rw [completeList_cons]
  constructor
  · intro h
    have hle := loadMarshalLists_length h
    rw [List.length_append] at hle
    have hnil : messageItems msg j = [] := List.eq_nil_of_length_eq_zero (by omega)
    rw [hnil, List.nil_append] at h
    exact ⟨hnil, h⟩
  · rintro ⟨hnil, h⟩
    rw [hnil, h, List.nil_append]

theorem messageItems_eq_nil {msg : ι → NetworkMessage} {j : ι} :
    messageItems msg j = [] ↔
      ((msg j).bufferLen ≠ 0 → ¬ ∃ ns ∈ (msg j).signals, ns.name.isSome = true) := by
  unfold messageItems
  by_cases hlen : (msg j).bufferLen = 0
  · simp [hlen]
  · rw [if_neg hlen, namedItems_eq_nil]
    exact ⟨fun h _ => h, fun h => h hlen⟩

/-- A message that is stepped over with the one before it, without a loss, has no items. -/
theorem evenGaps_skipped {msg : ι → NetworkMessage} {i j : ι} {rest : List ι}
    (hlen : (msg i).bufferLen = 0) :
    EvenGaps 0 ((i :: j :: rest).map msg) ↔
      messageItems msg j = [] ∧ EvenGaps 0 (rest.map msg) := by
  rw [messageItems_eq_nil, List.map_cons, List.map_cons, EvenGaps, if_pos hlen, EvenGaps]
  by_cases hlen' : (msg j).bufferLen = 0
  · rw [if_pos hlen', evenGaps_add_two]
    simp [hlen']
  · rw [if_neg hlen']
    simp [hlen']

theorem namedFirst_of_nil {msg : ι → NetworkMessage} {j : ι} (hnil : messageItems msg j = [])
    (hlen : (msg j).bufferLen ≠ 0) : NamedFirst (msg j).signals := by
  have hnone : namedItems j (msg j).signals = [] :=
    namedItems_eq_nil.mpr (messageItems_eq_nil.mp hnil hlen)
  have hinitial := marshalSignals_initial j (msg j).signals
  rw [hnone] at hinitial
  rw [← marshalSignals_eq_iff j, hnone]
  exact List.prefix_nil.mp hinitial

/-- The walk finds all items exactly when it skips none and stops early in no message. -/
theorem loadMarshalLists_eq_iff (msg : ι → NetworkMessage) (l : List ι) :
    loadMarshalLists msg l = .ok (completeList msg l) ↔
      EvenGaps 0 (l.map msg) ∧
        ∀ i ∈ l, (msg i).bufferLen ≠ 0 → NamedFirst (msg i).signals := by
  fun_induction loadMarshalLists msg l with
  | case1 => simp [completeList, EvenGaps]
  | case2 i hlen => simp [EvenGaps, hlen]
  | case3 i hlen j rest ih =>
    have hcomplete : completeList msg (i :: j :: rest) = completeList msg (j :: rest) := by
      rw [completeList_cons, messageItems, if_pos hlen, List.nil_append]
    rw [hcomplete, loadMarshalLists_skipped, ih, evenGaps_skipped hlen]
    simp only [List.forall_mem_cons]
    constructor
    · rintro ⟨hnil, heven, hall⟩
      exact ⟨⟨hnil, heven⟩, fun hne => absurd hlen hne, namedFirst_of_nil hnil, hall⟩
    · rintro ⟨⟨hnil, heven⟩, _, _, hall⟩
      exact ⟨hnil, heven, hall⟩
  | case4 i rest hlen items' hrest ih =>
    have hle := loadMarshalLists_length hrest
    rw [hrest] at ih
    rw [completeList_cons, messageItems, if_neg hlen, List.map_cons, EvenGaps, if_neg hlen,
      Except.ok.injEq]
    simp only [List.forall_mem_cons]
    rw [← marshalSignals_eq_iff i]
    constructor
    · intro heq
      have hprefix := (marshalSignals_initial i (msg i).signals).length_le
      have hlength := congrArg List.length heq
      rw [List.length_append, List.length_append] at hlength
      obtain ⟨hhead, htail⟩ := List.append_inj heq (by omega)
      obtain ⟨heven, hall⟩ := ih.mp (congrArg Except.ok htail)
      exact ⟨⟨fun _ => Even.zero, heven⟩, fun _ => hhead, hall⟩
    · rintro ⟨⟨_, heven⟩, hhead, hall⟩
      rw [hhead hlen, Except.ok.inj (ih.mpr ⟨heven, hall⟩)]
  | case5 i rest hlen e hrest ih =>
    rw [hrest] at ih
    rw [List.map_cons, EvenGaps, if_neg hlen]
    simp only [List.forall_mem_cons]
    refine ⟨fun h => (by cases h), ?_⟩
    rintro ⟨⟨_, heven⟩, _, hall⟩
    cases ih.mpr ⟨heven, hall⟩

/-! ## One signal -/

/-- With `k` messages without `buffer_len` just before: message `i` has one, and the number
of such messages just ahead of it is even. -/
def WalkedOver (msg : ι → NetworkMessage) (i : ι) : Nat → List ι → Prop
  | _, [] => False
  | k, j :: rest =>
    if (msg j).bufferLen = 0 then WalkedOver msg i (k + 1) rest
    else (j = i ∧ Even k) ∨ WalkedOver msg i 0 rest

theorem walkedOver_add_two (msg : ι → NetworkMessage) (i : ι) (k : Nat) (l : List ι) :
    WalkedOver msg i (k + 2) l ↔ WalkedOver msg i k l := by
  have heven : Even (k + 2) ↔ Even k := by simp [Nat.even_add]
  induction l generalizing k with
  | nil => exact Iff.rfl
  | cons j rest ih =>
    unfold WalkedOver
    by_cases hlen : (msg j).bufferLen = 0
    · rw [if_pos hlen, if_pos hlen]
      exact ih (k + 1) (by simp [Nat.even_add])
    · rw [if_neg hlen, if_neg hlen, heven]

theorem mem_marshalSignals_iff {i j : ι} {signals : List NetworkSignal} {ns : NetworkSignal} :
    (∃ mi ∈ marshalSignals j signals, mi.message = i ∧ mi.signal = ns) ↔
      j = i ∧ ns ∈ signals.takeWhile (·.name.isSome) := by
  rw [← marshalSignals_signals j, List.mem_map]
  constructor
  · rintro ⟨mi, hmi, hmsg, hns⟩
    exact ⟨(marshalSignals_signal j signals mi hmi).1.symm.trans hmsg, mi, hmi, hns⟩
  · rintro ⟨hij, mi, hmi, hns⟩
    exact ⟨mi, hmi, (marshalSignals_signal j signals mi hmi).1.trans hij, hns⟩

/-- A signal is loaded exactly when its message is walked over and no signal before it
lacks a name. -/
theorem mem_loadMarshalLists_iff {msg : ι → NetworkMessage} {l : List ι} {i : ι}
    {items : List (MarshalItem ι)} (h : loadMarshalLists msg l = .ok items)
    {ns : NetworkSignal} :
    (∃ mi ∈ items, mi.message = i ∧ mi.signal = ns) ↔
      WalkedOver msg i 0 l ∧ ns ∈ (msg i).signals.takeWhile (·.name.isSome) := by
  fun_induction loadMarshalLists msg l generalizing items with
  | case1 =>
    cases h
    refine iff_of_false (fun hleft => ?_) (fun hright => hright.1)
    obtain ⟨mi, hmi, _⟩ := hleft
    cases hmi
  | case2 j hlen => cases h
  | case3 j hlen k rest ih =>
    have hwalk : WalkedOver msg i 0 (j :: k :: rest) ↔ WalkedOver msg i 0 rest := by
      rw [WalkedOver, if_pos hlen, WalkedOver]
      by_cases hlen' : (msg k).bufferLen = 0
      · rw [if_pos hlen']
        exact walkedOver_add_two msg i 0 rest
      · rw [if_neg hlen', or_iff_right (fun hpassed => absurd hpassed.2 (by decide))]
    rw [ih h, hwalk]
  | case4 j rest hlen items' hrest ih =>
    cases h
    have hwalk : WalkedOver msg i 0 (j :: rest) ↔ j = i ∨ WalkedOver msg i 0 rest := by
      rw [WalkedOver, if_neg hlen, and_iff_left Even.zero]
    have hsplit : (∃ mi ∈ marshalSignals j (msg j).signals ++ items',
          mi.message = i ∧ mi.signal = ns) ↔
        (∃ mi ∈ marshalSignals j (msg j).signals, mi.message = i ∧ mi.signal = ns) ∨
          ∃ mi ∈ items', mi.message = i ∧ mi.signal = ns := by
      simp only [List.mem_append, or_and_right, exists_or]
    rw [hsplit, hwalk, mem_marshalSignals_iff, ih hrest, or_and_right]
    exact or_congr_left (and_congr_right (fun hij => by rw [hij]))
  | case5 j rest hlen e hrest ih => cases h

namespace Network

variable {n : Network} {i : n.Ref} {ns : NetworkSignal}

/-- The loader walks over the message, and no signal up to this one lacks a name. -/
def Listed (n : Network) (i : n.Ref) (ns : NetworkSignal) : Prop :=
  WalkedOver n.msg i 0 (List.finRange n.messages.length) ∧
    ns ∈ (n.msg i).signals.takeWhile (·.name.isSome)

theorem listed_iff : n.Listed i ns ↔ ∃ mi ∈ n.items i, mi.signal = ns := by
  obtain ⟨items, hload, hml⟩ := n.loaded
  refine (mem_loadMarshalLists_iff hload).symm.trans ?_
  have hitems : (∃ mi ∈ n.items i, mi.signal = ns) ↔
      ns ∈ ((getSignalNames items).2.filter (fun mi => mi.message = i)).map (·.signal) := by
    rw [Network.items, hml, List.mem_map]
  rw [hitems, getSignalNames, getSignalNamesFrom_filter, List.mem_map]
  simp only [List.mem_filter, decide_eq_true_eq, and_assoc]

end Network

/-! ## Loaded networks -/

theorem marshalComplete_iff_loaded (msg : ι → NetworkMessage) (l : List ι) :
    MarshalComplete msg l ↔ loadMarshalLists msg l = .ok (completeList msg l) := by
  constructor
  · rintro ⟨items, hload, rfl, _⟩
    exact hload
  · intro hload
    refine ⟨_, hload, rfl, ?_, ?_⟩
    · rw [getSignalNames, getSignalNamesFrom_items]
      simp only [Nat.zero_add]
    · exact getSignalNamesFrom_names _ 0

/-- The marshal list of a message list is complete exactly when, in each message with a
`buffer_len`, the named signals come first, and the messages without one come in even
numbers ahead of each message with a named signal and ahead of the end. -/
theorem marshalComplete_iff (messages : List NetworkMessage) :
    MarshalComplete messages.get (List.finRange messages.length) ↔
      EvenGaps 0 messages ∧
        ∀ nm ∈ messages, nm.bufferLen ≠ 0 → NamedFirst nm.signals := by
  have hmap : (List.finRange messages.length).map messages.get = messages :=
    List.map_getElem_finRange messages
  have hall : (∀ nm ∈ messages, nm.bufferLen ≠ 0 → NamedFirst nm.signals) ↔
      ∀ i ∈ List.finRange messages.length, (messages.get i).bufferLen ≠ 0 →
        NamedFirst (messages.get i).signals := by
    conv_lhs => rw [← hmap]
    simp only [List.forall_mem_map]
  rw [marshalComplete_iff_loaded, loadMarshalLists_eq_iff, hmap, hall]

/-- The message after one without a `buffer_len` is lost. -/
theorem not_marshalComplete : ¬ ∀ messages : List NetworkMessage,
    MarshalComplete messages.get (List.finRange messages.length) := by
  intro h
  obtain ⟨items, hload, hitems, _⟩ := h [plainMessage "A" 0x1a0#32 0 [],
    plainMessage "B" 0x1a1#32 1 [byteSignal "s" 0 (fun _ => true)]]
  have hempty : items = [] := (Except.ok.inj hload).symm
  rw [hempty] at hitems
  have hone := congrArg List.length hitems
  exact absurd hone (by decide +kernel)

end DseNetwork
