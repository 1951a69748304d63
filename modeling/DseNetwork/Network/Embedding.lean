import DseNetwork.Lib.Simulation
import DseNetwork.Network.EndOfStep
import DseNetwork.Network.FrameLookup
import DseNetwork.Network.Mapping
import DseNetwork.Network.Mux
import Mathlib.Data.List.Flatten

/-
The messages of one network among those of another.

They stand at other places there, and other messages may stand between them.  Signal
indices and marshal lists are laid out differently, so an item is compared with its twin:
the item in the same place of the same message.  Every pass of a step treats a message by
itself, so it keeps the relation that a message has the same state in both networks and
twins have the same value.
-/

namespace DseNetwork
namespace Network

variable {n : Network}

/-! ## Regular networks -/

/-- All messages sized, no frame identifier zero, and no name for two signals. -/
structure Regular (n : Network) : Prop where
  bufferLen : ∀ nm ∈ n.messages, nm.bufferLen ≠ 0
  nonzero : 0#32 ∉ n.frameIds
  names : ∀ mi ∈ n.marshalList, ∀ mj ∈ n.marshalList, itemName mi ≠ "" →
    itemName mi = itemName mj → mi = mj

theorem msg_mem (i : n.Ref) : n.msg i ∈ n.messages := List.getElem_mem i.isLt

theorem itemName_of_ne {mi : n.Item} {name : String} (hne : name ≠ "")
    (hname : itemName mi = name) : mi.signal.signalName = name := by
  unfold itemName at hname
  split at hname
  · exact absurd hname.symm hne
  · exact hname

/-! ## The items of a message -/

theorem marshalList_of_sized (h : ∀ nm ∈ n.messages, nm.bufferLen ≠ 0) :
    n.marshalList = (getSignalNames ((List.finRange n.messages.length).flatMap
      (fun i => marshalSignals i (n.msg i).signals))).2 := by
  obtain ⟨items, hload, hml⟩ := n.loaded
  have hsized := loadMarshalLists_of_sized (fun i : n.Ref => n.messages[i])
    (List.finRange n.messages.length) (fun i _ => h _ (msg_mem i))
  rw [hml, ← Except.ok.inj (hsized.symm.trans hload)]
  rfl

theorem items_signals (h : ∀ nm ∈ n.messages, nm.bufferLen ≠ 0) (i : n.Ref) :
    (n.items i).map (·.signal) = (n.msg i).signals.takeWhile (·.name.isSome) := by
  have hitems := Sweep.filter_flatMap_key (fun mi : n.Item => mi.message)
    (fun j => marshalSignals j (n.msg j).signals)
    (fun j mi hmi => (marshalSignals_signal j _ mi hmi).1) (List.nodup_finRange _)
    (List.mem_finRange i)
  rw [items, marshalList_of_sized h, getSignalNames, getSignalNamesFrom_filter, hitems,
    marshalSignals_signals]

theorem getSignalNamesFrom_signals {ι : Type} (ml : List (MarshalItem ι)) (k : Nat) :
    (getSignalNamesFrom k ml).2.map (·.signal) = ml.map (·.signal) := by
  induction ml generalizing k with
  | nil => rfl
  | cons mi rest ih => rw [getSignalNamesFrom, List.map_cons, List.map_cons, ih]

theorem marshalList_signals (h : ∀ nm ∈ n.messages, nm.bufferLen ≠ 0) :
    n.marshalList.map (·.signal) =
      n.messages.flatMap (fun nm => nm.signals.takeWhile (·.name.isSome)) := by
  rw [marshalList_of_sized h, getSignalNames, getSignalNamesFrom_signals, List.map_flatMap]
  simp only [marshalSignals_signals]
  conv_rhs => rw [← List.map_get_finRange n.messages, List.flatMap_map]
  rfl

theorem nodup_items (i : n.Ref) : (n.items i).Nodup :=
  (List.Nodup.of_map _ n.nodup_indices).filter _

/-- The mux item of a message is the last of its items with a mux signal. -/
theorem muxMi_eq (n : Network) (i : n.Ref) : n.muxMi i = (n.items i).foldl
    (fun mux mi => if mi.signal.muxSignal then some mi else mux) none := by
  have hset : n.setMux = fun mux mi => Function.update mux mi.message
      (if mi.signal.muxSignal then some mi else mux mi.message) := by
    funext mux mi
    rw [setMux]
    by_cases hflag : mi.signal.muxSignal = true
    · rw [if_pos hflag, if_pos hflag]
    · rw [if_neg hflag, if_neg hflag, Function.update_eq_self]
  rw [muxMi, hset]
  exact Sweep.foldl_update_apply (·.message)
    (fun (mi : n.Item) mux => if mi.signal.muxSignal then some mi else mux) n.marshalList
    (fun _ => none) i

/-! ## Message functions -/

/-- The functions of a message do not see where it stands. -/
theorem decodeLoop_follows {ι κ : Type} (i : ι) (j : κ) (nm : NetworkMessage) (k : Nat)
    (fs : List NetworkFunction) (st : MessageState) :
    Follows (fun r r' => r'.1 = r.1) (decodeLoop i nm k fs st) (decodeLoop j nm k fs st) := by
  induction fs generalizing k st with
  | nil => exact .ok rfl
  | cons nf rest ih =>
    cases hf : nf.function with
    | none =>
      rw [decodeLoop, decodeLoop]
      simp only [hf]
      exact ih (k + 1) st
    | some f =>
      rw [decodeLoop, decodeLoop]
      simp only [hf]
      split
      · exact (ih _ _).bind (fun r r' hr => .ok hr)
      · split
        · exact (ih _ _).bind (fun r r' hr => .ok hr)
        · exact .error _ _

theorem decodeMessage_follows {ι κ : Type} (i : ι) (j : κ) (nm : NetworkMessage)
    (st : MessageState) :
    Follows (fun r r' => r'.1 = r.1) (decodeMessage i nm st) (decodeMessage j nm st) := by
  rw [decodeMessage, decodeMessage]
  split
  · exact .ok rfl
  · exact decodeLoop_follows i j nm 0 nm.decodeFunctions st

theorem encodeLoop_follows {ι κ : Type} (i : ι) (j : κ) (nm : NetworkMessage) (k : Nat)
    (fs : List NetworkFunction) (st : MessageState) :
    Follows (fun r r' => r'.1 = r.1) (encodeLoop i nm k fs st) (encodeLoop j nm k fs st) := by
  induction fs generalizing k st with
  | nil => exact .ok rfl
  | cons nf rest ih =>
    cases hf : nf.function with
    | none =>
      rw [encodeLoop, encodeLoop]
      simp only [hf]
      exact ih (k + 1) st
    | some f =>
      rw [encodeLoop, encodeLoop]
      simp only [hf]
      split
      · exact .error _ _
      · exact (ih _ _).bind (fun r r' hr => .ok hr)

theorem encodeMessage_follows {ι κ : Type} (netOff : Bool) (i : ι) (j : κ) (nm : NetworkMessage)
    (st : MessageState) :
    Follows (fun r r' => r'.1 = r.1) (encodeMessage netOff i nm st)
      (encodeMessage netOff j nm st) := by
  rw [encodeMessage, encodeMessage]
  dsimp only
  generalize (if netOff then { st with needsTx := false } else st) = st₀
  split
  · exact .ok rfl
  · refine (encodeLoop_follows i j nm 0 nm.encodeFunctions _).bind ?_
    rintro ⟨st₁, calls⟩ ⟨_, calls'⟩ rfl
    dsimp only
    split
    · cases nm.unpackFunc with
      | none => exact .error _ _
      | some unpack => exact .ok rfl
    · exact .ok rfl

/-! ## Embeddings -/

/-- Where the messages of `part` stand among the messages of `n`. -/
structure Embedding (part n : Network) where
  origin : part.Ref → n.Ref
  msg : ∀ i, n.msg (origin i) = part.msg i
  injective : Function.Injective origin

variable {part : Network} {p : Embedding part n}

namespace Embedding

theorem messages_mem (p : Embedding part n) : ∀ nm ∈ part.messages, nm ∈ n.messages := by
  intro nm hnm
  obtain ⟨i, hi⟩ := List.get_of_mem hnm
  have hmsg := p.msg i
  have hget : part.msg i = nm := hi
  rw [← hget, ← hmsg]
  exact msg_mem _

theorem bufferLen (p : Embedding part n) (h : n.Regular) :
    ∀ nm ∈ part.messages, nm.bufferLen ≠ 0 :=
  fun nm hnm => h.bufferLen nm (p.messages_mem nm hnm)

/-! ### Items -/

/-- An item, and the item in the same place of the same message. -/
def Twin (p : Embedding part n) (mi : part.Item) (mi' : n.Item) : Prop :=
  ∃ k : Nat, (part.items mi.message)[k]? = some mi ∧
    (n.items (p.origin mi.message))[k]? = some mi'

variable {mi mj : part.Item} {mi' mj' : n.Item}

theorem Twin.left (h : p.Twin mi mi') : mi ∈ part.marshalList := by
  obtain ⟨k, hk, _⟩ := h
  exact (mem_items.mp (List.mem_of_getElem? hk)).1

theorem Twin.right (h : p.Twin mi mi') : mi' ∈ n.marshalList := by
  obtain ⟨k, _, hk⟩ := h
  exact (mem_items.mp (List.mem_of_getElem? hk)).1

theorem Twin.message (h : p.Twin mi mi') : mi'.message = p.origin mi.message := by
  obtain ⟨k, _, hk⟩ := h
  exact (mem_items.mp (List.mem_of_getElem? hk)).2

theorem signals_eq (p : Embedding part n) (h : n.Regular) (i : part.Ref) :
    (n.items (p.origin i)).map (·.signal) = (part.items i).map (·.signal) := by
  rw [items_signals h.bufferLen, items_signals (p.bufferLen h), p.msg]

theorem Twin.signal (ht : p.Twin mi mi') (h : n.Regular) : mi'.signal = mi.signal := by
  obtain ⟨k, hk, hk'⟩ := ht
  have hsame := congrArg (·[k]?) (p.signals_eq h mi.message)
  simp only [List.getElem?_map, hk, hk', Option.map_some, Option.some.injEq] at hsame
  exact hsame

theorem Twin.right_unique (hi : p.Twin mi mi') (hj : p.Twin mi mj') : mi' = mj' := by
  obtain ⟨k, hk, hk'⟩ := hi
  obtain ⟨k₁, hk₁, hk₁'⟩ := hj
  obtain ⟨hlt, _⟩ := List.getElem?_eq_some_iff.mp hk
  obtain rfl := (List.getElem?_inj hlt (nodup_items mi.message)).mp (hk.trans hk₁.symm)
  exact Option.some.inj (hk'.symm.trans hk₁')

theorem Twin.left_unique (hi : p.Twin mi mi') (hj : p.Twin mj mi') : mi = mj := by
  have hmsg : mi.message = mj.message := p.injective (hi.message.symm.trans hj.message)
  obtain ⟨k, hk, hk'⟩ := hi
  obtain ⟨k₁, hk₁, hk₁'⟩ := hj
  rw [hmsg] at hk hk'
  obtain ⟨hlt, _⟩ := List.getElem?_eq_some_iff.mp hk'
  obtain rfl := (List.getElem?_inj hlt (nodup_items _)).mp (hk'.trans hk₁'.symm)
  exact Option.some.inj (hk.symm.trans hk₁)

/-- Items have one index exactly if their twins have. -/
theorem Twin.index_iff (hi : p.Twin mi mi') (hj : p.Twin mj mj') :
    mi.signalVectorIndex = mj.signalVectorIndex ↔
      mi'.signalVectorIndex = mj'.signalVectorIndex := by
  constructor
  · intro heq
    obtain rfl := eq_of_index_eq hi.left hj.left heq
    rw [hi.right_unique hj]
  · intro heq
    obtain rfl := eq_of_index_eq hi.right hj.right heq
    rw [hi.left_unique hj]

/-- The items of a message are twins in order. -/
theorem items_twins (p : Embedding part n) (h : n.Regular) (i : part.Ref) :
    List.Forall₂ p.Twin (part.items i) (n.items (p.origin i)) := by
  have hlength : (part.items i).length = (n.items (p.origin i)).length := by
    have hsignals := congrArg List.length (p.signals_eq h i)
    rwa [List.length_map, List.length_map, eq_comm] at hsignals
  refine List.forall₂_iff_get.mpr ⟨hlength, fun k hk hk' => ⟨k, ?_, ?_⟩⟩
  · rw [(mem_items.mp (List.get_mem (part.items i) ⟨k, hk⟩)).2]
    exact List.getElem?_eq_getElem hk
  · rw [(mem_items.mp (List.get_mem (part.items i) ⟨k, hk⟩)).2]
    exact List.getElem?_eq_getElem hk'

theorem exists_twin (p : Embedding part n) (h : n.Regular) (hmi : mi ∈ part.marshalList) :
    ∃ mi', p.Twin mi mi' := by
  obtain ⟨mi', _, ht⟩ := System.exists_of_forall₂ (p.items_twins h mi.message)
    (mem_items.mpr ⟨hmi, rfl⟩)
  exact ⟨mi', ht⟩

theorem exists_twin_of (p : Embedding part n) (h : n.Regular) (hmi' : mi' ∈ n.marshalList)
    {i : part.Ref} (hi : p.origin i = mi'.message) : ∃ mi, p.Twin mi mi' := by
  obtain ⟨mi, _, ht⟩ := System.exists_of_forall₂ (p.items_twins h i).flip
    (mem_items.mpr ⟨hmi', hi.symm⟩)
  exact ⟨mi, ht⟩

theorem Twin.itemName (h : n.Regular) (ht : p.Twin mi mi') : itemName mi' = itemName mi := by
  unfold Network.itemName
  rw [ht.signal h]

/-! ### States -/

/-- Signal vectors with the same values at twins. -/
def SameValues (p : Embedding part n) (sv sv' : Nat → Double) : Prop :=
  ∀ mi mi', p.Twin mi mi' → sv' mi.signalVectorIndex = sv mi'.signalVectorIndex

/-- The messages of `part` and their signals are as in `n`. -/
structure Projects (p : Embedding part n) (s : n.State) (t : part.State) : Prop where
  message : ∀ i, t.message i = s.message (p.origin i)
  values : p.SameValues s.signalVector t.signalVector
  alarm : ∀ i, t.alarm i = s.alarm (p.origin i)
  tick : t.tick = s.tick

theorem SameValues.update {sv sv' : Nat → Double} (hsv : p.SameValues sv sv')
    (ht : p.Twin mi mi') (v : Double) :
    p.SameValues (Function.update sv mi'.signalVectorIndex v)
      (Function.update sv' mi.signalVectorIndex v) := by
  intro mj mj' htj
  by_cases hidx : mj.signalVectorIndex = mi.signalVectorIndex
  · rw [hidx, (htj.index_iff ht).mp hidx, Function.update_self, Function.update_self]
  · rw [Function.update_of_ne hidx,
      Function.update_of_ne (fun heq => hidx ((htj.index_iff ht).mpr heq)), hsv mj mj' htj]

variable {s : n.State} {t : part.State}

/-! ### Passes over the messages -/

theorem Projects.functionApplyDecode (hs : p.Projects s t) :
    Follows (fun r r' => p.Projects r.1 r'.1) (n.functionApplyDecode s)
      (part.functionApplyDecode t) := by
  refine (Sweep.sweep_follows (List.nodup_finRange _) (List.nodup_finRange _) p.origin
    (fun i _ => List.mem_finRange _)
    (fun i st => p.msg i ▸ decodeMessage_follows (p.origin i) i _ st) hs.message).bind ?_
  rintro ⟨message, calls⟩ ⟨message', calls'⟩ hsame
  exact .ok ⟨fun i => hsame i (List.mem_finRange i), hs.values, hs.alarm, hs.tick⟩

theorem Projects.functionApplyEncode (hs : p.Projects s t) (netOff : Bool) :
    Follows (fun r r' => p.Projects r.1 r'.1) (n.functionApplyEncode netOff s)
      (part.functionApplyEncode netOff t) := by
  refine (Sweep.sweep_follows (List.nodup_finRange _) (List.nodup_finRange _) p.origin
    (fun i _ => List.mem_finRange _)
    (fun i st => p.msg i ▸ encodeMessage_follows netOff (p.origin i) i _ st) hs.message).bind ?_
  rintro ⟨message, calls⟩ ⟨message', calls'⟩ hsame
  exact .ok ⟨fun i => hsame i (List.mem_finRange i), hs.values, hs.alarm, hs.tick⟩

theorem Projects.packMessages (hs : p.Projects s t) :
    p.Projects (n.packMessages s) (part.packMessages t) where
  message i := by rw [packMessages_message, packMessages_message, p.msg, hs.message]
  values := hs.values
  alarm := hs.alarm
  tick := hs.tick

theorem Projects.scheduleTick (hs : p.Projects s t) :
    p.Projects (n.scheduleTick s) (part.scheduleTick t) where
  message i := by
    show (if _ then _ else _) = if _ then _ else _
    rw [p.msg, hs.message, hs.alarm, hs.tick]
  values := hs.values
  alarm i := by
    show (if _ then _ else _) = if _ then _ else _
    rw [p.msg, hs.message, hs.alarm, hs.tick]
  tick := congrArg (· + 1#32) hs.tick

theorem Projects.scheduleTicks (hs : p.Projects s t) (k : Nat) :
    p.Projects (n.scheduleTicks k s) (part.scheduleTicks k t) := by
  induction k with
  | zero => exact hs
  | succ k ih =>
    rw [scheduleTicks_succ, scheduleTicks_succ]
    exact ih.scheduleTick

theorem Projects.marshalSignalsToMessages (h : n.Regular) (hs : p.Projects s t) :
    p.Projects (n.marshalSignalsToMessages n.marshalList s)
      (part.marshalSignalsToMessages part.marshalList t) where
  message i := by
    have hbuffer : part.marshalBuffer t.signalVector i (s.message (p.origin i)).buffer =
        n.marshalBuffer s.signalVector (p.origin i) (s.message (p.origin i)).buffer := by
      refine List.rel_foldl (P := Eq) (R := p.Twin) ?_ rfl (p.items_twins h i)
      rintro b _ rfl mi mi' ht
      have hvalue : part.signalValue t.signalVector mi = n.signalValue s.signalVector mi' := by
        rw [signalValue, signalValue, ht.signal h, ht.message, p.msg, hs.values mi mi' ht]
      dsimp only
      rw [hvalue, ht.signal h]
    rw [marshalSignalsToMessages_message, marshalSignalsToMessages_message, hs.message, hbuffer]
  values := by
    rw [marshalSignalsToMessages_signalVector, marshalSignalsToMessages_signalVector]
    exact hs.values
  alarm i := by
    rw [marshalSignalsToMessages_fold, marshalSignalsToMessages_fold]
    exact hs.alarm i
  tick := by
    rw [marshalSignalsToMessages_fold, marshalSignalsToMessages_fold]
    exact hs.tick

theorem Projects.marshalMessagesToSignals (h : n.Regular) (hs : p.Projects s t) :
    p.Projects (n.marshalMessagesToSignals false n.marshalList s)
      (part.marshalMessagesToSignals false part.marshalList t) where
  message i := by
    rw [marshalMessagesToSignals_message, marshalMessagesToSignals_message, hs.message]
  values mi mi' ht := by
    rw [marshalMessagesToSignals_value ht.left, marshalMessagesToSignals_value ht.right,
      ht.message, ht.signal h, hs.message, hs.values mi mi' ht]
  alarm i := by
    rw [marshalMessagesToSignals_fold, marshalMessagesToSignals_fold]
    exact hs.alarm i
  tick := by
    rw [marshalMessagesToSignals_fold, marshalMessagesToSignals_fold]
    exact hs.tick

theorem Projects.modifyMessage (hs : p.Projects s t) (i : part.Ref)
    (f : MessageState → MessageState) :
    p.Projects (s.modifyMessage (p.origin i) f) (t.modifyMessage i f) where
  message j := by
    by_cases hij : j = i
    · subst hij
      rw [modifyMessage_self, modifyMessage_self, hs.message]
    · rw [modifyMessage_of_ne hij, modifyMessage_of_ne (fun heq => hij (p.injective heq)),
        hs.message]
  values := hs.values
  alarm := hs.alarm
  tick := hs.tick

theorem muxMi_twins (p : Embedding part n) (h : n.Regular) (i : part.Ref) :
    Option.Rel p.Twin (part.muxMi i) (n.muxMi (p.origin i)) := by
  rw [muxMi_eq, muxMi_eq]
  refine List.rel_foldl (P := Option.Rel p.Twin) (R := p.Twin) ?_ .none (p.items_twins h i)
  intro mux mux' hmux mi mi' ht
  dsimp only
  rw [ht.signal h]
  split
  · exact .some ht
  · exact hmux

theorem Projects.readMux (h : n.Regular) (hs : p.Projects s t) (i : part.Ref) :
    p.Projects (n.readMux (p.origin i) s) (part.readMux i t) := by
  unfold Network.readMux
  have hmux := muxMi_twins p h i
  generalize part.muxMi i = mux, n.muxMi (p.origin i) = mux' at hmux ⊢
  cases hmux with
  | none => exact hs
  | @some mi mi' ht =>
    refine ⟨hs.message, ?_, hs.alarm, hs.tick⟩
    simp only [marshalMessageToSignal]
    rw [ht.message, ht.signal h, hs.message, hs.values mi mi' ht]
    exact hs.values.update ht _

/-- A search among the messages of the frame identifier finds the same message. -/
def Closed (p : Embedding part n) (frameId : BitVec 32) : Prop :=
  ∀ P : NetworkMessage → Bool, (∀ nm, P nm = true → nm.frameId = frameId) →
    (List.finRange n.messages.length).find? (fun j => P (n.msg j)) =
      ((List.finRange part.messages.length).find? (fun i => P (part.msg i))).map p.origin

variable {frameId : BitVec 32}

theorem Closed.findMuxMessage (hp : p.Closed frameId) (muxId : BitVec 32) :
    n.findMuxMessage muxId frameId = (part.findMuxMessage muxId frameId).map p.origin := by
  unfold Network.findMuxMessage
  by_cases hzero : muxId = 0#32
  · rw [if_pos hzero, if_pos hzero]
    rfl
  · rw [if_neg hzero, if_neg hzero]
    exact hp (fun nm => decide (nm.frameId = frameId ∧ nm.muxId = muxId))
      (fun nm hnm => (of_decide_eq_true hnm).1)

theorem Closed.findMessage (hp : p.Closed frameId) (h : n.Regular) :
    n.findMessage frameId (List.finRange n.messages.length) =
      (part.findMessage frameId (List.finRange part.messages.length)).map p.origin := by
  have hzero : 0#32 ∉ part.frameIds := by
    intro hmem
    obtain ⟨nm, hnm, hnull⟩ := List.mem_map.mp hmem
    exact h.nonzero (List.mem_map.mpr ⟨nm, p.messages_mem nm hnm, hnull⟩)
  rw [findMessage_eq_first_iff.mpr (noZeroAhead_of_not_mem h.nonzero frameId),
    findMessage_eq_first_iff.mpr (noZeroAhead_of_not_mem hzero frameId)]
  exact hp (fun nm => decide (nm.frameId = frameId)) (fun nm hnm => of_decide_eq_true hnm)

theorem Projects.nextMessage (h : n.Regular) (hs : p.Projects s t) (i : part.Ref)
    (hp : p.Closed frameId) :
    n.nextMessage (p.origin i) frameId s = (part.nextMessage i frameId t).map p.origin := by
  unfold Network.nextMessage
  have hmux := muxMi_twins p h i
  generalize part.muxMi i = mux, n.muxMi (p.origin i) = mux' at hmux ⊢
  cases hmux with
  | none => rfl
  | @some mi mi' ht =>
    dsimp only
    rw [hs.values mi mi' ht]
    exact hp.findMuxMessage _

theorem Projects.processMessage (h : n.Regular) (hs : p.Projects s t) (stack : Nat)
    (i : part.Ref) {msg : CanMessage} (hp : p.Closed msg.frameId) :
    Follows (fun r r' => p.Projects r.1 r'.1) (n.processMessage stack (p.origin i) msg s)
      (part.processMessage stack i msg t) := by
  induction stack generalizing i s t with
  | zero => exact .error _ _
  | succ stack ih =>
    rw [Network.processMessage, Network.processMessage, p.msg]
    cases (part.msg i).unpackFunc with
    | none => exact .error _ _
    | some unpack =>
      have hunpacked := hs.modifyMessage i (fun st =>
        { st with buffer := (unpack (t.message i).buffer msg.mem msg.len).dst })
      have hread := hunpacked.readMux h i
      dsimp only
      rw [← hs.message i]
      split
      · exact .ok hunpacked
      · rw [processContained_eq, processContained_eq, hread.nextMessage h i hp]
        refine Follows.bind (R := fun r r' => p.Projects r.1 r'.1) ?_
          (fun r r' hr => .ok (hr.modifyMessage i _))
        cases part.nextMessage i msg.frameId (part.readMux i _) with
        | none => exact .ok hread
        | some k => exact ih hread k

theorem Projects.processCanFrame (h : n.Regular) (hs : p.Projects s t) (stack : Nat)
    {msg : CanMessage} (hp : p.Closed msg.frameId) :
    Follows (fun r r' => p.Projects r.1 r'.1) (n.processCanFrame stack msg s)
      (part.processCanFrame stack msg t) := by
  unfold Network.processCanFrame
  rw [hp.findMessage h]
  cases part.findMessage msg.frameId (List.finRange part.messages.length) with
  | none => exact .ok hs
  | some i => exact hs.processMessage h stack i hp

/-- Every frame is received in `part` as in `n`. -/
def ReceivesAlike (p : Embedding part n) (stack : Nat) : Prop :=
  ∀ (msg : CanMessage) (s : n.State) (t : part.State), p.Projects s t →
    Follows (fun r r' => p.Projects r.1 r'.1) (n.processCanFrame stack msg s)
      (part.processCanFrame stack msg t)

theorem Projects.decodeFromBus {stack : Nat} (hrx : p.ReceivesAlike stack)
    (hs : p.Projects s t) (frames : List CanMessage) :
    Follows (fun r r' => p.Projects r.1 r'.1) (n.decodeFromBus stack frames s)
      (part.decodeFromBus stack frames t) := by
  induction frames generalizing s t with
  | nil => exact .ok hs
  | cons msg rest ih =>
    refine (hrx msg s t hs).bind (fun r r' hr => ?_)
    exact (ih hr).bind (fun u u' hu => .ok hu)

theorem Projects.encodeToBus (hs : p.Projects s t) :
    p.Projects (n.encodeToBus s).1 (part.encodeToBus t).1 where
  message i := congrArg (fun st => { st with needsTx := false }) (hs.message i)
  values := hs.values
  alarm := hs.alarm
  tick := hs.tick

end Embedding

/-- The frame that is written for a message. -/
def written (n : Network) (s : n.State) (j : n.Ref) : Option CanMessage :=
  if (s.message j).needsTx then some (txFrame (n.msg j) (s.message j)) else none

theorem encodeToBus_frames (n : Network) (s : n.State) :
    (n.encodeToBus s).2.map (·.frame) =
      (List.finRange n.messages.length).filterMap (n.written s) := by
  rw [encodeToBus, List.map_filterMap]
  refine congrArg (List.filterMap · _) (funext fun j => ?_)
  dsimp only [written]
  split <;> rfl

/-- The frames written of `part` are those of its messages in `n`. -/
theorem Embedding.Projects.encodeToBus_frames {s : n.State} {t : part.State}
    (hs : p.Projects s t) : (part.encodeToBus t).2.map (·.frame) =
      ((List.finRange part.messages.length).map p.origin).filterMap (n.written s) := by
  rw [Network.encodeToBus_frames, List.filterMap_map]
  refine congrArg (List.filterMap · _) (funext fun i => ?_)
  rw [Function.comp_apply, written, written, hs.message, p.msg]

end Network
end DseNetwork
