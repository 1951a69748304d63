import DseNetwork.Network.Library
import DseNetwork.Network.Nesting
import Mathlib.Data.List.OfFn

/-
Dispatch of a frame to the contained messages of a container.

The mux identifier goes through the signal vector: the mux signal is marshalled alone
from the struct of the container, and its entry is converted back to an integer.
-/

namespace DseNetwork
namespace Network

variable {n : Network}

/-- Contained messages have no mux signal of their own. -/
def Flat (n : Network) : Prop := ∀ j, (n.msg j).muxId ≠ 0#32 → n.muxMi j = none

/-- `k` is the first message with the frame identifier and the mux identifier. -/
def FirstMux (n : Network) (frameId muxId : BitVec 32) (k : n.Ref) : Prop :=
  ((n.msg k).frameId = frameId ∧ (n.msg k).muxId = muxId) ∧
    ∀ j < k, ¬ ((n.msg j).frameId = frameId ∧ (n.msg j).muxId = muxId)

instance (frameId muxId : BitVec 32) (k : n.Ref) : Decidable (n.FirstMux frameId muxId k) :=
  inferInstanceAs (Decidable (_ ∧ ∀ j < k, _))

theorem findMuxMessage_eq_some {frameId muxId : BitVec 32} {k : n.Ref} :
    n.findMuxMessage muxId frameId = some k ↔ muxId ≠ 0#32 ∧ n.FirstMux frameId muxId k := by
  unfold findMuxMessage FirstMux
  by_cases hzero : muxId = 0#32
  · simp [hzero]
  · rw [if_neg hzero, ← List.ofFn_id]
    have hfind := List.find?_ofFn_eq_some_of_injective (i := k)
      (p := fun i => (n.msg i).frameId = frameId ∧ (n.msg i).muxId = muxId)
      (Function.injective_id (α := n.Ref))
    rw [id] at hfind
    rw [hfind]
    simp [hzero]

theorem findMuxMessage_eq_none {frameId muxId : BitVec 32} :
    n.findMuxMessage muxId frameId = none ↔
      ∀ k, ¬ (muxId ≠ 0#32 ∧ n.FirstMux frameId muxId k) := by
  simp only [← findMuxMessage_eq_some]
  exact Option.eq_none_iff_forall_not_mem

/-! ## One call of `_process_message` -/

theorem processMessage_leaf {stack : Nat} {k : n.Ref} (hmux : n.muxMi k = none)
    (hunpack : (n.msg k).unpackFunc.isSome) (msg : CanMessage) (s : n.State) :
    n.processMessage (stack + 1) k msg s =
      .ok (s.modifyMessage k (fun st => rxMessage (n.msg k) st msg), [k]) := by
  have hsame : ∀ f g : MessageState → MessageState, f (s.message k) = g (s.message k) →
      s.modifyMessage k f = s.modifyMessage k g := by
    intro f g h
    simp only [NetworkState.modifyMessage, h]
  by_cases hrc : (unpackFrame (n.msg k) msg (s.message k).buffer).rc = 0
  · have hhanded : n.handedOn k msg s = s.modifyMessage k (fun st =>
        { st with buffer := (unpackFrame (n.msg k) msg (s.message k).buffer).dst }) := by
      rw [handedOn, readMux, hmux]
    have hnext : n.nextMessage k msg.frameId (n.handedOn k msg s) = none := by
      rw [nextMessage, hmux]
    rw [processMessage_accepted hrc, hnext, hhanded]
    refine congrArg (fun s => Except.ok (s, [k])) ?_
    rw [NetworkState.modifyMessage, modifyMessage_self, NetworkState.modifyMessage,
      NetworkState.modifyMessage]
    simp only [Function.update_idem, rxMessage, hrc, ne_eq, not_true_eq_false, if_false]
  · rw [processMessage_refused hunpack hrc]
    refine congrArg (fun s => Except.ok (s, [k])) (hsame _ _ ?_)
    rw [rxMessage, if_pos hrc]

/-- The struct of message `i` after the frame is unpacked. -/
abbrev muxStruct (n : Network) (s : n.State) (i : n.Ref) (msg : CanMessage) : Memory :=
  (unpackFrame (n.msg i) msg (s.message i).buffer).dst

/-- The mux identifier that the frame carries: the decoded mux field as an integer. -/
def muxIdOf (n : Network) (s : n.State) (mi : n.Item) (msg : CanMessage) : BitVec 32 :=
  (mi.signal.funcs.decode (mi.signal.raw (n.muxStruct s mi.message msg))).toUInt32

/-- The contained message that a frame is dispatched to: the first with its frame
identifier and the mux identifier it carries, which is not zero. -/
def Dispatched (n : Network) (s : n.State) (mi : n.Item) (msg : CanMessage) (k : n.Ref) : Prop :=
  n.muxIdOf s mi msg ≠ 0#32 ∧ n.FirstMux msg.frameId (n.muxIdOf s mi msg) k

instance (s : n.State) (mi : n.Item) (msg : CanMessage) (k : n.Ref) :
    Decidable (n.Dispatched s mi msg k) :=
  inferInstanceAs (Decidable (_ ∧ _))

/-- The state of a container between unpacking and checking its struct, with the mux
signal marshalled. -/
def muxMarshalled (n : Network) (s : n.State) (mi : n.Item) (msg : CanMessage) : n.State :=
  n.marshalMessageToSignal (s.modifyMessage mi.message (fun st =>
    { st with buffer := n.muxStruct s mi.message msg })) mi

theorem muxMarshalled_signalVector {s : n.State} {mi : n.Item} {msg : CanMessage}
    (hrange : mi.signal.InRange (n.muxStruct s mi.message msg)) :
    (n.muxMarshalled s mi msg).signalVector =
      Function.update s.signalVector mi.signalVectorIndex
        (mi.signal.funcs.decode (mi.signal.raw (n.muxStruct s mi.message msg))) := by
  rw [muxMarshalled, marshalMessageToSignal]
  dsimp only
  rw [modifyMessage_self, NetworkSignal.readValue_of_inRange hrange]
  rfl

theorem processContained_inRange (hflat : n.Flat) (stack : Nat) {s : n.State} {mi : n.Item}
    {msg : CanMessage} (hmux : n.muxMi mi.message = some mi)
    (hshare : ∀ j, (n.msg j).frameId = msg.frameId → (n.msg j).muxId ≠ 0#32 →
      (n.msg j).unpackFunc.isSome)
    (hrange : mi.signal.InRange (n.muxStruct s mi.message msg)) :
    ∃ s' inner, n.processContained (fun k s => n.processMessage (stack + 1) k msg s) mi.message
        msg.frameId (s.modifyMessage mi.message (fun st =>
          { st with buffer := n.muxStruct s mi.message msg })) = .ok (s', inner) ∧
      s'.signalVector = (n.muxMarshalled s mi msg).signalVector ∧
      (∀ k, n.Dispatched s mi msg k → s'.message k =
        rxMessage (n.msg k) ((n.muxMarshalled s mi msg).message k) msg) ∧
      ∀ j, ¬ n.Dispatched s mi msg j →
        s'.message j = (n.muxMarshalled s mi msg).message j := by
  have hread : n.readMux mi.message (s.modifyMessage mi.message (fun st =>
      { st with buffer := n.muxStruct s mi.message msg })) = n.muxMarshalled s mi msg := by
    unfold readMux
    rw [hmux]
    rfl
  have hnext : n.nextMessage mi.message msg.frameId (n.muxMarshalled s mi msg) =
      n.findMuxMessage (n.muxIdOf s mi msg) msg.frameId := by
    unfold nextMessage
    rw [hmux]
    dsimp only
    rw [muxMarshalled_signalVector hrange, Function.update_self, muxIdOf]
  rw [processContained_eq, hread, hnext]
  cases hfind : n.findMuxMessage (n.muxIdOf s mi msg) msg.frameId with
  | none =>
    have hnone := findMuxMessage_eq_none.mp hfind
    exact ⟨_, _, rfl, rfl, fun k hk => absurd hk (hnone k), fun _ _ => rfl⟩
  | some k =>
    have hk : n.Dispatched s mi msg k := findMuxMessage_eq_some.mp hfind
    have hkmux : (n.msg k).muxId ≠ 0#32 := by
      rw [hk.2.1.2]
      exact hk.1
    have hunique : ∀ k', n.Dispatched s mi msg k' → k' = k := by
      intro k' hk'
      have := findMuxMessage_eq_some.mpr hk'
      rw [hfind] at this
      exact (Option.some.inj this).symm
    refine ⟨_, _, processMessage_leaf (hflat k hkmux) (hshare k hk.2.1.1 hkmux) msg _, rfl,
      fun k' hk' => ?_, fun j hj => ?_⟩
    · rw [hunique k' hk', modifyMessage_self]
    · refine modifyMessage_of_ne (fun hjk => hj ?_) _
      rwa [hjk]

/-- A frame for a container whose mux field is in range is received by the container and
by the message it is dispatched to, and by no other; of the signal vector it writes the
entry of the mux signal only. -/
theorem mux_dispatch (hflat : n.Flat) (stack : Nat) (s : n.State) (msg : CanMessage)
    {i : n.Ref} {mi : n.Item} (hmux : n.muxMi i = some mi)
    (hselect : n.findMessage msg.frameId (List.finRange n.messages.length) = some i)
    (haccept : (unpackFrame (n.msg i) msg (s.message i).buffer).rc = 0)
    (hshare : ∀ j, (n.msg j).frameId = msg.frameId → (n.msg j).muxId ≠ 0#32 →
      (n.msg j).unpackFunc = (n.msg i).unpackFunc)
    (hrange : mi.signal.InRange (n.muxStruct s i msg)) :
    ∃ s' visited, n.processCanFrame (stack + 2) msg s = .ok (s', visited) ∧
      s'.signalVector = Function.update s.signalVector mi.signalVectorIndex
        (mi.signal.funcs.decode (mi.signal.raw (n.muxStruct s i msg))) ∧
      (∀ j, j = i ∨ n.Dispatched s mi msg j →
        s'.message j = rxMessage (n.msg j) (s.message j) msg) ∧
      ∀ j, j ≠ i → ¬ n.Dispatched s mi msg j → s'.message j = s.message j := by
  obtain ⟨unpack, hunpack⟩ := unpackFunc_of_accepted haccept
  obtain ⟨hitem, rfl⟩ : mi ∈ n.marshalList ∧ mi.message = i :=
    mem_items.mp (muxMi_mem hmux).1
  obtain ⟨s₂, inner, hin, hsv, hdispatched, hothers⟩ := processContained_inRange hflat
    stack hmux (fun j hj hne => by rw [hshare j hj hne, hunpack]; rfl) hrange
  have hself : ¬ n.Dispatched s mi msg mi.message := by
    rintro ⟨hid, ⟨_, hown⟩, _⟩
    have hnone := hflat mi.message (by rw [hown]; exact hid)
    rw [hmux] at hnone
    cases hnone
  have hmarshalled : ∀ j, (n.muxMarshalled s mi msg).message j =
      (s.modifyMessage mi.message (fun st =>
        { st with buffer := n.muxStruct s mi.message msg })).message j := fun _ => rfl
  have hcall : n.processMessage (stack + 2) mi.message msg s =
      .ok (s₂.modifyMessage mi.message (checkMessage (n.msg mi.message)),
        mi.message :: inner) := by
    have hrc : (unpack (s.message mi.message).buffer msg.mem msg.len).rc = 0 := by
      have h := haccept
      simp only [unpackFrame, hunpack] at h
      exact h
    have hdst : (unpack (s.message mi.message).buffer msg.mem msg.len).dst =
        n.muxStruct s mi.message msg := by
      simp only [muxStruct, unpackFrame, hunpack]
    rw [processMessage]
    simp only [hunpack]
    rw [if_neg (not_not.mpr hrc), hdst, hin]
    rfl
  refine ⟨s₂.modifyMessage mi.message (checkMessage (n.msg mi.message)), mi.message :: inner,
    ?_, ?_, fun j hj => ?_, fun j hne hj => ?_⟩
  · rw [processCanFrame, hselect]
    exact hcall
  · rw [modifyMessage_signalVector, hsv, muxMarshalled_signalVector hrange]
  · by_cases hji : j = mi.message
    · subst hji
      rw [modifyMessage_self, hothers _ hself, hmarshalled, modifyMessage_self, rxMessage,
        if_neg (not_not.mpr haccept)]
    · rw [modifyMessage_of_ne hji, hdispatched j (hj.resolve_left hji), hmarshalled,
        modifyMessage_of_ne hji]
  · rw [modifyMessage_of_ne hne, hothers j hj, hmarshalled, modifyMessage_of_ne hne]

/-! ## A container with one contained message -/

/-- A container whose first byte is the mux field, and a message contained under an
identifier. -/
def oneContained (muxId : BitVec 32) : NetworkModel :=
  .alone (.ofMessages [
    plainMessage "C" 0x259#32 2 [{ byteSignal "header" 0 (fun _ => true) with
      muxSignal := true }],
    { plainMessage "C_1" 0x259#32 2 [byteSignal "s" 1 (fun _ => true)] with
      container := some "C"
      muxId := muxId }] (by simp [plainMessage]))

def oneContainer (muxId : BitVec 32) : (oneContained muxId).network.Ref := ⟨0, Nat.zero_lt_two⟩

def oneContainedMessage (muxId : BitVec 32) : (oneContained muxId).network.Ref :=
  ⟨1, Nat.one_lt_two⟩

def oneHeader (muxId : BitVec 32) : (oneContained muxId).network.Item where
  signal := { byteSignal "header" 0 (fun _ => true) with muxSignal := true }
  message := oneContainer muxId
  signalVectorIndex := 0

def oneCreated (muxId : BitVec 32) : (oneContained muxId).network.State :=
  ((oneContained muxId).modelCreate fun _ => ⟨0#64⟩).network

def oneContainedFrame (header value : Byte) : CanMessage := ⟨0x259#32, 0#8, [header, value]⟩

theorem oneContained_unpackFunc (muxId : BitVec 32) (j : (oneContained muxId).network.Ref) :
    ((oneContained muxId).network.msg j).unpackFunc = some (copyFields 2) := by
  have hall : ∀ nm ∈ (oneContained muxId).network.messages,
      nm.unpackFunc = some (copyFields 2) := by
    simp [oneContained, NetworkModel.alone, ofMessages, plainMessage]
  exact hall _ (List.getElem_mem j.isLt)

theorem mux_dispatch_five : ∃ s' visited,
    (oneContained 5#32).network.processCanFrame 2 (oneContainedFrame 5#8 9#8)
      (oneCreated 5#32) = .ok (s', visited) ∧
    s'.message (oneContainedMessage 5#32) =
      rxMessage ((oneContained 5#32).network.msg (oneContainedMessage 5#32))
        ((oneCreated 5#32).message (oneContainedMessage 5#32)) (oneContainedFrame 5#8 9#8) := by
  have hflat : (oneContained 5#32).network.Flat := by
    unfold Flat
    decide +kernel
  have hdispatched : (oneContained 5#32).network.Dispatched (oneCreated 5#32)
      (oneHeader 5#32) (oneContainedFrame 5#8 9#8) (oneContainedMessage 5#32) := by
    decide +kernel
  obtain ⟨s', visited, hok, _, hreceived, _⟩ := mux_dispatch hflat 0 (oneCreated 5#32)
    (oneContainedFrame 5#8 9#8) (show _ = some (oneHeader 5#32) from rfl)
    (show _ = some (oneContainer 5#32) from rfl) rfl
    (fun j _ _ => by rw [oneContained_unpackFunc, oneContained_unpackFunc]) ⟨by decide, rfl⟩
  exact ⟨s', visited, hok, hreceived _ (.inr hdispatched)⟩

/-- A contained message that is declared under the identifier zero receives nothing. -/
theorem not_mux_dispatch : ¬ ∀ (m : NetworkModel) (s : ModelState m.network)
    (i k : m.network.Ref) (mi : m.network.Item) (msg : CanMessage) (stack : Nat),
    m.network.Flat → m.system.Reachable s → m.network.muxMi i = some mi →
    m.network.findMessage msg.frameId (List.finRange _) = some i →
    (∀ b, (unpackFrame (m.network.msg i) msg b).rc = 0) →
    (∀ j, (m.network.msg j).frameId = msg.frameId →
      (m.network.msg j).unpackFunc = (m.network.msg i).unpackFunc) →
    mi.signal.InRange (m.network.muxStruct s.network i msg) →
    (m.network.msg k).container.isSome → (m.network.msg k).frameId = msg.frameId →
    (mi.signal.funcs.decode
      (mi.signal.raw (m.network.muxStruct s.network i msg))).toRat =
        ((m.network.msg k).muxId.toNat : ℚ) →
    ∀ s' visited, m.network.processCanFrame (stack + 2) msg s.network = .ok (s', visited) →
      s'.message k = rxMessage (m.network.msg k) (s.network.message k) msg := by
  intro h
  have hflat : (oneContained 0#32).network.Flat := by
    unfold Flat
    decide +kernel
  have hmissed : ((oneContained 0#32).network.processCanFrame 2 (oneContainedFrame 0#8 9#8)
      (oneCreated 0#32)).toOption.map
        (fun p => (p.1.message (oneContainedMessage 0#32)).updateSignals) = some false := by
    decide +kernel
  cases hok : (oneContained 0#32).network.processCanFrame 2 (oneContainedFrame 0#8 9#8)
      (oneCreated 0#32) with
  | error e =>
    rw [hok] at hmissed
    cases hmissed
  | ok p =>
    rw [hok] at hmissed
    have hidle : (p.1.message (oneContainedMessage 0#32)).updateSignals = false :=
      Option.some.inj hmissed
    have hreceived := h (oneContained 0#32)
      ((oneContained 0#32).modelCreate fun _ => ⟨0#64⟩) (oneContainer 0#32)
      (oneContainedMessage 0#32) (oneHeader 0#32) (oneContainedFrame 0#8 9#8) 0 hflat
      (.init ⟨_, rfl⟩) rfl rfl (fun b => rfl)
      (fun j _ => by rw [oneContained_unpackFunc, oneContained_unpackFunc]) ⟨by decide, rfl⟩
      rfl rfl (by decide +kernel) p.1 p.2 hok
    rw [hreceived] at hidle
    revert hidle
    decide +kernel

end Network
end DseNetwork
