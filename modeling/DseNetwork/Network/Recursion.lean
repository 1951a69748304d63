import DseNetwork.Lib.Orbit
import DseNetwork.Network.Mux
import DseNetwork.Network.Nesting
import Mathlib.Data.Fintype.Card

/-
The end of the recursion of `_process_message`.

Which messages a frame is handed on to is known before it is processed, from the structs
and the signal vector as they are: `selected` gives the next message of each.  A message
writes only its own struct and the entry of its own mux signal, so that the calls follow
`selected` until they come to a message for the second time.
-/

namespace DseNetwork
namespace Network

open Orbit

variable {n : Network} {s s' : n.State} {msg : CanMessage} {i k : n.Ref}

/-- The message that message `i` would hand the frame on to in state `s`: one with the
frame identifier of the frame, and the mux identifier that the mux signal of `i` then has. -/
def selected (n : Network) (msg : CanMessage) (s : n.State) (i : n.Ref) : Option n.Ref :=
  if (unpackFrame (n.msg i) msg (s.message i).buffer).rc ≠ 0 then none
  else (n.muxMi i).bind (fun mi => n.findMuxMessage
    (mi.signal.readValue (n.muxStruct s i msg) (s.signalVector mi.signalVectorIndex)).toUInt32
    msg.frameId)

theorem selected_of_refused (hrc : (unpackFrame (n.msg i) msg (s.message i).buffer).rc ≠ 0) :
    n.selected msg s i = none :=
  if_pos hrc

theorem selected_of_accepted (hrc : (unpackFrame (n.msg i) msg (s.message i).buffer).rc = 0) :
    n.selected msg s i = n.nextMessage i msg.frameId (n.handedOn i msg s) := by
  rw [selected, if_neg (not_not.mpr hrc), nextMessage]
  cases hmux : n.muxMi i with
  | none => rfl
  | some mi =>
    have hvalue : (n.handedOn i msg s).signalVector mi.signalVectorIndex =
        mi.signal.readValue (n.muxStruct s i msg) (s.signalVector mi.signalVectorIndex) := by
      rw [handedOn, readMux_signalVector_self hmux, modifyMessage_self,
        modifyMessage_signalVector]
    simp only [Option.bind_some, hvalue]

/-- The call of `_process_message` that a call makes, with the state it is made in. -/
def nestedCall (n : Network) (msg : CanMessage) (call : n.Ref × n.State) :
    Option (n.Ref × n.State) :=
  (n.selected msg call.2 call.1).map (fun k => (k, n.handedOn call.1 msg call.2))

/-- The messages that `_process_message` is entered for, of calls nested at most `depth`
deep. -/
def entered (n : Network) (msg : CanMessage) (depth : Nat) (i : n.Ref) (s : n.State) :
    List n.Ref :=
  places (n.nestedCall msg) depth i s

theorem entered_of_none (h : n.selected msg s i = none) (depth : Nat) :
    n.entered msg (depth + 1) i s = [i] :=
  places_of_none (by rw [placeAfter, nestedCall, h]; rfl) depth

theorem entered_of_some (h : n.selected msg s i = some k) (depth : Nat) :
    n.entered msg (depth + 1) i s = i :: n.entered msg depth k (n.handedOn i msg s) :=
  places_of_some (by rw [nestedCall, h]; rfl) depth

/-! ## Calls and their results -/

theorem processMessage_of_not_selected (h : n.selected msg s i = none) :
    ∃ r, r ≠ .error .stackOverflow ∧ (∀ s' visited, r = .ok (s', visited) → visited = [i]) ∧
      ∀ stack, n.processMessage (stack + 1) i msg s = r := by
  by_cases hrc : (unpackFrame (n.msg i) msg (s.message i).buffer).rc = 0
  · have hnext := (selected_of_accepted hrc).symm.trans h
    refine ⟨.ok ((n.handedOn i msg s).modifyMessage i (checkMessage (n.msg i)), [i]), ?_, ?_,
      fun stack => by rw [processMessage_accepted hrc, hnext]; rfl⟩
    · intro h
      cases h
    · intro s' visited h
      cases h
      rfl
  · cases hu : (n.msg i).unpackFunc with
    | none =>
      refine ⟨_, ?_, ?_, processMessage_null hu⟩
      · intro h
        cases h
      · intro s' visited h
        cases h
    | some unpack =>
      refine ⟨_, ?_, ?_, processMessage_refused (by rw [hu]; rfl) hrc⟩
      · intro h
        cases h
      · intro s' visited h
        cases h
        rfl

theorem processMessage_of_selected (h : n.selected msg s i = some k) (stack : Nat) :
    n.processMessage (stack + 1) i msg s =
      (n.processMessage stack k msg (n.handedOn i msg s)).map (fun r =>
        (r.1.modifyMessage i (checkMessage (n.msg i)), i :: r.2)) := by
  by_cases hrc : (unpackFrame (n.msg i) msg (s.message i).buffer).rc = 0
  · have hnext := (selected_of_accepted hrc).symm.trans h
    rw [processMessage_accepted hrc, hnext]
    rfl
  · rw [selected_of_refused hrc] at h
    cases h

/-- The log of a call that returns has the messages entered. -/
theorem processMessage_visited {stack : Nat} {visited : List n.Ref}
    (h : n.processMessage stack i msg s = .ok (s', visited)) :
    visited = n.entered msg stack i s := by
  induction stack generalizing i s s' visited with
  | zero => cases h
  | succ stack ih =>
    cases hnext : n.selected msg s i with
    | none =>
      obtain ⟨r, _, hvisited, hr⟩ := processMessage_of_not_selected hnext
      rw [entered_of_none hnext, hvisited s' visited ((hr stack).symm.trans h)]
    | some k =>
      rw [processMessage_of_selected hnext] at h
      obtain ⟨⟨s₂, inner⟩, hin, heq⟩ := map_eq_ok.mp h
      cases heq
      rw [entered_of_some hnext, ← ih hin]

/-- The stack is exhausted exactly if the calls are nested deeper than it has room for. -/
theorem processMessage_overflow_iff (stack : Nat) :
    n.processMessage stack i msg s = .error .stackOverflow ↔
      (n.entered msg (stack + 1) i s).length = stack + 1 := by
  induction stack generalizing i s with
  | zero =>
    refine iff_of_true rfl ?_
    cases hnext : n.selected msg s i with
    | none => rw [entered_of_none hnext]; rfl
    | some k => rw [entered_of_some hnext]; rfl
  | succ stack ih =>
    cases hnext : n.selected msg s i with
    | none =>
      obtain ⟨r, hne, _, hr⟩ := processMessage_of_not_selected hnext
      rw [hr stack, entered_of_none hnext]
      simp [hne]
    | some k =>
      rw [processMessage_of_selected hnext, entered_of_some hnext, List.length_cons,
        Nat.succ_inj, ← ih]
      cases n.processMessage stack k msg (n.handedOn i msg s) <;> simp [Except.map]

/-- More room does not change the result of a call that had enough. -/
theorem processMessage_add {stack : Nat}
    (h : n.processMessage stack i msg s ≠ .error .stackOverflow) (more : Nat) :
    n.processMessage (stack + more) i msg s = n.processMessage stack i msg s := by
  induction stack generalizing i s with
  | zero => exact absurd rfl h
  | succ stack ih =>
    rw [Nat.add_right_comm]
    cases hnext : n.selected msg s i with
    | none =>
      obtain ⟨r, _, _, hr⟩ := processMessage_of_not_selected hnext
      rw [hr, hr]
    | some k =>
      rw [processMessage_of_selected hnext] at h ⊢
      rw [processMessage_of_selected hnext, ih (fun hin => h (by rw [hin]; rfl))]

/-- With all their functions, messages fail to return for want of room only. -/
theorem processMessage_error (hunpack : ∀ j, (n.msg j).unpackFunc.isSome) {stack : Nat}
    {e : Fault} (h : n.processMessage stack i msg s = .error e) : e = .stackOverflow := by
  induction stack generalizing i s with
  | zero =>
    cases h
    rfl
  | succ stack ih =>
    by_cases hrc : (unpackFrame (n.msg i) msg (s.message i).buffer).rc = 0
    · rw [processMessage_accepted hrc] at h
      cases hnext : n.nextMessage i msg.frameId (n.handedOn i msg s) with
      | none =>
        rw [hnext] at h
        cases h
      | some k =>
        rw [hnext, Option.elim_some] at h
        cases hin : n.processMessage stack k msg (n.handedOn i msg s) with
        | ok r =>
          rw [hin] at h
          cases h
        | error e' =>
          rw [hin] at h
          cases h
          exact ih hin
    · rw [processMessage_refused (hunpack i) hrc] at h
      cases h

/-! ## The order of the calls -/

/-- What `_process_message` reads of the state when it is entered for message `j`. -/
def found (n : Network) (j : n.Ref) (s : n.State) : MessageState × Option Double :=
  (s.message j, (n.muxMi j).map (fun mj => s.signalVector mj.signalVectorIndex))

theorem placeAfter_nestedCall (msg : CanMessage) (s : n.State) :
    placeAfter (n.nestedCall msg) s = n.selected msg s := by
  funext i
  rw [placeAfter, nestedCall, Option.map_map]
  exact Option.map_id'

theorem selected_congr (h : n.found i s = n.found i s') :
    n.selected msg s i = n.selected msg s' i := by
  obtain ⟨hmessage, hvalue⟩ := Prod.mk.inj h
  unfold selected muxStruct
  rw [hmessage]
  cases hmux : n.muxMi i with
  | none => rfl
  | some mi =>
    have hentry : s.signalVector mi.signalVectorIndex = s'.signalVector mi.signalVectorIndex := by
      rw [hmux] at hvalue
      exact Option.some.inj hvalue
    rw [Option.bind_some, Option.bind_some, hentry]

theorem handedOn_found {j : n.Ref} (h : j ≠ i) :
    n.found j (n.handedOn i msg s) = n.found j s := by
  refine Prod.ext (handedOn_message_of_ne h) ?_
  unfold found
  cases hmux : n.muxMi j with
  | none => rfl
  | some mj => exact congrArg some (handedOn_value_of_ne h hmux)

theorem nestedCall_local (n : Network) (msg : CanMessage) : Local (n.nestedCall msg) n.found where
  reads i s s' h := by
    rw [placeAfter_nestedCall, placeAfter_nestedCall, selected_congr h]
  writes i s k s' h j hj := by
    obtain ⟨_, _, heq⟩ := Option.map_eq_some_iff.mp h
    cases heq
    exact handedOn_found hj

/-! ## Frames -/

/-- The messages that `_process_message` is entered for in `_process_can_frame`. -/
def enteredFor (n : Network) (msg : CanMessage) (depth : Nat) (s : n.State) : List n.Ref :=
  (n.findMessage msg.frameId (List.finRange n.messages.length)).elim []
    (fun i => n.entered msg depth i s)

/-- Given room enough the processing of a frame comes to a result, and it enters no
message twice. -/
structure FrameEnds (n : Network) (msg : CanMessage) (s : n.State) : Prop where
  ends : ∃ r room, r ≠ .error .stackOverflow ∧
    ∀ stack, room ≤ stack → n.processCanFrame stack msg s = r
  once : ∀ depth, (n.enteredFor msg depth s).Nodup

theorem processCanFrame_visited {stack : Nat} {visited : List n.Ref}
    (h : n.processCanFrame stack msg s = .ok (s', visited)) :
    visited = n.enteredFor msg stack s := by
  unfold processCanFrame at h
  unfold enteredFor
  cases hfind : n.findMessage msg.frameId (List.finRange n.messages.length) with
  | none =>
    rw [hfind] at h
    cases h
    rfl
  | some i =>
    rw [hfind] at h
    exact processMessage_visited h

theorem processMessage_ends (h : ∀ depth, (n.entered msg depth i s).Nodup) :
    ∃ r room, r ≠ .error .stackOverflow ∧
      ∀ stack, room ≤ stack → n.processMessage stack i msg s = r := by
  have hroom : n.processMessage n.messages.length i msg s ≠ .error .stackOverflow := by
    rw [Ne, processMessage_overflow_iff]
    have hlen := (h (n.messages.length + 1)).length_le_card
    rw [Fintype.card_fin] at hlen
    omega
  refine ⟨_, n.messages.length, hroom, fun stack hle => ?_⟩
  obtain ⟨more, rfl⟩ := Nat.exists_eq_add_of_le hle
  exact processMessage_add hroom more

/-- Whether the processing of a frame ends is seen before: it does exactly if no message
that the frame comes to selects itself, through others or directly. -/
theorem frameEnds_iff (n : Network) (msg : CanMessage) (s : n.State) :
    n.FrameEnds msg s ↔ ∀ i,
      n.findMessage msg.frameId (List.finRange n.messages.length) = some i →
        Acyclic (n.selected msg s) i := by
  have hacyclic : ∀ i, (∀ depth, (n.entered msg depth i s).Nodup) ↔
      Acyclic (n.selected msg s) i := fun i => by
    rw [← placeAfter_nestedCall]
    exact (nestedCall_local n msg).nodup_places_iff i s
  constructor
  · intro h i hi
    refine (hacyclic i).mp (fun depth => ?_)
    have honce := h.once depth
    rwa [enteredFor, hi] at honce
  · intro h
    cases hfind : n.findMessage msg.frameId (List.finRange n.messages.length) with
    | none =>
      refine ⟨⟨.ok (s, []), 0, (fun h => by cases h), fun stack _ => ?_⟩, fun depth => ?_⟩
      · rw [processCanFrame, hfind]
      · rw [enteredFor, hfind]
        exact List.nodup_nil
    | some i =>
      have honce := (hacyclic i).mpr (h i hfind)
      obtain ⟨r, room, hr, hends⟩ := processMessage_ends honce
      refine ⟨⟨r, room, hr, fun stack hle => ?_⟩, fun depth => ?_⟩
      · rw [processCanFrame, hfind]
        exact hends stack hle
      · rw [enteredFor, hfind]
        exact honce depth

/-- A frame that ends returns, in a network with all its functions. -/
theorem FrameEnds.returns (h : n.FrameEnds msg s) (hunpack : ∀ j, (n.msg j).unpackFunc.isSome) :
    ∃ s' visited room, ∀ stack, room ≤ stack →
      n.processCanFrame stack msg s = .ok (s', visited) := by
  obtain ⟨r, room, hr, hends⟩ := h.ends
  cases r with
  | ok p => exact ⟨p.1, p.2, room, hends⟩
  | error e =>
    have herror := hends room le_rfl
    unfold processCanFrame at herror
    cases hfind : n.findMessage msg.frameId (List.finRange n.messages.length) with
    | none =>
      rw [hfind] at herror
      cases herror
    | some i =>
      rw [hfind] at herror
      exact absurd (congrArg Except.error (processMessage_error hunpack herror)) hr

/-- Where contained messages have no mux signal of their own, a selected message selects
no other. -/
theorem Flat.selected_leaf (hflat : n.Flat) (h : n.selected msg s i = some k) (s' : n.State) :
    n.selected msg s' k = none := by
  have hid : (n.msg k).muxId ≠ 0#32 := by
    unfold selected at h
    split at h
    · cases h
    · obtain ⟨mi, _, hfind⟩ := Option.bind_eq_some_iff.mp h
      obtain ⟨hne, hfirst, _⟩ := findMuxMessage_eq_some.mp hfind
      rw [hfirst.2]
      exact hne
  rw [selected, hflat k hid]
  exact ite_self none

/-- Every frame is processed to its end there. -/
theorem Flat.frameEnds (hflat : n.Flat) (msg : CanMessage) (s : n.State) :
    n.FrameEnds msg s := by
  rw [frameEnds_iff]
  intro i _ j _ hcycle
  obtain ⟨k, hjk, hkj⟩ := Relation.TransGen.head'_iff.mp hcycle
  have hnone := hflat.selected_leaf hjk s
  rcases hkj.cases_head with rfl | ⟨l, hkl, _⟩
  · exact absurd (hnone.symm.trans hjk) (by simp)
  · exact absurd (hnone.symm.trans hkl) (by simp)

/-! ## A container that contains itself -/

def selfContained : Network :=
  .ofMessages [{ plainMessage "C" 0x259#32 2 [{ byteSignal "header" 0 (fun _ => true) with
    muxSignal := true }] with muxId := 5#32 }] (by simp [plainMessage])

def selfContainer : selfContained.Ref := ⟨0, Nat.zero_lt_one⟩

def selfContainedFrame : CanMessage := ⟨0x259#32, 0#8, [5#8, 9#8]⟩

def selfCreated : selfContained.State :=
  ((NetworkModel.alone selfContained).modelCreate fun _ => ⟨0#64⟩).network

/-- A message that has taken a frame in and selects itself is entered at every depth. -/
theorem TakenIn.length_entered (h : TakenIn s msg i) (hself : n.selected msg s i = some i)
    (depth : Nat) : (n.entered msg depth i s).length = depth := by
  induction depth with
  | zero => rfl
  | succ depth ih =>
    rw [entered_of_some hself, handedOn, h.modifyMessage, h.readMux, List.length_cons, ih]

/-- The frame exhausts every stack. -/
theorem not_frameEnds_selfContained :
    (∀ stack, selfContained.processCanFrame stack selfContainedFrame selfCreated =
      .error .stackOverflow) ∧
    ¬ selfContained.FrameEnds selfContainedFrame selfCreated := by
  have hover : ∀ stack, selfContained.processCanFrame stack selfContainedFrame selfCreated =
      .error .stackOverflow := by
    intro stack
    have htaken : TakenIn (selfContained.handedOn selfContainer selfContainedFrame selfCreated)
        selfContainedFrame selfContainer :=
      handedOn_takenIn (unpacksAgain_copyFields rfl) (by decide +kernel)
    show selfContained.processMessage stack selfContainer selfContainedFrame selfCreated = _
    rw [processMessage_overflow_iff, entered_of_some (k := selfContainer) (by decide +kernel),
      List.length_cons, htaken.length_entered (by decide +kernel)]
  refine ⟨hover, fun h => ?_⟩
  obtain ⟨r, room, hr, hends⟩ := h.ends
  exact hr ((hends room le_rfl).symm.trans (hover room))

end Network
end DseNetwork
