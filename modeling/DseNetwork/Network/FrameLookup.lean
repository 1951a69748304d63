import DseNetwork.Network.Library

/-
The search of a frame's message.

`_process_can_frame` ends its search at the first frame identifier zero, the other loops
at the first missing name.  A message declared under zero thus ends the list early.
-/

namespace DseNetwork

/-- No identifier up to and including the first that is `frameId` is zero. -/
def NoZeroAhead (frameId : BitVec 32) (ids : List (BitVec 32)) : Prop :=
  frameId ∈ ids → frameId ≠ 0#32 ∧ 0#32 ∉ ids.takeWhile (· ≠ frameId)

instance (frameId : BitVec 32) (ids : List (BitVec 32)) : Decidable (NoZeroAhead frameId ids) :=
  inferInstanceAs (Decidable (_ → _))

theorem noZeroAhead_zero_cons {frameId : BitVec 32} {ids : List (BitVec 32)} :
    NoZeroAhead frameId (0#32 :: ids) ↔ frameId ∉ 0#32 :: ids := by
  refine ⟨fun h hmem => ?_, fun h hmem => absurd hmem h⟩
  obtain ⟨hne, hahead⟩ := h hmem
  rw [List.takeWhile_cons_of_pos (by simpa using hne.symm)] at hahead
  exact hahead List.mem_cons_self

theorem noZeroAhead_self_cons {frameId : BitVec 32} {ids : List (BitVec 32)}
    (h : frameId ≠ 0#32) : NoZeroAhead frameId (frameId :: ids) := by
  intro _
  rw [List.takeWhile_cons_of_neg (by simp)]
  exact ⟨h, List.not_mem_nil⟩

theorem noZeroAhead_cons {frameId x : BitVec 32} {ids : List (BitVec 32)} (hzero : x ≠ 0#32)
    (hne : x ≠ frameId) : NoZeroAhead frameId (x :: ids) ↔ NoZeroAhead frameId ids := by
  unfold NoZeroAhead
  rw [List.takeWhile_cons_of_pos (by simpa using hne), List.mem_cons, List.mem_cons,
    or_iff_right hne.symm, or_iff_right hzero.symm]

/-- Without a zero in the list nothing ends the search early. -/
theorem noZeroAhead_of_not_mem {ids : List (BitVec 32)} (h : 0#32 ∉ ids)
    (frameId : BitVec 32) : NoZeroAhead frameId ids := fun hmem =>
  ⟨fun hzero => h (hzero ▸ hmem), fun hzero => h ((List.takeWhile_sublist _).subset hzero)⟩

namespace Network

variable {n n' : Network} {frameId : BitVec 32}

/-- The first message with a frame identifier. -/
def firstMessage (n : Network) (frameId : BitVec 32) : Option n.Ref :=
  (List.finRange n.messages.length).find? (fun i => (n.msg i).frameId = frameId)

/-- The frame identifiers that the network file declares, in order. -/
def frameIds (n : Network) : List (BitVec 32) := n.messages.map (·.frameId)

/-- Which messages of the list have the frame identifier. -/
def declared (n : Network) (frameId : BitVec 32) : List Bool :=
  n.messages.map (fun nm => decide (nm.frameId = frameId))

theorem findMessage_eq_find_iff (l : List n.Ref) :
    n.findMessage frameId l = l.find? (fun i => (n.msg i).frameId = frameId) ↔
      NoZeroAhead frameId (l.map (fun i => (n.msg i).frameId)) := by
  induction l with
  | nil => exact ⟨fun _ h => absurd h List.not_mem_nil, fun _ => rfl⟩
  | cons i rest ih =>
    rw [findMessage, List.map_cons]
    by_cases hzero : (n.msg i).frameId = 0#32
    · rw [if_pos hzero, hzero, noZeroAhead_zero_cons, ← hzero, eq_comm, List.find?_eq_none,
        List.forall_mem_cons]
      simp [eq_comm]
    · by_cases hid : (n.msg i).frameId = frameId
      · rw [if_neg hzero, if_pos hid, List.find?_cons_of_pos (by simpa using hid)]
        exact iff_of_true rfl (hid ▸ noZeroAhead_self_cons hzero)
      · rw [if_neg hzero, if_neg hid, List.find?_cons_of_neg (by simpa using hid), ih,
          noZeroAhead_cons hzero hid]

theorem findMessage_eq_first_iff :
    n.findMessage frameId (List.finRange n.messages.length) = n.firstMessage frameId ↔
      NoZeroAhead frameId n.frameIds := by
  rw [firstMessage, findMessage_eq_find_iff]
  show NoZeroAhead frameId ((List.finRange n.messages.length).map
    ((·.frameId) ∘ n.messages.get)) ↔ _
  rw [← List.map_map, List.map_get_finRange]
  rfl

/-- A search that ends early finds nothing. -/
theorem findMessage_eq_none_or_find (frameId : BitVec 32) (l : List n.Ref) :
    n.findMessage frameId l = none ∨
    n.findMessage frameId l = l.find? (fun i => (n.msg i).frameId = frameId) := by
  induction l with
  | nil => exact .inl rfl
  | cons i rest ih =>
    rw [findMessage]
    by_cases hzero : (n.msg i).frameId = 0#32
    · exact .inl (if_pos hzero)
    · by_cases hid : (n.msg i).frameId = frameId
      · rw [if_neg hzero, if_pos hid, List.find?_cons_of_pos (by simpa using hid)]
        exact .inr rfl
      · rw [if_neg hzero, if_neg hid, List.find?_cons_of_neg (by simpa using hid)]
        exact ih

/-! ## The position of the first message -/

theorem finRange_find_val {α : Type} (p : α → Bool) (l : List α) :
    ((List.finRange l.length).find? (fun i => p (l.get i))).map Fin.val = l.findIdx? p := by
  induction l with
  | nil => rfl
  | cons a rest ih =>
    have hfin : List.finRange (a :: rest).length =
        0 :: (List.finRange rest.length).map Fin.succ := List.finRange_succ
    rw [hfin, List.findIdx?_cons]
    cases hp : p a with
    | true =>
      rw [List.find?_cons_of_pos (by simpa using hp), if_pos rfl]
      rfl
    | false =>
      rw [List.find?_cons_of_neg (by simpa using hp), List.find?_map, if_neg Bool.false_ne_true,
        ← ih, Option.map_map, Option.map_map]
      rfl

theorem firstMessage_val :
    (n.firstMessage frameId).map Fin.val = (n.declared frameId).findIdx? id := by
  rw [declared, List.findIdx?_map]
  exact finRange_find_val (fun nm => decide (nm.frameId = frameId)) n.messages

/-! ## Calls of `_process_message` -/

/-- A frame is processed for the first message with its identifier; without one nothing
changes. -/
def FindsMessage (n : Network) (stack : Nat) (frame : CanMessage) (s : n.State) : Prop :=
  n.processCanFrame stack frame s = (n.firstMessage frame.frameId).elim (.ok (s, []))
    (fun i => n.processMessage stack i frame s)

/-- The position of the message that a frame is processed for. -/
def calledPosition (n : Network) (frame : CanMessage) : Option Nat :=
  (n.findMessage frame.frameId (List.finRange n.messages.length)).map Fin.val

theorem processCanFrame_eq (stack : Nat) (frame : CanMessage) (s : n.State) :
    n.processCanFrame stack frame s =
      (n.findMessage frame.frameId (List.finRange n.messages.length)).elim (.ok (s, []))
        (fun i => n.processMessage stack i frame s) := by
  unfold processCanFrame
  cases n.findMessage frame.frameId (List.finRange n.messages.length) <;> rfl

theorem processMessage_visits {stack : Nat} {i : n.Ref} {frame : CanMessage} {s s' : n.State} :
    n.processMessage stack i frame s ≠ .ok (s', []) := by
  intro h
  cases stack with
  | zero => cases h
  | succ stack =>
    rcases processMessage_ok h with ⟨_, _, hvisited⟩ | ⟨_, _, _, _, _, hvisited⟩ <;>
      cases hvisited

theorem findsMessage_iff {stack : Nat} {frame : CanMessage} {s : n.State} :
    n.FindsMessage stack frame s ↔ NoZeroAhead frame.frameId n.frameIds := by
  rw [FindsMessage, processCanFrame_eq, ← findMessage_eq_first_iff]
  refine ⟨fun h => ?_, fun h => by rw [h]⟩
  rcases findMessage_eq_none_or_find frame.frameId
    (List.finRange n.messages.length) with hnone | hfirst
  · rw [hnone] at h ⊢
    cases hfirst : n.firstMessage frame.frameId with
    | none => rfl
    | some i =>
      rw [hfirst] at h
      exact absurd h.symm processMessage_visits
  · exact hfirst

/-- For two networks that declare the frame's identifier at the same positions: both find
its first message, and the same one, exactly when in neither a zero comes ahead. -/
theorem frame_lookup_iff {frame : CanMessage}
    (hsame : n.declared frame.frameId = n'.declared frame.frameId) (stack : Nat)
    (s : n.State) (s' : n'.State) :
    (n.FindsMessage stack frame s ∧ n'.FindsMessage stack frame s' ∧
        n.calledPosition frame = n'.calledPosition frame) ↔
      NoZeroAhead frame.frameId n.frameIds ∧ NoZeroAhead frame.frameId n'.frameIds := by
  rw [findsMessage_iff, findsMessage_iff]
  refine ⟨fun ⟨h, h', _⟩ => ⟨h, h'⟩, fun ⟨h, h'⟩ => ⟨h, h', ?_⟩⟩
  rw [calledPosition, calledPosition, findMessage_eq_first_iff.mpr h,
    findMessage_eq_first_iff.mpr h', firstMessage_val, firstMessage_val, hsame]

/-! ## A message declared under zero -/

/-- A message under some identifier, then one under `0x1a0`. -/
def afterMessage (frameId : BitVec 32) : Network :=
  .ofMessages [plainMessage "A" frameId 1 [byteSignal "a" 0 (fun _ => true)],
    plainMessage "B" 0x1a0#32 1 [byteSignal "b" 0 (fun _ => true)]] (by simp [plainMessage])

def secondFrame : CanMessage where
  frameId := 0x1a0#32
  frameType := 0#8
  buffer := [7#8]

def afterMessageCreated (frameId : BitVec 32) : (afterMessage frameId).State :=
  ((NetworkModel.alone (afterMessage frameId)).modelCreate (fun _ => ⟨0#64⟩)).network

theorem frame_lookup_second :
    (afterMessage 0x1a1#32).FindsMessage 2 secondFrame (afterMessageCreated 0x1a1#32) ∧
      (afterMessage 0x1a2#32).FindsMessage 2 secondFrame (afterMessageCreated 0x1a2#32) ∧
      (afterMessage 0x1a1#32).calledPosition secondFrame =
        (afterMessage 0x1a2#32).calledPosition secondFrame :=
  (frame_lookup_iff (by decide) 2 _ _).mpr ⟨by decide, by decide⟩

/-- A message declared under zero hides the messages behind it. -/
theorem not_frame_lookup : ¬ ∀ (n n' : Network) (frame : CanMessage) (stack : Nat)
    (s : n.State) (s' : n'.State), n.declared frame.frameId = n'.declared frame.frameId →
    n.FindsMessage stack frame s ∧ n'.FindsMessage stack frame s' ∧
      n.calledPosition frame = n'.calledPosition frame := by
  intro h
  have hsecond := (h (afterMessage 0#32) (afterMessage 0#32) secondFrame 2
    (afterMessageCreated 0#32) (afterMessageCreated 0#32) rfl).1
  exact absurd (findsMessage_iff.mp hsecond) (by decide)

end Network
end DseNetwork
