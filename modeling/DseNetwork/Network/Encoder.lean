import DseNetwork.Network.Engine

/-
Reception and transmission of frames, after `encoder.c`.

`ncodec_read` and `ncodec_write` belong to the codec: the frames read in a step are an
argument and the frames written are a result.
-/

namespace DseNetwork
namespace Network

variable (n : Network)

/-- `_find_mux_message`. -/
def findMuxMessage (muxId frameId : BitVec 32) : Option n.Ref :=
  if muxId = 0#32 then none
  else (List.finRange n.messages.length).find? (fun i =>
    (n.msg i).frameId = frameId ∧ (n.msg i).muxId = muxId)

/-- The end of `_process_message`: the checksum of the struct buffer filters a repeated
message, else it becomes the checksum of the message. -/
def checkMessage (nm : NetworkMessage) (st : MessageState) : MessageState :=
  let payloadChecksum := simbusGenerateUidHash st.buffer nm.bufferLen
  if payloadChecksum = st.bufferChecksum then { st with updateSignals := false }
  else { st with bufferChecksum := payloadChecksum, updateSignals := true }

/-- The middle of `_process_message`: a container message has its mux signal read into
the signal vector and the contained message with that mux identifier processed. -/
def processContained (call : n.Ref → n.State → Except Fault (n.State × List n.Ref))
    (i : n.Ref) (frameId : BitVec 32) (s : n.State) : Except Fault (n.State × List n.Ref) :=
  match n.muxMi i with
  | none => .ok (s, [])
  | some mi =>
    let s := n.marshalMessagesToSignals true [mi] s
    let muxId := (s.signalVector mi.signalVectorIndex).toUInt32
    match n.findMuxMessage muxId frameId with
    | none => .ok (s, [])
    | some k => call k s

/-- `_process_message` with room for `stack` calls, and the messages it was entered for. -/
def processMessage : Nat → n.Ref → CanMessage → n.State → Except Fault (n.State × List n.Ref)
  | 0, _, _, _ => .error .stackOverflow
  | stack + 1, i, msg, s =>
    match (n.msg i).unpackFunc with
    | none => .error .nullPointer
    | some unpack =>
      let res := unpack (s.message i).buffer msg.mem msg.len
      let s := s.modifyMessage i (fun st => { st with buffer := res.dst })
      if res.rc ≠ 0 then .ok (s, [i])
      else do
        let (s, visited) ←
          n.processContained (fun k s => processMessage stack k msg s) i msg.frameId s
        .ok (s.modifyMessage i (checkMessage (n.msg i)), i :: visited)

/-- The search of `_process_can_frame`, which stops at the first message whose frame
identifier is zero; the terminator of the array is one. -/
def findMessage (frameId : BitVec 32) : List n.Ref → Option n.Ref
  | [] => none
  | i :: rest =>
    if (n.msg i).frameId = 0#32 then none
    else if (n.msg i).frameId = frameId then some i
    else findMessage frameId rest

/-- `_process_can_frame`. -/
def processCanFrame (stack : Nat) (msg : CanMessage) (s : n.State) :
    Except Fault (n.State × List n.Ref) :=
  match n.findMessage msg.frameId (List.finRange n.messages.length) with
  | some i => n.processMessage stack i msg s
  | none => .ok (s, [])

structure Received where
  frame : CanMessage
  messages : List n.Ref

/-- `network_decode_from_bus` on the frames that `ncodec_read` returns. -/
def decodeFromBus (stack : Nat) : List CanMessage → n.State →
    Except Fault (n.State × List n.Received)
  | [], s => .ok (s, [])
  | msg :: rest, s => do
    let (s, visited) ← n.processCanFrame stack msg s
    let (s, log) ← decodeFromBus stack rest s
    .ok (s, { frame := msg, messages := visited } :: log)

structure Sent where
  message : n.Ref
  frame : CanMessage

/-- The argument of `ncodec_write` for a message. -/
def txFrame (nm : NetworkMessage) (st : MessageState) : CanMessage where
  frameId := nm.frameId
  frameType := nm.frameType
  buffer := st.payload.bytes nm.payloadLen

/-- `network_encode_to_bus`. -/
def encodeToBus (s : n.State) : n.State × List n.Sent :=
  (s.mapMessages (fun _ st => { st with needsTx := false }),
    (List.finRange n.messages.length).filterMap (fun i =>
      if (s.message i).needsTx then
        some { message := i, frame := txFrame (n.msg i) (s.message i) }
      else none))

/-! ## Reception, message by message -/

/-- The call of `unpack_func` for a frame.  Without a function there is no call. -/
def unpackFrame (nm : NetworkMessage) (msg : CanMessage) (buffer : Memory) : CallResult :=
  match nm.unpackFunc with
  | none => { rc := -1, dst := buffer }
  | some unpack => unpack buffer msg.mem msg.len

/-- A refused frame leaves the struct as it was: the generated functions check the size
before they write. -/
def RefusalKeeps (nm : NetworkMessage) : Prop :=
  ∀ g b, (unpackFrame nm g b).rc ≠ 0 → (unpackFrame nm g b).dst = b

/-- Unpacking an accepted frame once more is accepted and leaves the struct as it is: the
generated functions write the struct from the frame alone. -/
def UnpacksAgain (nm : NetworkMessage) : Prop :=
  ∀ msg b, (unpackFrame nm msg b).rc = 0 →
    (unpackFrame nm msg (unpackFrame nm msg b).dst).rc = 0 ∧
      (unpackFrame nm msg (unpackFrame nm msg b).dst).dst = (unpackFrame nm msg b).dst

/-- What one frame does to a message that it is processed for once. -/
def rxMessage (nm : NetworkMessage) (st : MessageState) (msg : CanMessage) : MessageState :=
  let res := unpackFrame nm msg st.buffer
  if res.rc ≠ 0 then { st with buffer := res.dst }
  else checkMessage nm { st with buffer := res.dst }

variable {n}

/-- The frames of a log that were processed for message `i`, in order. -/
def framesOf (i : n.Ref) (log : List n.Received) : List CanMessage :=
  (log.filter (fun r => i ∈ r.messages)).map (·.frame)

/-- No frame of the log came to message `i` twice. -/
def Once (i : n.Ref) (log : List n.Received) : Prop := ∀ r ∈ log, r.messages.count i ≤ 1

instance (i : n.Ref) (log : List n.Received) : Decidable (Once i log) :=
  inferInstanceAs (Decidable (∀ r ∈ log, _))

theorem modifyMessage_self (s : n.State) (i : n.Ref) (f : MessageState → MessageState) :
    (s.modifyMessage i f).message i = f (s.message i) := by
  simp [NetworkState.modifyMessage]

theorem modifyMessage_of_ne {s : n.State} {i j : n.Ref} (h : j ≠ i)
    (f : MessageState → MessageState) : (s.modifyMessage i f).message j = s.message j := by
  simp [NetworkState.modifyMessage, Function.update_of_ne h]

@[simp] theorem modifyMessage_signalVector (s : n.State) (i : n.Ref)
    (f : MessageState → MessageState) :
    (s.modifyMessage i f).signalVector = s.signalVector := rfl

theorem marshalMessagesToSignals_single (mi : n.Item) (s : n.State) :
    n.marshalMessagesToSignals true [mi] s = n.marshalMessageToSignal s mi := by
  simp [marshalMessagesToSignals]

/-- The state a container message leaves for its contained message: the entry of the
mux signal read, everything else unchanged. -/
def readMux (n : Network) (i : n.Ref) (s : n.State) : n.State :=
  match n.muxMi i with
  | none => s
  | some mi => n.marshalMessageToSignal s mi

@[simp] theorem readMux_message (i : n.Ref) (s : n.State) :
    (n.readMux i s).message = s.message := by
  unfold readMux
  cases n.muxMi i <;> rfl

/-- The contained message that a container message selects by its entry. -/
def nextMessage (n : Network) (i : n.Ref) (frameId : BitVec 32) (s : n.State) :
    Option n.Ref :=
  match n.muxMi i with
  | none => none
  | some mi => n.findMuxMessage (s.signalVector mi.signalVectorIndex).toUInt32 frameId

theorem processContained_eq (call : n.Ref → n.State → Except Fault (n.State × List n.Ref))
    (i : n.Ref) (frameId : BitVec 32) (s : n.State) :
    n.processContained call i frameId s =
      match n.nextMessage i frameId (n.readMux i s) with
      | none => .ok (n.readMux i s, [])
      | some k => call k (n.readMux i s) := by
  unfold processContained nextMessage readMux
  cases n.muxMi i with
  | none => rfl
  | some mi =>
    exact congrArg (fun s' : n.State =>
      match n.findMuxMessage (s'.signalVector mi.signalVectorIndex).toUInt32 frameId with
      | none => Except.ok (s', [])
      | some k => call k s') (marshalMessagesToSignals_single mi s)

theorem processContained_ok {call : n.Ref → n.State → Except Fault (n.State × List n.Ref)}
    {i : n.Ref} {frameId : BitVec 32} {s s' : n.State} {visited : List n.Ref}
    (h : n.processContained call i frameId s = .ok (s', visited)) :
    (s' = n.readMux i s ∧ visited = []) ∨
      ∃ k, call k (n.readMux i s) = .ok (s', visited) := by
  rw [processContained_eq] at h
  cases hnext : n.nextMessage i frameId (n.readMux i s) with
  | none =>
    rw [hnext] at h
    cases h
    exact .inl ⟨rfl, rfl⟩
  | some k =>
    rw [hnext] at h
    exact .inr ⟨k, h⟩

theorem processMessage_ok {stack : Nat} {i : n.Ref} {msg : CanMessage} {s s' : n.State}
    {visited : List n.Ref} (h : n.processMessage (stack + 1) i msg s = .ok (s', visited)) :
    let res := unpackFrame (n.msg i) msg (s.message i).buffer
    let s₁ := s.modifyMessage i (fun st => { st with buffer := res.dst })
    (res.rc ≠ 0 ∧ s' = s₁ ∧ visited = [i]) ∨
      (res.rc = 0 ∧ ∃ s₂ inner,
        n.processContained (fun k s => n.processMessage stack k msg s) i msg.frameId s₁
          = .ok (s₂, inner) ∧
        s' = s₂.modifyMessage i (checkMessage (n.msg i)) ∧ visited = i :: inner) := by
  rw [processMessage] at h
  unfold unpackFrame
  cases hu : (n.msg i).unpackFunc with
  | none => simp [hu] at h
  | some unpack =>
    simp only [hu] at h
    by_cases hrc : (unpack (s.message i).buffer msg.mem msg.len).rc ≠ 0
    · rw [if_pos hrc] at h
      cases h
      exact .inl ⟨hrc, rfl, rfl⟩
    · rw [if_neg hrc] at h
      obtain ⟨⟨s₂, inner⟩, hin, h⟩ := bind_eq_ok.mp h
      cases h
      exact .inr ⟨not_not.mp hrc, s₂, inner, hin, rfl, rfl⟩

/-- The induction on the calls of a completed run: a message refuses the frame, or takes
it in around the call for the contained message, if there is one. -/
theorem processMessage_induct {msg : CanMessage}
    {P : n.Ref → n.State → n.State → List n.Ref → Prop}
    (refused : ∀ i s s₁, (unpackFrame (n.msg i) msg (s.message i).buffer).rc ≠ 0 →
      s₁ = s.modifyMessage i (fun st =>
        { st with buffer := (unpackFrame (n.msg i) msg (s.message i).buffer).dst }) →
      P i s s₁ [i])
    (accepted : ∀ i s s₁ s₂ inner, (unpackFrame (n.msg i) msg (s.message i).buffer).rc = 0 →
      s₁ = s.modifyMessage i (fun st =>
        { st with buffer := (unpackFrame (n.msg i) msg (s.message i).buffer).dst }) →
      ((s₂ = n.readMux i s₁ ∧ inner = []) ∨ ∃ k, P k (n.readMux i s₁) s₂ inner) →
      P i s (s₂.modifyMessage i (checkMessage (n.msg i))) (i :: inner))
    {stack : Nat} {i : n.Ref} {s s' : n.State} {visited : List n.Ref}
    (h : n.processMessage stack i msg s = .ok (s', visited)) : P i s s' visited := by
  induction stack generalizing i s s' visited with
  | zero => cases h
  | succ stack ih =>
    rcases processMessage_ok h with ⟨hrc, rfl, rfl⟩ | ⟨hrc, s₂, inner, hin, rfl, rfl⟩
    · exact refused i s _ hrc rfl
    · refine accepted i s _ s₂ inner hrc rfl ?_
      rcases processContained_ok hin with hnone | ⟨k, hk⟩
      · exact .inl hnone
      · exact .inr ⟨k, ih hk⟩

/-- A message that a frame was not processed for is as it was, and one that it was
processed for once received it. -/
theorem processMessage_message {stack : Nat} {i : n.Ref} {msg : CanMessage} {s s' : n.State}
    {visited : List n.Ref} (h : n.processMessage stack i msg s = .ok (s', visited))
    (j : n.Ref) :
    (j ∉ visited → s'.message j = s.message j) ∧
      (visited.count j = 1 → s'.message j = rxMessage (n.msg j) (s.message j) msg) := by
  refine processMessage_induct (P := fun _ s s' visited =>
    (j ∉ visited → s'.message j = s.message j) ∧
      (visited.count j = 1 → s'.message j = rxMessage (n.msg j) (s.message j) msg)) ?_ ?_ h
  · intro i s s₁ hrc hs₁
    rw [hs₁]
    constructor
    · intro hj
      exact modifyMessage_of_ne (by simpa using hj) _
    · intro hj
      have hij : i = j := by
        by_contra hne
        simp [hne] at hj
      subst hij
      rw [modifyMessage_self, rxMessage, if_pos hrc]
  · intro i s s₁ s₂ inner hrc hs₁ hin
    -- The part in the middle touches the messages of the inner log only.
    have hinner : (j ∉ inner → s₂.message j = s₁.message j) ∧
        (inner.count j = 1 → s₂.message j = rxMessage (n.msg j) (s₁.message j) msg) := by
      rcases hin with ⟨rfl, rfl⟩ | ⟨k, hk⟩
      · exact ⟨fun _ => by rw [readMux_message], fun hc => by simp at hc⟩
      · rwa [readMux_message] at hk
    constructor
    · intro hj
      rw [List.mem_cons, not_or] at hj
      rw [modifyMessage_of_ne hj.1, hinner.1 hj.2, hs₁, modifyMessage_of_ne hj.1]
    · intro hj
      by_cases hij : i = j
      · subst hij
        rw [List.count_cons_self] at hj
        have hni : i ∉ inner := List.count_eq_zero.mp (by omega)
        rw [modifyMessage_self, hinner.1 hni, hs₁, modifyMessage_self, rxMessage,
          if_neg (not_not.mpr hrc)]
      · rw [List.count_cons_of_ne hij] at hj
        rw [modifyMessage_of_ne (Ne.symm hij), hinner.2 hj, hs₁,
          modifyMessage_of_ne (Ne.symm hij)]

theorem readMux_signalVector_of_ne {i : n.Ref} {x : Nat}
    (h : ∀ mi, n.muxMi i = some mi → mi.signalVectorIndex ≠ x) (s : n.State) :
    (n.readMux i s).signalVector x = s.signalVector x := by
  unfold readMux
  cases hmux : n.muxMi i with
  | none => rfl
  | some mi => exact Function.update_of_ne (Ne.symm (h mi hmux)) _ _

theorem readMux_signalVector_self {i : n.Ref} {mi : n.Item} (h : n.muxMi i = some mi)
    (s : n.State) :
    (n.readMux i s).signalVector mi.signalVectorIndex =
      mi.signal.readValue (s.message i).buffer (s.signalVector mi.signalVectorIndex) := by
  have hmsg : mi.message = i := (mem_items.mp (muxMi_mem h).1).2
  rw [readMux, h]
  show Function.update _ _ _ _ = _
  rw [Function.update_self, hmsg]

theorem muxMi_index_ne {i j : n.Ref} {mi mj : n.Item} (hi : n.muxMi i = some mi)
    (hj : n.muxMi j = some mj) (hij : i ≠ j) :
    mi.signalVectorIndex ≠ mj.signalVectorIndex := by
  intro heq
  obtain ⟨hmi, hmsgi⟩ := mem_items.mp (muxMi_mem hi).1
  obtain ⟨hmj, hmsgj⟩ := mem_items.mp (muxMi_mem hj).1
  have := eq_of_index_eq hmi hmj heq
  exact hij (by rw [← hmsgi, ← hmsgj, this])

/-- A frame leaves the schedule alone, and of the signal vector it writes the entries of
the mux signals of the messages it was processed for. -/
theorem processMessage_frame {stack : Nat} {i : n.Ref} {msg : CanMessage} {s s' : n.State}
    {visited : List n.Ref} (h : n.processMessage stack i msg s = .ok (s', visited)) :
    s'.alarm = s.alarm ∧ s'.tick = s.tick ∧
      ∀ x, (∀ j ∈ visited, ∀ mj, n.muxMi j = some mj → mj.signalVectorIndex ≠ x) →
        s'.signalVector x = s.signalVector x := by
  refine processMessage_induct (P := fun _ s s' visited => s'.alarm = s.alarm ∧
    s'.tick = s.tick ∧
      ∀ x, (∀ j ∈ visited, ∀ mj, n.muxMi j = some mj → mj.signalVectorIndex ≠ x) →
        s'.signalVector x = s.signalVector x) ?_ ?_ h
  · intro i s s₁ _ hs₁
    rw [hs₁]
    exact ⟨rfl, rfl, fun _ _ => rfl⟩
  · intro i s s₁ s₂ inner _ hs₁ hin
    have hread : (n.readMux i s₁).alarm = s.alarm ∧ (n.readMux i s₁).tick = s.tick := by
      rw [hs₁, readMux]
      cases n.muxMi i <;> exact ⟨rfl, rfl⟩
    have hsv : ∀ x, (∀ mi, n.muxMi i = some mi → mi.signalVectorIndex ≠ x) →
        (n.readMux i s₁).signalVector x = s.signalVector x := fun x hx => by
      rw [readMux_signalVector_of_ne hx, hs₁, modifyMessage_signalVector]
    rcases hin with ⟨rfl, rfl⟩ | ⟨k, halarm, htick, hrest⟩
    · exact ⟨hread.1, hread.2, fun x hx => hsv x (hx i List.mem_cons_self)⟩
    · refine ⟨halarm.trans hread.1, htick.trans hread.2, fun x hx => ?_⟩
      exact (hrest x (fun j hj => hx j (List.mem_cons_of_mem i hj))).trans
        (hsv x (hx i List.mem_cons_self))

/-- The fields of a message that reception has no part in. -/
def KeepsTx (st st' : MessageState) : Prop :=
  st'.payload = st.payload ∧ st'.needsTx = st.needsTx ∧ st'.encodeData = st.encodeData ∧
    st'.decodeData = st.decodeData

theorem KeepsTx.refl (st : MessageState) : KeepsTx st st := ⟨rfl, rfl, rfl, rfl⟩

theorem KeepsTx.trans {st st' st'' : MessageState} (h : KeepsTx st st') (h' : KeepsTx st' st'') :
    KeepsTx st st'' :=
  ⟨h'.1.trans h.1, h'.2.1.trans h.2.1, h'.2.2.1.trans h.2.2.1, h'.2.2.2.trans h.2.2.2⟩

theorem checkMessage_keepsTx (nm : NetworkMessage) (st : MessageState) :
    KeepsTx st (checkMessage nm st) := by
  unfold checkMessage
  dsimp only
  split <;> exact ⟨rfl, rfl, rfl, rfl⟩

theorem modifyMessage_keepsTx {s : n.State} {i : n.Ref} {f : MessageState → MessageState}
    (hf : KeepsTx (s.message i) (f (s.message i))) (j : n.Ref) :
    KeepsTx (s.message j) ((s.modifyMessage i f).message j) := by
  by_cases hij : j = i
  · subst hij
    rwa [modifyMessage_self]
  · rw [modifyMessage_of_ne hij]
    exact KeepsTx.refl _

theorem processMessage_keepsTx {stack : Nat} {i : n.Ref} {msg : CanMessage} {s s' : n.State}
    {visited : List n.Ref} (h : n.processMessage stack i msg s = .ok (s', visited))
    (j : n.Ref) : KeepsTx (s.message j) (s'.message j) := by
  refine processMessage_induct
    (P := fun _ s s' _ => KeepsTx (s.message j) (s'.message j)) ?_ ?_ h
  · intro i s s₁ _ hs₁
    rw [hs₁]
    exact modifyMessage_keepsTx ⟨rfl, rfl, rfl, rfl⟩ j
  · intro i s s₁ s₂ inner _ hs₁ hin
    have hunpack : KeepsTx (s.message j) (s₁.message j) := by
      rw [hs₁]
      exact modifyMessage_keepsTx ⟨rfl, rfl, rfl, rfl⟩ j
    have hinner : KeepsTx (s₁.message j) (s₂.message j) := by
      rcases hin with ⟨rfl, _⟩ | ⟨k, hk⟩
      · rw [readMux_message]
        exact KeepsTx.refl _
      · rwa [readMux_message] at hk
    exact hunpack.trans (hinner.trans
      (modifyMessage_keepsTx (checkMessage_keepsTx _ _) j))

/-- What one frame does to the value of the mux signal of a message it is processed for. -/
def rxMux (n : Network) (j : n.Ref) (mj : n.Item) (msg : CanMessage) (st : MessageState)
    (v : Double) : Double :=
  let res := unpackFrame (n.msg j) msg st.buffer
  if res.rc ≠ 0 then v else mj.signal.readValue res.dst v

theorem processMessage_mux {stack : Nat} {i : n.Ref} {msg : CanMessage} {s s' : n.State}
    {visited : List n.Ref} (h : n.processMessage stack i msg s = .ok (s', visited))
    {j : n.Ref} {mj : n.Item} (hmj : n.muxMi j = some mj) :
    (j ∉ visited →
        s'.signalVector mj.signalVectorIndex = s.signalVector mj.signalVectorIndex) ∧
      (visited.count j = 1 →
        s'.signalVector mj.signalVectorIndex =
          n.rxMux j mj msg (s.message j) (s.signalVector mj.signalVectorIndex)) := by
  refine processMessage_induct (P := fun _ s s' visited =>
    (j ∉ visited →
        s'.signalVector mj.signalVectorIndex = s.signalVector mj.signalVectorIndex) ∧
      (visited.count j = 1 →
        s'.signalVector mj.signalVectorIndex =
          n.rxMux j mj msg (s.message j) (s.signalVector mj.signalVectorIndex))) ?_ ?_ h
  · intro i s s₁ hrc hs₁
    rw [hs₁, modifyMessage_signalVector]
    refine ⟨fun _ => rfl, fun hj => ?_⟩
    have hij : i = j := by
      by_contra hne
      simp [hne] at hj
    subst hij
    rw [rxMux, if_pos hrc]
  · intro i s s₁ s₂ inner hrc hs₁ hin
    have hinner : (j ∉ inner → s₂.signalVector mj.signalVectorIndex =
          (n.readMux i s₁).signalVector mj.signalVectorIndex) ∧
        (inner.count j = 1 → s₂.signalVector mj.signalVectorIndex =
          n.rxMux j mj msg (s₁.message j)
            ((n.readMux i s₁).signalVector mj.signalVectorIndex)) := by
      rcases hin with ⟨rfl, rfl⟩ | ⟨k, hk⟩
      · exact ⟨fun _ => rfl, fun hc => by simp at hc⟩
      · rwa [readMux_message] at hk
    have hread : i ≠ j → (n.readMux i s₁).signalVector mj.signalVectorIndex =
        s.signalVector mj.signalVectorIndex := fun hij => by
      rw [readMux_signalVector_of_ne (fun mi hmi => muxMi_index_ne hmi hmj hij), hs₁,
        modifyMessage_signalVector]
    rw [modifyMessage_signalVector]
    constructor
    · intro hj
      rw [List.mem_cons, not_or] at hj
      exact (hinner.1 hj.2).trans (hread (Ne.symm hj.1))
    · intro hj
      by_cases hij : i = j
      · subst hij
        rw [List.count_cons_self] at hj
        have hni : i ∉ inner := List.count_eq_zero.mp (by omega)
        rw [hinner.1 hni, readMux_signalVector_self hmj, hs₁, modifyMessage_self,
          modifyMessage_signalVector, rxMux, if_neg (not_not.mpr hrc)]
      · rw [List.count_cons_of_ne hij] at hj
        rw [hinner.2 hj, hread hij, hs₁, modifyMessage_of_ne (Ne.symm hij)]

/-! ## Reception of a sequence of frames -/

theorem processCanFrame_ok {stack : Nat} {msg : CanMessage} {s s' : n.State}
    {visited : List n.Ref} (h : n.processCanFrame stack msg s = .ok (s', visited)) :
    (s' = s ∧ visited = []) ∨ ∃ i, n.processMessage stack i msg s = .ok (s', visited) := by
  unfold processCanFrame at h
  split at h
  · rename_i i _
    exact .inr ⟨i, h⟩
  · cases h
    exact .inl ⟨rfl, rfl⟩

theorem processCanFrame_message {stack : Nat} {msg : CanMessage} {s s' : n.State}
    {visited : List n.Ref} (h : n.processCanFrame stack msg s = .ok (s', visited)) (j : n.Ref) :
    (j ∉ visited → s'.message j = s.message j) ∧
      (visited.count j = 1 → s'.message j = rxMessage (n.msg j) (s.message j) msg) := by
  rcases processCanFrame_ok h with ⟨rfl, rfl⟩ | ⟨i, hi⟩
  · exact ⟨fun _ => rfl, fun hc => by simp at hc⟩
  · exact processMessage_message hi j

theorem processCanFrame_mux {stack : Nat} {msg : CanMessage} {s s' : n.State}
    {visited : List n.Ref} (h : n.processCanFrame stack msg s = .ok (s', visited))
    {j : n.Ref} {mj : n.Item} (hmj : n.muxMi j = some mj) :
    (j ∉ visited →
        s'.signalVector mj.signalVectorIndex = s.signalVector mj.signalVectorIndex) ∧
      (visited.count j = 1 →
        s'.signalVector mj.signalVectorIndex =
          n.rxMux j mj msg (s.message j) (s.signalVector mj.signalVectorIndex)) := by
  rcases processCanFrame_ok h with ⟨rfl, rfl⟩ | ⟨i, hi⟩
  · exact ⟨fun _ => rfl, fun hc => by simp at hc⟩
  · exact processMessage_mux hi hmj

theorem framesOf_cons (j : n.Ref) (r : n.Received) (log : List n.Received) :
    framesOf j (r :: log) =
      if j ∈ r.messages then r.frame :: framesOf j log else framesOf j log := by
  by_cases hj : j ∈ r.messages <;> simp [framesOf, hj]

/-- A message, and the value of its mux signal, after the frames it received. -/
def rxFrames (n : Network) (j : n.Ref) (mj : n.Item) (p : MessageState × Double)
    (frames : List CanMessage) : MessageState × Double :=
  frames.foldl (fun p msg => (rxMessage (n.msg j) p.1 msg, n.rxMux j mj msg p.1 p.2)) p

theorem rxFrames_fst (j : n.Ref) (mj : n.Item) (p : MessageState × Double)
    (frames : List CanMessage) :
    (n.rxFrames j mj p frames).1 = frames.foldl (rxMessage (n.msg j)) p.1 := by
  induction frames generalizing p with
  | nil => rfl
  | cons msg rest ih => exact ih _

theorem decodeFromBus_cons {stack : Nat} {msg : CanMessage} {frames : List CanMessage}
    {s s' : n.State} {log : List n.Received}
    (h : n.decodeFromBus stack (msg :: frames) s = .ok (s', log)) :
    ∃ s₁ visited log', n.processCanFrame stack msg s = .ok (s₁, visited) ∧
      n.decodeFromBus stack frames s₁ = .ok (s', log') ∧
      log = { frame := msg, messages := visited } :: log' := by
  rw [decodeFromBus] at h
  obtain ⟨⟨s₁, visited⟩, h₁, h⟩ := bind_eq_ok.mp h
  obtain ⟨⟨s₂, log'⟩, h₂, h⟩ := bind_eq_ok.mp h
  cases h
  exact ⟨s₁, visited, log', h₁, h₂, rfl⟩

/-- The frames of a step, seen from one message: it receives in order the frames that
were processed for it. -/
theorem decodeFromBus_message {stack : Nat} {frames : List CanMessage} {s s' : n.State}
    {log : List n.Received} (h : n.decodeFromBus stack frames s = .ok (s', log))
    {j : n.Ref} (hj : Once j log) :
    s'.message j = (framesOf j log).foldl (rxMessage (n.msg j)) (s.message j) := by
  induction frames generalizing s log with
  | nil =>
    cases h
    rfl
  | cons msg rest ih =>
    obtain ⟨s₁, visited, log', h₁, h₂, rfl⟩ := decodeFromBus_cons h
    have hrest := ih h₂ (fun r hr => hj r (List.mem_cons_of_mem _ hr))
    have hfirst := processCanFrame_message h₁ j
    rw [hrest, framesOf_cons]
    by_cases hmem : j ∈ visited
    · have hone : visited.count j = 1 := by
        have hle : visited.count j ≤ 1 := hj _ List.mem_cons_self
        have hpos := List.count_pos_iff.mpr hmem
        omega
      rw [if_pos hmem, hfirst.2 hone, List.foldl_cons]
    · rw [if_neg hmem, hfirst.1 hmem]

theorem decodeFromBus_mux {stack : Nat} {frames : List CanMessage} {s s' : n.State}
    {log : List n.Received} (h : n.decodeFromBus stack frames s = .ok (s', log))
    {j : n.Ref} {mj : n.Item} (hmj : n.muxMi j = some mj) (hj : Once j log) :
    s'.signalVector mj.signalVectorIndex =
      (n.rxFrames j mj (s.message j, s.signalVector mj.signalVectorIndex)
        (framesOf j log)).2 := by
  induction frames generalizing s log with
  | nil =>
    cases h
    rfl
  | cons msg rest ih =>
    obtain ⟨s₁, visited, log', h₁, h₂, rfl⟩ := decodeFromBus_cons h
    have hrest := ih h₂ (fun r hr => hj r (List.mem_cons_of_mem _ hr))
    have hfirst := processCanFrame_message h₁ j
    have hmux := processCanFrame_mux h₁ hmj
    rw [hrest, framesOf_cons]
    by_cases hmem : j ∈ visited
    · have hone : visited.count j = 1 := by
        have hle : visited.count j ≤ 1 := hj _ List.mem_cons_self
        have hpos := List.count_pos_iff.mpr hmem
        omega
      rw [if_pos hmem, hfirst.2 hone, hmux.2 hone]
      rfl
    · rw [if_neg hmem, hfirst.1 hmem, hmux.1 hmem]

/-- What every call of `_process_message` keeps is kept over the frames of a step. -/
theorem decodeFromBus_keeps {R : n.State → n.State → Prop} (hrefl : ∀ s, R s s)
    (htrans : ∀ s₁ s₂ s₃, R s₁ s₂ → R s₂ s₃ → R s₁ s₃) {stack : Nat}
    (hcall : ∀ i msg s s' visited,
      n.processMessage stack i msg s = .ok (s', visited) → R s s')
    {frames : List CanMessage} {s s' : n.State} {log : List n.Received}
    (h : n.decodeFromBus stack frames s = .ok (s', log)) : R s s' := by
  induction frames generalizing s log with
  | nil =>
    cases h
    exact hrefl _
  | cons msg rest ih =>
    obtain ⟨s₁, visited, log', h₁, h₂, rfl⟩ := decodeFromBus_cons h
    refine htrans s s₁ s' ?_ (ih h₂)
    rcases processCanFrame_ok h₁ with ⟨rfl, _⟩ | ⟨i, hi⟩
    · exact hrefl s₁
    · exact hcall i msg s s₁ visited hi

theorem decodeFromBus_frame {stack : Nat} {frames : List CanMessage} {s s' : n.State}
    {log : List n.Received} (h : n.decodeFromBus stack frames s = .ok (s', log)) :
    s'.alarm = s.alarm ∧ s'.tick = s.tick ∧
      ∀ x, (∀ j mj, n.muxMi j = some mj → mj.signalVectorIndex ≠ x) →
        s'.signalVector x = s.signalVector x := by
  refine decodeFromBus_keeps (R := fun s s' => s'.alarm = s.alarm ∧ s'.tick = s.tick ∧
    ∀ x, (∀ j mj, n.muxMi j = some mj → mj.signalVectorIndex ≠ x) →
      s'.signalVector x = s.signalVector x) ?_ ?_ ?_ h
  · exact fun _ => ⟨rfl, rfl, fun _ _ => rfl⟩
  · rintro s₁ s₂ s₃ ⟨ha, ht, hv⟩ ⟨ha', ht', hv'⟩
    exact ⟨ha'.trans ha, ht'.trans ht, fun x hx => (hv' x hx).trans (hv x hx)⟩
  · intro i msg s s' visited hi
    obtain ⟨ha, ht, hv⟩ := processMessage_frame hi
    exact ⟨ha, ht, fun x hx => hv x (fun j _ mj hmj => hx j mj hmj)⟩

theorem decodeFromBus_keepsTx {stack : Nat} {frames : List CanMessage} {s s' : n.State}
    {log : List n.Received} (h : n.decodeFromBus stack frames s = .ok (s', log))
    (j : n.Ref) : KeepsTx (s.message j) (s'.message j) :=
  decodeFromBus_keeps (R := fun s s' => KeepsTx (s.message j) (s'.message j))
    (fun _ => KeepsTx.refl _) (fun _ _ _ => KeepsTx.trans)
    (fun _ _ _ _ _ hi => processMessage_keepsTx hi j) h

/-- The item is the mux item of its message. -/
def IsMux (n : Network) (mi : n.Item) : Prop :=
  (n.muxMi mi.message).map (·.signalVectorIndex) = some mi.signalVectorIndex

instance (mi : n.Item) : Decidable (n.IsMux mi) := inferInstanceAs (Decidable (_ = _))

theorem isMux_iff {mi : n.Item} (hmi : mi ∈ n.marshalList) :
    n.IsMux mi ↔ n.muxMi mi.message = some mi := by
  constructor
  · intro h
    obtain ⟨mj, hmj, hidx⟩ := Option.map_eq_some_iff.mp h
    have hmem := (mem_items.mp (muxMi_mem hmj).1).1
    rw [hmj, eq_of_index_eq hmem hmi hidx]
  · intro h
    rw [IsMux, h]
    rfl

theorem index_ne_muxMi {i : n.Ref} {mi : n.Item} (hmi : mi ∈ n.items i)
    (hmux : n.muxMi i ≠ some mi) {j : n.Ref} {mj : n.Item} (hmj : n.muxMi j = some mj) :
    mj.signalVectorIndex ≠ mi.signalVectorIndex := by
  intro heq
  obtain ⟨hmem, hmsg⟩ := mem_items.mp hmi
  obtain ⟨hmemj, hmsgj⟩ := mem_items.mp (muxMi_mem hmj).1
  have hsame := eq_of_index_eq hmemj hmem heq
  rw [hsame, hmsg] at hmsgj
  rw [← hmsgj, hsame] at hmj
  exact hmux hmj

/-! ### What reception does to a message -/

theorem checkMessage_fields (nm : NetworkMessage) (st : MessageState) :
    (checkMessage nm st).buffer = st.buffer ∧ (checkMessage nm st).payload = st.payload ∧
      (checkMessage nm st).needsTx = st.needsTx ∧
      (checkMessage nm st).decodeData = st.decodeData ∧
      (checkMessage nm st).bufferChecksum = simbusGenerateUidHash st.buffer nm.bufferLen := by
  by_cases h : simbusGenerateUidHash st.buffer nm.bufferLen = st.bufferChecksum
  · simp [checkMessage, h]
  · simp [checkMessage, h]

theorem checkMessage_updateSignals (nm : NetworkMessage) (st : MessageState) :
    (checkMessage nm st).updateSignals = true ↔
      simbusGenerateUidHash st.buffer nm.bufferLen ≠ st.bufferChecksum := by
  by_cases h : simbusGenerateUidHash st.buffer nm.bufferLen = st.bufferChecksum
  · simp [checkMessage, h]
  · simp [checkMessage, h]

/-! ## Transmission -/

@[simp] theorem encodeToBus_message (s : n.State) (i : n.Ref) :
    (n.encodeToBus s).1.message i = { s.message i with needsTx := false } := rfl

@[simp] theorem encodeToBus_signalVector (s : n.State) :
    (n.encodeToBus s).1.signalVector = s.signalVector := rfl

theorem encodeToBus_sent (s : n.State) (i : n.Ref) :
    (n.encodeToBus s).2.filter (fun e => e.message = i) =
      if (s.message i).needsTx then
        [{ message := i, frame := txFrame (n.msg i) (s.message i) }]
      else [] := by
  have loop : ∀ l : List n.Ref, l.Nodup →
      (l.filterMap (fun j => if (s.message j).needsTx then
        some (Sent.mk j (txFrame (n.msg j) (s.message j))) else none)).filter
          (fun e => e.message = i) =
      if i ∈ l ∧ (s.message i).needsTx = true then
        [{ message := i, frame := txFrame (n.msg i) (s.message i) }] else [] := by
    intro l hl
    induction l with
    | nil => simp
    | cons j rest ih =>
      obtain ⟨hj, hrest⟩ := List.nodup_cons.mp hl
      have ih := ih hrest
      by_cases hij : j = i
      · subst hij
        simp only [hj, false_and, if_false] at ih
        by_cases htx : (s.message j).needsTx = true <;> simp [htx, ih]
      · by_cases htx : (s.message j).needsTx = true <;>
          simp [htx, hij, ih, Ne.symm hij]
  rw [encodeToBus, loop _ (List.nodup_finRange _)]
  simp

end Network
end DseNetwork
