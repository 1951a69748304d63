import DseNetwork.Network.Encoder

/-
Containers within containers.

`_process_message` calls itself for the contained message, and nothing bounds the depth
of these calls.  A frame that comes to a message a second time finds it as the first
time left it, is dispatched as it was then, and so never returns: what returns entered
every message at most once.
-/

namespace DseNetwork
namespace Network

variable {n : Network}

theorem nextMessage_congr {i : n.Ref} {frameId : BitVec 32} {s s' : n.State}
    (h : ∀ mi, n.muxMi i = some mi →
      s'.signalVector mi.signalVectorIndex = s.signalVector mi.signalVectorIndex) :
    n.nextMessage i frameId s' = n.nextMessage i frameId s := by
  unfold nextMessage
  cases hmux : n.muxMi i with
  | none => rfl
  | some mi => simp only [h mi hmux]

/-! ## Messages that have taken a frame in -/

/-- Message `j` has taken the frame in: unpacking it and reading its mux signal once more
change nothing. -/
structure TakenIn (s : n.State) (msg : CanMessage) (j : n.Ref) : Prop where
  accepted : (unpackFrame (n.msg j) msg (s.message j).buffer).rc = 0
  unpacked : (unpackFrame (n.msg j) msg (s.message j).buffer).dst = (s.message j).buffer
  read : ∀ mj, n.muxMi j = some mj →
    mj.signal.readValue (s.message j).buffer (s.signalVector mj.signalVectorIndex) =
      s.signalVector mj.signalVectorIndex

variable {s s' : n.State} {msg : CanMessage} {i j : n.Ref}

theorem TakenIn.congr (h : TakenIn s msg j) (hmessage : s'.message j = s.message j)
    (hvalue : ∀ mj, n.muxMi j = some mj →
      s'.signalVector mj.signalVectorIndex = s.signalVector mj.signalVectorIndex) :
    TakenIn s' msg j where
  accepted := by rw [hmessage]; exact h.accepted
  unpacked := by rw [hmessage]; exact h.unpacked
  read := by
    intro mj hmj
    rw [hmessage, hvalue mj hmj]
    exact h.read mj hmj

theorem TakenIn.modifyMessage (h : TakenIn s msg j) :
    s.modifyMessage j (fun st => { st with
      buffer := (unpackFrame (n.msg j) msg (s.message j).buffer).dst }) = s := by
  rw [NetworkState.modifyMessage, h.unpacked]
  simp only [Function.update_eq_self]

theorem TakenIn.readMux (h : TakenIn s msg j) : n.readMux j s = s := by
  unfold Network.readMux
  cases hmux : n.muxMi j with
  | none => rfl
  | some mj =>
    have hmsg : mj.message = j := (mem_items.mp (muxMi_mem hmux).1).2
    have hread := h.read mj hmux
    rw [← hmsg] at hread
    simp only [marshalMessageToSignal, hread, Function.update_eq_self]

/-- The state in which message `i` hands a frame on. -/
def handedOn (n : Network) (i : n.Ref) (msg : CanMessage) (s : n.State) : n.State :=
  n.readMux i (s.modifyMessage i (fun st =>
    { st with buffer := (unpackFrame (n.msg i) msg (s.message i).buffer).dst }))

theorem handedOn_message_of_ne (h : j ≠ i) :
    (n.handedOn i msg s).message j = s.message j := by
  rw [handedOn, readMux_message, modifyMessage_of_ne h]

theorem handedOn_value_of_ne (h : j ≠ i) {mj : n.Item} (hmj : n.muxMi j = some mj) :
    (n.handedOn i msg s).signalVector mj.signalVectorIndex =
      s.signalVector mj.signalVectorIndex := by
  rw [handedOn, readMux_signalVector_of_ne (fun mi hmi => muxMi_index_ne hmi hmj (Ne.symm h)),
    modifyMessage_signalVector]

theorem handedOn_takenIn (hagain : UnpacksAgain (n.msg i))
    (hrc : (unpackFrame (n.msg i) msg (s.message i).buffer).rc = 0) :
    TakenIn (n.handedOn i msg s) msg i := by
  obtain ⟨hrc', hdst'⟩ := hagain msg _ hrc
  have hbuffer : ((n.handedOn i msg s).message i).buffer =
      (unpackFrame (n.msg i) msg (s.message i).buffer).dst := by
    rw [handedOn, readMux_message, modifyMessage_self]
  refine ⟨by rw [hbuffer]; exact hrc', by rw [hbuffer]; exact hdst', fun mi hmi => ?_⟩
  have hvalue : (n.handedOn i msg s).signalVector mi.signalVectorIndex =
      mi.signal.readValue (unpackFrame (n.msg i) msg (s.message i).buffer).dst
        (s.signalVector mi.signalVectorIndex) := by
    rw [handedOn, readMux_signalVector_self hmi, modifyMessage_self,
      modifyMessage_signalVector]
  rw [hbuffer, hvalue, NetworkSignal.readValue_idem]

/-! ## One call -/

theorem unpackFunc_of_accepted {i : n.Ref} {msg : CanMessage} {b : Memory}
    (hrc : (unpackFrame (n.msg i) msg b).rc = 0) :
    ∃ unpack, (n.msg i).unpackFunc = some unpack := by
  unfold unpackFrame at hrc
  cases hu : (n.msg i).unpackFunc with
  | none => simp [hu] at hrc
  | some unpack => exact ⟨unpack, rfl⟩

theorem processMessage_null (h : (n.msg i).unpackFunc = none) (stack : Nat) :
    n.processMessage (stack + 1) i msg s = .error .nullPointer := by
  rw [processMessage]
  simp only [h]

theorem processMessage_refused (h : (n.msg i).unpackFunc.isSome)
    (hrc : (unpackFrame (n.msg i) msg (s.message i).buffer).rc ≠ 0) (stack : Nat) :
    n.processMessage (stack + 1) i msg s =
      .ok (s.modifyMessage i (fun st => { st with
        buffer := (unpackFrame (n.msg i) msg (s.message i).buffer).dst }), [i]) := by
  obtain ⟨unpack, hu⟩ := Option.isSome_iff_exists.mp h
  simp only [unpackFrame, hu] at hrc
  rw [processMessage, unpackFrame]
  simp only [hu]
  rw [if_pos hrc]

theorem processMessage_accepted (hrc : (unpackFrame (n.msg i) msg (s.message i).buffer).rc = 0)
    (stack : Nat) :
    n.processMessage (stack + 1) i msg s =
      ((n.nextMessage i msg.frameId (n.handedOn i msg s)).elim (.ok (n.handedOn i msg s, []))
        (fun k => n.processMessage stack k msg (n.handedOn i msg s))).map (fun r =>
          (r.1.modifyMessage i (checkMessage (n.msg i)), i :: r.2)) := by
  obtain ⟨unpack, hu⟩ := unpackFunc_of_accepted hrc
  have hcontained : n.processContained (fun k s => n.processMessage stack k msg s) i msg.frameId
      (s.modifyMessage i (fun st => { st with
        buffer := (unpackFrame (n.msg i) msg (s.message i).buffer).dst })) =
      (n.nextMessage i msg.frameId (n.handedOn i msg s)).elim (.ok (n.handedOn i msg s, []))
        (fun k => n.processMessage stack k msg (n.handedOn i msg s)) := by
    rw [processContained_eq, ← handedOn]
    cases n.nextMessage i msg.frameId (n.handedOn i msg s) <;> rfl
  rw [← hcontained, processMessage]
  simp only [unpackFrame, hu] at hrc
  simp only [unpackFrame, hu]
  rw [if_neg (not_not.mpr hrc)]
  cases n.processContained _ i msg.frameId _ <;> rfl

theorem processMessage_next {stack : Nat} {visited : List n.Ref}
    (h : n.processMessage (stack + 1) i msg s = .ok (s', visited))
    (hrc : (unpackFrame (n.msg i) msg (s.message i).buffer).rc = 0) :
    (n.nextMessage i msg.frameId (n.handedOn i msg s) = none ∧ visited = [i]) ∨
      ∃ k s₂ inner, n.nextMessage i msg.frameId (n.handedOn i msg s) = some k ∧
        n.processMessage stack k msg (n.handedOn i msg s) = .ok (s₂, inner) ∧
        visited = i :: inner := by
  rw [processMessage_accepted hrc] at h
  obtain ⟨⟨s₂, inner⟩, hin, heq⟩ := map_eq_ok.mp h
  cases heq
  cases hnext : n.nextMessage i msg.frameId (n.handedOn i msg s) with
  | none =>
    rw [hnext] at hin
    cases hin
    exact .inl ⟨rfl, rfl⟩
  | some k =>
    rw [hnext] at hin
    exact .inr ⟨k, s₂, inner, rfl, hin, rfl⟩

/-! ## Calls that do not return -/

/-- Messages that have taken the frame in and select one another are called for ever. -/
theorem processMessage_cycle {P : List n.Ref}
    (hP : ∀ p ∈ P, TakenIn s msg p ∧ ∃ k ∈ P, n.nextMessage p msg.frameId s = some k)
    (stack : Nat) {visited : List n.Ref} (hi : i ∈ P) :
    n.processMessage stack i msg s ≠ .ok (s', visited) := by
  induction stack generalizing i s' visited with
  | zero => simp [processMessage]
  | succ stack ih =>
    intro h
    obtain ⟨htaken, k, hk, hnext⟩ := hP i hi
    have hsame : n.handedOn i msg s = s := by
      rw [handedOn, htaken.modifyMessage, htaken.readMux]
    rcases processMessage_next h htaken.accepted with ⟨hnone, _⟩ | ⟨k', s₂, inner, hk', hin, _⟩
    · rw [hsame, hnext] at hnone
      cases hnone
    · rw [hsame, hnext] at hk'
      rw [← Option.some.inj hk', hsame] at hin
      exact ih hk hin

theorem processMessage_not_mem {stack : Nat} {visited : List n.Ref} {P : List n.Ref}
    (hP : ∀ p ∈ P, TakenIn s msg p ∧ ∃ k ∈ i :: P, n.nextMessage p msg.frameId s = some k)
    (h : n.processMessage stack i msg s = .ok (s', visited)) : i ∉ P := by
  intro hi
  refine processMessage_cycle (P := P) (fun p hp => ?_) stack hi h
  obtain ⟨htaken, k, hk, hnext⟩ := hP p hp
  refine ⟨htaken, k, ?_, hnext⟩
  rcases List.mem_cons.mp hk with rfl | hk
  · exact hi
  · exact hk

/-- A call that returns enters no message twice, and none of the messages `P` that were
entered before it. -/
theorem processMessage_nodup (hagain : ∀ j, UnpacksAgain (n.msg j)) {stack : Nat}
    {visited : List n.Ref} {P : List n.Ref}
    (hP : ∀ p ∈ P, TakenIn s msg p ∧ ∃ k ∈ i :: P, n.nextMessage p msg.frameId s = some k)
    (h : n.processMessage stack i msg s = .ok (s', visited)) :
    visited.Nodup ∧ ∀ p ∈ P, p ∉ visited := by
  induction stack generalizing i s s' visited P with
  | zero => simp [processMessage] at h
  | succ stack ih =>
    have hi := processMessage_not_mem hP h
    have hsingle : [i].Nodup ∧ ∀ p ∈ P, p ∉ [i] :=
      ⟨List.nodup_singleton i, fun p hp hmem => hi (List.mem_singleton.mp hmem ▸ hp)⟩
    by_cases hrc : (unpackFrame (n.msg i) msg (s.message i).buffer).rc = 0
    · rcases processMessage_next h hrc with ⟨_, rfl⟩ | ⟨k, s₂, inner, hnext, hin, rfl⟩
      · exact hsingle
      · -- The calls inside follow `i` and all of `P`, which `i` left as they were.
        have hinner : inner.Nodup ∧ ∀ p ∈ i :: P, p ∉ inner := by
          refine ih (fun p hp => ?_) hin
          rcases List.mem_cons.mp hp with rfl | hp
          · exact ⟨handedOn_takenIn (hagain p) hrc, k, List.mem_cons_self, hnext⟩
          · obtain ⟨htaken, k', hk', hnext'⟩ := hP p hp
            have hne : p ≠ i := fun hpi => hi (hpi ▸ hp)
            refine ⟨htaken.congr (handedOn_message_of_ne hne)
              (fun mp hmp => handedOn_value_of_ne hne hmp), k', List.mem_cons_of_mem k hk', ?_⟩
            rw [nextMessage_congr (fun mp hmp => handedOn_value_of_ne hne hmp), hnext']
        refine ⟨List.nodup_cons.mpr ⟨hinner.2 i List.mem_cons_self, hinner.1⟩,
          fun p hp hmem => ?_⟩
        rcases List.mem_cons.mp hmem with rfl | hmem
        · exact hi hp
        · exact hinner.2 p (List.mem_cons_of_mem i hp) hmem
    · obtain ⟨_, _, rfl⟩ | ⟨h0, _⟩ := processMessage_ok h
      · exact hsingle
      · exact absurd h0 hrc

/-- No frame comes to a message twice. -/
theorem decodeFromBus_once (hagain : ∀ j, UnpacksAgain (n.msg j)) {stack : Nat}
    {frames : List CanMessage} {log : List n.Received}
    (h : n.decodeFromBus stack frames s = .ok (s', log)) (i : n.Ref) : Once i log := by
  induction frames generalizing s log with
  | nil =>
    cases h
    exact fun r hr => absurd hr List.not_mem_nil
  | cons msg rest ih =>
    obtain ⟨s₁, visited, log', h₁, h₂, rfl⟩ := decodeFromBus_cons h
    intro r hr
    rcases List.mem_cons.mp hr with rfl | hr
    · rcases processCanFrame_ok h₁ with ⟨_, rfl⟩ | ⟨k, hk⟩
      · simp
      · have hnodup := (processMessage_nodup hagain (P := []) (fun p hp => by cases hp) hk).1
        exact List.nodup_iff_count_le_one.mp hnodup i
    · exact ih h₂ r hr

end Network
end DseNetwork
