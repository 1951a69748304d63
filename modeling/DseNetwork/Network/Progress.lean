import DseNetwork.Network.Recursion
import DseNetwork.Network.RollingCounter

/-
Steps that complete.

A step ends the process where it calls a function that was not loaded, where a message
function returns an error, and where containers are nested deeper than the stack.  It is
undefined where it comes to a buffer that was not allocated, or leaves one.  The memories
of the model have no end, so what keeps the code inside its buffers is asked for.
-/

namespace DseNetwork

/-! ## Instance data -/

/-- The instance data that calls of a message function leave, from the first one on. -/
inductive NetworkFunction.Instance (nf : NetworkFunction) (f : NetworkFunctionFunc)
    (payloadLen : Nat) : Option Memory → Prop
  | none : Instance nf f payloadLen none
  | call {data : Option Memory} (h : Instance nf f payloadLen data) (payload : Memory) :
    Instance nf f payloadLen (f nf.annotations data payload payloadLen).data

/-- The functions from position `k` on have instance data of their own. -/
def Instances (payloadLen : Nat) (data : Nat → Option Memory) :
    Nat → List NetworkFunction → Prop
  | _, [] => True
  | k, nf :: rest =>
    (∀ f, nf.function = some f → nf.Instance f payloadLen (data k)) ∧
      Instances payloadLen data (k + 1) rest

theorem Instances.congr {payloadLen : Nat} {data data' : Nat → Option Memory} {k : Nat}
    {fs : List NetworkFunction} (h : ∀ j, k ≤ j → data' j = data j)
    (hown : Instances payloadLen data k fs) : Instances payloadLen data' k fs := by
  induction fs generalizing k with
  | nil => trivial
  | cons nf rest ih =>
    refine ⟨fun f hf => ?_, ih (fun j hj => h j (Nat.le_of_succ_le hj)) hown.2⟩
    rw [h k (Nat.le_refl k)]
    exact hown.1 f hf

theorem Instances.none (payloadLen : Nat) (fs : List NetworkFunction) (k : Nat) :
    Instances payloadLen (fun _ => none) k fs := by
  induction fs generalizing k with
  | nil => trivial
  | cons nf rest ih => exact ⟨fun _ _ => .none, ih (k + 1)⟩

/-- All functions of the message have instance data of their own. -/
structure NetworkMessage.OwnData (nm : NetworkMessage) (st : MessageState) : Prop where
  encode : Instances nm.payloadLen st.encodeData 0 nm.encodeFunctions
  decode : Instances nm.payloadLen st.decodeData 0 nm.decodeFunctions

theorem NetworkMessage.OwnData.initial (nm : NetworkMessage) (buffer : Memory) :
    nm.OwnData { MessageState.initial with buffer := buffer } :=
  ⟨Instances.none nm.payloadLen nm.encodeFunctions 0,
    Instances.none nm.payloadLen nm.decodeFunctions 0⟩

namespace Network

variable {ι : Type} {i : ι} {nm : NetworkMessage} {st st' : MessageState}
  {calls : List (FunctionCall ι)}

/-- A completed loop leaves the data of its own functions, and of no others. -/
theorem encodeLoop_instances {k : Nat} {fs : List NetworkFunction}
    (h : encodeLoop i nm k fs st = .ok (st', calls))
    (hown : Instances nm.payloadLen st.encodeData k fs) :
    Instances nm.payloadLen st'.encodeData k fs ∧ st'.decodeData = st.decodeData ∧
      ∀ j, j < k → st'.encodeData j = st.encodeData j := by
  induction fs generalizing k st calls with
  | nil =>
    cases h
    exact ⟨hown, rfl, fun _ _ => rfl⟩
  | cons nf rest ih =>
    cases hf : nf.function with
    | none =>
      rw [encodeLoop, hf] at h
      obtain ⟨hrest, hdecode, hbefore⟩ := ih h hown.2
      refine ⟨⟨fun f hsome => ?_, hrest⟩, hdecode, fun j hj => hbefore j (Nat.lt_succ_of_lt hj)⟩
      rw [hf] at hsome
      cases hsome
    | some f =>
      obtain ⟨_, h₁, _⟩ := encodeLoop_cons hf h
      obtain ⟨hrest, hdecode, hbefore⟩ := ih h₁ (hown.2.congr (fun j hj =>
        Function.update_of_ne (Nat.ne_of_gt hj) _ _))
      refine ⟨⟨fun g hg => ?_, hrest⟩, hdecode, fun j hj => ?_⟩
      · cases Option.some.inj (hf.symm.trans hg)
        rw [hbefore k (Nat.lt_succ_self k)]
        dsimp only
        rw [Function.update_self]
        exact (hown.1 f hf).call _
      · rw [hbefore j (Nat.lt_succ_of_lt hj)]
        exact Function.update_of_ne (Nat.ne_of_lt hj) _ _

theorem decodeLoop_instances {k : Nat} {fs : List NetworkFunction}
    (h : decodeLoop i nm k fs st = .ok (st', calls))
    (hown : Instances nm.payloadLen st.decodeData k fs) :
    Instances nm.payloadLen st'.decodeData k fs ∧
      ∀ j, j < k → st'.decodeData j = st.decodeData j := by
  induction fs generalizing k st calls with
  | nil =>
    cases h
    exact ⟨hown, fun _ _ => rfl⟩
  | cons nf rest ih =>
    cases hf : nf.function with
    | none =>
      rw [decodeLoop, hf] at h
      obtain ⟨hrest, hbefore⟩ := ih h hown.2
      refine ⟨⟨fun f hsome => ?_, hrest⟩, fun j hj => hbefore j (Nat.lt_succ_of_lt hj)⟩
      rw [hf] at hsome
      cases hsome
    | some f =>
      obtain ⟨_, _, h₁, _⟩ := decodeLoop_cons hf h
      obtain ⟨hrest, hbefore⟩ := ih h₁ (hown.2.congr (fun j hj =>
        Function.update_of_ne (Nat.ne_of_gt hj) _ _))
      refine ⟨⟨fun g hg => ?_, hrest⟩, fun j hj => ?_⟩
      · cases Option.some.inj (hf.symm.trans hg)
        rw [hbefore k (Nat.lt_succ_self k)]
        dsimp only
        rw [Function.update_self]
        exact (hown.1 f hf).call _
      · rw [hbefore j (Nat.lt_succ_of_lt hj)]
        exact Function.update_of_ne (Nat.ne_of_lt hj) _ _

theorem encodeMessage_ownData {netOff : Bool}
    (h : encodeMessage netOff i nm st = .ok (st', calls)) (hown : nm.OwnData st) :
    nm.OwnData st' := by
  rcases encodeMessage_cases h with ⟨_, rfl, _⟩ | ⟨_, st₁, hloop, hst⟩
  · exact ⟨hown.encode, hown.decode⟩
  · obtain ⟨hencode, hdecode, _⟩ := encodeLoop_instances hloop hown.encode
    have hdata : nm.OwnData st₁ := ⟨hencode, by rw [hdecode]; exact hown.decode⟩
    rcases hst with ⟨_, rfl⟩ | ⟨unpack, buffer, _, _, rfl⟩
    · exact hdata
    · exact ⟨hdata.encode, hdata.decode⟩

theorem decodeMessage_ownData (h : decodeMessage i nm st = .ok (st', calls))
    (hown : nm.OwnData st) : nm.OwnData st' := by
  refine ⟨by rw [decodeMessage_encodeData h]; exact hown.encode, ?_⟩
  rw [decodeMessage] at h
  split at h
  · cases h
    exact hown.decode
  · exact (decodeLoop_instances h hown.decode).1

theorem packMessage_ownData (hown : nm.OwnData st) : nm.OwnData (packMessage nm st) := by
  obtain ⟨_, _, _, hpacked, _⟩ := packMessage_fields nm st
  rw [hpacked]
  exact ⟨hown.encode, hown.decode⟩

theorem KeepsTx.ownData (h : KeepsTx st st') (hown : nm.OwnData st) : nm.OwnData st' := by
  obtain ⟨_, _, hencode, hdecode⟩ := h
  exact ⟨by rw [hencode]; exact hown.encode, by rw [hdecode]; exact hown.decode⟩

end Network

namespace NetworkModel

variable {m : NetworkModel} {input : StepInput} {s s' : ModelState m.network}
  {trace : StepTrace m.network}

theorem Stages.ownData (g : Stages m input s s' trace) {i : m.network.Ref}
    (hown : (m.network.msg i).OwnData (s.network.message i)) :
    (m.network.msg i).OwnData (s'.network.message i) := by
  obtain ⟨_, happly⟩ := g.applied_message i
  obtain ⟨_, hencode⟩ := g.encoded_message i
  have happlied := Network.decodeMessage_ownData happly
    ((Network.decodeFromBus_keepsTx g.decode i).ownData hown)
  have hpacked : (m.network.msg i).OwnData (g.packed i) := by
    obtain ⟨_, _, htick⟩ := Network.scheduleTicks_message trace.ticks trace.rx.state i
    rw [← g.tick] at htick
    rw [Stages.packed, htick, g.rx_message]
    exact Network.packMessage_ownData ⟨happlied.encode, happlied.decode⟩
  have hencoded := Network.encodeMessage_ownData hencode hpacked
  rw [g.after_message]
  exact ⟨hencoded.encode, hencoded.decode⟩

/-- Between the steps the message functions have the instance data of their own calls. -/
theorem reachable_ownData (h : m.system.Reachable s) (i : m.network.Ref) :
    (m.network.msg i).OwnData (s.network.message i) := by
  refine h.invariant (P := fun s => (m.network.msg i).OwnData (s.network.message i)) ?_ ?_
  · rintro _ ⟨scalar, rfl⟩
    rw [modelCreate_message]
    have hpacked := Network.packMessage_ownData (.initial (m.network.msg i)
      (m.network.marshalBuffer m.initialSignalVector i Memory.zero))
    exact ⟨hpacked.encode, hpacked.decode⟩
  · intro s input trace s' _ hs hn
    obtain ⟨g⟩ := modelStep_ok hn
    exact g.ownData hs

end NetworkModel

/-! ## Functions that do not fail -/

/-- The call keeps to a payload of the given length: it leaves what is behind it alone, and
what is behind it has no part in what the call does. -/
structure KeepsTo (payloadLen : Nat) (call : Memory → FunctionResult) (payload : Memory) : Prop
    where
  outside : ∀ a, payloadLen ≤ a → (call payload).payload a = payload a
  inside : ∀ payload', (∀ a, a < payloadLen → payload' a = payload a) →
    (call payload').rc = (call payload).rc ∧ (call payload').data = (call payload).data ∧
      ∀ a, a < payloadLen → (call payload').payload a = (call payload).payload a

/-- With instance data of its own, the function keeps to the payload and returns a result
that passes. -/
def NetworkFunction.Returns (nf : NetworkFunction) (payloadLen : Nat) (pass : Int → Prop) : Prop :=
  ∀ f, nf.function = some f → ∀ data, nf.Instance f payloadLen data → ∀ payload,
    pass (f nf.annotations data payload payloadLen).rc ∧
      KeepsTo payloadLen (fun payload => f nf.annotations data payload payloadLen) payload

/-- No call of a message function ends the process. -/
structure NetworkMessage.FunctionsPass (nm : NetworkMessage) : Prop where
  encode : ∀ nf ∈ nm.encodeFunctions, nf.Returns nm.payloadLen (· = 0)
  decode : ∀ nf ∈ nm.decodeFunctions, nf.Returns nm.payloadLen (fun rc => rc = 0 ∨ rc = EBADMSG)

theorem NetworkMessage.FunctionsPass.of_nil {nm : NetworkMessage}
    (hencode : nm.encodeFunctions = []) (hdecode : nm.decodeFunctions = []) :
    nm.FunctionsPass where
  encode := by
    rw [hencode]
    exact fun nf h => absurd h List.not_mem_nil
  decode := by
    rw [hdecode]
    exact fun nf h => absurd h List.not_mem_nil

/-- A body of the example library, at a position in the payload, returns a result that
passes and keeps to the payload. -/
structure BodyReturns (body : Nat → Memory → Nat → Int × Memory) (position payloadLen : Nat)
    (pass : Int → Prop) : Prop where
  rc : ∀ payload, pass (body position payload payloadLen).1
  outside : ∀ payload a, payloadLen ≤ a → (body position payload payloadLen).2 a = payload a
  inside : ∀ payload payload' : Memory, (∀ a, a < payloadLen → payload' a = payload a) →
    (body position payload' payloadLen).1 = (body position payload payloadLen).1 ∧
      ∀ a, a < payloadLen →
        (body position payload' payloadLen).2 a = (body position payload payloadLen).2 a

/-- All calls of a function of the example library work with the annotated position. -/
theorem positioned_instance {nf : NetworkFunction} {body : Nat → Memory → Nat → Int × Memory}
    {position : Byte} {payloadLen : Nat} (hlen : payloadLen ≠ 0)
    (hposition : annotatedPosition nf.annotations = some position) {data : Option Memory}
    (h : nf.Instance (positioned body) payloadLen data) :
    positionOf nf.annotations data = some position := by
  induction h with
  | none => exact hposition
  | call _ _ ih => exact (positioned_of_position body hlen ih).2.2

/-- The instance data that a call leaves do not depend on the payload. -/
theorem positioned_data (body : Nat → Memory → Nat → Int × Memory)
    (annotations : List (String × String)) (data : Option Memory) (payload payload' : Memory)
    (payloadLen : Nat) : (positioned body annotations data payload' payloadLen).data =
      (positioned body annotations data payload payloadLen).data := by
  unfold positioned
  by_cases hlen : payloadLen = 0
  · rw [if_pos hlen, if_pos hlen]
  · rw [if_neg hlen, if_neg hlen]
    cases data with
    | some inst => rfl
    | none => cases annotatedPosition annotations <;> rfl

theorem positioned_returns {nf : NetworkFunction} {body : Nat → Memory → Nat → Int × Memory}
    (hf : nf.function = some (positioned body)) {position : Byte} {payloadLen : Nat}
    (hposition : annotatedPosition nf.annotations = some position) (hlen : payloadLen ≠ 0)
    {pass : Int → Prop} (hbody : BodyReturns body position.toNat payloadLen pass) :
    nf.Returns payloadLen pass := by
  intro f h data hdata payload
  cases Option.some.inj (hf.symm.trans h)
  have hcall := fun payload => @positioned_of_position nf.annotations data payload payloadLen
    position body hlen (positioned_instance hlen hposition hdata)
  constructor
  · rw [(hcall payload).1]
    exact hbody.rc payload
  constructor
  · intro a ha
    rw [(hcall payload).2.1, hbody.outside payload a ha]
  · intro payload' hsame
    obtain ⟨hrc, hpayload⟩ := hbody.inside payload payload' hsame
    rw [(hcall payload).1, (hcall payload').1, (hcall payload).2.1, (hcall payload').2.1]
    exact ⟨hrc, positioned_data body _ _ _ _ _, hpayload⟩

/-- A body that sets a byte of the payload to a value that the payload gives. -/
theorem BodyReturns.of_update {body : Nat → Memory → Nat → Int × Memory}
    {position payloadLen : Nat} (hlt : position < payloadLen) (value : Memory → Byte)
    (hbody : ∀ payload, body position payload payloadLen =
      (0, Function.update payload position (value payload)))
    (hvalue : ∀ payload payload' : Memory, (∀ a, a < payloadLen → payload' a = payload a) →
      value payload' = value payload) : BodyReturns body position payloadLen (· = 0) where
  rc := fun payload => by rw [hbody]
  outside := fun payload a ha => by
    rw [hbody]
    exact Function.update_of_ne (by omega) _ _
  inside := fun payload payload' hsame => by
    rw [hbody, hbody]
    refine ⟨rfl, fun a ha => ?_⟩
    show Function.update payload' position (value payload') a =
      Function.update payload position (value payload) a
    rw [hvalue payload payload' hsame]
    by_cases hposition : a = position
    · rw [hposition, Function.update_self, Function.update_self]
    · rw [Function.update_of_ne hposition, Function.update_of_ne hposition, hsame a ha]

section
variable {nf : NetworkFunction} {position : Byte} {payloadLen : Nat}
  (hposition : annotatedPosition nf.annotations = some position)
  (hlt : position.toNat < payloadLen)
include hposition hlt

theorem counterIncUint8_returns (hf : nf.function = some counterIncUint8) :
    nf.Returns payloadLen (· = 0) :=
  positioned_returns hf hposition (Nat.ne_of_gt (Nat.zero_lt_of_lt hlt))
    (.of_update hlt (fun payload => payload position.toNat + 1#8) (fun _ => rfl)
      (fun _ _ hsame => by rw [hsame _ hlt]))

theorem crcGenerate_returns (hf : nf.function = some crcGenerate) :
    nf.Returns payloadLen (· = 0) := by
  refine positioned_returns hf hposition (Nat.ne_of_gt (Nat.zero_lt_of_lt hlt))
    (.of_update hlt (fun payload => ByteSum.others payload payloadLen position.toNat)
      (fun payload => ?_) (fun _ _ hsame => ByteSum.others_congr (fun a ha _ => hsame a ha)))
  dsimp only
  rw [ByteSum.foldl_add, BitVec.zero_add]

theorem crcValidate_returns (hf : nf.function = some crcValidate) :
    nf.Returns payloadLen (fun rc => rc = 0 ∨ rc = EBADMSG) := by
  refine positioned_returns hf hposition (Nat.ne_of_gt (Nat.zero_lt_of_lt hlt))
    ⟨fun payload => ?_, fun _ _ _ => rfl, fun payload payload' hsame => ⟨?_, hsame⟩⟩
  · dsimp only
    split
    · exact .inr rfl
    · exact .inl rfl
  · dsimp only
    rw [ByteSum.foldl_sub, ByteSum.foldl_sub, hsame _ hlt,
      ByteSum.others_congr (fun a ha _ => hsame a ha)]

end

namespace Network

variable {n : Network} {ι : Type} {i : ι} {nm : NetworkMessage}

theorem encodeLoop_completes {fs : List NetworkFunction}
    (h : ∀ nf ∈ fs, nf.Returns nm.payloadLen (· = 0)) (k : Nat) (st : MessageState)
    (hown : Instances nm.payloadLen st.encodeData k fs) :
    ∃ r, encodeLoop i nm k fs st = .ok r := by
  induction fs generalizing k st with
  | nil => exact ⟨_, rfl⟩
  | cons nf rest ih =>
    obtain ⟨hnf, hrest⟩ := List.forall_mem_cons.mp h
    rw [encodeLoop]
    cases hf : nf.function with
    | none => exact ih hrest (k + 1) st hown.2
    | some f =>
      have hrc := (hnf f hf (st.encodeData k) (hown.1 f hf) st.payload).1
      simp only [hrc, ne_eq, not_true_eq_false, if_false]
      obtain ⟨r, hr⟩ := ih hrest (k + 1) { st with
        payload := (f nf.annotations (st.encodeData k) st.payload nm.payloadLen).payload
        encodeData := Function.update st.encodeData k
          (f nf.annotations (st.encodeData k) st.payload nm.payloadLen).data }
        (hown.2.congr (fun j hj => Function.update_of_ne (Nat.ne_of_gt hj) _ _))
      exact ⟨_, bind_eq_ok.mpr ⟨r, hr, rfl⟩⟩

theorem decodeLoop_completes {fs : List NetworkFunction}
    (h : ∀ nf ∈ fs, nf.Returns nm.payloadLen (fun rc => rc = 0 ∨ rc = EBADMSG)) (k : Nat)
    (st : MessageState) (hown : Instances nm.payloadLen st.decodeData k fs) :
    ∃ r, decodeLoop i nm k fs st = .ok r := by
  induction fs generalizing k st with
  | nil => exact ⟨_, rfl⟩
  | cons nf rest ih =>
    obtain ⟨hnf, hrest⟩ := List.forall_mem_cons.mp h
    cases hf : nf.function with
    | none =>
      rw [decodeLoop]
      simp only [hf]
      exact ih hrest (k + 1) st hown.2
    | some f =>
      rw [decodeLoop_some hf]
      dsimp only
      rw [if_pos (hnf f hf (st.decodeData k) (hown.1 f hf) st.payload).1]
      have hnext := hown.2.congr (fun j hj => Function.update_of_ne (Nat.ne_of_gt hj)
        (f nf.annotations (st.decodeData k) st.payload nm.payloadLen).data st.decodeData)
      obtain ⟨r, hr⟩ := ih hrest (k + 1) { st with
        payload := (f nf.annotations (st.decodeData k) st.payload nm.payloadLen).payload
        decodeData := Function.update st.decodeData k
          (f nf.annotations (st.decodeData k) st.payload nm.payloadLen).data
        updateSignals := st.updateSignals &&
          (f nf.annotations (st.decodeData k) st.payload nm.payloadLen).rc = 0 } hnext
      rw [hr]
      exact ⟨_, rfl⟩

theorem encodeMessage_completes (hpass : nm.FunctionsPass) (hunpack : nm.unpackFunc.isSome)
    (netOff : Bool) (st : MessageState) (hown : nm.OwnData st) :
    ∃ r, encodeMessage netOff i nm st = .ok r := by
  obtain ⟨unpack, hunpack⟩ := Option.isSome_iff_exists.mp hunpack
  rw [encodeMessage]
  dsimp only
  have hdata : Instances nm.payloadLen
      (if netOff then { st with needsTx := false } else st).encodeData 0 nm.encodeFunctions := by
    split <;> exact hown.encode
  generalize (if netOff then { st with needsTx := false } else st) = cleared at hdata
  obtain ⟨r, hr⟩ := encodeLoop_completes (i := i) hpass.encode 0 cleared hdata
  by_cases hidle : cleared.needsTx = false
  · exact ⟨_, if_pos hidle⟩
  · rw [if_neg hidle, hr]
    simp only [bind, Except.bind, hunpack]
    split <;> exact ⟨_, rfl⟩

theorem decodeMessage_completes (hpass : nm.FunctionsPass) (st : MessageState)
    (hown : nm.OwnData st) : ∃ r, decodeMessage i nm st = .ok r := by
  rw [decodeMessage]
  split
  · exact ⟨_, rfl⟩
  · exact decodeLoop_completes hpass.decode 0 st hown.decode

theorem functionApplyEncode_completes (hpass : ∀ i, (n.msg i).FunctionsPass)
    (hunpack : ∀ i, (n.msg i).unpackFunc.isSome) (netOff : Bool) {s : n.State}
    (hown : ∀ i, (n.msg i).OwnData (s.message i)) :
    ∃ r, n.functionApplyEncode netOff s = .ok r := by
  obtain ⟨message, calls, h⟩ := Sweep.sweep_complete
    (f := fun i => encodeMessage netOff i (n.msg i)) (List.nodup_finRange _) (s := s.message)
    (fun i _ => by
      obtain ⟨r, hr⟩ := encodeMessage_completes (hpass i) (hunpack i) netOff (s.message i)
        (hown i)
      exact ⟨r.1, r.2, hr⟩)
  exact ⟨_, bind_eq_ok.mpr ⟨_, h, rfl⟩⟩

theorem functionApplyDecode_completes (hpass : ∀ i, (n.msg i).FunctionsPass) {s : n.State}
    (hown : ∀ i, (n.msg i).OwnData (s.message i)) : ∃ r, n.functionApplyDecode s = .ok r := by
  obtain ⟨message, calls, h⟩ := Sweep.sweep_complete
    (f := fun i => decodeMessage i (n.msg i)) (List.nodup_finRange _) (s := s.message)
    (fun i _ => by
      obtain ⟨r, hr⟩ := decodeMessage_completes (i := i) (hpass i) (s.message i) (hown i)
      exact ⟨r.1, r.2, hr⟩)
  exact ⟨_, bind_eq_ok.mpr ⟨_, h, rfl⟩⟩

/-! ## Frames -/

/-- A frame enters two messages at most, a container and one that it contains. -/
theorem Flat.length_entered (hflat : n.Flat) (msg : CanMessage) (depth : Nat) (i : n.Ref)
    (s : n.State) : (n.entered msg depth i s).length ≤ 2 := by
  cases depth with
  | zero => exact Nat.zero_le 2
  | succ depth =>
    cases hk : n.selected msg s i with
    | none =>
      rw [entered_of_none hk]
      exact Nat.le_succ 1
    | some k =>
      rw [entered_of_some hk, List.length_cons]
      cases depth with
      | zero => exact Nat.le_succ 1
      | succ depth =>
        rw [entered_of_none (hflat.selected_leaf hk _)]
        exact Nat.le_refl 2

theorem decodeFromBus_completes (hunpack : ∀ i, (n.msg i).unpackFunc.isSome) (hflat : n.Flat)
    {stack : Nat} (hstack : 2 ≤ stack) (frames : List CanMessage) (s : n.State) :
    ∃ r, n.decodeFromBus stack frames s = .ok r := by
  have hmessage : ∀ i msg (s : n.State), ∃ r, n.processMessage stack i msg s = .ok r := by
    intro i msg s
    cases h : n.processMessage stack i msg s with
    | ok r => exact ⟨r, rfl⟩
    | error e =>
      cases processMessage_error hunpack h
      have hlen := (processMessage_overflow_iff stack).mp h
      have hle := hflat.length_entered msg (stack + 1) i s
      omega
  induction frames generalizing s with
  | nil => exact ⟨_, rfl⟩
  | cons msg rest ih =>
    have hframe : ∃ r, n.processCanFrame stack msg s = .ok r := by
      unfold processCanFrame
      split
      · exact hmessage _ msg s
      · exact ⟨_, rfl⟩
    obtain ⟨r, hr⟩ := hframe
    obtain ⟨r', hr'⟩ := ih r.1
    exact ⟨_, bind_eq_ok.mpr ⟨r, hr, bind_eq_ok.mpr ⟨r', hr', rfl⟩⟩⟩

end Network

/-! ## Steps and runs -/

namespace NetworkModel

/-- A model in which nothing that a step calls is missing or fails, and whose containers
are not nested.  Every message has a struct, which holds its members. -/
structure Robust (m : NetworkModel) : Prop where
  unpack : ∀ i, (m.network.msg i).unpackFunc.isSome
  functions : ∀ i, (m.network.msg i).FunctionsPass
  flat : m.network.Flat
  stack : 2 ≤ m.stack
  sized : ∀ i, (m.network.msg i).bufferLen ≠ 0
  members : ∀ i, ∀ ns ∈ (m.network.msg i).signals,
    ns.bufferOffset + ns.memberType.size ≤ (m.network.msg i).bufferLen

variable {m : NetworkModel} {s : ModelState m.network}

/-- A step of a robust model completes, from every reachable state on. -/
theorem Robust.modelStep_completes (h : m.Robust) (input : StepInput)
    (hs : m.system.Reachable s) : ∃ r, m.modelStep input s = .ok r := by
  obtain ⟨decoded, hdecoded⟩ := Network.decodeFromBus_completes h.unpack h.flat h.stack
    input.frames { s.network with signalVector := m.copyIn input.scalar s.network.signalVector }
  have hown : ∀ i, (m.network.msg i).OwnData (decoded.1.message i) := fun i =>
    (Network.decodeFromBus_keepsTx hdecoded i).ownData (reachable_ownData hs i)
  obtain ⟨applied, happlied⟩ := Network.functionApplyDecode_completes h.functions hown
  have hrx : ∃ rx, m.receive input s.network = .ok rx ∧
      ∀ i, (m.network.msg i).OwnData (rx.state.message i) := by
    refine ⟨_, bind_eq_ok.mpr ⟨decoded, hdecoded, bind_eq_ok.mpr ⟨applied, happlied, rfl⟩⟩,
      fun i => ?_⟩
    obtain ⟨_, hdecode⟩ := (Network.functionApplyDecode_ok happlied).2.2.2 i
    have happlied := Network.decodeMessage_ownData hdecode (hown i)
    dsimp only
    rw [Network.marshalMessagesToSignals_message]
    exact ⟨happlied.encode, happlied.decode⟩
  obtain ⟨rx, hrx, hrxown⟩ := hrx
  have htx : ∀ net : m.network.State, (∀ i, (m.network.msg i).OwnData (net.message i)) →
      ∃ tx, m.transmit (m.netOff input.scalar) net = .ok tx := by
    intro net hnet
    obtain ⟨encoded, hencoded⟩ := Network.functionApplyEncode_completes h.functions h.unpack
      (m.netOff input.scalar) (s := m.network.packMessages
        (m.network.marshalSignalsToMessages m.network.marshalList net)) (fun i => by
        rw [Network.packMessages_message, Network.marshalSignalsToMessages_message]
        exact Network.packMessage_ownData ⟨(hnet i).encode, (hnet i).decode⟩)
    exact ⟨_, bind_eq_ok.mpr ⟨encoded, hencoded, rfl⟩⟩
  have htick : ∀ (ticks : Nat) (net : m.network.State),
      (∀ i, (m.network.msg i).OwnData (net.message i)) →
        ∀ i, (m.network.msg i).OwnData ((m.network.scheduleTicks ticks net).message i) := by
    intro ticks net hnet i
    obtain ⟨_, _, hmessage⟩ := Network.scheduleTicks_message ticks net i
    rw [hmessage]
    exact ⟨(hnet i).encode, (hnet i).decode⟩
  obtain ⟨tx, htx⟩ := htx _ (htick _ _ (htick _ _ hrxown))
  exact ⟨_, bind_eq_ok.mpr ⟨rx, hrx, bind_eq_ok.mpr ⟨tx, htx, rfl⟩⟩⟩

/-- Whatever comes from outside, a robust model runs on. -/
theorem Robust.runs_on (h : m.Robust) (inputs : List StepInput) (hs : m.system.Reachable s) :
    ∃ l s', m.system.Run s l s' ∧ l.map (·.input) = inputs := by
  induction inputs generalizing s with
  | nil => exact ⟨[], s, .nil, rfl⟩
  | cons input rest ih =>
    obtain ⟨r, hr⟩ := h.modelStep_completes input hs
    have hnext : m.system.next s input r.2 r.1 := hr
    obtain ⟨l, s', hrun, hmap⟩ := ih (hs.next hnext)
    exact ⟨_, s', hrun.cons hr, by rw [List.map_cons, hmap]⟩

/-! ## A model of one message -/

/-- A model of one message, without a mux signal. -/
theorem Robust.of_single (nm : NetworkMessage) (hsingle : ∀ i, m.network.msg i = nm)
    (hunpack : nm.unpackFunc.isSome) (hpass : nm.FunctionsPass)
    (hnomux : ∀ ns ∈ nm.signals, ns.muxSignal = false) (hstack : 2 ≤ m.stack)
    (hsized : nm.bufferLen ≠ 0)
    (hmembers : ∀ ns ∈ nm.signals, ns.bufferOffset + ns.memberType.size ≤ nm.bufferLen) :
    m.Robust where
  unpack := fun i => by rwa [hsingle i]
  functions := fun i => by rwa [hsingle i]
  flat := fun j _ => Network.muxMi_eq_none (by rwa [hsingle j])
  stack := hstack
  sized := fun i => by rwa [hsingle i]
  members := fun i => by rwa [hsingle i]

/-! ## A counter with a checksum, sent and received -/

def validateFunction : NetworkFunction where
  name := "crc_validate"
  annotations := [("position", "1")]
  function := some crcValidate

/-- The message of a counter, a CRC and a data byte, whose CRC is validated. -/
def validatedMessage : NetworkMessage :=
  { countedMessage with decodeFunctions := [validateFunction] }

def validated : NetworkModel :=
  { counted with
    network := .ofMessages [validatedMessage] (by
      simp [validatedMessage, countedMessage, plainMessage]) }

theorem validatedMessage_functions : validatedMessage.FunctionsPass where
  encode := by
    intro nf hnf
    rcases List.mem_cons.mp hnf with rfl | hnf
    · exact counterIncUint8_returns countedMessage_functions.inc_position (by decide) rfl
    · rw [List.mem_singleton.mp hnf]
      exact crcGenerate_returns countedMessage_functions.crc_position (by decide) rfl
  decode := by
    intro nf hnf
    rw [List.mem_singleton.mp hnf]
    exact crcValidate_returns countedMessage_functions.crc_position (by decide) rfl

theorem validated_robust : validated.Robust := by
  refine .of_single validatedMessage (fun i => ?_) rfl validatedMessage_functions
    (by decide +kernel) (Nat.le_refl 2) (by decide) (by decide +kernel)
  rw [show i = (⟨0, Nat.zero_lt_one⟩ : Fin 1) from Subsingleton.elim (α := Fin 1) _ _]
  rfl

/-- Frames with a right and with a wrong CRC come in between. -/
theorem runs_on_validated : ∃ l s',
    validated.system.Run (validated.modelCreate fun _ => ⟨0#64⟩) l s' ∧ l.map (·.input) =
      [withData 7 0, .ofFrames [⟨0x1a0#32, 0#8, [1#8, 8#8, 7#8]⟩] (1 / 1000),
        .ofFrames [⟨0x1a0#32, 0#8, [1#8, 9#8, 7#8]⟩] (1 / 500)] :=
  validated_robust.runs_on _ (.init ⟨_, rfl⟩)

end NetworkModel
end DseNetwork
