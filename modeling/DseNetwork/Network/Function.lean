import DseNetwork.Network.Engine

/-
Message functions, after `function.c`.

A function of the loaded library may write its instance data and any byte of the
payload.  `log_fatal` ends the process and is the fault `fatal`.
-/

namespace DseNetwork

def EBADMSG : Int := 74

/-- A call of the function at position `function` of a message, with the bytes of the
payload it was handed and the result it returned. -/
structure FunctionCall (ι : Type) where
  message : ι
  function : Nat
  payload : List Byte
  rc : Int

namespace Network

variable {ι : Type}

/-- The loop over the encode functions from position `k` on. -/
def encodeLoop (i : ι) (nm : NetworkMessage) (k : Nat) :
    List NetworkFunction → MessageState → Except Fault (MessageState × List (FunctionCall ι))
  | [], st => .ok (st, [])
  | nf :: rest, st =>
    match nf.function with
    | none => encodeLoop i nm (k + 1) rest st
    | some f =>
      let res := f nf.annotations (st.encodeData k) st.payload nm.payloadLen
      let call := {
        message := i
        function := k
        payload := st.payload.bytes nm.payloadLen
        rc := res.rc }
      let st := { st with
        payload := res.payload
        encodeData := Function.update st.encodeData k res.data }
      if res.rc ≠ 0 then .error .fatal
      else do
        let (st, calls) ← encodeLoop i nm (k + 1) rest st
        .ok (st, call :: calls)

/-- The body of the loop of `network_function_apply_encode`. -/
def encodeMessage (netOff : Bool) (i : ι) (nm : NetworkMessage) (st : MessageState) :
    Except Fault (MessageState × List (FunctionCall ι)) :=
  let st := if netOff then { st with needsTx := false } else st
  if st.needsTx = false then .ok (st, [])
  else do
    let payloadChecksum := simbusGenerateUidHash st.payload nm.payloadLen
    let (st, calls) ← encodeLoop i nm 0 nm.encodeFunctions st
    if simbusGenerateUidHash st.payload nm.payloadLen ≠ payloadChecksum then
      match nm.unpackFunc with
      | none => .error .nullPointer
      | some unpack =>
        -- Trigger update of signals based on changed payload.
        let st := { st with
          updateSignals := true
          buffer := (unpack st.buffer st.payload nm.payloadLen).dst }
        .ok ({ st with bufferChecksum := simbusGenerateUidHash st.buffer nm.bufferLen }, calls)
    else .ok (st, calls)

/-- The loop over the decode functions from position `k` on.  A rejected message is
only marked: the functions after the one that rejected it still run. -/
def decodeLoop (i : ι) (nm : NetworkMessage) (k : Nat) :
    List NetworkFunction → MessageState → Except Fault (MessageState × List (FunctionCall ι))
  | [], st => .ok (st, [])
  | nf :: rest, st =>
    match nf.function with
    | none => decodeLoop i nm (k + 1) rest st
    | some f =>
      let res := f nf.annotations (st.decodeData k) st.payload nm.payloadLen
      let call := {
        message := i
        function := k
        payload := st.payload.bytes nm.payloadLen
        rc := res.rc }
      let st := { st with
        payload := res.payload
        decodeData := Function.update st.decodeData k res.data }
      if res.rc = 0 then do
        let (st, calls) ← decodeLoop i nm (k + 1) rest st
        .ok (st, call :: calls)
      else if res.rc = EBADMSG then do
        let (st, calls) ← decodeLoop i nm (k + 1) rest { st with updateSignals := false }
        .ok (st, call :: calls)
      else .error .fatal

/-- The body of the loop of `network_function_apply_decode`. -/
def decodeMessage (i : ι) (nm : NetworkMessage) (st : MessageState) :
    Except Fault (MessageState × List (FunctionCall ι)) :=
  if st.updateSignals = false then .ok (st, [])
  else decodeLoop i nm 0 nm.decodeFunctions st

variable (n : Network)

/-- `network_function_apply_encode`, with the value read from `netoff_value`. -/
def functionApplyEncode (netOff : Bool) (s : n.State) :
    Except Fault (n.State × List (FunctionCall n.Ref)) := do
  let (message, calls) ← Sweep.sweep (fun i => encodeMessage netOff i (n.msg i))
    (List.finRange n.messages.length) s.message
  .ok ({ s with message := message }, calls)

/-- `network_function_apply_decode`. -/
def functionApplyDecode (s : n.State) : Except Fault (n.State × List (FunctionCall n.Ref)) := do
  let (message, calls) ← Sweep.sweep (fun i => decodeMessage i (n.msg i))
    (List.finRange n.messages.length) s.message
  .ok ({ s with message := message }, calls)

variable {n}

/-! ## Encode functions -/

theorem encodeLoop_fields {i : ι} {nm : NetworkMessage} {k : Nat} {fs : List NetworkFunction}
    {st st' : MessageState} {calls : List (FunctionCall ι)}
    (h : encodeLoop i nm k fs st = .ok (st', calls)) :
    st'.buffer = st.buffer ∧ st'.bufferChecksum = st.bufferChecksum ∧
      st'.needsTx = st.needsTx ∧ st'.updateSignals = st.updateSignals := by
  induction fs generalizing k st calls with
  | nil =>
    cases h
    exact ⟨rfl, rfl, rfl, rfl⟩
  | cons nf rest ih =>
    rw [encodeLoop] at h
    cases hf : nf.function with
    | none =>
      simp only [hf] at h
      exact ih h
    | some f =>
      simp only [hf] at h
      by_cases hrc : (f nf.annotations (st.encodeData k) st.payload nm.payloadLen).rc ≠ 0
      · rw [if_pos hrc] at h
        cases h
      · rw [if_neg hrc] at h
        obtain ⟨⟨st₁, calls₁⟩, h₁, h⟩ := bind_eq_ok.mp h
        cases h
        obtain ⟨hb, hc, ht, hu⟩ := ih h₁
        exact ⟨hb, hc, ht, hu⟩

/-- A completed body withdraws a transmission at most, or runs the loop.  A payload that
the loop changed is unpacked, for the update of the signals. -/
theorem encodeMessage_cases {netOff : Bool} {i : ι} {nm : NetworkMessage}
    {st st' : MessageState} {calls : List (FunctionCall ι)}
    (h : encodeMessage netOff i nm st = .ok (st', calls)) :
    ((st.needsTx && !netOff) = false ∧ st' = { st with needsTx := false } ∧ calls = []) ∨
      ((st.needsTx && !netOff) = true ∧
        ∃ st₁, encodeLoop i nm 0 nm.encodeFunctions st = .ok (st₁, calls) ∧
          ((simbusGenerateUidHash st₁.payload nm.payloadLen =
              simbusGenerateUidHash st.payload nm.payloadLen ∧ st' = st₁) ∨
            ∃ unpack buffer, nm.unpackFunc = some unpack ∧
              buffer = (unpack st₁.buffer st₁.payload nm.payloadLen).dst ∧
              st' = { st₁ with
                updateSignals := true
                buffer := buffer
                bufferChecksum := simbusGenerateUidHash buffer nm.bufferLen })) := by
  rw [encodeMessage] at h
  by_cases hsend : (st.needsTx && !netOff) = true
  · obtain ⟨hpending, hon⟩ := Bool.and_eq_true_iff.mp hsend
    have hoff : netOff = false := by simpa using hon
    subst hoff
    simp only [Bool.false_eq_true, if_false, hpending, Bool.true_eq_false] at h
    obtain ⟨⟨st₁, calls₁⟩, hloop, h⟩ := bind_eq_ok.mp h
    refine .inr ⟨hsend, st₁, ?_⟩
    by_cases hsum : simbusGenerateUidHash st₁.payload nm.payloadLen =
        simbusGenerateUidHash st.payload nm.payloadLen
    · simp only [hsum, ne_eq, not_true_eq_false, if_false] at h
      cases h
      exact ⟨hloop, .inl ⟨hsum, rfl⟩⟩
    · simp only [if_pos hsum] at h
      cases hunpack : nm.unpackFunc with
      | none =>
        simp only [hunpack] at h
        cases h
      | some unpack =>
        simp only [hunpack] at h
        cases h
        exact ⟨hloop, .inr ⟨unpack, _, rfl, rfl, rfl⟩⟩
  · have hidle : (st.needsTx && !netOff) = false := by simpa using hsend
    have hwithdrawn :
        (if netOff then { st with needsTx := false } else st) = { st with needsTx := false } := by
      cases netOff with
      | true => rfl
      | false =>
        cases st
        simpa using hidle
    rw [hwithdrawn] at h
    simp only [if_true] at h
    cases h
    exact .inl ⟨hidle, rfl, rfl⟩

/-- A completed body leaves the buffer, its checksum and the update flag, or has them
follow a payload that the encode functions changed.  The network being off withdraws
the transmission, and nothing else does. -/
theorem encodeMessage_ok {netOff : Bool} {i : ι} {nm : NetworkMessage} {st st' : MessageState}
    {calls : List (FunctionCall ι)} (h : encodeMessage netOff i nm st = .ok (st', calls)) :
    st'.needsTx = (st.needsTx && !netOff) ∧
      ((st'.buffer = st.buffer ∧ st'.bufferChecksum = st.bufferChecksum ∧
          st'.updateSignals = st.updateSignals) ∨
        (st'.needsTx = true ∧ st'.updateSignals = true ∧
          st'.bufferChecksum = simbusGenerateUidHash st'.buffer nm.bufferLen)) := by
  rcases encodeMessage_cases h with ⟨hidle, rfl, _⟩ | ⟨hsend, st₁, hloop, hst⟩
  · exact ⟨hidle.symm, .inl ⟨rfl, rfl, rfl⟩⟩
  · obtain ⟨hb, hc, ht, hu⟩ := encodeLoop_fields hloop
    have htx : st₁.needsTx = true := ht.trans (Bool.and_eq_true_iff.mp hsend).1
    rcases hst with ⟨_, rfl⟩ | ⟨unpack, buffer, _, _, rfl⟩
    · exact ⟨htx.trans hsend.symm, .inl ⟨hb, hc, hu⟩⟩
    · exact ⟨htx.trans hsend.symm, .inr ⟨htx, rfl, rfl⟩⟩

/-- A completed loop that calls a loaded function goes on with its payload and instance
data.  The function returned zero. -/
theorem encodeLoop_cons {i : ι} {nm : NetworkMessage} {k : Nat} {nf : NetworkFunction}
    {rest : List NetworkFunction} {f : NetworkFunctionFunc} {st st' : MessageState}
    {calls : List (FunctionCall ι)} (hf : nf.function = some f)
    (h : encodeLoop i nm k (nf :: rest) st = .ok (st', calls)) :
    let res := f nf.annotations (st.encodeData k) st.payload nm.payloadLen
    ∃ calls₁,
      encodeLoop i nm (k + 1) rest
        { st with
          payload := res.payload
          encodeData := Function.update st.encodeData k res.data } = .ok (st', calls₁) ∧
      calls = { message := i, function := k, payload := st.payload.bytes nm.payloadLen,
                rc := res.rc } :: calls₁ := by
  rw [encodeLoop] at h
  simp only [hf] at h
  by_cases hrc : (f nf.annotations (st.encodeData k) st.payload nm.payloadLen).rc ≠ 0
  · rw [if_pos hrc] at h
    cases h
  · rw [if_neg hrc] at h
    obtain ⟨⟨st₁, calls₁⟩, h₁, h⟩ := bind_eq_ok.mp h
    cases h
    exact ⟨calls₁, h₁, rfl⟩

/-- A message that is not to be sent is left as it is. -/
theorem encodeMessage_idle {netOff : Bool} {i : ι} {nm : NetworkMessage}
    {st st' : MessageState} {calls : List (FunctionCall ι)}
    (h : encodeMessage netOff i nm st = .ok (st', calls)) (htx : st'.needsTx = false) :
    st' = { st with needsTx := false } ∧ calls = [] := by
  have hsend := (encodeMessage_ok h).1
  rcases encodeMessage_cases h with ⟨_, hidle⟩ | ⟨hsent, _⟩
  · exact hidle
  · rw [htx, hsent] at hsend
    cases hsend

/-- A message that is to be sent has the payload that its encode functions left.  If
they changed the payload it is unpacked for the update of the signals. -/
theorem encodeMessage_sent {netOff : Bool} {i : ι} {nm : NetworkMessage}
    {st st' : MessageState} {calls : List (FunctionCall ι)}
    (h : encodeMessage netOff i nm st = .ok (st', calls)) (htx : st'.needsTx = true) :
    ∃ st₁, encodeLoop i nm 0 nm.encodeFunctions st = .ok (st₁, calls) ∧
      st'.payload = st₁.payload ∧ st'.encodeData = st₁.encodeData ∧
      (simbusGenerateUidHash st₁.payload nm.payloadLen ≠
          simbusGenerateUidHash st.payload nm.payloadLen →
        st'.updateSignals = true ∧ ∃ unpack, nm.unpackFunc = some unpack ∧
          st'.buffer = (unpack st.buffer st₁.payload nm.payloadLen).dst) := by
  have hsend := (encodeMessage_ok h).1
  rcases encodeMessage_cases h with ⟨hidle, _⟩ | ⟨_, st₁, hloop, hst⟩
  · rw [htx, hidle] at hsend
    cases hsend
  · have hbuffer := (encodeLoop_fields hloop).1
    rcases hst with ⟨hsum, rfl⟩ | ⟨unpack, buffer, hunpack, hread, rfl⟩
    · exact ⟨_, hloop, rfl, rfl, fun hne => absurd hsum hne⟩
    · exact ⟨_, hloop, rfl, rfl, fun _ => ⟨rfl, unpack, hunpack, by rw [← hbuffer]; exact hread⟩⟩

theorem encodeMessage_of_nil {netOff : Bool} {i : ι} {nm : NetworkMessage}
    (hnil : nm.encodeFunctions = []) (st : MessageState) :
    encodeMessage netOff i nm st =
      .ok ({ st with needsTx := st.needsTx && !netOff }, []) := by
  cases netOff with
  | true => simp [encodeMessage]
  | false =>
    by_cases htx : st.needsTx = false
    · have hsame : { st with needsTx := st.needsTx && !false } = st := by
        cases st
        simp_all
      rw [hsame]
      simp [encodeMessage, htx]
    · have hon : st.needsTx = true := by simpa using htx
      rw [encodeMessage]
      simp only [Bool.false_eq_true, if_false, hon, Bool.true_eq_false, hnil, encodeLoop]
      show (Except.ok _ >>= _) = _
      simp only [bind, Except.bind, ne_eq, not_true_eq_false, if_false]
      cases st
      simp_all

/-! ## Decode functions -/

/-- A loaded function is called, and the loop goes on with its payload and instance data
unless it returned anything but zero and `EBADMSG`. -/
theorem decodeLoop_some {nf : NetworkFunction} {f : NetworkFunctionFunc}
    (hf : nf.function = some f) (i : ι) (nm : NetworkMessage) (k : Nat)
    (rest : List NetworkFunction) (st : MessageState) :
    decodeLoop i nm k (nf :: rest) st =
      let res := f nf.annotations (st.decodeData k) st.payload nm.payloadLen
      if res.rc = 0 ∨ res.rc = EBADMSG then
        (decodeLoop i nm (k + 1) rest
          { st with
            payload := res.payload
            decodeData := Function.update st.decodeData k res.data
            updateSignals := st.updateSignals && res.rc = 0 }).map
          (fun r => (r.1, { message := i, function := k,
                            payload := st.payload.bytes nm.payloadLen, rc := res.rc } :: r.2))
      else .error .fatal := by
  rw [decodeLoop]
  simp only [hf]
  by_cases hzero : (f nf.annotations (st.decodeData k) st.payload nm.payloadLen).rc = 0
  · rw [if_pos hzero, if_pos (.inl hzero)]
    simp only [hzero, decide_true, Bool.and_true]
    rfl
  · rw [if_neg hzero]
    by_cases hbad : (f nf.annotations (st.decodeData k) st.payload nm.payloadLen).rc = EBADMSG
    · rw [if_pos hbad, if_pos (.inr hbad)]
      simp only [hzero, decide_false, Bool.and_false]
      rfl
    · rw [if_neg hbad, if_neg (not_or.mpr ⟨hzero, hbad⟩)]

/-- A completed loop that calls a loaded function goes on with its payload and instance
data.  The function returned zero, or `EBADMSG` and the update is withdrawn. -/
theorem decodeLoop_cons {i : ι} {nm : NetworkMessage} {k : Nat} {nf : NetworkFunction}
    {rest : List NetworkFunction} {f : NetworkFunctionFunc} {st st' : MessageState}
    {calls : List (FunctionCall ι)} (hf : nf.function = some f)
    (h : decodeLoop i nm k (nf :: rest) st = .ok (st', calls)) :
    let res := f nf.annotations (st.decodeData k) st.payload nm.payloadLen
    (res.rc = 0 ∨ res.rc = EBADMSG) ∧ ∃ calls₁,
      decodeLoop i nm (k + 1) rest
        { st with
          payload := res.payload
          decodeData := Function.update st.decodeData k res.data
          updateSignals := st.updateSignals && res.rc = 0 } = .ok (st', calls₁) ∧
      calls = { message := i, function := k, payload := st.payload.bytes nm.payloadLen,
                rc := res.rc } :: calls₁ := by
  rw [decodeLoop_some hf] at h
  by_cases hrc : (f nf.annotations (st.decodeData k) st.payload nm.payloadLen).rc = 0 ∨
      (f nf.annotations (st.decodeData k) st.payload nm.payloadLen).rc = EBADMSG
  · dsimp only at h
    rw [if_pos hrc] at h
    obtain ⟨⟨st₁, calls₁⟩, h₁, h⟩ := map_eq_ok.mp h
    cases h
    exact ⟨hrc, calls₁, h₁, rfl⟩
  · dsimp only at h
    rw [if_neg hrc] at h
    cases h

theorem decodeLoop_fields {i : ι} {nm : NetworkMessage} {k : Nat} {fs : List NetworkFunction}
    {st st' : MessageState} {calls : List (FunctionCall ι)}
    (h : decodeLoop i nm k fs st = .ok (st', calls)) :
    st'.buffer = st.buffer ∧ st'.bufferChecksum = st.bufferChecksum ∧
      st'.needsTx = st.needsTx := by
  induction fs generalizing k st calls with
  | nil =>
    cases h
    exact ⟨rfl, rfl, rfl⟩
  | cons nf rest ih =>
    cases hf : nf.function with
    | none =>
      rw [decodeLoop] at h
      simp only [hf] at h
      exact ih h
    | some f =>
      obtain ⟨_, calls₁, h₁, _⟩ := decodeLoop_cons hf h
      obtain ⟨hb, hc, ht⟩ := ih h₁
      exact ⟨hb, hc, ht⟩

theorem decodeLoop_encodeData {i : ι} {nm : NetworkMessage} {k : Nat}
    {fs : List NetworkFunction} {st st' : MessageState} {calls : List (FunctionCall ι)}
    (h : decodeLoop i nm k fs st = .ok (st', calls)) : st'.encodeData = st.encodeData := by
  induction fs generalizing k st calls with
  | nil =>
    cases h
    rfl
  | cons nf rest ih =>
    cases hf : nf.function with
    | none =>
      rw [decodeLoop] at h
      simp only [hf] at h
      exact ih h
    | some f =>
      obtain ⟨_, calls₁, h₁, _⟩ := decodeLoop_cons hf h
      have hrest := ih h₁
      exact hrest

/-- No decode function before the last one of the loaded functions changes the bytes of
the payload. -/
def PassesOn (nm : NetworkMessage) (k : Nat) :
    List NetworkFunction → (Nat → Option Memory) → Memory → Prop
  | [], _, _ => True
  | nf :: rest, data, payload =>
    match nf.function with
    | none => PassesOn nm (k + 1) rest data payload
    | some f =>
      let res := f nf.annotations (data k) payload nm.payloadLen
      ((∃ nf' ∈ rest, nf'.function.isSome) →
          res.payload.bytes nm.payloadLen = payload.bytes nm.payloadLen) ∧
        PassesOn nm (k + 1) rest (Function.update data k res.data) res.payload

theorem passesOn_of_none {nm : NetworkMessage} {fs : List NetworkFunction}
    (h : ¬ ∃ nf ∈ fs, nf.function.isSome) (k : Nat) (data : Nat → Option Memory)
    (payload : Memory) : PassesOn nm k fs data payload := by
  induction fs generalizing k with
  | nil => exact trivial
  | cons nf rest ih =>
    have hrest : ¬ ∃ nf' ∈ rest, nf'.function.isSome := fun ⟨nf', hmem, hsome⟩ =>
      h ⟨nf', List.mem_cons_of_mem nf hmem, hsome⟩
    have hnone : nf.function = none :=
      Option.not_isSome_iff_eq_none.mp (fun hsome => h ⟨nf, List.mem_cons_self, hsome⟩)
    unfold PassesOn
    rw [hnone]
    exact ih hrest (k + 1)

/-- A completed loop called every loaded function; each returned zero or `EBADMSG`, and
the message is still to be updated when none returned `EBADMSG`. -/
theorem decodeLoop_calls {i : ι} {nm : NetworkMessage} {k : Nat} {fs : List NetworkFunction}
    {st st' : MessageState} {calls : List (FunctionCall ι)}
    (h : decodeLoop i nm k fs st = .ok (st', calls)) :
    (∀ c ∈ calls, c.message = i) ∧ (calls = [] ↔ ¬ ∃ nf ∈ fs, nf.function.isSome) ∧
      (st'.updateSignals = true ↔
        st.updateSignals = true ∧ ¬ ∃ c ∈ calls, c.rc = EBADMSG) := by
  induction fs generalizing k st calls with
  | nil =>
    cases h
    simp
  | cons nf rest ih =>
    cases hf : nf.function with
    | none =>
      rw [decodeLoop] at h
      simp only [hf] at h
      simpa [hf] using ih h
    | some f =>
      obtain ⟨hrc, calls₁, h₁, rfl⟩ := decodeLoop_cons hf h
      obtain ⟨hmsg, _, hflag⟩ := ih h₁
      refine ⟨by simpa using hmsg, by simp [hf], ?_⟩
      rw [hflag]
      rcases hrc with hzero | hbad
      · have hok : ((0 : Int) = EBADMSG) ↔ False := by simp [EBADMSG]
        simp [hzero, hok]
      · have hne : (EBADMSG = 0) ↔ False := by simp [EBADMSG]
        simp [hbad, hne]

/-- All calls of a loop are handed given bytes when the payload has them and is passed
on by each function that has a successor. -/
theorem decodeLoop_handed {i : ι} {nm : NetworkMessage} {k : Nat} {fs : List NetworkFunction}
    {st st' : MessageState} {calls : List (FunctionCall ι)}
    (h : decodeLoop i nm k fs st = .ok (st', calls))
    (hsome : ∃ nf ∈ fs, nf.function.isSome) (bytes : List Byte) :
    (∀ c ∈ calls, c.payload = bytes) ↔
      st.payload.bytes nm.payloadLen = bytes ∧ PassesOn nm k fs st.decodeData st.payload := by
  induction fs generalizing k st calls with
  | nil => simp at hsome
  | cons nf rest ih =>
    cases hf : nf.function with
    | none =>
      rw [decodeLoop] at h
      simp only [hf] at h
      have hrest : ∃ nf' ∈ rest, nf'.function.isSome := by simpa [hf] using hsome
      rw [ih h hrest, PassesOn]
      simp only [hf]
    | some f =>
      obtain ⟨_, calls₁, h₁, rfl⟩ := decodeLoop_cons hf h
      rw [List.forall_mem_cons, PassesOn]
      simp only [hf]
      refine and_congr_right (fun hbytes => ?_)
      by_cases hrest : ∃ nf' ∈ rest, nf'.function.isSome
      · rw [ih h₁ hrest, hbytes]
        exact and_congr_left (fun _ => ⟨fun h _ => h, fun h => h hrest⟩)
      · have hnil := (decodeLoop_calls h₁).2.1.mpr hrest
        simp [hnil, hrest, passesOn_of_none hrest]

theorem decodeMessage_fields {i : ι} {nm : NetworkMessage} {st st' : MessageState}
    {calls : List (FunctionCall ι)} (h : decodeMessage i nm st = .ok (st', calls)) :
    st'.buffer = st.buffer ∧ st'.bufferChecksum = st.bufferChecksum ∧
      st'.needsTx = st.needsTx := by
  unfold decodeMessage at h
  by_cases hoff : st.updateSignals = false
  · rw [if_pos hoff] at h
    cases h
    exact ⟨rfl, rfl, rfl⟩
  · rw [if_neg hoff] at h
    exact decodeLoop_fields h

theorem decodeMessage_encodeData {i : ι} {nm : NetworkMessage} {st st' : MessageState}
    {calls : List (FunctionCall ι)} (h : decodeMessage i nm st = .ok (st', calls)) :
    st'.encodeData = st.encodeData := by
  unfold decodeMessage at h
  by_cases hoff : st.updateSignals = false
  · rw [if_pos hoff] at h
    cases h
    rfl
  · rw [if_neg hoff] at h
    exact decodeLoop_encodeData h

theorem decodeMessage_of_nil {i : ι} {nm : NetworkMessage} (hnil : nm.decodeFunctions = [])
    (st : MessageState) : decodeMessage i nm st = .ok (st, []) := by
  rw [decodeMessage, hnil]
  by_cases hoff : st.updateSignals = false
  · rw [if_pos hoff]
  · rw [if_neg hoff]
    rfl

/-! ## All messages -/

theorem functionApplyDecode_ok {s s' : n.State} {calls : List (FunctionCall n.Ref)}
    (h : n.functionApplyDecode s = .ok (s', calls)) :
    s'.signalVector = s.signalVector ∧ s'.alarm = s.alarm ∧ s'.tick = s.tick ∧
      ∀ i, ∃ out, decodeMessage i (n.msg i) (s.message i) = .ok (s'.message i, out) := by
  rw [functionApplyDecode] at h
  obtain ⟨⟨message, log⟩, hsweep, h⟩ := bind_eq_ok.mp h
  cases h
  obtain ⟨_, hin, _⟩ := Sweep.sweep_ok (List.nodup_finRange _) hsweep
  exact ⟨rfl, rfl, rfl, fun i => ⟨_, hin i (List.mem_finRange i)⟩⟩

theorem functionApplyDecode_calls {s s' : n.State} {calls : List (FunctionCall n.Ref)}
    (h : n.functionApplyDecode s = .ok (s', calls)) (i : n.Ref) :
    ∃ out, decodeMessage i (n.msg i) (s.message i) = .ok (s'.message i, out) ∧
      ∀ c, (c ∈ calls ∧ c.message = i) ↔ c ∈ out := by
  rw [functionApplyDecode] at h
  obtain ⟨⟨message, log⟩, hsweep, h⟩ := bind_eq_ok.mp h
  cases h
  obtain ⟨_, hin, rfl⟩ := Sweep.sweep_ok (List.nodup_finRange _) hsweep
  have own : ∀ j, ∀ c ∈ Sweep.emitted (fun i => decodeMessage i (n.msg i)) j (s.message j),
      c.message = j := by
    intro j c hc
    have hj := hin j (List.mem_finRange j)
    rw [decodeMessage] at hj
    by_cases hoff : (s.message j).updateSignals = false
    · rw [if_pos hoff] at hj
      rw [← (Prod.mk.inj (Except.ok.inj hj)).2] at hc
      cases hc
    · rw [if_neg hoff] at hj
      exact (decodeLoop_calls hj).1 c hc
  refine ⟨_, hin i (List.mem_finRange i), fun c => ?_⟩
  rw [List.mem_flatMap]
  constructor
  · rintro ⟨⟨j, _, hc⟩, hmsg⟩
    rw [own j c hc] at hmsg
    rwa [hmsg] at hc
  · intro hc
    exact ⟨⟨i, List.mem_finRange i, hc⟩, own i c hc⟩

theorem functionApplyEncode_ok {netOff : Bool} {s s' : n.State}
    {calls : List (FunctionCall n.Ref)} (h : n.functionApplyEncode netOff s = .ok (s', calls)) :
    s'.signalVector = s.signalVector ∧ s'.alarm = s.alarm ∧ s'.tick = s.tick ∧
      ∀ i, ∃ out, encodeMessage netOff i (n.msg i) (s.message i) = .ok (s'.message i, out) := by
  rw [functionApplyEncode] at h
  obtain ⟨⟨message, log⟩, hsweep, h⟩ := bind_eq_ok.mp h
  cases h
  obtain ⟨_, hin, _⟩ := Sweep.sweep_ok (List.nodup_finRange _) hsweep
  exact ⟨rfl, rfl, rfl, fun i => ⟨_, hin i (List.mem_finRange i)⟩⟩

theorem functionApplyEncode_calls {netOff : Bool} {s s' : n.State}
    {calls : List (FunctionCall n.Ref)} (h : n.functionApplyEncode netOff s = .ok (s', calls))
    (i : n.Ref) :
    ∃ out, encodeMessage netOff i (n.msg i) (s.message i) = .ok (s'.message i, out) ∧
      ∀ c ∈ out, c ∈ calls := by
  rw [functionApplyEncode] at h
  obtain ⟨⟨message, log⟩, hsweep, h⟩ := bind_eq_ok.mp h
  cases h
  obtain ⟨_, hin, rfl⟩ := Sweep.sweep_ok (List.nodup_finRange _) hsweep
  exact ⟨_, hin i (List.mem_finRange i),
    fun c hc => List.mem_flatMap.mpr ⟨i, List.mem_finRange i, hc⟩⟩

end Network
end DseNetwork
