import DseNetwork.Lib.Replica
import DseNetwork.Network.EmbeddedRuns
import DseNetwork.Network.FrameLookup
import DseNetwork.Network.Headers
import DseNetwork.Network.Interleaving
import DseNetwork.Network.LocalChange
import DseNetwork.Network.Steady

/-
A message that one model sends and another receives.

An event message that alone has its frame identifier, whose library functions carry a
struct of values in range from one model to another, and which no message function
touches.  A step of the sender leaves a frame that holds its fields, or leaves its fields
as they were; a step of a receiver comes to the fields of the frame and is not answered.
-/

namespace DseNetwork

/-! ## Fields -/

namespace NetworkMessage

/-- A raw value for each signal of the message. -/
def Fields (nm : NetworkMessage) : Type := ∀ ns : { ns // ns ∈ nm.signals }, ns.1.Raw

/-- The fields of a struct. -/
def fields (nm : NetworkMessage) (b : Memory) : nm.Fields := fun ns => ns.1.raw b

theorem fields_eq_iff {nm : NetworkMessage} {b b' : Memory} :
    nm.fields b = nm.fields b' ↔ ∀ ns ∈ nm.signals, ns.raw b = ns.raw b' :=
  ⟨fun h ns hns => congrFun h ⟨ns, hns⟩, fun h => funext (fun ns => h ns.1 ns.2)⟩

/-- The frame that a struct is packed to, whatever the payload held before. -/
def frameOf (nm : NetworkMessage) (pack : PackFunc) (payload b : Memory) : CanMessage where
  frameId := nm.frameId
  frameType := nm.frameType
  buffer := (pack payload b nm.payloadLen).dst.bytes nm.payloadLen

/-- An event message without message functions and without mux signal, whose frame carries
the fields that are in range. -/
structure Conveyed (nm : NetworkMessage) : Prop where
  isStruct : nm.IsStruct
  known : ∀ ns ∈ nm.signals, ns.memberType ≠ .unknown
  visible : ∀ ns ∈ nm.signals, ns.internal = false
  noMux : ∀ ns ∈ nm.signals, ns.muxSignal = false
  event : nm.cycleTimeMs = 0
  noEncode : nm.encodeFunctions = []
  noDecode : nm.decodeFunctions = []
  packs : nm.packFunc.isSome
  keeps : Network.RefusalKeeps nm
  carries : ∀ pack, nm.packFunc = some pack → ∀ payload b b' : Memory,
    (∀ ns ∈ nm.signals, ns.InRange b) →
      (Network.unpackFrame nm (nm.frameOf pack payload b) b').rc = 0 ∧
        nm.fields (Network.unpackFrame nm (nm.frameOf pack payload b) b').dst = nm.fields b

/-- A message whose signal functions restore what is in range, and its initial values. -/
structure Carried (nm : NetworkMessage) : Prop extends nm.Conveyed where
  roundTrips : ∀ ns ∈ nm.signals, ∀ r, ns.funcs.isInRange r = true →
    ns.funcs.encode (ns.funcs.decode r) = r
  fits : ∀ ns ∈ nm.signals, ∀ r, ns.funcs.isInRange r = true → ns.NarrowFits r
  initial : ∀ ns ∈ nm.signals, ns.funcs.isInRange (ns.encodeRaw ns.initValue) = true ∧
    ns.funcs.decode (ns.encodeRaw ns.initValue) = ns.initValue

end NetworkMessage

namespace Network

variable {n : Network} {i : n.Ref}

/-! ## The frames of one identifier -/

/-- Message `i` alone has its frame identifier, no message of identifier zero comes ahead
of it, and all its signals are on the marshal list. -/
structure Sole (n : Network) (i : n.Ref) : Prop where
  alone : ∀ j, (n.msg j).frameId = (n.msg i).frameId → j = i
  ahead : NoZeroAhead (n.msg i).frameId n.frameIds
  listed : ∀ ns ∈ (n.msg i).signals, ∃ mi ∈ n.items i, mi.signal = ns

theorem Sole.findMessage (h : n.Sole i) :
    n.findMessage (n.msg i).frameId (List.finRange n.messages.length) = some i := by
  rw [findMessage_eq_first_iff.mpr h.ahead, firstMessage]
  cases hfind : (List.finRange n.messages.length).find?
      (fun j => (n.msg j).frameId = (n.msg i).frameId) with
  | none =>
    have hnone := List.find?_eq_none.mp hfind i (List.mem_finRange i)
    exact absurd (decide_eq_true rfl) hnone
  | some j =>
    have hid := List.find?_some hfind
    rw [h.alone j (of_decide_eq_true hid)]

theorem signalValue_visible (hc : (n.msg i).Conveyed) {mi : n.Item} (hmi : mi ∈ n.items i)
    (sv : Nat → Double) : n.signalValue sv mi = sv mi.signalVectorIndex := by
  have hvisible := hc.visible _ (IsStruct.items_signal_mem hmi)
  exact if_neg (fun h => Bool.false_ne_true (hvisible.symm.trans h.1))

theorem selected_eq_none (h : n.muxMi i = none) (msg : CanMessage) (s : n.State) :
    n.selected msg s i = none := by
  by_cases hrc : (unpackFrame (n.msg i) msg (s.message i).buffer).rc = 0
  · rw [selected_of_accepted hrc, nextMessage, h]
  · exact selected_of_refused hrc

/-- A frame is processed for messages of its own identifier only. -/
theorem entered_frameId {msg : CanMessage} (hi : (n.msg i).frameId = msg.frameId)
    (depth : Nat) (s : n.State) : ∀ j ∈ n.entered msg depth i s,
      (n.msg j).frameId = msg.frameId := by
  induction depth generalizing i s with
  | zero => exact fun j hj => absurd hj List.not_mem_nil
  | succ depth ih =>
    cases hk : n.selected msg s i with
    | none =>
      rw [entered_of_none hk]
      intro j hj
      rw [List.mem_singleton.mp hj, hi]
    | some k =>
      rw [entered_of_some hk]
      have hrc : (unpackFrame (n.msg i) msg (s.message i).buffer).rc = 0 := by
        by_contra hne
        rw [selected_of_refused hne] at hk
        cases hk
      rw [selected_of_accepted hrc] at hk
      intro j hj
      rcases List.mem_cons.mp hj with rfl | hj
      · exact hi
      · exact ih (nextMessage_frameId hk) _ j hj

theorem Sole.visited (h : n.Sole i) (hmux : n.muxMi i = none) {stack : Nat}
    {msg : CanMessage} {s s' : n.State} {visited : List n.Ref}
    (hok : n.processCanFrame stack msg s = .ok (s', visited)) :
    (msg.frameId = (n.msg i).frameId → visited = [i]) ∧
      (msg.frameId ≠ (n.msg i).frameId → i ∉ visited) := by
  constructor
  · intro hid
    rw [processCanFrame, hid, h.findMessage] at hok
    cases stack with
    | zero => cases hok
    | succ stack =>
      rw [processMessage_visited hok, entered_of_none (selected_eq_none hmux msg s)]
  · intro hid
    rw [processCanFrame_visited hok, enteredFor]
    cases hfind : n.findMessage msg.frameId (List.finRange n.messages.length) with
    | none => exact List.not_mem_nil
    | some j =>
      intro hmem
      exact hid (entered_frameId (findMessage_frameId hfind) stack s i hmem).symm

/-- The frames that come to message `i` are those of its identifier, each once. -/
theorem Sole.framesOf (h : n.Sole i) (hmux : n.muxMi i = none) {stack : Nat}
    {frames : List CanMessage} {s s' : n.State} {log : List n.Received}
    (hok : n.decodeFromBus stack frames s = .ok (s', log)) :
    framesOf i log = frames.filter (fun f => f.frameId = (n.msg i).frameId) ∧ Once i log := by
  induction frames generalizing s log with
  | nil =>
    cases hok
    exact ⟨rfl, fun r hr => absurd hr List.not_mem_nil⟩
  | cons msg rest ih =>
    obtain ⟨s₁, visited, log', h₁, h₂, rfl⟩ := decodeFromBus_cons hok
    obtain ⟨hframes, honce⟩ := ih h₂
    obtain ⟨hown, hother⟩ := h.visited hmux h₁
    rw [framesOf_cons]
    by_cases hid : msg.frameId = (n.msg i).frameId
    · rw [hown hid, if_pos (List.mem_singleton.mpr rfl), hframes,
        List.filter_cons_of_pos (by simpa using hid)]
      refine ⟨rfl, List.forall_mem_cons.mpr ⟨?_, honce⟩⟩
      rw [List.count_singleton_self]
    · rw [if_neg (hother hid), hframes, List.filter_cons_of_neg (by simpa using hid)]
      refine ⟨rfl, List.forall_mem_cons.mpr ⟨?_, honce⟩⟩
      rw [List.count_eq_zero_of_not_mem (hother hid)]
      exact Nat.zero_le 1

end Network

namespace NetworkModel

variable {m : NetworkModel} {input : StepInput} {s s' : ModelState m.network}
  {trace : StepTrace m.network} {i : m.network.Ref}

/-- The frames of an identifier that a step writes. -/
def sentFrames (trace : StepTrace m.network) (frameId : BitVec 32) : List CanMessage :=
  (trace.tx.sent.map (·.frame)).filter (fun f => f.frameId = frameId)

theorem Stages.sent_frameId (g : Stages m input s s' trace) {e : m.network.Sent}
    (he : e ∈ trace.tx.sent) : e.frame.frameId = (m.network.msg e.message).frameId := by
  rw [g.sent, Network.encodeToBus] at he
  obtain ⟨j, _, hj⟩ := List.mem_filterMap.mp he
  split at hj
  · cases hj
    rfl
  · cases hj

theorem Stages.sentFrames_eq_nil (g : Stages m input s s' trace) {frameId : BitVec 32}
    (h : ∀ j, (m.network.msg j).frameId = frameId → writes trace j = 0) :
    sentFrames trace frameId = [] := by
  rw [sentFrames, List.filter_eq_nil_iff]
  intro f hf
  obtain ⟨e, he, rfl⟩ := List.mem_map.mp hf
  rw [g.sent_frameId he]
  intro hid
  have hnone := List.length_eq_zero_iff.mp (h e.message (of_decide_eq_true hid))
  have hmem : e ∈ trace.tx.sent.filter (fun e' => e'.message = e.message) :=
    List.mem_filter.mpr ⟨he, decide_eq_true rfl⟩
  rw [hnone] at hmem
  cases hmem

theorem Stages.sentFrames_sole (g : Stages m input s s' trace) (h : m.network.Sole i) :
    sentFrames trace (m.network.msg i).frameId =
      if (g.encoded.message i).needsTx then
        [Network.txFrame (m.network.msg i) (g.encoded.message i)]
      else [] := by
  have hown : (trace.tx.sent.map (·.frame)).filter
      (fun f => f.frameId = (m.network.msg i).frameId) =
        (trace.tx.sent.filter (fun e => e.message = i)).map (·.frame) := by
    rw [List.filter_map]
    refine congrArg (List.map _) (List.filter_congr (fun e he => ?_))
    rw [Function.comp_apply, g.sent_frameId he, decide_eq_decide]
    exact ⟨h.alone e.message, fun hmsg => by rw [hmsg]⟩
  rw [sentFrames, hown, g.sent_filter]
  split <;> rfl

/-! ## A step that leaves a message at rest -/

/-- Packing finds the struct as reception left it: nothing is sent, and struct and
values stay. -/
theorem Stages.at_rest (g : Stages m input s s' trace) (hs : EndOfStep m s)
    (hevent : (m.network.msg i).cycleTimeMs = 0)
    (hnil : (m.network.msg i).encodeFunctions = [])
    (hmarshal : m.network.marshalBuffer trace.rx.state.signalVector i
      (g.applied.message i).buffer = (g.applied.message i).buffer)
    (hsum : (m.network.msg i).packFunc.isSome → (g.applied.message i).bufferChecksum =
      simbusGenerateUidHash (g.applied.message i).buffer (m.network.msg i).bufferLen) :
    writes trace i = 0 ∧ (s'.network.message i).buffer = (g.applied.message i).buffer ∧
      ∀ mi ∈ m.network.items i, s'.network.signalVector mi.signalVectorIndex =
        trace.rx.state.signalVector mi.signalVectorIndex := by
  have htx := g.not_sent hs hevent hmarshal hsum
  obtain ⟨hbuffer, hflag⟩ := g.packed_event hevent
  obtain ⟨out, hout⟩ := g.encoded_message i
  rw [Network.encodeMessage_of_nil hnil] at hout
  have hencoded := (Prod.mk.inj (Except.ok.inj hout)).1
  refine ⟨by rw [g.writes_eq, htx]; rfl, ?_, fun mi hmi => ?_⟩
  · rw [g.after_message, ← hencoded]
    exact hbuffer.trans hmarshal
  · obtain ⟨hmem, rfl⟩ := Network.mem_items.mp hmi
    rw [g.after_value hmem, ← hencoded]
    dsimp only
    rw [hflag, if_neg Bool.false_ne_true]

/-- A receiver that no frame came to. -/
theorem Stages.copy_idle (g : Stages m input s s' trace) (hs : EndOfStep m s)
    (hc : (m.network.msg i).Conveyed) (hagrees : Agrees s i) (hnone : NotReceived trace i)
    (hkept : KeptScalars m input s i) :
    writes trace i = 0 ∧ (s'.network.message i).buffer = (s.network.message i).buffer ∧
      ∀ mi ∈ m.network.items i, s'.network.signalVector mi.signalVectorIndex =
        s.network.signalVector mi.signalVectorIndex := by
  obtain ⟨happlied, hvalues⟩ := g.applied_untouched hs hnone
  have hsame : ∀ mi ∈ m.network.items i, trace.rx.state.signalVector mi.signalVectorIndex =
      s.network.signalVector mi.signalVectorIndex := fun mi hmi => by
    rw [hvalues mi hmi, copyIn_kept hs hkept hmi]
  obtain ⟨hwrites, hbuffer, hafter⟩ := g.at_rest hs hc.event hc.noEncode
    (by rw [happlied, Network.marshalBuffer_congr hsame]; exact hagrees)
    (fun hpack => by rw [happlied]; exact hs.checksum i hc.event hpack)
  refine ⟨hwrites, by rw [hbuffer, happlied], fun mi hmi => ?_⟩
  rw [hafter mi hmi, hsame mi hmi]

/-- The values of the signals of message `i` are those of its fields. -/
def Shown (s : ModelState m.network) (i : m.network.Ref) : Prop :=
  ∀ mi ∈ m.network.items i, s.network.signalVector mi.signalVectorIndex =
    mi.signal.funcs.decode (mi.signal.raw (s.network.message i).buffer)

/-- Equal checksums of the structs mean equal fields. -/
def HashShows (nm : NetworkMessage) (b b' : Memory) : Prop :=
  simbusGenerateUidHash b nm.bufferLen = simbusGenerateUidHash b' nm.bufferLen →
    nm.fields b = nm.fields b'

/-- A receiver that one frame came to, with all its fields in range. -/
theorem Stages.copy_received (g : Stages m input s s' trace) (hs : EndOfStep m s)
    (hc : (m.network.msg i).Carried) (hshown : Shown s i) (honce : Network.Once i trace.rx.received)
    {f : CanMessage} (hframes : Network.framesOf i trace.rx.received = [f])
    {b : Memory}
    (hb : b = (Network.unpackFrame (m.network.msg i) f (s.network.message i).buffer).dst)
    (hrc : (Network.unpackFrame (m.network.msg i) f (s.network.message i).buffer).rc = 0)
    (hrange : ∀ ns ∈ (m.network.msg i).signals, ns.InRange b)
    (hhash : HashShows (m.network.msg i) b (s.network.message i).buffer)
    (hkept : KeptScalars m input s i) :
    writes trace i = 0 ∧ (s'.network.message i).buffer = b ∧ Shown s' i := by
  have hlast : Network.LastAccepted (m.network.msg i) (s.network.message i)
      (Network.framesOf i trace.rx.received) [] f [] :=
    ⟨hframes, hrc, fun g hg => absurd hg List.not_mem_nil⟩
  have hstruct : m.frameStruct s i [] f = b := hb.symm
  obtain ⟨hbuffer, hsum, _⟩ := g.applied_received hc.keeps honce hlast
  rw [hstruct] at hbuffer hsum
  have hvalues : ∀ mi ∈ m.network.items i,
      trace.rx.state.signalVector mi.signalVectorIndex =
        mi.signal.funcs.decode (mi.signal.raw b) := by
    intro mi hmi
    have hns := Network.IsStruct.items_signal_mem hmi
    obtain ⟨hread, hleft⟩ := g.rx_value_received hc.keeps honce hlast hmi
    rw [hstruct] at hread hleft
    by_cases hup : m.updatedBy s i [] f = true
    · exact hread (hrange _ hns) (.inl hup)
    · -- The frame is filtered, so that it has the fields that are shown already.
      have hfiltered : Network.Filtered (m.network.msg i) (s.network.message i) [] f := by
        by_contra hno
        exact hup ((updatedBy_of_nil hc.noDecode).mpr hno)
      have hmux : ¬ m.network.IsMux mi := by
        intro hmux
        have hsome := (Network.isMux_iff (Network.mem_items.mp hmi).1).mp hmux
        rw [(Network.mem_items.mp hmi).2, Network.muxMi_eq_none hc.noMux] at hsome
        cases hsome
      have hfields : (m.network.msg i).fields b =
          (m.network.msg i).fields (s.network.message i).buffer := by
        refine hhash ?_
        have hold := hs.checksum i hc.event hc.packs
        rw [← hold, hb]
        exact hfiltered
      rw [hleft (fun h => h.2.elim hup hmux), decodedValue, if_neg hmux,
        copyIn_kept hs hkept hmi, hshown mi hmi,
        NetworkMessage.fields_eq_iff.mp hfields mi.signal hns]
  have hmarshal : m.network.marshalBuffer trace.rx.state.signalVector i b = b := by
    refine Network.marshalBuffer_of_settled (fun mi hmi => ?_)
    have hns := Network.IsStruct.items_signal_mem hmi
    have hin := (hrange _ hns).2
    rw [Network.signalValue_visible hc.toConveyed hmi, hvalues mi hmi]
    intro _ hrangeBack
    rw [NetworkSignal.encodeRaw, hc.roundTrips _ hns _ hin] at hrangeBack ⊢
    exact hc.fits _ hns _ hin hrangeBack
  obtain ⟨hwrites, hafter, hafterValues⟩ := g.at_rest hs hc.event hc.noEncode
    (by rw [hbuffer]; exact hmarshal) (fun _ => by rw [hsum, hbuffer])
  refine ⟨hwrites, hafter.trans hbuffer, fun mi hmi => ?_⟩
  rw [hafterValues mi hmi, hvalues mi hmi, hafter, hbuffer]

/-! ## The sender -/

/-- Whatever struct the frame is unpacked to, it comes to have these fields. -/
def Carries (nm : NetworkMessage) (f : CanMessage) (v : nm.Fields) : Prop :=
  ∀ b, (Network.unpackFrame nm f b).rc = 0 ∧ nm.fields (Network.unpackFrame nm f b).dst = v

def AllInRange (nm : NetworkMessage) (v : nm.Fields) : Prop :=
  ∀ ns : { ns // ns ∈ nm.signals }, ns.1.funcs.isInRange (v ns) = true

theorem AllInRange.inRange {nm : NetworkMessage} (hc : nm.Conveyed) {b : Memory}
    (h : AllInRange nm (nm.fields b)) : ∀ ns ∈ nm.signals, ns.InRange b :=
  fun ns hns => ⟨hc.known ns hns, h ⟨ns, hns⟩⟩

/-- Marshalling stores nothing that is out of range. -/
theorem AllInRange.marshalBuffer (hc : (m.network.msg i).Conveyed) (hsole : m.network.Sole i)
    {b : Memory} (h : AllInRange (m.network.msg i) ((m.network.msg i).fields b))
    (sv : Nat → Double) :
    AllInRange (m.network.msg i)
      ((m.network.msg i).fields (m.network.marshalBuffer sv i b)) := by
  rintro ⟨ns, hns⟩
  obtain ⟨mi, hmi, rfl⟩ := hsole.listed ns hns
  show mi.signal.funcs.isInRange (mi.signal.raw (m.network.marshalBuffer sv i b)) = true
  rw [Network.IsStruct.raw_marshalled hc.isStruct hmi (hc.known _ hns),
    NetworkSignal.raw_writeRaw (hc.known _ hns)]
  by_cases hin : mi.signal.funcs.isInRange
      (mi.signal.encodeRaw (m.network.signalValue sv mi)) = true
  · rw [if_pos hin]
    exact hin
  · rw [if_neg hin]
    exact h ⟨mi.signal, hns⟩

theorem Stages.sender_step (g : Stages m input s s' trace) (hs : EndOfStep m s)
    (hc : (m.network.msg i).Conveyed) (hsole : m.network.Sole i) (hnone : NotReceived trace i)
    (hon : m.netOff input.scalar = false)
    (hrange : AllInRange (m.network.msg i)
      ((m.network.msg i).fields (s.network.message i).buffer))
    (hhash : HashShows (m.network.msg i) (packedBuffer trace i) (s.network.message i).buffer) :
    AllInRange (m.network.msg i)
        ((m.network.msg i).fields (s'.network.message i).buffer) ∧
      ((∃ f, sentFrames trace (m.network.msg i).frameId = [f] ∧ Carries (m.network.msg i) f
          ((m.network.msg i).fields (s'.network.message i).buffer)) ∨
        (sentFrames trace (m.network.msg i).frameId = [] ∧
          (m.network.msg i).fields (s'.network.message i).buffer =
            (m.network.msg i).fields (s.network.message i).buffer)) := by
  obtain ⟨pack, hpack⟩ := Option.isSome_iff_exists.mp hc.packs
  obtain ⟨hbuffer, _, _, hpayload⟩ := g.packed_fields i
  obtain ⟨out, hout⟩ := g.encoded_message i
  rw [Network.encodeMessage_of_nil hc.noEncode, hon] at hout
  have hencoded := (Prod.mk.inj (Except.ok.inj hout)).1
  have hafter : (s'.network.message i).buffer = packedBuffer trace i := by
    rw [g.after_message, ← hencoded]
    exact hbuffer
  have hbefore : (trace.rx.state.message i).buffer = (s.network.message i).buffer := by
    rw [g.rx_message, (g.applied_untouched hs hnone).1]
  have hin : AllInRange (m.network.msg i)
      ((m.network.msg i).fields (s'.network.message i).buffer) := by
    rw [hafter, packedBuffer, hbefore]
    exact hrange.marshalBuffer hc hsole _
  have hlocal := g.packed_local hs hc.event hc.packs hnone
  refine ⟨hin, ?_⟩
  rw [g.sentFrames_sole hsole, ← hencoded]
  dsimp only
  rw [Bool.not_false, Bool.and_true]
  by_cases htx : (g.packed i).needsTx = true
  · refine .inl ⟨_, if_pos htx, ?_⟩
    have hframe : Network.txFrame (m.network.msg i)
        { g.packed i with needsTx := (g.packed i).needsTx } =
          (m.network.msg i).frameOf pack (g.applied.message i).payload
            (s'.network.message i).buffer := by
      rw [Network.txFrame, NetworkMessage.frameOf, hpayload pack hpack, hafter]
    rw [hframe]
    exact fun b => hc.carries pack hpack _ _ b (hin.inRange hc)
  · refine .inr ⟨if_neg htx, ?_⟩
    have hsame := not_not.mp (fun hne => htx (hlocal.mpr hne))
    rw [hafter]
    exact hhash hsame

/-! ## A receiver -/

/-- The frames of message `nm` among those given. -/
def framesFor (nm : NetworkMessage) (frames : List CanMessage) : List CanMessage :=
  frames.filter (fun f => f.frameId = nm.frameId)

/-- The fields that a frame brings. -/
def carried (nm : NetworkMessage) (f : CanMessage) : nm.Fields :=
  nm.fields (Network.unpackFrame nm f Memory.zero).dst

theorem Carries.carried_eq {nm : NetworkMessage} {f : CanMessage} {v : nm.Fields}
    (h : Carries nm f v) : carried nm f = v :=
  (h Memory.zero).2

/-- Of message `nm` there is no frame, or one that carries values in range. -/
def OneCarried (nm : NetworkMessage) (frames : List CanMessage) : Prop :=
  framesFor nm frames = [] ∨
    ∃ f v, framesFor nm frames = [f] ∧ Carries nm f v ∧ AllInRange nm v

/-- A receiver takes in the fields that came, and does not answer. -/
theorem Stages.copy_step (g : Stages m input s s' trace) (hreach : m.system.Reachable s)
    {nm : NetworkMessage} (hmsg : m.network.msg i = nm) (hc : nm.Carried)
    (hsole : m.network.Sole i) (hshown : Shown s i) (hkept : KeptScalars m input s i)
    (hcame : OneCarried nm input.frames)
    (hhash : ∀ f ∈ framesFor nm input.frames, HashShows nm
      (Network.unpackFrame nm f (s.network.message i).buffer).dst (s.network.message i).buffer) :
    writes trace i = 0 ∧ Shown s' i ∧
      nm.fields (s'.network.message i).buffer =
        Replica.latest (nm.fields (s.network.message i).buffer)
          ((framesFor nm input.frames).map (carried nm)) := by
  subst hmsg
  have hs := reachable_endOfStep m hreach
  obtain ⟨hframes, honce⟩ := hsole.framesOf (Network.muxMi_eq_none hc.noMux) g.decode
  change Network.framesOf i trace.rx.received =
    framesFor (m.network.msg i) input.frames at hframes
  rcases hcame with hnil | ⟨f, v, hone, hcarries, hrange⟩
  · have hnone : NotReceived trace i := by
      intro r hr hmem
      have hframe : r.frame ∈ Network.framesOf i trace.rx.received :=
        List.mem_map_of_mem (List.mem_filter.mpr ⟨hr, decide_eq_true hmem⟩)
      rw [hframes, hnil] at hframe
      cases hframe
    obtain ⟨hwrites, hbuffer, hvalues⟩ := g.copy_idle hs hc.toConveyed
      (reachable_agrees hc.event hc.noEncode hreach) hnone hkept
    refine ⟨hwrites, fun mi hmi => ?_, ?_⟩
    · rw [hvalues mi hmi, hshown mi hmi, hbuffer]
    · rw [hnil, hbuffer]
      rfl
  · obtain ⟨hrc, hfields⟩ := hcarries (s.network.message i).buffer
    obtain ⟨hwrites, hbuffer, hafter⟩ := g.copy_received hs hc hshown honce
      (hframes.trans hone) rfl hrc
      (AllInRange.inRange hc.toConveyed (by rw [hfields]; exact hrange))
      (hhash f (by rw [hone]; exact List.mem_singleton.mpr rfl)) hkept
    refine ⟨hwrites, hafter, ?_⟩
    rw [hbuffer, hfields, hone, List.map_singleton, hcarries.carried_eq]
    rfl

/-! ## After `model_create` -/

/-- The fields of the initial values. -/
def initialFields (nm : NetworkMessage) : nm.Fields := fun ns => ns.1.encodeRaw ns.1.initValue

theorem allInRange_initialFields {nm : NetworkMessage} (hc : nm.Carried) :
    AllInRange nm (initialFields nm) := fun ns => (hc.initial ns.1 ns.2).1

/-- A created model has the fields of the initial values, and shows them. -/
theorem modelCreate_fields (hc : (m.network.msg i).Carried) (hsole : m.network.Sole i)
    (scalar : Nat → Double) :
    (m.network.msg i).fields ((m.modelCreate scalar).network.message i).buffer =
        initialFields (m.network.msg i) ∧
      Shown (m.modelCreate scalar) i := by
  have hbuffer : ((m.modelCreate scalar).network.message i).buffer =
      m.network.marshalBuffer m.initialSignalVector i Memory.zero := by
    rw [modelCreate_message]
    exact Network.packMessage_buffer _ _
  have hraw : ∀ mi ∈ m.network.items i,
      mi.signal.raw ((m.modelCreate scalar).network.message i).buffer =
        mi.signal.encodeRaw mi.signal.initValue := by
    intro mi hmi
    have hns := Network.IsStruct.items_signal_mem hmi
    rw [hbuffer, Network.IsStruct.raw_marshalled hc.isStruct hmi (hc.known _ hns),
      NetworkSignal.raw_writeRaw (hc.known _ hns), Network.signalValue_visible hc.toConveyed hmi,
      initialSignalVector_value (Network.mem_items.mp hmi).1, if_pos (hc.initial _ hns).1]
  constructor
  · funext ⟨ns, hns⟩
    obtain ⟨mi, hmi, rfl⟩ := hsole.listed ns hns
    exact hraw mi hmi
  · intro mi hmi
    rw [modelCreate_signalVector, initialSignalVector_value (Network.mem_items.mp hmi).1,
      hraw mi hmi, (hc.initial _ (Network.IsStruct.items_signal_mem hmi)).2]

end NetworkModel
end DseNetwork
