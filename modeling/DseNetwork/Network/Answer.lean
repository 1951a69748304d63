import DseNetwork.Network.Carried

/-
Messages that are answered.

A received struct is decoded into the signals, and the signals are encoded again when the
message is packed.  Where that gives other fields, the model writes the message in the step
that it received it in.
-/

namespace DseNetwork

/-- Unpacking writes the members of the signals and nothing else. -/
def NetworkMessage.WritesMembers (nm : NetworkMessage) : Prop :=
  ∀ f b a, (∀ ns ∈ nm.signals,
    a < ns.bufferOffset ∨ ns.bufferOffset + ns.memberType.size ≤ a) →
      (Network.unpackFrame nm f b).dst a = b a

/-- A frame that brings the fields of the struct leaves it as it is. -/
theorem NetworkMessage.WritesMembers.unpacked_eq {nm : NetworkMessage} (h : nm.WritesMembers)
    (hstruct : nm.IsStruct) {f : CanMessage} {b : Memory}
    (hfields : nm.fields (Network.unpackFrame nm f b).dst = nm.fields b) :
    (Network.unpackFrame nm f b).dst = b := by
  funext a
  by_cases hout : ∀ ns ∈ nm.signals,
      a < ns.bufferOffset ∨ ns.bufferOffset + ns.memberType.size ≤ a
  · exact h f b a hout
  · push Not at hout
    obtain ⟨ns, hns, hlow, hhigh⟩ := hout
    have hraw := NetworkMessage.fields_eq_iff.mp hfields ns hns
    have haddress := NetworkSignal.address_of_aligned (hstruct.aligned ns hns)
    refine Memory.eq_of_load_eq hraw ?_ ?_
    · rwa [haddress]
    · rwa [haddress]

namespace NetworkModel

variable {m : NetworkModel} {input : StepInput} {s s' : ModelState m.network}
  {trace : StepTrace m.network} {i : m.network.Ref} {f : CanMessage}

/-- Fields decoded into the signals and encoded again.  A value that leaves its range is
not stored. -/
def reencoded (nm : NetworkMessage) (v : nm.Fields) : nm.Fields := fun ns =>
  if ns.1.funcs.isInRange (ns.1.encodeRaw (ns.1.funcs.decode (v ns))) then
    ns.1.encodeRaw (ns.1.funcs.decode (v ns))
  else v ns

theorem AllInRange.reencoded {nm : NetworkMessage} {v : nm.Fields} (h : AllInRange nm v) :
    AllInRange nm (reencoded nm v) := by
  intro ns
  unfold NetworkModel.reencoded
  by_cases hin : ns.1.funcs.isInRange (ns.1.encodeRaw (ns.1.funcs.decode (v ns))) = true
  · rw [if_pos hin]
    exact hin
  · rw [if_neg hin]
    exact h ns

/-- Of message `i` one frame came, which was accepted. -/
structure CameOnce (trace : StepTrace m.network) (s : ModelState m.network)
    (i : m.network.Ref) (f : CanMessage) : Prop where
  once : Network.Once i trace.rx.received
  frames : Network.framesOf i trace.rx.received = [f]
  accepted : (Network.unpackFrame (m.network.msg i) f (s.network.message i).buffer).rc = 0

theorem CameOnce.lastAccepted (h : CameOnce trace s i f) :
    Network.LastAccepted (m.network.msg i) (s.network.message i)
      (Network.framesOf i trace.rx.received) [] f [] :=
  ⟨h.frames, h.accepted, fun _ hg => absurd hg List.not_mem_nil⟩

theorem frameStruct_nil : m.frameStruct s i [] f =
    (Network.unpackFrame (m.network.msg i) f (s.network.message i).buffer).dst := rfl

/-- The frame is filtered if and only if the checksum of its struct is that of the old. -/
theorem updatedBy_nil (hs : EndOfStep m s) (hc : (m.network.msg i).Conveyed) :
    m.updatedBy s i [] f = true ↔
      simbusGenerateUidHash (m.frameStruct s i [] f) (m.network.msg i).bufferLen ≠
        simbusGenerateUidHash (s.network.message i).buffer (m.network.msg i).bufferLen := by
  rw [updatedBy_of_nil hc.noDecode, ← hs.checksum i hc.event hc.packs]
  exact Iff.rfl

theorem not_isMux (hc : (m.network.msg i).Conveyed) {mi : m.network.Item}
    (hmi : mi ∈ m.network.items i) : ¬ m.network.IsMux mi := by
  intro hmux
  have hsome := (Network.isMux_iff (Network.mem_items.mp hmi).1).mp hmux
  rw [(Network.mem_items.mp hmi).2, Network.muxMi_eq_none hc.noMux] at hsome
  cases hsome

/-- A frame with the fields that the struct has already changes nothing. -/
theorem Stages.known_frame (g : Stages m input s s' trace) (hs : EndOfStep m s)
    (hc : (m.network.msg i).Conveyed) (hmembers : (m.network.msg i).WritesMembers)
    (hagrees : Agrees s i) (hcame : CameOnce trace s i f) (hkept : KeptScalars m input s i)
    (hfields : (m.network.msg i).fields
      (Network.unpackFrame (m.network.msg i) f (s.network.message i).buffer).dst =
        (m.network.msg i).fields (s.network.message i).buffer) :
    writes trace i = 0 ∧ (s'.network.message i).buffer = (s.network.message i).buffer := by
  have hstruct : m.frameStruct s i [] f = (s.network.message i).buffer :=
    hmembers.unpacked_eq hc.isStruct hfields
  obtain ⟨hbuffer, hsum, _⟩ := g.applied_received hc.keeps hcame.once hcame.lastAccepted
  rw [hstruct] at hbuffer hsum
  have hnot : ¬ m.updatedBy s i [] f = true := by
    rw [updatedBy_nil hs hc, hstruct]
    exact not_not.mpr rfl
  have hvalues : ∀ mi ∈ m.network.items i, trace.rx.state.signalVector mi.signalVectorIndex =
      s.network.signalVector mi.signalVectorIndex := by
    intro mi hmi
    obtain ⟨_, hleft⟩ := g.rx_value_received hc.keeps hcame.once hcame.lastAccepted hmi
    rw [hleft (fun h => h.2.elim hnot (not_isMux hc hmi)), decodedValue,
      if_neg (not_isMux hc hmi), copyIn_kept hs hkept hmi]
  obtain ⟨hwrites, hafter, _⟩ := g.at_rest hs hc.event hc.noEncode
    (by rw [hbuffer, Network.marshalBuffer_congr hvalues]; exact hagrees)
    (fun _ => by rw [hsum, hbuffer])
  exact ⟨hwrites, hafter.trans hbuffer⟩

/-- Without a frame nothing changes. -/
theorem Stages.idle_step (g : Stages m input s s' trace) (hs : EndOfStep m s)
    (hc : (m.network.msg i).Conveyed) (hagrees : Agrees s i)
    (hframes : Network.framesOf i trace.rx.received = []) (hkept : KeptScalars m input s i) :
    writes trace i = 0 ∧ (s'.network.message i).buffer = (s.network.message i).buffer := by
  have hnone : NotReceived trace i := by
    intro r hr hmem
    have hframe : r.frame ∈ Network.framesOf i trace.rx.received :=
      List.mem_map_of_mem (List.mem_filter.mpr ⟨hr, decide_eq_true hmem⟩)
    rw [hframes] at hframe
    cases hframe
  obtain ⟨hwrites, hbuffer, _⟩ := g.copy_idle hs hc hagrees hnone hkept
  exact ⟨hwrites, hbuffer⟩

/-- The struct that packing starts from is that of the frame. -/
theorem Stages.rx_struct (g : Stages m input s s' trace) (hc : (m.network.msg i).Conveyed)
    (hcame : CameOnce trace s i f) :
    (trace.rx.state.message i).buffer = m.frameStruct s i [] f := by
  rw [g.rx_message]
  exact (g.applied_received hc.keeps hcame.once hcame.lastAccepted).1

/-- The struct at the end of a step is the one that packing found. -/
theorem Stages.after_packed (g : Stages m input s s' trace)
    (hnil : (m.network.msg i).encodeFunctions = []) :
    (s'.network.message i).buffer = packedBuffer trace i := by
  obtain ⟨hbuffer, _⟩ := g.packed_fields i
  obtain ⟨out, hout⟩ := g.encoded_message i
  rw [Network.encodeMessage_of_nil hnil] at hout
  rw [g.after_message, ← (Prod.mk.inj (Except.ok.inj hout)).1]
  exact hbuffer

/-- A message that is sent with all its fields in range carries them. -/
theorem Stages.sent_carries (g : Stages m input s s' trace) (hc : (m.network.msg i).Conveyed)
    (hsole : m.network.Sole i) (hon : m.netOff input.scalar = false)
    (htx : (g.packed i).needsTx = true)
    (hrange : AllInRange (m.network.msg i)
      ((m.network.msg i).fields (s'.network.message i).buffer)) :
    ∃ f, sentFrames trace (m.network.msg i).frameId = [f] ∧ Carries (m.network.msg i) f
      ((m.network.msg i).fields (s'.network.message i).buffer) := by
  obtain ⟨pack, hpack⟩ := Option.isSome_iff_exists.mp hc.packs
  obtain ⟨_, _, _, hpayload⟩ := g.packed_fields i
  obtain ⟨out, hout⟩ := g.encoded_message i
  rw [Network.encodeMessage_of_nil hc.noEncode, hon] at hout
  have hencoded := (Prod.mk.inj (Except.ok.inj hout)).1
  have hsent : (g.encoded.message i).needsTx = true := by
    rw [← hencoded]
    show ((g.packed i).needsTx && !false) = true
    rw [htx]
    rfl
  have hframe : Network.txFrame (m.network.msg i) (g.encoded.message i) =
      (m.network.msg i).frameOf pack (g.applied.message i).payload
        (s'.network.message i).buffer := by
    rw [Network.txFrame, NetworkMessage.frameOf, g.after_packed hc.noEncode, ← hencoded,
      ← hpayload pack hpack]
  refine ⟨Network.txFrame (m.network.msg i) (g.encoded.message i), ?_, ?_⟩
  · rw [g.sentFrames_sole hsole, if_pos hsent]
  · rw [hframe]
    exact fun b => hc.carries pack hpack _ _ b (hrange.inRange hc)

/-! ## A frame with other fields -/

section
variable (g : Stages m input s s' trace) (hs : EndOfStep m s)
  (hc : (m.network.msg i).Conveyed) (hsole : m.network.Sole i) (hcame : CameOnce trace s i f)
  (hrange : ∀ ns ∈ (m.network.msg i).signals, ns.InRange (m.frameStruct s i [] f))
  (hother : simbusGenerateUidHash (m.frameStruct s i [] f) (m.network.msg i).bufferLen ≠
    simbusGenerateUidHash (s.network.message i).buffer (m.network.msg i).bufferLen)
include g hs hc hcame hrange hother

/-- The frame is read into the signals. -/
theorem Stages.new_values : ∀ mi ∈ m.network.items i,
    trace.rx.state.signalVector mi.signalVectorIndex =
      mi.signal.funcs.decode (mi.signal.raw (m.frameStruct s i [] f)) := by
  intro mi hmi
  obtain ⟨hread, _⟩ := g.rx_value_received hc.keeps hcame.once hcame.lastAccepted hmi
  exact hread (hrange _ (Network.IsStruct.items_signal_mem hmi))
    (.inl ((updatedBy_nil hs hc).mpr hother))

include hsole in
/-- The struct comes to the fields of the frame, encoded again. -/
theorem Stages.new_fields : (m.network.msg i).fields (s'.network.message i).buffer =
    reencoded (m.network.msg i) ((m.network.msg i).fields (m.frameStruct s i [] f)) := by
  have hvalues := g.new_values hs hc hcame hrange hother
  funext ⟨ns, hns⟩
  obtain ⟨mi, hmi, rfl⟩ := hsole.listed ns hns
  show mi.signal.raw (s'.network.message i).buffer = _
  rw [g.after_packed hc.noEncode, packedBuffer, g.rx_struct hc hcame,
    Network.IsStruct.raw_marshalled hc.isStruct hmi (hc.known _ hns),
    NetworkSignal.raw_writeRaw (hc.known _ hns), Network.signalValue_visible hc hmi,
    hvalues mi hmi]
  rfl

/-- Fields that come back are not answered. -/
theorem Stages.new_rests
    (hrests : reencoded (m.network.msg i)
      ((m.network.msg i).fields (m.frameStruct s i [] f)) =
        (m.network.msg i).fields (m.frameStruct s i [] f)) : writes trace i = 0 := by
  have hvalues := g.new_values hs hc hcame hrange hother
  obtain ⟨hbuffer, hsum, _⟩ := g.applied_received hc.keeps hcame.once hcame.lastAccepted
  have hmarshal : m.network.marshalBuffer trace.rx.state.signalVector i
      (m.frameStruct s i [] f) = m.frameStruct s i [] f := by
    refine Network.marshalBuffer_of_settled (fun mi hmi => ?_)
    have hns := Network.IsStruct.items_signal_mem hmi
    intro _ hin
    rw [Network.signalValue_visible hc hmi, hvalues mi hmi] at hin ⊢
    have hback := congrFun hrests ⟨mi.signal, hns⟩
    exact (if_pos hin).symm.trans hback
  exact (g.at_rest hs hc.event hc.noEncode (by rw [hbuffer]; exact hmarshal)
    (fun _ => by rw [hsum, hbuffer])).1

include hsole in
/-- Fields that do not come back are answered with what they came to, if the checksum
shows it. -/
theorem Stages.new_answered (hon : m.netOff input.scalar = false)
    (hshows : HashShows (m.network.msg i) (packedBuffer trace i) (m.frameStruct s i [] f))
    (hmoves : reencoded (m.network.msg i)
      ((m.network.msg i).fields (m.frameStruct s i [] f)) ≠
        (m.network.msg i).fields (m.frameStruct s i [] f)) :
    writes trace i = 1 ∧ ∃ f', sentFrames trace (m.network.msg i).frameId = [f'] ∧
      Carries (m.network.msg i) f' ((m.network.msg i).fields (s'.network.message i).buffer) := by
  have hfields := g.new_fields hs hc hsole hcame hrange hother
  obtain ⟨hbuffer, hsum, _⟩ := g.applied_received hc.keeps hcame.once hcame.lastAccepted
  have hdiffers : simbusGenerateUidHash (packedBuffer trace i) (m.network.msg i).bufferLen ≠
      simbusGenerateUidHash (m.frameStruct s i [] f) (m.network.msg i).bufferLen := by
    intro hsame
    refine hmoves ?_
    rw [← hfields, g.after_packed hc.noEncode]
    exact hshows hsame
  have htx : (g.packed i).needsTx = true := by
    rw [Stages.packed, (Network.packMessage_event hc.packs hc.event _).2, g.ticked_event hc.event]
    dsimp only
    rw [hsum]
    have hpacked : packedBuffer trace i = m.network.marshalBuffer
        trace.rx.state.signalVector i (g.applied.message i).buffer := by
      rw [packedBuffer, g.rx_message]
    rw [← hpacked]
    exact hdiffers
  refine ⟨by rw [g.writes_eq, htx, hon]; rfl, g.sent_carries hc hsole hon htx ?_⟩
  rw [hfields]
  exact AllInRange.reencoded (fun ns => (hrange ns.1 ns.2).2)

end

/-! ## Every step -/

/-- The checksums show the changes of the fields of message `i`, by reception and by packing. -/
structure Shows (nm : NetworkMessage) (input : StepInput) (s : ModelState m.network)
    (trace : StepTrace m.network) (i : m.network.Ref) : Prop where
  received : ∀ f ∈ framesFor nm input.frames,
    HashShows nm (Network.unpackFrame nm f (s.network.message i).buffer).dst
      (s.network.message i).buffer
  packed : HashShows nm (packedBuffer trace i) (trace.rx.state.message i).buffer

/-- How a step treats the fields of a message, of which it reads one frame or none. -/
structure Answers (nm : NetworkMessage) (frames : List CanMessage) (before after : nm.Fields)
    (writes : Nat) (sent : List CanMessage) : Prop where
  idle : framesFor nm frames = [] → after = before ∧ writes = 0
  known : ∀ f, framesFor nm frames = [f] → carried nm f = before → after = before ∧ writes = 0
  answered : ∀ f, framesFor nm frames = [f] → carried nm f ≠ before →
    after = reencoded nm (carried nm f) ∧
      (reencoded nm (carried nm f) = carried nm f → writes = 0) ∧
      (reencoded nm (carried nm f) ≠ carried nm f → writes = 1)
  silent : writes = 0 → sent = []
  carries : writes = 1 → ∃ f, sent = [f] ∧ Carries nm f after ∧ AllInRange nm after

theorem Stages.answers (g : Stages m input s s' trace) (hreach : m.system.Reachable s)
    {nm : NetworkMessage} (hmsg : m.network.msg i = nm) (hc : nm.Conveyed)
    (hmembers : nm.WritesMembers) (hsole : m.network.Sole i) (hkept : KeptScalars m input s i)
    (hon : m.netOff input.scalar = false) (hcame : OneCarried nm input.frames)
    (hshows : Shows nm input s trace i) :
    Answers nm input.frames (nm.fields (s.network.message i).buffer)
      (nm.fields (s'.network.message i).buffer) (writes trace i)
      (sentFrames trace nm.frameId) := by
  subst hmsg
  have hs := reachable_endOfStep m hreach
  have hagrees := reachable_agrees hc.event hc.noEncode hreach
  obtain ⟨hframes, honce⟩ := hsole.framesOf (Network.muxMi_eq_none hc.noMux) g.decode
  change Network.framesOf i trace.rx.received =
    framesFor (m.network.msg i) input.frames at hframes
  have hsilent : writes trace i = 0 → sentFrames trace (m.network.msg i).frameId = [] :=
    fun hzero => g.sentFrames_eq_nil (fun j hj => by rw [hsole.alone j hj, hzero])
  rcases hcame with hnil | ⟨f, v, hone, hcarries, hrange⟩
  · obtain ⟨hwrites, hbuffer⟩ := g.idle_step hs hc hagrees (hframes.trans hnil) hkept
    refine ⟨fun _ => ⟨by rw [hbuffer], hwrites⟩, fun f hf => ?_, fun f hf => ?_, hsilent,
      fun hw => ?_⟩
    · rw [hnil] at hf
      cases hf
    · rw [hnil] at hf
      cases hf
    · omega
  · obtain ⟨hrc, hfields⟩ := hcarries (s.network.message i).buffer
    have hcame : CameOnce trace s i f := ⟨honce, hframes.trans hone, hrc⟩
    have hv : carried (m.network.msg i) f = v := hcarries.carried_eq
    have hmem : f ∈ framesFor (m.network.msg i) input.frames := by
      rw [hone]
      exact List.mem_singleton.mpr rfl
    have hone' : ∀ f', framesFor (m.network.msg i) input.frames = [f'] → f' = f :=
      fun f' hf' => (List.cons.inj (hf'.symm.trans hone)).1
    by_cases hknown : v = (m.network.msg i).fields (s.network.message i).buffer
    · obtain ⟨hwrites, hbuffer⟩ := g.known_frame hs hc hmembers hagrees hcame hkept
        (hfields.trans hknown)
      refine ⟨fun hf => ?_, fun _ _ _ => ⟨by rw [hbuffer], hwrites⟩, fun f' hf' hne => ?_,
        hsilent, fun hw => ?_⟩
      · rw [hone] at hf
        cases hf
      · rw [hone' f' hf', hv] at hne
        exact absurd hknown hne
      · omega
    · have hin : ∀ ns ∈ (m.network.msg i).signals, ns.InRange (m.frameStruct s i [] f) :=
        AllInRange.inRange hc (by rw [frameStruct_nil, hfields]; exact hrange)
      have hother : simbusGenerateUidHash (m.frameStruct s i [] f) (m.network.msg i).bufferLen ≠
          simbusGenerateUidHash (s.network.message i).buffer (m.network.msg i).bufferLen :=
        fun hsame => hknown (hfields.symm.trans (hshows.received f hmem hsame))
      have hafter := g.new_fields hs hc hsole hcame hin hother
      rw [frameStruct_nil, hfields] at hafter
      have hrests : reencoded (m.network.msg i) v = v → writes trace i = 0 := fun hv =>
        g.new_rests hs hc hcame hin hother (by rw [frameStruct_nil, hfields]; exact hv)
      have hmoves : reencoded (m.network.msg i) v ≠ v → writes trace i = 1 ∧
          ∃ f', sentFrames trace (m.network.msg i).frameId = [f'] ∧ Carries (m.network.msg i) f'
            ((m.network.msg i).fields (s'.network.message i).buffer) := by
        intro hv
        refine g.new_answered hs hc hsole hcame hin hother hon ?_ ?_
        · rw [← g.rx_struct hc hcame]
          exact hshows.packed
        · rw [frameStruct_nil, hfields]
          exact hv
      refine ⟨fun hf => ?_, fun f' hf' heq => ?_, fun f' hf' _ => ?_, hsilent, fun hw => ?_⟩
      · rw [hone] at hf
        cases hf
      · rw [hone' f' hf', hv] at heq
        exact absurd heq hknown
      · rw [hone' f' hf', hv]
        exact ⟨hafter, hrests, fun hne => (hmoves hne).1⟩
      · have hne : reencoded (m.network.msg i) v ≠ v := fun heq => by
          rw [hrests heq] at hw
          cases hw
        obtain ⟨_, f', hsent, hcarries'⟩ := hmoves hne
        refine ⟨f', hsent, hcarries', ?_⟩
        rw [hafter]
        exact AllInRange.reencoded hrange

end NetworkModel
end DseNetwork
