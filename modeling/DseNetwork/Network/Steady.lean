import DseNetwork.Network.LostUpdate

/-
Structs in agreement with the signal vector.

A message whose struct already holds what its signals marshal to is packed with the
checksum it has, and is not sent.  Reading a struct into the signals brings about that
agreement where each field is one that marshals back to itself.
-/

namespace DseNetwork

/-! ## Fields that marshal back -/

/-- Through the variable of its branch, a raw value stays what it is or leaves the range.
Only a value of an `int64_t` field can fail to. -/
def NetworkSignal.NarrowFits (ns : NetworkSignal) (r : ns.Raw) : Prop :=
  ns.funcs.isInRange (ns.memberType.convert r) = true → ns.memberType.convert r = r

instance (ns : NetworkSignal) (r : ns.Raw) : Decidable (ns.NarrowFits r) :=
  inferInstanceAs (Decidable (_ → _))

namespace Network

variable {n : Network}

/-- A field of a struct that was read, or was not, into a signal of value `v`: the
constant of an internal signal of a contained message, a field in range that was read,
and a value that was kept each marshal to what the field holds, or to nothing. -/
def SettlesIn (n : Network) (mi : n.Item) (read : Prop) (v : Double) (b : Memory) : Prop :=
  if mi.signal.internal ∧ (n.msg mi.message).container.isSome then
    mi.signal.Settled mi.signal.value b
  else (mi.signal.InRange b ∧ read → mi.signal.NarrowFits (mi.signal.raw b)) ∧
    (¬ (mi.signal.InRange b ∧ read) → mi.signal.Settled v b)

instance (mi : n.Item) (read : Prop) [Decidable read] (v : Double) (b : Memory) :
    Decidable (n.SettlesIn mi read v b) := by
  unfold SettlesIn
  infer_instance

theorem settled_of_settlesIn (hlib : n.LibraryRoundTrips) {mi : n.Item}
    (hmi : mi ∈ n.marshalList) {read : Prop} {v : Double} {b : Memory} {sv : Nat → Double}
    (h : n.SettlesIn mi read v b)
    (hread : mi.signal.InRange b → read →
      sv mi.signalVectorIndex = mi.signal.funcs.decode (mi.signal.raw b))
    (hkept : ¬ (mi.signal.InRange b ∧ read) → sv mi.signalVectorIndex = v) :
    mi.signal.Settled (n.signalValue sv mi) b := by
  unfold SettlesIn at h
  unfold signalValue
  by_cases hconst : mi.signal.internal = true ∧ (n.msg mi.message).container.isSome = true
  · rw [if_pos hconst] at h ⊢
    exact h
  · rw [if_neg hconst] at h ⊢
    by_cases hin : mi.signal.InRange b ∧ read
    · rw [hread hin.1 hin.2]
      intro _ hrange
      have hback := hlib mi hmi _ hin.1.2
      rw [NetworkSignal.encodeRaw, hback] at hrange ⊢
      exact h.1 hin hrange
    · rw [hkept hin]
      exact h.2 hin

end Network

namespace NetworkModel

variable {m : NetworkModel} {input : StepInput} {s s' : ModelState m.network}
  {trace : StepTrace m.network} {i : m.network.Ref}

/-! ## Steps in which nobody else writes -/

/-- No other model changed a scalar of the SignalVector. -/
def QuietScalars (m : NetworkModel) (input : StepInput) (s : ModelState m.network) : Prop :=
  ∀ k, k < m.svSignal.length → input.scalar k = s.scalar k

theorem QuietScalars.kept (h : QuietScalars m input s) (i : m.network.Ref) :
    KeptScalars m input s i := by
  intro e he ha _ _ _
  have hlt : e.vectorIndex < m.srMap.length := by
    have hget := srMap_active he ha
    exact (List.getElem?_eq_some_iff.mp hget).1
  rw [srMap, List.length_mapIdx] at hlt
  exact h _ hlt

/-! ## Messages in agreement -/

/-- The struct of message `i` holds what its signals marshal to. -/
def Agrees (s : ModelState m.network) (i : m.network.Ref) : Prop :=
  m.network.marshalBuffer s.network.signalVector i (s.network.message i).buffer =
    (s.network.message i).buffer

theorem modelCreate_agrees (m : NetworkModel) (scalar : Nat → Double) (i : m.network.Ref) :
    Agrees (m.modelCreate scalar) i := by
  rw [Agrees, modelCreate_signalVector, modelCreate_message]
  dsimp only
  rw [Network.packMessage_buffer]
  exact Network.marshalBuffer_idem _ _ _

theorem Stages.ticked_event (g : Stages m input s s' trace)
    (hevent : (m.network.msg i).cycleTimeMs = 0) :
    g.ticked.message i = { g.applied.message i with updateSignals := false } := by
  rw [g.tick, Network.scheduleTicks_event hevent, g.rx_message]

theorem Stages.packed_event (g : Stages m input s s' trace)
    (hevent : (m.network.msg i).cycleTimeMs = 0) :
    (g.packed i).buffer = m.network.marshalBuffer trace.rx.state.signalVector i
        (g.applied.message i).buffer ∧ (g.packed i).updateSignals = false := by
  rw [Stages.packed, g.ticked_event hevent, Network.packMessage_buffer,
    Network.packMessage_updateSignals]
  exact ⟨rfl, rfl⟩

theorem Stages.agrees_of_unchanged (g : Stages m input s s' trace)
    (hevent : (m.network.msg i).cycleTimeMs = 0)
    (hbuffer : (g.encoded.message i).buffer = (g.packed i).buffer)
    (hflag : (g.encoded.message i).updateSignals = (g.packed i).updateSignals) :
    Agrees s' i := by
  obtain ⟨hpacked, hoff⟩ := g.packed_event hevent
  have hsv : ∀ mi ∈ m.network.items i, s'.network.signalVector mi.signalVectorIndex =
      trace.rx.state.signalVector mi.signalVectorIndex := by
    intro mi hmi
    obtain ⟨hmem, rfl⟩ := Network.mem_items.mp hmi
    rw [g.after_value hmem, hflag, hoff, if_neg Bool.false_ne_true]
  rw [Agrees, g.after_message, Network.marshalBuffer_congr hsv]
  dsimp only
  rw [hbuffer, hpacked]
  exact Network.marshalBuffer_idem _ _ _

/-- An event message without encode functions agrees in every reachable state. -/
theorem reachable_agrees (hevent : (m.network.msg i).cycleTimeMs = 0)
    (hnil : (m.network.msg i).encodeFunctions = []) (h : m.system.Reachable s) :
    Agrees s i := by
  refine h.invariant (P := fun s => Agrees s i) ?_ ?_
  · rintro _ ⟨scalar, rfl⟩
    exact modelCreate_agrees m scalar i
  · intro s input trace s' _ _ hn
    obtain ⟨g⟩ := modelStep_ok hn
    obtain ⟨out, hout⟩ := g.encoded_message i
    rw [Network.encodeMessage_of_nil hnil] at hout
    have hst := (Prod.mk.inj (Except.ok.inj hout)).1
    exact g.agrees_of_unchanged hevent (by rw [← hst]) (by rw [← hst])

/-- An event message is not sent when the struct it had after reception is what its
signals marshal to, and has its checksum. -/
theorem Stages.not_sent (g : Stages m input s s' trace) (hs : EndOfStep m s)
    (hevent : (m.network.msg i).cycleTimeMs = 0)
    (hmarshal : m.network.marshalBuffer trace.rx.state.signalVector i
      (g.applied.message i).buffer = (g.applied.message i).buffer)
    (hsum : (m.network.msg i).packFunc.isSome → (g.applied.message i).bufferChecksum =
      simbusGenerateUidHash (g.applied.message i).buffer (m.network.msg i).bufferLen) :
    (g.packed i).needsTx = false := by
  have hidle : (g.applied.message i).needsTx = false := by
    have hrx := g.rx_needsTx i
    rw [g.rx_message] at hrx
    exact hrx.trans (hs.flags i).1
  cases hpack : (m.network.msg i).packFunc with
  | none =>
    rw [Stages.packed, Network.packMessage_of_none hpack, g.ticked_event hevent]
    exact hidle
  | some pack =>
    have hsome : (m.network.msg i).packFunc.isSome := by rw [hpack]; rfl
    rw [Bool.eq_false_iff]
    intro htx
    refine (Network.packMessage_event hsome hevent _).2.mp htx ?_
    rw [g.ticked_event hevent]
    dsimp only
    rw [hmarshal]
    exact (hsum hsome).symm

end NetworkModel
end DseNetwork
