import DseNetwork.Network.Library

/-
What a round through the struct buffers does to the signal vector.

Every branch of the two marshal functions stores and reads the width of its member
type.  The `int64_t` branch that stores does so through a 16-bit variable.
-/

namespace DseNetwork

/-! ## Fields of a struct -/

namespace NetworkSignal

/-- The byte ranges of two signals do not meet. -/
def Apart (ns ns' : NetworkSignal) : Prop :=
  ns.bufferOffset + ns.memberType.size ≤ ns'.bufferOffset ∨
    ns'.bufferOffset + ns'.memberType.size ≤ ns.bufferOffset

instance (ns ns' : NetworkSignal) : Decidable (ns.Apart ns') :=
  inferInstanceAs (Decidable (_ ∨ _))

theorem Apart.symm {ns ns' : NetworkSignal} (h : ns.Apart ns') : ns'.Apart ns := Or.symm h

def Aligned (ns : NetworkSignal) : Prop := ns.memberType.size ∣ ns.bufferOffset

instance (ns : NetworkSignal) : Decidable ns.Aligned := inferInstanceAs (Decidable (_ ∣ _))

theorem address_of_aligned {ns : NetworkSignal} (h : ns.Aligned) :
    ns.address = ns.bufferOffset :=
  Nat.div_mul_cancel h

/-- What a signal value is to leave in its field. -/
def storedRaw (ns : NetworkSignal) (v : Double) (buffer : Memory) : ns.Raw :=
  if ns.funcs.isInRange (ns.funcs.encode v) then ns.funcs.encode v else ns.raw buffer

theorem raw_writeRaw {ns : NetworkSignal} (hknown : ns.memberType ≠ .unknown) (v : Double)
    (buffer : Memory) :
    ns.raw (ns.writeRaw v buffer) =
      if ns.funcs.isInRange (ns.encodeRaw v) then ns.encodeRaw v else ns.raw buffer := by
  rw [writeRaw, if_neg hknown]
  by_cases hr : ns.funcs.isInRange (ns.encodeRaw v) = true
  · rw [if_pos hr, if_pos hr]
    exact Memory.load_store _ _ _ _
  · rw [if_neg hr, if_neg hr]

theorem writeRaw_outside {ns : NetworkSignal} (hal : ns.Aligned) (v : Double)
    (buffer : Memory) {a : Nat}
    (ha : a < ns.bufferOffset ∨ ns.bufferOffset + ns.memberType.size ≤ a) :
    ns.writeRaw v buffer a = buffer a := by
  unfold writeRaw
  split
  · rfl
  · split
    · rw [address_of_aligned hal]
      exact Memory.store_outside _ ha
    · rfl

theorem raw_writeRaw_of_apart {ns ns' : NetworkSignal} (hal : ns.Aligned) (hal' : ns'.Aligned)
    (h : ns.Apart ns') (v : Double) (buffer : Memory) :
    ns.raw (ns'.writeRaw v buffer) = ns.raw buffer := by
  refine Memory.load_congr (fun x hlo hhi => writeRaw_outside hal' v buffer ?_)
  rw [address_of_aligned hal] at hlo hhi
  unfold Apart at h
  omega

/-- The 16-bit variable of the `int64_t` branch makes no difference to the field: it
holds the encoded value, or both are out of range, or the one in range is what the field
has already. -/
def NarrowHarmless (ns : NetworkSignal) (v : Double) (buffer : Memory) : Prop :=
  ns.memberType = .int64 →
    ns.encodeRaw v = ns.funcs.encode v ∨
    (ns.funcs.isInRange (ns.funcs.encode v) = false ∧
      ns.funcs.isInRange (ns.encodeRaw v) = false) ∨
    (ns.funcs.isInRange (ns.encodeRaw v) = false ∧ ns.funcs.encode v = ns.raw buffer) ∨
    (ns.funcs.isInRange (ns.funcs.encode v) = false ∧ ns.encodeRaw v = ns.raw buffer)

theorem encodeRaw_eq {ns : NetworkSignal} (h : ns.memberType ≠ .int64) (v : Double) :
    ns.encodeRaw v = ns.funcs.encode v :=
  MemberType.convert_eq h _

theorem raw_writeRaw_eq_iff {ns : NetworkSignal} (hknown : ns.memberType ≠ .unknown)
    (v : Double) (buffer : Memory) :
    ns.raw (ns.writeRaw v buffer) = ns.storedRaw v buffer ↔ ns.NarrowHarmless v buffer := by
  rw [raw_writeRaw hknown, storedRaw, NarrowHarmless]
  by_cases hlong : ns.memberType = .int64
  · simp only [hlong, true_imp_iff]
    by_cases hsame : ns.encodeRaw v = ns.funcs.encode v
    · rw [hsame]
      exact ⟨fun _ => .inl rfl, fun _ => rfl⟩
    · cases he : ns.funcs.isInRange (ns.funcs.encode v) <;>
        cases ht : ns.funcs.isInRange (ns.encodeRaw v) <;>
        simp [hsame, eq_comm]
  · rw [encodeRaw_eq hlong]
    exact ⟨fun _ h => absurd h hlong, fun _ => rfl⟩

end NetworkSignal

/-! ## All fields of all messages -/

namespace Network

/-- The layout that the network files give: known member types, aligned fields that do
not meet within a message, and no internal signal of a contained message. -/
structure LaidOut (n : Network) : Prop where
  known : ∀ mi ∈ n.marshalList, mi.signal.memberType ≠ .unknown
  aligned : ∀ mi ∈ n.marshalList, mi.signal.Aligned
  apart : ∀ mi ∈ n.marshalList, ∀ mi' ∈ n.marshalList, mi.message = mi'.message →
    mi.signalVectorIndex ≠ mi'.signalVectorIndex → mi.signal.Apart mi'.signal
  visible : ∀ mi ∈ n.marshalList,
    ¬ (mi.signal.internal = true ∧ (n.msg mi.message).container.isSome = true)

variable {n : Network}

/-- The values of the signals are marshalled into their fields, and nothing else is. -/
def MarshalStores (n : Network) (s : n.State) : Prop :=
  let s' := n.marshalSignalsToMessages n.marshalList s
  (∀ mi ∈ n.marshalList, mi.signal.raw (s'.message mi.message).buffer =
    mi.signal.storedRaw (s.signalVector mi.signalVectorIndex) (s.message mi.message).buffer) ∧
  ∀ i a, (∀ mi ∈ n.items i, a < mi.signal.bufferOffset ∨
      mi.signal.bufferOffset + mi.signal.memberType.size ≤ a) →
    (s'.message i).buffer a = (s.message i).buffer a

/-- Values that survive encoding come back from the struct buffers. -/
def MarshalRestores (n : Network) (s : n.State) : Prop :=
  (∀ mi ∈ n.marshalList,
    mi.signal.funcs.isInRange
      (mi.signal.funcs.encode (s.signalVector mi.signalVectorIndex)) = true ∧
    mi.signal.funcs.decode (mi.signal.funcs.encode (s.signalVector mi.signalVectorIndex)) =
      s.signalVector mi.signalVectorIndex) →
  (n.marshalMessagesToSignals false n.marshalList
    ((n.marshalSignalsToMessages n.marshalList s).mapMessages
      (fun _ st => { st with updateSignals := true }))).signalVector = s.signalVector

theorem items_pairwise_apart (hl : n.LaidOut) (i : n.Ref) :
    (n.items i).Pairwise (fun mi mi' => mi.signal.Apart mi'.signal) := by
  have hindex : (n.items i).Pairwise
      (fun mi mi' => mi.signalVectorIndex ≠ mi'.signalVectorIndex) :=
    (List.pairwise_map.mp n.nodup_indices).filter _
  refine hindex.imp_of_mem (fun {mi mi'} hmi hmi' hne => ?_)
  obtain ⟨hmem, hmsg⟩ := mem_items.mp hmi
  obtain ⟨hmem', hmsg'⟩ := mem_items.mp hmi'
  exact hl.apart mi hmem mi' hmem' (hmsg.trans hmsg'.symm) hne

def writeItems (val : n.Item → Double) (l : List n.Item) (b : Memory) : Memory :=
  l.foldl (fun b mi => mi.signal.writeRaw (val mi) b) b

theorem writeItems_outside {val : n.Item → Double} {l : List n.Item}
    (hal : ∀ mi ∈ l, mi.signal.Aligned) {a : Nat}
    (ha : ∀ mi ∈ l, a < mi.signal.bufferOffset ∨
      mi.signal.bufferOffset + mi.signal.memberType.size ≤ a) (b : Memory) :
    writeItems val l b a = b a := by
  induction l generalizing b with
  | nil => rfl
  | cons mi rest ih =>
    rw [writeItems, List.foldl_cons]
    exact (ih (fun mj h => hal mj (List.mem_cons_of_mem mi h))
      (fun mj h => ha mj (List.mem_cons_of_mem mi h)) _).trans
        (NetworkSignal.writeRaw_outside (hal mi List.mem_cons_self) _ _
          (ha mi List.mem_cons_self))

theorem raw_writeItems_of_apart {ns : NetworkSignal} (hns : ns.Aligned)
    {val : n.Item → Double} {l : List n.Item} (hal : ∀ mi ∈ l, mi.signal.Aligned)
    (h : ∀ mi ∈ l, ns.Apart mi.signal) (b : Memory) :
    ns.raw (writeItems val l b) = ns.raw b := by
  induction l generalizing b with
  | nil => rfl
  | cons mi rest ih =>
    rw [writeItems, List.foldl_cons]
    exact (ih (fun mj hj => hal mj (List.mem_cons_of_mem mi hj))
      (fun mj hj => h mj (List.mem_cons_of_mem mi hj)) _).trans
        (NetworkSignal.raw_writeRaw_of_apart hns (hal mi List.mem_cons_self)
          (h mi List.mem_cons_self) _ _)

theorem raw_writeItems {val : n.Item → Double} {l : List n.Item}
    (hal : ∀ mi ∈ l, mi.signal.Aligned)
    (hapart : l.Pairwise (fun mi mi' => mi.signal.Apart mi'.signal)) {mi : n.Item}
    (hmi : mi ∈ l) (hknown : mi.signal.memberType ≠ .unknown) (b : Memory) :
    mi.signal.raw (writeItems val l b) = mi.signal.raw (mi.signal.writeRaw (val mi) b) := by
  induction l generalizing b with
  | nil => cases hmi
  | cons a rest ih =>
    obtain ⟨hfirst, hrest⟩ := List.pairwise_cons.mp hapart
    have hal' : ∀ mj ∈ rest, mj.signal.Aligned :=
      fun mj hj => hal mj (List.mem_cons_of_mem a hj)
    rw [writeItems, List.foldl_cons]
    rcases List.mem_cons.mp hmi with rfl | hmem
    · exact raw_writeItems_of_apart (hal mi List.mem_cons_self) hal' hfirst _
    · have hwrite := ih hal' hrest hmem (a.signal.writeRaw (val a) b)
      refine hwrite.trans ?_
      rw [NetworkSignal.raw_writeRaw hknown, NetworkSignal.raw_writeRaw hknown,
        NetworkSignal.raw_writeRaw_of_apart (hal mi hmi) (hal a List.mem_cons_self)
          (hfirst mi hmem).symm]

theorem signalValue_of_visible (hl : n.LaidOut) {mi : n.Item} (hmi : mi ∈ n.marshalList)
    (sv : Nat → Double) : n.signalValue sv mi = sv mi.signalVectorIndex :=
  if_neg (hl.visible mi hmi)

theorem raw_marshalBuffer (hl : n.LaidOut) {mi : n.Item} (hmi : mi ∈ n.marshalList)
    (sv : Nat → Double) (b : Memory) :
    mi.signal.raw (n.marshalBuffer sv mi.message b) =
      mi.signal.raw (mi.signal.writeRaw (sv mi.signalVectorIndex) b) := by
  have hmem : ∀ mj ∈ n.items mi.message, mj ∈ n.marshalList := fun _ h => (mem_items.mp h).1
  rw [← signalValue_of_visible hl hmi sv]
  exact raw_writeItems (fun mj hj => hl.aligned mj (hmem mj hj)) (items_pairwise_apart hl _)
    (mem_items.mpr ⟨hmi, rfl⟩) (hl.known mi hmi) b

theorem marshalStores_iff (hl : n.LaidOut) (s : n.State) :
    MarshalStores n s ↔ ∀ mi ∈ n.marshalList, mi.signal.NarrowHarmless
      (s.signalVector mi.signalVectorIndex) (s.message mi.message).buffer := by
  have houtside : ∀ i a, (∀ mi ∈ n.items i, a < mi.signal.bufferOffset ∨
      mi.signal.bufferOffset + mi.signal.memberType.size ≤ a) →
      ((n.marshalSignalsToMessages n.marshalList s).message i).buffer a =
        (s.message i).buffer a := by
    intro i a ha
    rw [marshalSignalsToMessages_message]
    exact writeItems_outside (fun mi hmi => hl.aligned mi (mem_items.mp hmi).1) ha _
  have hfield : ∀ mi ∈ n.marshalList,
      (mi.signal.raw ((n.marshalSignalsToMessages n.marshalList s).message mi.message).buffer =
        mi.signal.storedRaw (s.signalVector mi.signalVectorIndex)
          (s.message mi.message).buffer ↔
      mi.signal.NarrowHarmless (s.signalVector mi.signalVectorIndex)
        (s.message mi.message).buffer) := by
    intro mi hmi
    rw [marshalSignalsToMessages_message, raw_marshalBuffer hl hmi]
    exact NetworkSignal.raw_writeRaw_eq_iff (hl.known mi hmi) _ _
  exact ⟨fun h mi hmi => (hfield mi hmi).mp (h.1 mi hmi),
    fun h => ⟨fun mi hmi => (hfield mi hmi).mpr (h mi hmi), houtside⟩⟩

theorem marshalRestores_of_stores (hl : n.LaidOut) {s : n.State} (h : MarshalStores n s) :
    MarshalRestores n s := by
  intro hvalues
  funext x
  by_cases hx : ∃ mi ∈ n.marshalList, mi.signalVectorIndex = x
  · obtain ⟨mi, hmi, rfl⟩ := hx
    obtain ⟨hrange, hdecode⟩ := hvalues mi hmi
    have hraw := h.1 mi hmi
    rw [NetworkSignal.storedRaw, if_pos hrange] at hraw
    refine (marshalMessagesToSignals_value hmi _).trans ((if_pos rfl).trans ?_)
    show mi.signal.readValue
      ((n.marshalSignalsToMessages n.marshalList s).message mi.message).buffer _ = _
    rw [NetworkSignal.readValue_of_inRange ⟨hl.known mi hmi, by rwa [hraw]⟩, hraw, hdecode]
  · refine (marshalMessagesToSignals_of_not_flagged (fun mi hmi hidx => ?_)).trans ?_
    · exact absurd ⟨mi, hmi, hidx⟩ hx
    · exact congrFun (marshalSignalsToMessages_signalVector _ _) x

/-- The round trip holds exactly when the 16-bit variable of the `int64_t` branch makes
no difference to any field. -/
theorem marshal_roundTrip_iff (hl : n.LaidOut) (s : n.State) :
    MarshalStores n s ∧ MarshalRestores n s ↔
      ∀ mi ∈ n.marshalList, mi.signal.NarrowHarmless
        (s.signalVector mi.signalVectorIndex) (s.message mi.message).buffer := by
  rw [← marshalStores_iff hl]
  exact ⟨fun h => h.1, fun h => ⟨h, marshalRestores_of_stores hl h⟩⟩

/-- A byte, a word and an `int64_t` in one message. -/
def mixed : Network :=
  .ofMessages [plainMessage "M" 0x1a0#32 16
    [byteSignal "a" 0 (fun _ => true), wordSignal "b" 4 0, longSignal "c" 8]] (by
    simp [plainMessage])

theorem mixed_laidOut : mixed.LaidOut where
  known := by decide +kernel
  aligned := by decide +kernel
  apart := by decide +kernel
  visible := by decide +kernel

def mixedState : mixed.State where
  message := fun _ => MessageState.initial
  signalVector := fun x => Binary64.ofNat (if x = 0 then 200 else if x = 1 then 70000 else 1000)
  alarm := fun _ => 0
  tick := 0#32

theorem marshal_roundTrip_mixed :
    MarshalStores mixed mixedState ∧ MarshalRestores mixed mixedState := by
  refine (marshal_roundTrip_iff mixed_laidOut mixedState).mpr ?_
  unfold NetworkSignal.NarrowHarmless
  decide +kernel

def oneLong : Network :=
  .ofMessages [plainMessage "M" 0x1a0#32 8 [longSignal "s" 0]] (by simp [plainMessage])

theorem oneLong_laidOut : oneLong.LaidOut where
  known := by decide +kernel
  aligned := by decide +kernel
  apart := by decide +kernel
  visible := by decide +kernel

def oneLongState (v : Nat) : oneLong.State where
  message := fun _ => MessageState.initial
  signalVector := fun _ => Binary64.ofNat v
  alarm := fun _ => 0
  tick := 0#32

/-- A value beyond 16 bits is stored in an `int64_t` field without its upper part. -/
theorem not_marshal_roundTrip : ¬ ∀ (n : Network), n.LaidOut → ∀ s : n.State,
    MarshalStores n s ∧ MarshalRestores n s := by
  intro h
  have hfield := (h oneLong oneLong_laidOut (oneLongState 70000)).1.1
  have hno : ¬ ∀ mi ∈ oneLong.marshalList,
      mi.signal.raw ((oneLong.marshalSignalsToMessages oneLong.marshalList
        (oneLongState 70000)).message mi.message).buffer =
      mi.signal.storedRaw ((oneLongState 70000).signalVector mi.signalVectorIndex)
        ((oneLongState 70000).message mi.message).buffer := by decide +kernel
  exact hno hfield

end Network
end DseNetwork
