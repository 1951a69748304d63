import DseNetwork.MessageLib.Reencode
import DseNetwork.Network.Exchange

/-
Messages of the stub library on a bus.

A network message has the functions, the payload and the members of a message of the
library.  It is then conveyed from model to model, and an exchange of answers, which the
scaled signals start, is over after three of them.
-/

namespace DseNetwork
namespace MessageLib
namespace Stub

/-- A signal of a network file, loaded with the functions of the library. -/
def LibrarySignal.networkSignal (ls : LibrarySignal) (name : String) (initValue : Double) :
    NetworkSignal where
  name := some name
  signalName := name
  memberType := ls.type
  bufferOffset := ls.dbc.memberOffset
  initValue := initValue
  internal := false
  value := ⟨0#64⟩
  muxSignal := false
  funcs := ls.funcs

/-- An event message of a network file that has a message of the library without
multiplexing behind it. -/
structure Realizes (nm : NetworkMessage) (e : LibraryMessage) : Prop where
  mem : e ∈ library
  plain : ∀ sig ∈ e.dbc.signals, sig.role = .plain
  pack : nm.packFunc = some e.pack
  unpack : nm.unpackFunc = some e.unpack
  payloadLen : nm.payloadLen = e.dbc.length
  drawn : ∀ ns ∈ nm.signals, ∃ ls ∈ signals, ∃ name initValue,
    ls.dbc ∈ e.dbc.signals ∧ ns = ls.networkSignal name initValue
  complete : ∀ sig ∈ e.dbc.signals, ∃ ns ∈ nm.signals,
    ns.bufferOffset = sig.memberOffset ∧ ns.memberType.size = sig.memberSize
  isStruct : nm.IsStruct
  event : nm.cycleTimeMs = 0
  noEncode : nm.encodeFunctions = []
  noDecode : nm.decodeFunctions = []

theorem signals_known : ∀ ls ∈ signals, ls.type ≠ .unknown := by decide

namespace Realizes

variable {nm : NetworkMessage} {e : LibraryMessage}

theorem present (h : Realizes nm e) {sig : DbcSignal} (hsig : sig ∈ e.dbc.signals) (value : Nat) :
    sig ∈ e.dbc.present value :=
  List.mem_append_left _ (List.mem_filter.mpr ⟨hsig, decide_eq_true (.inl (h.plain sig hsig))⟩)

theorem unpackFrame_eq (h : Realizes nm e) (f : CanMessage) (b : Memory) :
    Network.unpackFrame nm f b = e.unpack b f.mem f.len := by
  rw [Network.unpackFrame, h.unpack]

/-- Equal values of the member are equal values of the signal. -/
theorem raw_eq {ns : NetworkSignal} {sig : DbcSignal} (hal : ns.Aligned)
    (hoffset : ns.bufferOffset = sig.memberOffset) (hsize : ns.memberType.size = sig.memberSize)
    {b b' : Memory} (heq : sig.raw b = sig.raw b') : ns.raw b = ns.raw b' := by
  refine Memory.load_congr (fun a hlow hhigh => Memory.eq_of_load_eq heq ?_ ?_)
  · rwa [NetworkSignal.address_of_aligned hal, hoffset] at hlow
  · rwa [NetworkSignal.address_of_aligned hal, hoffset, hsize] at hhigh

/-- A value in range of the network signal is one of the signal of the library. -/
theorem fits (h : Realizes nm e) {ls : LibrarySignal} (hls : ls ∈ signals) {name : String}
    {initValue : Double} (hns : ls.networkSignal name initValue ∈ nm.signals) {b : Memory}
    (hin : (ls.networkSignal name initValue).InRange b) : ls.dbc.Fits b := by
  refine (signals_range ls hls).fits (signals_full ls hls) ?_
  have haddress := NetworkSignal.address_of_aligned (h.isStruct.aligned _ hns)
  have hraw : (ls.networkSignal name initValue).raw b = ls.raw b := by
    show b.load ls.type.size (ls.networkSignal name initValue).address = _
    rw [haddress]
    rfl
  rw [← hraw]
  exact hin.2

theorem refusalKeeps (h : Realizes nm e) : Network.RefusalKeeps nm := by
  intro f b hrc
  obtain ⟨_, _, hunpack⟩ := library_asDescribed e h.mem
  rw [h.unpackFrame_eq] at hrc ⊢
  rcases Nat.lt_or_ge f.len e.dbc.length with hlt | hge
  · rw [hunpack.refused _ _ _ hlt]
  · exact absurd (hunpack.rc _ _ _ hge) hrc

theorem writesMembers (h : Realizes nm e) : nm.WritesMembers := by
  intro f b a hout
  obtain ⟨_, _, hunpack⟩ := library_asDescribed e h.mem
  rw [h.unpackFrame_eq]
  refine hunpack.others _ _ _ a (fun sig hsig => ?_)
  obtain ⟨ns, hns, hoffset, hsize⟩ := h.complete sig (DbcMessage.mem_signals hsig)
  have hmisses := hout ns hns
  rwa [hoffset, hsize] at hmisses

/-- The bits of a field are in the bytes of the frame. -/
theorem holds_frame {d : DbcMessage} (hd : d.WellFormed) {sig : DbcSignal}
    (hsig : sig ∈ d.signals) {m : Memory} {w : Nat} {v : BitVec w} (h : sig.field.Holds m v) :
    sig.field.Holds (Memory.ofBytes (m.bytes d.length)) v := by
  intro k hk
  rw [← h k hk]
  have hwithin : sig.field.pos k < 8 * d.length :=
    hd.within sig hsig k (by rwa [sig.field_len] at hk)
  unfold Memory.bit
  rw [Memory.ofBytes_bytes m (by omega)]

theorem carries (h : Realizes nm e) {pack : PackFunc} (hpack : nm.packFunc = some pack)
    (payload b b' : Memory) (hin : ∀ ns ∈ nm.signals, ns.InRange b) :
    (Network.unpackFrame nm (nm.frameOf pack payload b) b').rc = 0 ∧
      nm.fields (Network.unpackFrame nm (nm.frameOf pack payload b) b').dst = nm.fields b := by
  obtain ⟨hd, hpacked, hunpack⟩ := library_asDescribed e h.mem
  obtain rfl := Option.some.inj (h.pack.symm.trans hpack)
  have hmem : (nm.frameOf e.pack payload b).mem =
      Memory.ofBytes ((e.pack payload b e.dbc.length).dst.bytes e.dbc.length) := by
    rw [CanMessage.mem, NetworkMessage.frameOf, h.payloadLen]
  have hlen : (nm.frameOf e.pack payload b).len = e.dbc.length := by
    rw [CanMessage.len, NetworkMessage.frameOf, Memory.length_bytes, h.payloadLen]
  rw [h.unpackFrame_eq, hmem, hlen]
  refine ⟨hunpack.rc _ _ _ (Nat.le_refl _), NetworkMessage.fields_eq_iff.mpr (fun ns hns => ?_)⟩
  obtain ⟨ls, hls, name, initValue, hsig, rfl⟩ := h.drawn ns hns
  refine raw_eq (h.isStruct.aligned _ hns) rfl (signals_range ls hls).1 ?_
  rw [hunpack.reads _ _ _ (Nat.le_refl _) ls.dbc (h.present hsig _)]
  have hpos : 0 < ls.dbc.field.len := by
    rw [ls.dbc.field_len]
    exact hd.len_pos _ hsig
  have hholds := hpacked.holds payload b _ (Nat.le_refl _) ls.dbc (h.present hsig _)
  exact ((holds_frame hd hsig hholds).read_eq_iff hpos ls.dbc.signed).mpr
    (h.fits hls hns (hin _ hns))

/-- A frame that is long enough carries fields. -/
theorem carries_own (h : Realizes nm e) {f : CanMessage} (hlen : e.dbc.length ≤ f.len) :
    NetworkModel.Carries nm f (NetworkModel.carried nm f) := by
  intro b
  obtain ⟨_, _, hunpack⟩ := library_asDescribed e h.mem
  rw [NetworkModel.carried, h.unpackFrame_eq, h.unpackFrame_eq]
  refine ⟨hunpack.rc _ _ _ hlen, NetworkMessage.fields_eq_iff.mpr (fun ns hns => ?_)⟩
  obtain ⟨ls, hls, name, initValue, hsig, rfl⟩ := h.drawn ns hns
  refine raw_eq (h.isStruct.aligned _ hns) rfl (signals_range ls hls).1 ?_
  rw [hunpack.reads _ _ _ hlen ls.dbc (h.present hsig _),
    hunpack.reads _ _ _ hlen ls.dbc (h.present hsig _)]

theorem conveyed (h : Realizes nm e) : nm.Conveyed where
  isStruct := h.isStruct
  known := fun ns hns => by
    obtain ⟨ls, hls, _, _, _, rfl⟩ := h.drawn ns hns
    exact signals_known ls hls
  visible := fun ns hns => by
    obtain ⟨_, _, _, _, _, rfl⟩ := h.drawn ns hns
    rfl
  noMux := fun ns hns => by
    obtain ⟨_, _, _, _, _, rfl⟩ := h.drawn ns hns
    rfl
  event := h.event
  noEncode := h.noEncode
  noDecode := h.noDecode
  packs := by
    rw [h.pack]
    rfl
  keeps := h.refusalKeeps
  carries := fun _ hpack payload b b' hin => h.carries hpack payload b b' hin

end Realizes

/-! ## Answers -/

/-- Encoded again, a value stays in range, and three times is enough for it to come to rest. -/
theorem LibrarySignal.SettlesWithin.three {ls : LibrarySignal} {k : Nat} (h : ls.SettlesWithin k)
    (hk : k ≤ 3) {raw : ls.type.Raw} (hraw : ls.funcs.isInRange raw = true) :
    ls.funcs.isInRange (ls.funcs.reencode raw) = true ∧
      ls.funcs.reencode^[3 + 1] raw = ls.funcs.reencode^[3] raw := by
  obtain ⟨c, hc, hin, hrests⟩ := h raw hraw
  have hlate : ∀ n, ls.funcs.reencode^[c + n] raw = ls.funcs.reencode^[c] raw := by
    intro n
    induction n with
    | zero => rfl
    | succ n ih =>
      rw [← Nat.add_assoc, Function.iterate_succ_apply', ih, hrests]
  constructor
  · by_cases hzero : c = 0
    · subst hzero
      have hfixed : ls.funcs.reencode raw = raw := hrests
      rwa [hfixed]
    · exact (hin 1 (by omega)).1
  · have hthree : c + (3 - c) = 3 := by omega
    have hfour : c + (4 - c) = 3 + 1 := by omega
    rw [← hfour, hlate, ← hthree, hlate]

namespace Realizes

variable {nm : NetworkMessage} {e : LibraryMessage}

/-- Packing answers each field by itself, with the functions of the library. -/
theorem reencoded_iterate (h : Realizes nm e)
    (hnarrow : ∀ ns ∈ nm.signals, ns.memberType ≠ .int64) {v : nm.Fields}
    (hv : NetworkModel.AllInRange nm v) (n : Nat) :
    NetworkModel.AllInRange nm ((NetworkModel.reencoded nm)^[n] v) ∧
      ∀ ns, (NetworkModel.reencoded nm)^[n] v ns = ns.1.funcs.reencode^[n] (v ns) := by
  induction n with
  | zero => exact ⟨hv, fun _ => rfl⟩
  | succ n ih =>
    obtain ⟨hin, heq⟩ := ih
    rw [Function.iterate_succ_apply']
    refine ⟨hin.reencoded, fun ns => ?_⟩
    rw [Function.iterate_succ_apply', ← heq ns]
    generalize (NetworkModel.reencoded nm)^[n] v = w at hin
    have hencode : ns.1.encodeRaw (ns.1.funcs.decode (w ns)) = ns.1.funcs.reencode (w ns) :=
      NetworkSignal.encodeRaw_eq (hnarrow ns.1 ns.2) _
    have hrange : ns.1.funcs.isInRange (ns.1.funcs.reencode (w ns)) = true := by
      obtain ⟨ns, hns⟩ := ns
      obtain ⟨ls, hls, name, initValue, _, rfl⟩ := h.drawn ns hns
      exact ((signals_settle ls hls).three (by split <;> omega) (hin ⟨_, hns⟩)).1
    unfold NetworkModel.reencoded
    rw [hencode, if_pos hrange]

theorem rests (h : Realizes nm e) (hnarrow : ∀ ns ∈ nm.signals, ns.memberType ≠ .int64)
    {v : nm.Fields} (hv : NetworkModel.AllInRange nm v) :
    ∃ c, c ≤ 3 ∧ Exchange.Rests (NetworkModel.reencoded nm) v c := by
  refine Exchange.Rests.exists_le (funext fun ns => ?_)
  rw [(h.reencoded_iterate hnarrow hv (3 + 1)).2 ns, (h.reencoded_iterate hnarrow hv 3).2 ns]
  have hin := hv ns
  generalize v ns = raw at hin
  obtain ⟨ns, hns⟩ := ns
  obtain ⟨ls, hls, name, initValue, _, rfl⟩ := h.drawn ns hns
  exact ((signals_settle ls hls).three (by split <;> omega) hin).2

end Realizes

def radiusSignal : NetworkSignal :=
  LibrarySignal.networkSignal ⟨Dbc.radius, .uint8, exampleMessage2Radius⟩ "radius"
    (Binary64.ofNat 0)

/-- `example_message2` of `network.yaml`. -/
def radiusMessage : NetworkMessage where
  name := "example_message2"
  frameId := 0x1f1#32
  frameType := 0#8
  signals := [radiusSignal]
  container := none
  muxId := 0#32
  bufferLen := 8
  cycleTimeMs := 0
  payloadLen := 8
  packFunc := some stubExampleMessage2Pack
  unpackFunc := some stubExampleMessage2Unpack
  encodeFunctions := []
  decodeFunctions := []

theorem radiusMessage_realizes : Realizes radiusMessage ⟨dbcExampleMessage2, exampleMessage2,
    stubExampleMessage2Pack, stubExampleMessage2Unpack, rfl, rfl⟩ where
  mem := List.mem_cons_of_mem _ List.mem_cons_self
  plain := by decide
  pack := rfl
  unpack := rfl
  payloadLen := rfl
  drawn := fun ns hns => by
    obtain rfl := List.mem_singleton.mp hns
    exact ⟨⟨Dbc.radius, .uint8, exampleMessage2Radius⟩, by simp [signals], "radius",
      Binary64.ofNat 0, List.mem_singleton.mpr rfl, rfl⟩
  complete := fun sig hsig => by
    obtain rfl := List.mem_singleton.mp hsig
    exact ⟨radiusSignal, List.mem_singleton.mpr rfl, rfl, rfl⟩
  isStruct := ⟨by decide +kernel, by decide +kernel⟩
  event := rfl
  noEncode := rfl
  noDecode := rfl

/-- Two models of the message, of which the first has the radius in its SignalVector. -/
def radiusBus : Bus Bool where
  peers := [false, true]
  nodup := by decide
  complete
    | false => .head _
    | true => .tail _ (.head _)
  model k :=
    { network := .ofMessages [radiusMessage] (List.forall_mem_singleton.mpr (Nat.succ_ne_zero 7))
      svSignal := if k then ["radius"] else []
      netoffSignal := none
      stack := 2 }

def radiusRef (k : Bool) : (radiusBus.model k).network.Ref := ⟨0, Nat.zero_lt_one⟩

theorem radiusRef_eq (k : Bool) (j : (radiusBus.model k).network.Ref) : j = radiusRef k :=
  Subsingleton.elim (α := Fin 1) _ _

theorem radiusBus_robust (k : Bool) : (radiusBus.model k).Robust :=
  .of_single radiusMessage (fun i => by rw [radiusRef_eq k i]; rfl) rfl (.of_nil rfl rfl)
    (by decide) (Nat.le_refl 2) (by decide) (by decide)

def radiusPair : radiusBus.Pair where
  message := radiusMessage
  party := id
  apart := Bool.noConfusion
  ref := radiusRef
  same := fun _ => rfl
  sole := fun k => {
    alone := fun j _ => radiusRef_eq k j
    ahead := (by decide +kernel : NoZeroAhead 0x1f1#32 [0x1f1#32])
    listed := fun ns hns => by
      obtain rfl := List.mem_singleton.mp hns
      exact ⟨⟨radiusSignal, radiusRef k, 0⟩, List.mem_singleton.mpr rfl, rfl⟩ }
  others := fun x hx => absurd rfl (hx x)
  conveyed := radiusMessage_realizes.conveyed
  members := radiusMessage_realizes.writesMembers

def radiusInput (_ : Bool) : StepInput where
  scalar := fun _ => ⟨0x4011666666666666#64⟩
  frames := []
  modelTime := 0
  stopTime := 1 / 2000

def radiusCreated : radiusBus.State where
  node k := (radiusBus.model k).modelCreate fun _ => ⟨0#64⟩
  inbox _ := []

def radiusFrame : CanMessage := ⟨0x1f1#32, 0#8, [86#8, 0#8, 0#8, 0#8, 0#8, 0#8, 0#8, 0#8]⟩

/-- The first step packs 4.35 to 43 tenths. -/
theorem radius_first (k : Bool) : ∃ r,
    (radiusBus.model k).modelStep (radiusInput k) (radiusCreated.node k) = .ok r ∧
      r.2.tx.sent.map (·.frame) = (if k then [radiusFrame] else []) ∧
      radiusSignal.raw (r.1.network.message (radiusRef k)).buffer = if k then 43#_ else 0#_ := by
  have hcheck : ∀ k,
      (match (radiusBus.model k).modelStep (radiusInput k) (radiusCreated.node k) with
      | .error _ => false
      | .ok r => decide (r.2.tx.sent.map (·.frame) = (if k then [radiusFrame] else []) ∧
          radiusSignal.raw (r.1.network.message (radiusRef k)).buffer =
            if k then 43#_ else 0#_)) = true := by
    decide +kernel
  have hk := hcheck k
  split at hk
  · cases hk
  · rename_i r hr
    exact ⟨r, hr, of_decide_eq_true hk⟩

/-- One round later the second model is about to receive it. -/
theorem radius_moving : ∃ s, radiusPair.InFlight s ∧
    Exchange.Moving (NetworkModel.reencoded radiusMessage) false
      (NetworkModel.carried radiusMessage radiusFrame) 0 (radiusPair.exchange s) := by
  choose r hr hsent hraw using radius_first
  let s : radiusBus.State :=
    { node := fun k => (r k).1, inbox := fun k => radiusBus.written (fun k => (r k).2) k }
  have htrue : s.inbox true = [] := by
    show (r false).2.tx.sent.map (·.frame) ++ [] = []
    rw [hsent]
    rfl
  have hfalse : s.inbox false = [radiusFrame] := by
    show (r true).2.tx.sent.map (·.frame) ++ [] = [radiusFrame]
    rw [hsent]
    rfl
  have hreach : radiusBus.system.Reachable s := by
    refine .next (.init (s := radiusCreated) ⟨fun k => ⟨_, rfl⟩, fun _ => rfl⟩) ?_
      (i := radiusInput) (o := fun k => (r k).2)
    exact ⟨fun _ => rfl, hr, fun _ => List.Perm.refl _⟩
  have hcarried : radiusSignal.raw
      (Network.unpackFrame radiusMessage radiusFrame Memory.zero).dst = 43#_ := by
    decide +kernel
  have hcarries : NetworkModel.Carries radiusMessage radiusFrame
      (NetworkModel.carried radiusMessage radiusFrame) :=
    radiusMessage_realizes.carries_own (by decide)
  have hrange : NetworkModel.AllInRange radiusMessage
      (NetworkModel.carried radiusMessage radiusFrame) := by
    rintro ⟨ns, hns⟩
    obtain rfl := List.mem_singleton.mp hns
    show radiusSignal.funcs.isInRange (radiusSignal.raw _) = true
    rw [hcarried]
    rfl
  refine ⟨s, ⟨hreach, fun k => ?_⟩, ⟨?_, fun heq => ?_, ?_, ?_⟩⟩
  · cases k with
    | true => exact .inl (by rw [show s.inbox (radiusPair.party true) = [] from htrue]; rfl)
    | false =>
      refine .inr ⟨radiusFrame, _, ?_, hcarries, hrange⟩
      rw [show s.inbox (radiusPair.party false) = [radiusFrame] from hfalse]
      rfl
  · show ((NetworkModel.framesFor radiusMessage (s.inbox false)).map _).head? = _
    rw [hfalse]
    rfl
  · have hsame := NetworkMessage.fields_eq_iff.mp heq radiusSignal (List.mem_singleton.mpr rfl)
    have hzero : radiusSignal.raw ((s.node false).network.message (radiusRef false)).buffer =
        0#_ := hraw false
    have hdiffers := (hcarried.symm.trans hsame).trans hzero
    exact absurd hdiffers (by decide)
  · refine NetworkMessage.fields_eq_iff.mpr (fun ns hns => ?_)
    obtain rfl := List.mem_singleton.mp hns
    exact (hraw true).trans hcarried.symm
  · show ((NetworkModel.framesFor radiusMessage (s.inbox true)).map _).head? = none
    rw [htrue]
    rfl

/-- The checksum shows the change of the one byte. -/
theorem radius_hashShows {b b' : Memory} (h : ∀ a, a ≠ 0 → b a = b' a) :
    NetworkModel.HashShows radiusMessage b b' := by
  intro hsum
  by_contra hne
  have hdiffers : DiffersAt 0 b b' 8 := by
    refine ⟨fun hbytes => hne (NetworkMessage.fields_eq_iff.mpr (fun ns hns => ?_)),
      fun a _ h0 _ => h a h0⟩
    obtain rfl := List.mem_singleton.mp hns
    refine Memory.load_congr (fun a _ ha => Memory.bytes_inj.mp hbytes a ?_)
    have hlt : a < 1 := ha
    omega
  exact hdiffers.checksum_ne hsum

end Stub
end MessageLib
end DseNetwork
