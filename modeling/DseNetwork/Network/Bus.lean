import DseNetwork.Lib.Simulation
import DseNetwork.Network.Carried
import DseNetwork.Network.Checksum
import DseNetwork.Network.Progress

/-
Models on one bus.

In a round every model makes a step, on the frames that the others wrote in the round
before: each frame once, in whatever order.  A message that one model alone writes is
then a register with one writer, of which the structs of the other models are copies.
-/

namespace DseNetwork

structure Bus (κ : Type) where
  peers : List κ
  nodup : peers.Nodup
  complete : ∀ k, k ∈ peers
  model : κ → NetworkModel

namespace Bus

section
variable {κ : Type} (b : Bus κ)

structure State where
  node : ∀ k, ModelState (b.model k).network
  /-- The frames that a model reads in the next round. -/
  inbox : κ → List CanMessage

abbrev Traces : Type := ∀ k, StepTrace (b.model k).network

abbrev BusStep : Type := Step b.State (κ → StepInput) b.Traces

variable [DecidableEq κ]

/-- The frames that the other models wrote. -/
def written (trace : b.Traces) (k : κ) : List CanMessage :=
  (b.peers.filter (· ≠ k)).flatMap (fun j => (trace j).tx.sent.map (·.frame))

structure Round (s : b.State) (input : κ → StepInput) (trace : b.Traces) (s' : b.State) :
    Prop where
  frames : ∀ k, (input k).frames = s.inbox k
  step : ∀ k, (b.model k).modelStep (input k) (s.node k) = .ok (s'.node k, trace k)
  delivered : ∀ k, (s'.inbox k).Perm (b.written trace k)

def system : System b.State (κ → StepInput) b.Traces where
  init s := (∀ k, (b.model k).system.init (s.node k)) ∧ ∀ k, s.inbox k = []
  next := b.Round

end

variable {κ : Type} [DecidableEq κ] {b : Bus κ}

theorem reachable_node {s : b.State} (h : b.system.Reachable s) (k : κ) :
    (b.model k).system.Reachable (s.node k) := by
  refine h.invariant (P := fun s => (b.model k).system.Reachable (s.node k)) ?_ ?_
  · exact fun s hinit => .init (hinit.1 k)
  · exact fun s input trace s' _ hs hn => hs.next (hn.step k)

/-! ## Rounds that complete -/

/-- The inputs of a round, but for the frames, which come over the bus. -/
def onInbox (inbox : κ → List CanMessage) (input : κ → StepInput) : κ → StepInput :=
  fun k => { input k with frames := inbox k }

theorem round_completes (h : ∀ k, (b.model k).Robust) (input : κ → StepInput) {s : b.State}
    (hs : b.system.Reachable s) :
    ∃ trace s', b.system.next s (onInbox s.inbox input) trace s' := by
  have hstep := fun k =>
    (h k).modelStep_completes (onInbox s.inbox input k) (reachable_node hs k)
  choose r hr using hstep
  refine ⟨fun k => (r k).2,
    { node := fun k => (r k).1, inbox := fun k => b.written (fun k => (r k).2) k }, ?_⟩
  exact ⟨fun _ => rfl, hr, fun _ => List.Perm.refl _⟩

/-- On a bus of robust models there is no end to the rounds, whatever else comes from
outside. -/
theorem rounds_go_on (h : ∀ k, (b.model k).Robust) (inputs : List (κ → StepInput))
    {s : b.State} (hs : b.system.Reachable s) :
    ∃ l s', b.system.Run s l s' ∧ l.length = inputs.length ∧
      List.Forall₂ (fun (e : b.BusStep) input => e.input = onInbox e.before.inbox input)
        l inputs := by
  induction inputs generalizing s with
  | nil => exact ⟨[], s, .nil, rfl, .nil⟩
  | cons input rest ih =>
    obtain ⟨trace, s₁, hround⟩ := round_completes h input hs
    obtain ⟨l, s', hrun, hlen, hinputs⟩ := ih (hs.next hround)
    exact ⟨_, s', hrun.cons hround, by simp [hlen], .cons rfl hinputs⟩

/-- Rounds in which no scalar is changed from outside. -/
theorem rounds_left_alone (h : ∀ k, (b.model k).Robust) (n : Nat) {s : b.State}
    (hs : b.system.Reachable s) :
    ∃ l s', b.system.Run s l s' ∧ l.length = n ∧
      ∀ e ∈ l, ∀ k, (e.input k).scalar = (e.before.node k).scalar := by
  induction n generalizing s with
  | zero => exact ⟨[], s, .nil, rfl, fun e he => absurd he List.not_mem_nil⟩
  | succ n ih =>
    obtain ⟨trace, s₁, hround⟩ := round_completes h
      (fun k => { StepInput.ofFrames [] 0 with scalar := (s.node k).scalar }) hs
    obtain ⟨l, s', hrun, hlen, hscalar⟩ := ih (hs.next hround)
    refine ⟨_, s', hrun.cons hround, by simp [hlen], List.forall_mem_cons.mpr ⟨?_, hscalar⟩⟩
    exact fun _ => rfl

/-! ## A message of one writer -/

section
variable {owner : κ} {i : (b.model owner).network.Ref}

/-- Message `i` of the writer, on another model. -/
structure Copy (b : Bus κ) (owner : κ) (i : (b.model owner).network.Ref) where
  node : κ
  ref : (b.model node).network.Ref
  other : node ≠ owner
  frameId : ((b.model node).network.msg ref).frameId =
    ((b.model owner).network.msg i).frameId

/-- The models know the message by its identifier alone, and alike. -/
structure Shared (b : Bus κ) (owner : κ) (i : (b.model owner).network.Ref) : Prop where
  carried : ((b.model owner).network.msg i).Carried
  sole : (b.model owner).network.Sole i
  same : ∀ c : b.Copy owner i,
    (b.model c.node).network.msg c.ref = (b.model owner).network.msg i
  copySole : ∀ c : b.Copy owner i, (b.model c.node).network.Sole c.ref

/-- The struct of the writer, the structs of the others, and the fields on their way. -/
def register (owner : κ) (i : (b.model owner).network.Ref) (s : b.State) :
    Replica.State (b.Copy owner i) ((b.model owner).network.msg i).Fields where
  writer := ((b.model owner).network.msg i).fields ((s.node owner).network.message i).buffer
  copy c := ((b.model owner).network.msg i).fields
    ((s.node c.node).network.message c.ref).buffer
  inbox c := (NetworkModel.framesFor ((b.model owner).network.msg i) (s.inbox c.node)).map
    (NetworkModel.carried ((b.model owner).network.msg i))

/-- A round in which the network is on at the writer, other models change no signal of
the message but at the writer, and the checksums show the changes of the fields. -/
structure Undisturbed (owner : κ) (i : (b.model owner).network.Ref) (e : b.BusStep) :
    Prop where
  on : (b.model owner).netOff (e.input owner).scalar = false
  kept : ∀ c : b.Copy owner i, NetworkModel.KeptScalars (b.model c.node) (e.input c.node)
    (e.before.node c.node) c.ref
  shows : NetworkModel.HashShows ((b.model owner).network.msg i)
    (NetworkModel.packedBuffer (e.output owner) i)
    ((e.before.node owner).network.message i).buffer
  copyShows : ∀ c : b.Copy owner i,
    ∀ f ∈ NetworkModel.framesFor ((b.model owner).network.msg i) (e.before.inbox c.node),
      NetworkModel.HashShows ((b.model owner).network.msg i)
        (Network.unpackFrame ((b.model owner).network.msg i) f
          ((e.before.node c.node).network.message c.ref).buffer).dst
        ((e.before.node c.node).network.message c.ref).buffer

/-- What undisturbed rounds keep. -/
structure Holds (owner : κ) (i : (b.model owner).network.Ref) (s : b.State) : Prop where
  reachable : b.system.Reachable s
  quiet : NetworkModel.framesFor ((b.model owner).network.msg i) (s.inbox owner) = []
  inRange : NetworkModel.AllInRange ((b.model owner).network.msg i) (b.register owner i s).writer
  shown : ∀ c : b.Copy owner i, NetworkModel.Shown (s.node c.node) c.ref
  flight : ∀ k, k ≠ owner →
    NetworkModel.OneCarried ((b.model owner).network.msg i) (s.inbox k)

theorem init_holds (h : b.Shared owner i) {s : b.State} (hs : b.system.init s) :
    Holds owner i s ∧ (Replica.system (b.Copy owner i) _).init (b.register owner i s) := by
  obtain ⟨hnodes, hinbox⟩ := hs
  obtain ⟨scalar, howner⟩ := hnodes owner
  obtain ⟨hfields, _⟩ := NetworkModel.modelCreate_fields h.carried h.sole scalar
  rw [← howner] at hfields
  have hcopies : ∀ c : b.Copy owner i,
      ((b.model owner).network.msg i).fields
          ((s.node c.node).network.message c.ref).buffer =
        NetworkModel.initialFields ((b.model owner).network.msg i) ∧
      NetworkModel.Shown (s.node c.node) c.ref := by
    intro c
    obtain ⟨scalar', hnode⟩ := hnodes c.node
    have hcreated := NetworkModel.modelCreate_fields (m := b.model c.node)
      (by rw [h.same c]; exact h.carried) (h.copySole c) scalar'
    rw [← hnode, h.same c] at hcreated
    exact hcreated
  refine ⟨⟨.init ⟨hnodes, hinbox⟩, ?_, ?_, fun c => (hcopies c).2, fun k _ => .inl ?_⟩,
    fun c => ⟨?_, ?_⟩⟩
  · rw [hinbox]
    rfl
  · show NetworkModel.AllInRange _ (NetworkMessage.fields _ _)
    rw [hfields]
    exact NetworkModel.allInRange_initialFields h.carried
  · rw [hinbox]
    rfl
  · exact (hcopies c).1.trans hfields.symm
  · show List.map _ (NetworkModel.framesFor _ (s.inbox c.node)) = []
    rw [hinbox]
    rfl

/-! ### One round -/

theorem flatMap_single {α β : Type} {l : List α} {a : α} {f : α → List β} (hnodup : l.Nodup)
    (ha : a ∈ l) (h : ∀ x ∈ l, x ≠ a → f x = []) : l.flatMap f = f a := by
  induction l with
  | nil => cases ha
  | cons x rest ih =>
    obtain ⟨hx, hrest⟩ := List.nodup_cons.mp hnodup
    rw [List.flatMap_cons]
    rcases List.mem_cons.mp ha with rfl | hmem
    · have hnone : rest.flatMap f = [] := List.flatMap_eq_nil_iff.mpr (fun y hy =>
        h y (List.mem_cons_of_mem _ hy) (fun heq => hx (heq ▸ hy)))
      rw [hnone, List.append_nil]
    · have hne : x ≠ a := fun heq => hx (heq ▸ hmem)
      rw [h x List.mem_cons_self hne, List.nil_append]
      exact ih hrest hmem (fun y hy => h y (List.mem_cons_of_mem _ hy))

/-- Of a message that nobody else writes, a model finds what its writer wrote. -/
theorem Round.framesFor_eq {s s' : b.State} {input : κ → StepInput} {trace : b.Traces}
    (h : b.Round s input trace s') (nm : NetworkMessage)
    (hnone : ∀ k, k ≠ owner → NetworkModel.sentFrames (trace k) nm.frameId = []) :
    NetworkModel.framesFor nm (s'.inbox owner) = [] ∧
      ∀ k, k ≠ owner → (NetworkModel.framesFor nm (s'.inbox k)).Perm
        (NetworkModel.sentFrames (trace owner) nm.frameId) := by
  have hwritten : ∀ k, (b.written trace k).filter (fun f => f.frameId = nm.frameId) =
      (b.peers.filter (· ≠ k)).flatMap
        (fun j => NetworkModel.sentFrames (trace j) nm.frameId) := by
    intro k
    rw [written, List.filter_flatMap]
    rfl
  constructor
  · have hperm := (h.delivered owner).filter (fun f => f.frameId = nm.frameId)
    rw [hwritten owner, List.flatMap_eq_nil_iff.mpr (fun j hj =>
      hnone j (by simpa using (List.mem_filter.mp hj).2))] at hperm
    exact hperm.eq_nil
  · intro k hk
    have hperm := (h.delivered k).filter (fun f => f.frameId = nm.frameId)
    rw [hwritten k, flatMap_single (b.nodup.filter _)
      (List.mem_filter.mpr ⟨b.complete owner, by simpa using Ne.symm hk⟩)
      (fun j _ hj => hnone j hj)] at hperm
    exact hperm

theorem Round.copies (h : b.Shared owner i) {e : b.BusStep} (hs : Holds owner i e.before)
    (hround : b.Round e.before e.input e.output e.after) (hu : Undisturbed owner i e)
    (c : b.Copy owner i) :
    NetworkModel.writes (e.output c.node) c.ref = 0 ∧
      NetworkModel.Shown (e.after.node c.node) c.ref ∧
      (b.register owner i e.after).copy c =
        Replica.latest ((b.register owner i e.before).copy c)
          ((b.register owner i e.before).inbox c) := by
  obtain ⟨g⟩ := NetworkModel.modelStep_ok (hround.step c.node)
  have hstep := g.copy_step (reachable_node hs.reachable c.node) (h.same c) h.carried
    (h.copySole c) (hs.shown c) (hu.kept c)
    (by rw [hround.frames]; exact hs.flight c.node c.other)
    (by rw [hround.frames]; exact hu.copyShows c)
  rw [hround.frames] at hstep
  exact hstep

theorem Round.register (h : b.Shared owner i) {e : b.BusStep} (hs : Holds owner i e.before)
    (hround : b.Round e.before e.input e.output e.after) (hu : Undisturbed owner i e) :
    Holds owner i e.after ∧ Replica.Round (b.register owner i e.before)
      (b.register owner i e.after).writer (b.register owner i e.after) := by
  have hcopies := Round.copies h hs hround hu
  obtain ⟨g⟩ := NetworkModel.modelStep_ok (hround.step owner)
  have hreach := reachable_node hs.reachable owner
  have hnone : NetworkModel.NotReceived (e.output owner) i := by
    obtain ⟨hframes, _⟩ :=
      h.sole.framesOf (Network.muxMi_eq_none h.carried.noMux) g.decode
    rw [hround.frames] at hframes
    intro r hr hmem
    have hframe : r.frame ∈ Network.framesOf i (e.output owner).rx.received :=
      List.mem_map_of_mem (List.mem_filter.mpr ⟨hr, decide_eq_true hmem⟩)
    rw [hframes.trans hs.quiet] at hframe
    cases hframe
  obtain ⟨hrange, hsent⟩ := g.sender_step (NetworkModel.reachable_endOfStep _ hreach)
    h.carried.toConveyed h.sole hnone hu.on hs.inRange hu.shows
  have hothers : ∀ k, k ≠ owner → NetworkModel.sentFrames (e.output k)
      ((b.model owner).network.msg i).frameId = [] := by
    intro k hk
    obtain ⟨gk⟩ := NetworkModel.modelStep_ok (hround.step k)
    exact gk.sentFrames_eq_nil (fun j hj => (hcopies ⟨k, j, hk, hj⟩).1)
  obtain ⟨hquiet, harrived⟩ := hround.framesFor_eq ((b.model owner).network.msg i) hothers
  refine ⟨{
    reachable := hs.reachable.next hround
    quiet := hquiet
    inRange := hrange
    shown := fun c => (hcopies c).2.1
    flight := fun k hk => ?_ }, {
    writer := rfl
    copy := fun c => (hcopies c).2.2
    sent := fun c => ?_ }⟩
  · have hperm := harrived k hk
    rcases hsent with ⟨f, hone, hcarries⟩ | ⟨hnil, _⟩
    · rw [hone] at hperm
      exact .inr ⟨f, _, List.perm_singleton.mp hperm, hcarries, hrange⟩
    · rw [hnil] at hperm
      exact .inl hperm.eq_nil
  · have hperm := harrived c.node c.other
    rcases hsent with ⟨f, hone, hcarries⟩ | ⟨hnil, hsame⟩
    · rw [hone] at hperm
      refine .inl ?_
      show (NetworkModel.framesFor _ _).map _ = _
      rw [List.perm_singleton.mp hperm, List.map_singleton, hcarries.carried_eq]
      rfl
    · rw [hnil] at hperm
      refine .inr ⟨?_, hsame⟩
      show (NetworkModel.framesFor _ _).map _ = _
      rw [hperm.eq_nil]
      rfl

/-! ### Runs -/

/-- Undisturbed rounds of the bus are rounds of the register. -/
theorem simulates_register (h : b.Shared owner i) :
    (b.system.restrict (Undisturbed owner i)).Simulates
      (Replica.system (b.Copy owner i) ((b.model owner).network.msg i).Fields)
      (fun s r => Holds owner i s ∧ r = b.register owner i s)
      (fun e e' => Holds owner i e.before ∧ b.Round e.before e.input e.output e.after ∧
        Undisturbed owner i e ∧ e'.before = b.register owner i e.before ∧
        e'.after = b.register owner i e.after) := by
  rintro s input trace s' _ ⟨hs, rfl⟩ ⟨hround, hu⟩
  obtain ⟨hholds, hregister⟩ := Round.register h (e := ⟨s, input, trace, s'⟩) hs hround hu
  exact ⟨_, (), _, hregister, ⟨hholds, rfl⟩, hs, hround, hu, rfl, rfl⟩

/-- A copy after a round has what the writer had before it: the fields of its struct and,
decoded from the value the writer had, the value of each signal.  It sends nothing. -/
structure Mirrors (owner : κ) (i : (b.model owner).network.Ref) (e : b.BusStep)
    (c : b.Copy owner i) : Prop where
  raw : ∀ ns ∈ ((b.model owner).network.msg i).signals,
    ns.raw ((e.after.node c.node).network.message c.ref).buffer =
      ns.raw ((e.before.node owner).network.message i).buffer
  value : ∀ mi ∈ (b.model owner).network.items i, ∀ mj ∈ (b.model c.node).network.items c.ref,
    mj.signal = mi.signal →
      mi.signal.funcs.isInRange (mi.signal.encodeRaw
        ((e.before.node owner).network.signalVector mi.signalVectorIndex)) = true →
      (e.after.node c.node).network.signalVector mj.signalVectorIndex =
        mi.signal.funcs.decode (mi.signal.encodeRaw
          ((e.before.node owner).network.signalVector mi.signalVectorIndex))
  silent : NetworkModel.writes (e.output c.node) c.ref = 0

end

/-! ## A byte on two models -/

/-- The first model has the byte in its SignalVector, the second only listens. -/
def byteBus : Bus Bool where
  peers := [true, false]
  nodup := by decide
  complete := by decide
  model k := { NetworkModel.oneByte with svSignal := if k then ["s"] else [] }

def byteRef (k : Bool) : (byteBus.model k).network.Ref := ⟨0, Nat.zero_lt_one⟩

theorem byteRef_eq (k : Bool) (j : (byteBus.model k).network.Ref) : j = byteRef k :=
  Subsingleton.elim (α := Fin 1) _ _

def byteMessage : NetworkMessage :=
  plainMessage "M" 0x1a0#32 1 [byteSignal "s" 0 (fun _ => true)]

theorem byteMessage_carried : byteMessage.Carried where
  isStruct := ⟨by decide +kernel, by decide +kernel⟩
  known := by decide +kernel
  visible := by decide +kernel
  noMux := by decide +kernel
  event := rfl
  noEncode := rfl
  noDecode := rfl
  packs := rfl
  keeps := Network.refusalKeeps_copyFields rfl
  carries := by
    rintro pack ⟨⟩ payload b b' _
    refine ⟨rfl, NetworkMessage.fields_eq_iff.mpr (fun ns hns => ?_)⟩
    rw [List.mem_singleton.mp hns]
    refine Memory.load_congr (fun a _ ha => ?_)
    obtain rfl : a = 0 := Nat.lt_one_iff.mp ha
    rfl
  roundTrips := fun ns hns r hr => by
    cases List.mem_singleton.mp hns
    exact byteSignal_encode_decode "s" 0 (fun _ => true) r hr
  fits := fun ns hns r _ _ => by
    cases List.mem_singleton.mp hns
    exact MemberType.convert_eq (by decide) r
  initial := by decide +kernel

theorem byteBus_sole (k : Bool) : (byteBus.model k).network.Sole (byteRef k) where
  alone := fun j _ => byteRef_eq k j
  ahead := (by decide +kernel : NoZeroAhead 0x1a0#32 [0x1a0#32])
  listed := fun ns hns => by
    have hitems : (byteBus.model k).network.items (byteRef k) =
        [⟨byteSignal "s" 0 (fun _ => true), byteRef k, 0⟩] := rfl
    rw [hitems, List.mem_singleton.mp hns]
    exact ⟨_, List.mem_singleton.mpr rfl, rfl⟩

def byteCopy : byteBus.Copy true (byteRef true) := ⟨false, byteRef false, by decide, rfl⟩

theorem byteCopy_eq (c : byteBus.Copy true (byteRef true)) : c = byteCopy := by
  obtain ⟨k, j, hother, _⟩ := c
  cases k with
  | true => exact absurd rfl hother
  | false =>
    obtain rfl := byteRef_eq false j
    rfl

theorem byteBus_shared : byteBus.Shared true (byteRef true) where
  carried := byteMessage_carried
  sole := byteBus_sole true
  same := fun c => by
    rw [byteCopy_eq c]
    rfl
  copySole := fun c => by
    rw [byteCopy_eq c]
    exact byteBus_sole false

theorem byteMessage_hashShows (b b' : Memory) : NetworkModel.HashShows byteMessage b b' := by
  intro hsum
  by_contra hne
  have hdiffers : DiffersAt 0 b b' 1 := by
    refine ⟨fun hbytes => hne (NetworkMessage.fields_eq_iff.mpr (fun ns hns => ?_)),
      fun a ha h0 _ => absurd (Nat.lt_one_iff.mp ha) h0⟩
    rw [List.mem_singleton.mp hns]
    exact Memory.load_congr (fun a _ ha => Memory.bytes_inj.mp hbytes a ha)
  exact hdiffers.checksum_ne hsum

theorem byteBus_robust (k : Bool) : (byteBus.model k).Robust :=
  .of_single byteMessage (fun i => by rw [byteRef_eq k i]; rfl) rfl (.of_nil rfl rfl)
    (by decide) (Nat.le_refl 2) (by decide) (by decide)

def byteBusCreated : byteBus.State where
  node k := (byteBus.model k).modelCreate fun _ => ⟨0#64⟩
  inbox _ := []

def byteBusInput (value : Nat) (_ : Bool) : StepInput :=
  { StepInput.ofFrames [] 0 with scalar := fun _ => Binary64.ofNat value }

end Bus
end DseNetwork
