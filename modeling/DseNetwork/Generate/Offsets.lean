import DseNetwork.Generate.GenNetwork
import Mathlib.Data.List.Forall2

/-
The layout of generated messages.

A container and its contained messages share a struct and keep different members of it.
The loops count the offset over all members, kept or not, so every message of a struct
has its members at the offsets of the one natural layout.
-/

namespace DseNetwork
namespace GenNetwork

/-! ## The natural layout of a struct -/

theorem lookup_size_pos {t : String} {size : Nat} (h : dataTypeSize.lookup t = some size) :
    0 < size := by
  have hall : ∀ e ∈ dataTypeSize, 0 < e.2 := by decide
  obtain ⟨_, _, hsplit, _⟩ := List.lookup_eq_some_iff.mp h
  exact hall (t, size) (by rw [hsplit]; simp)

theorem memberSizes_pos {members : List IndexMemberDecl} (h : ∀ s ∈ members, Known s) :
    ∀ size ∈ memberSizes members, 0 < size := by
  intro size hsize
  obtain ⟨s, hs, rfl⟩ := List.mem_map.mp hsize
  obtain ⟨size, hlookup⟩ := Option.isSome_iff_exists.mp (h s hs)
  rw [hlookup]
  exact lookup_size_pos hlookup

/-- The end of the last field, or zero. -/
def lastEnd (fields : List (Nat × Nat)) : Nat :=
  (fields.getLast?.map (fun f => f.1 + f.2)).getD 0

/-- The members lie in their struct as in naturally aligned C, and its size is the least
multiple of eight that holds them. -/
structure NaturalStruct (members : List IndexMemberDecl) : Prop where
  natural : Layout.Natural 0 (memberFields members)
  sizes : ∀ (k : Nat) (s : IndexMemberDecl) (f : Nat × Nat), members[k]? = some s →
    (memberFields members)[k]? = some f → dataTypeSize.lookup s.typeName = some f.2
  aligned : ∀ f ∈ memberFields members, f.2 ∣ f.1
  ordered : (memberFields members).Pairwise (fun f g => f.1 + f.2 ≤ g.1)
  within : ∀ f ∈ memberFields members, f.1 + f.2 ≤ structSize members
  size : IsLeast {x | 8 ∣ x ∧ lastEnd (memberFields members) ≤ x} (structSize members)

theorem naturalStruct {members : List IndexMemberDecl} (h : ∀ s ∈ members, Known s) :
    NaturalStruct members := by
  have hpos := memberSizes_pos h
  have hnatural := Layout.fields_natural hpos 0
  have hend : lastEnd (memberFields members) = Layout.extent 0 (memberSizes members) :=
    (Layout.extent_eq_last 0 (memberSizes members)).symm
  have hsize := Layout.alignUp_isLeast (show 0 < 8 by decide)
    (Layout.extent 0 (memberSizes members))
  refine ⟨hnatural, fun k s f hs hf => ?_, hnatural.dvd, hnatural.ordered, fun f hf => ?_,
    hend ▸ hsize⟩
  · have hsizes := congrArg (·[k]?) (Layout.fields_sizes 0 (memberSizes members))
    rw [List.getElem?_map, memberSizes, List.getElem?_map, hs] at hsizes
    rw [memberFields, memberSizes] at hf
    rw [hf] at hsizes
    obtain ⟨size, hlookup⟩ := Option.isSome_iff_exists.mp (h s (List.mem_of_getElem? hs))
    have hsize : f.2 = (dataTypeSize.lookup s.typeName).getD 0 := Option.some.inj hsizes
    rw [hsize, hlookup]
    rfl
  · exact (Layout.fields_le_extent 0 _ hpos f hf).trans hsize.1.2

/-! ## Generated annotations -/

/-- The annotation of a message or a signal under a key. -/
def annotation (annotations : Option Kind.Annotations) (key : String) : Option Kind.Value :=
  (annotations.getD []).lookup key

/-- A signal for a member of a struct, which the struct has at the offset of the field. -/
structure ForMember (go : CaseMappings) (signalStyle : Style) (signal : Kind.NetworkSignal)
    (member : IndexMemberDecl × (Nat × Nat)) : Prop where
  styled : signal.signal = getSignalName go member.1.name signalStyle
  name : annotation signal.annotations "struct_member_name" = some (.string member.1.name)
  offset : annotation signal.annotations "struct_member_offset" = some (.int member.2.1)
  type : annotation signal.annotations "struct_member_primitive_type" =
    some (.string member.1.typeName)

/-- A message of the struct `structName`.  Its signals are, in order, the members whose signal
names it keeps, each at its own offset. -/
structure LaidOut (go : CaseMappings) (signalStyle : Style) (message : Kind.NetworkMessage)
    (structName : String) (members : List IndexMemberDecl) (kept : String → Bool) : Prop where
  structName : annotation message.annotations "struct_name" = some (.string structName)
  structSize : annotation message.annotations "struct_size" = some (.int (structSize members)) ∨
    annotation message.annotations "struct_size" =
      some (.string (toString (GenNetwork.structSize members)))
  signals : List.Forall₂ (ForMember go signalStyle) (message.signals.getD [])
    ((members.zip (memberFields members)).filter
      (fun member => kept (getSignalName go member.1.name signalStyle)))

section
variable (go : CaseMappings)

/-- The message of a frame keeps all members of its struct, that of a container the headers. -/
def keepsOwn (frameInfo : FrameInfo) (name : String) : Bool :=
  !frameInfo.isContainer || (isHeaderId go name || isHeaderDlc go name)

/-- The message of a contained frame keeps the headers and the signals of the frame. -/
def keeps (frameInfo : FrameInfo) (name : String) : Bool :=
  isHeaderId go name || isHeaderDlc go name || frameInfo.signals.contains name

/-- What the messages of a struct keep: none without frame metadata, else the one of its own
frame, and with it those of the frames that are contained in it. -/
def messagesKeep (c : GenNetworkCommand) (fmd : FrameMetadata) (frames : List (String × FrameInfo))
    (structName : String) : List (String → Bool) :=
  match findFrameInfo fmd structName c.dbcName with
  | none => []
  | some frameInfo => keepsOwn go frameInfo ::
    if frameInfo.isContainer then
      (containedFrames frames (messageName go structName c.dbcName)).map (fun f => keeps go f.2)
    else []

end

/-- The members that are kept, by their signal names, have their names, offsets and types. -/
def Annotates (annotate : String → IndexMemberDecl → Nat → Option Kind.Annotations)
    (kept : String → Bool) : Prop :=
  ∀ name s offset,
    if kept name then ∃ annotations, annotate name s offset = some annotations ∧
      annotation (some annotations) "struct_member_name" = some (.string s.name) ∧
      annotation (some annotations) "struct_member_offset" = some (.int offset) ∧
      annotation (some annotations) "struct_member_primitive_type" = some (.string s.typeName)
    else annotate name s offset = none

variable {go : CaseMappings}

theorem containedAnnotations_annotates (frameInfo : FrameInfo) :
    Annotates (containedAnnotations go frameInfo) (keeps go frameInfo) := by
  intro name s offset
  rw [containedAnnotations, ← keeps]
  by_cases hkeeps : keeps go frameInfo name
  · rw [if_pos hkeeps, if_pos hkeeps]
    exact ⟨_, rfl, rfl, rfl, rfl⟩
  · rw [if_neg hkeeps, if_neg hkeeps]

theorem structAnnotations_annotates (frameInfo : FrameInfo) :
    Annotates (structAnnotations go frameInfo) (keepsOwn go frameInfo) := by
  intro name s offset
  unfold structAnnotations keepsOwn
  cases frameInfo.isContainer with
  | false => exact ⟨_, rfl, rfl, rfl, rfl⟩
  | true =>
    rw [Bool.not_true, Bool.false_or, if_pos rfl]
    unfold containerAnnotations
    by_cases hkeeps : isHeaderId go name || isHeaderDlc go name
    · rw [if_pos hkeeps, if_pos hkeeps]
      refine ⟨_, rfl, ?_⟩
      cases isHeaderId go name <;> exact ⟨rfl, rfl, rfl⟩
    · rw [if_neg hkeeps, if_neg hkeeps]

theorem Annotates.of_some
    {annotate : String → IndexMemberDecl → Nat → Option Kind.Annotations} {kept : String → Bool}
    (h : Annotates annotate kept) {name : String} {s : IndexMemberDecl} {offset : Nat}
    {annotations : Kind.Annotations} (hannotate : annotate name s offset = some annotations) :
    annotation (some annotations) "struct_member_offset" = some (.int offset) := by
  have hmember := h name s offset
  by_cases hkept : kept name = true
  · rw [if_pos hkept] at hmember
    obtain ⟨annotations', hsome, _, hoffset, _⟩ := hmember
    rw [Option.some.inj (hannotate.symm.trans hsome)]
    exact hoffset
  · rw [if_neg hkept, hannotate] at hmember
    cases hmember

/-- The loop over the members emits a signal for each one that is kept. -/
theorem keptSignals_forMember
    {annotate : String → IndexMemberDecl → Nat → Option Kind.Annotations} {kept : String → Bool}
    (h : Annotates annotate kept) (signalStyle : Style) (members : List IndexMemberDecl)
    (fields : List (Nat × Nat)) :
    List.Forall₂ (ForMember go signalStyle) (keptSignals go signalStyle annotate members fields)
      ((members.zip fields).filter
        (fun member => kept (getSignalName go member.1.name signalStyle))) := by
  unfold keptSignals
  generalize hp : (fun member : IndexMemberDecl × (Nat × Nat) =>
    kept (getSignalName go member.1.name signalStyle)) = p
  induction members.zip fields with
  | nil => exact .nil
  | cons member rest ih =>
    obtain ⟨s, field⟩ := member
    have hfilter : p (s, field) = kept (getSignalName go s.name signalStyle) := by rw [← hp]
    have hmember := h (getSignalName go s.name signalStyle) s field.1
    by_cases hkept : kept (getSignalName go s.name signalStyle) = true
    · rw [if_pos hkept] at hmember
      obtain ⟨annotations, hannotate, hname, hoffset, htype⟩ := hmember
      rw [List.filter_cons_of_pos (hfilter.trans hkept),
        List.filterMap_cons_some (by rw [hannotate]; rfl)]
      exact .cons ⟨rfl, hname, hoffset, htype⟩ ih
    · rw [if_neg hkept] at hmember
      rw [List.filter_cons_of_neg (by rwa [hfilter]),
        List.filterMap_cons_none (by rw [hmember]; rfl)]
      exact ih

theorem annotation_frame {frameInfo : FrameInfo} {key : String} (rest : Kind.Annotations)
    (h : key ∉ ["frame_id", "frame_length", "frame_type", "cycle_time_ms"]) :
    annotation (some (frameAnnotations frameInfo ++ rest)) key = rest.lookup key := by
  have hnone : (frameAnnotations frameInfo).lookup key = none := by
    rw [List.lookup_eq_none_iff]
    intro e he
    have hkey : e.1 ∈ ["frame_id", "frame_length", "frame_type", "cycle_time_ms"] := by
      unfold frameAnnotations at he
      split at he <;> simp at he <;> rcases he with rfl | rfl | rfl | rfl <;> simp
    exact bne_iff_ne.mpr (fun heq => h (heq ▸ hkey))
  unfold annotation
  rw [Option.getD_some, List.lookup_append, hnone, Option.none_or]

theorem frameMessage_laidOut (name structName : String) (frameInfo : FrameInfo)
    (signalStyle : Style) (members : List IndexMemberDecl) :
    LaidOut go signalStyle (frameMessage name structName frameInfo
      (keptSignals go signalStyle (structAnnotations go frameInfo) members (memberFields members))
      (Layout.extent 0 (memberSizes members))) structName members
      (keepsOwn go frameInfo) where
  structName := annotation_frame _ (by decide)
  structSize := .inr (annotation_frame _ (by decide))
  signals := keptSignals_forMember (structAnnotations_annotates frameInfo) signalStyle members _

theorem containedOf_laidOut (signalStyle : Style) (structName : String)
    (members : List IndexMemberDecl) (f : String × FrameInfo) :
    LaidOut go signalStyle (containedOf go signalStyle structName members f) structName members
      (keeps go f.2) where
  structName := annotation_frame _ (by decide)
  structSize := .inl (annotation_frame _ (by decide))
  signals := keptSignals_forMember (containedAnnotations_annotates f.2) signalStyle members _

/-- The messages of a struct keep what they are said to. -/
theorem messagesOf_laidOut (c : GenNetworkCommand) (fmd : FrameMetadata)
    (frames : List (String × FrameInfo)) (structName : String) (members : List IndexMemberDecl) :
    List.Forall₂ (fun message => LaidOut go c.signalStyle message structName members)
      (messagesOf go c fmd frames structName members)
      (messagesKeep go c fmd frames structName) := by
  unfold messagesOf messagesKeep
  cases findFrameInfo fmd structName c.dbcName with
  | none => exact .nil
  | some frameInfo =>
    refine .cons (frameMessage_laidOut _ structName frameInfo c.signalStyle members) ?_
    by_cases hcontainer : frameInfo.isContainer = true
    · rw [if_pos hcontainer, if_pos hcontainer, List.forall₂_map_left_iff,
        List.forall₂_map_right_iff, List.forall₂_same]
      exact fun f _ => containedOf_laidOut c.signalStyle structName members f
    · rw [if_neg hcontainer, if_neg hcontainer]
      exact .nil

/-- What a run builds is laid out naturally.  Message by message, struct by struct in the
order of the run, the signals are the members that the message keeps, at the offsets of the
struct; and a type outside the table, in a struct with frame metadata, leaves no network. -/
theorem offsets_generated (go : CaseMappings) (c : GenNetworkCommand) {fmd : FrameMetadata}
    {idx : Index} (order : Iteration fmd idx) :
    (Completes c.dbcName fmd idx.structs → ∃ net, run go c fmd idx order = .ok net) ∧
    (∀ net, run go c fmd idx order = .ok net →
      (∀ e ∈ idx.structs, (findFrameInfo fmd e.1 c.dbcName).isSome → NaturalStruct e.2) ∧
      List.Forall₂ (fun message e => LaidOut go c.signalStyle message e.1.1 e.1.2 e.2)
        net.messages (order.structs.flatMap (fun e =>
          (messagesKeep go c fmd (order.frames e.1) e.1).map (fun kept => (e, kept))))) ∧
    ∀ e ∈ idx.structs, (findFrameInfo fmd e.1 c.dbcName).isSome →
      (∃ s ∈ e.2, ¬ Known s) → ∃ failure, run go c fmd idx order = .error failure := by
  refine ⟨fun h => ⟨_, run_ok_iff.mpr ⟨h, rfl⟩⟩, fun net hrun => ⟨fun e he hinfo => ?_, ?_⟩,
    fun e he hinfo hunknown => ?_⟩
  · exact naturalStruct (((run_ok_iff.mp hrun).1 e he).2 hinfo)
  · obtain ⟨_, rfl⟩ := run_ok_iff.mp hrun
    refine List.rel_flatMap (R := Eq) (List.forall₂_same.mpr (fun _ _ => rfl)) ?_
    rintro e _ rfl
    rw [List.forall₂_map_right_iff]
    exact messagesOf_laidOut c fmd (order.frames e.1) e.1 e.2
  · cases hrun : run go c fmd idx order with
    | error failure => exact ⟨failure, rfl⟩
    | ok net =>
      obtain ⟨s, hs, hno⟩ := hunknown
      exact absurd (((run_ok_iff.mp hrun).1 e he).2 hinfo s hs) hno

/-! ## A struct of two members -/

/-- Case mappings of identifiers in lower case. -/
def keepCase : CaseMappings where
  toLower s := s
  title s := s
  caserString s := s

def canCommand : GenNetworkCommand where
  dbcName := "can"
  messageLib := "message.so"
  functionLib := ""
  netoffSignal := ""
  signalStyle := .snakeCase

def plainFrame (frameId : Int) : FrameInfo where
  frameId := frameId
  frameLength := 8
  cycleTime := 0
  canFD := false
  extendedFrame := false
  container := ""
  containerMuxId := 0
  isContainer := false
  signals := []

/-- The index of one struct. -/
def oneStruct (structName : String) (members : List IndexMemberDecl) : Index where
  structs := [(structName, members)]
  nodup := List.pairwise_singleton _ _

/-- The maps in the order in which they are listed. -/
def listed (fmd : FrameMetadata) (idx : Index) : Iteration fmd idx where
  structs := idx.structs
  structs_perm := List.Perm.refl _
  frames := fun _ => fmd.frames
  frames_perm := fun _ => List.Perm.refl _

def oneFrame : FrameMetadata where
  frames := [("m", plainFrame 0x1a0)]
  nodup := List.pairwise_singleton _ _

def byteAndWord : Index := oneStruct "can_m_t" [⟨"a", "uint8_t"⟩, ⟨"b", "uint32_t"⟩]

theorem offsets_generated_byteAndWord : ∃ net message byte word,
    run keepCase canCommand oneFrame byteAndWord (listed oneFrame byteAndWord) = .ok net ∧
      net.messages = [message] ∧ message.signals.getD [] = [byte, word] ∧
      annotation byte.annotations "struct_member_name" = some (.string "a") ∧
      annotation byte.annotations "struct_member_offset" = some (.int 0) ∧
      annotation word.annotations "struct_member_name" = some (.string "b") ∧
      annotation word.annotations "struct_member_offset" = some (.int 4) := by
  have hgenerated := offsets_generated keepCase canCommand (listed oneFrame byteAndWord)
  obtain ⟨net, hrun⟩ := hgenerated.1 (by unfold Completes; decide +kernel)
  obtain ⟨_, hmessages⟩ := hgenerated.2.1 net hrun
  have hkeep : (listed oneFrame byteAndWord).structs.flatMap (fun e =>
      (messagesKeep keepCase canCommand oneFrame ((listed oneFrame byteAndWord).frames e.1) e.1).map
        (fun kept => (e, kept))) =
      [(("can_m_t", [⟨"a", "uint8_t"⟩, ⟨"b", "uint32_t"⟩]),
        keepsOwn keepCase (plainFrame 0x1a0))] := by
    have hinfo : findFrameInfo oneFrame "can_m_t" "can" = some (plainFrame 0x1a0) := by
      decide +kernel
    show (messagesKeep keepCase canCommand oneFrame oneFrame.frames "can_m_t").map _ ++ [] = _
    rw [messagesKeep, show canCommand.dbcName = "can" from rfl, hinfo]
    rfl
  rw [hkeep] at hmessages
  obtain ⟨message, _, hlaid, hnil, hsingle⟩ := List.forall₂_cons_right_iff.mp hmessages
  cases List.forall₂_nil_right_iff.mp hnil
  have hsignals := hlaid.signals
  have hmembers : ([⟨"a", "uint8_t"⟩, ⟨"b", "uint32_t"⟩] : List IndexMemberDecl).zip
      (memberFields [⟨"a", "uint8_t"⟩, ⟨"b", "uint32_t"⟩]) =
      [(⟨"a", "uint8_t"⟩, (0, 1)), (⟨"b", "uint32_t"⟩, (4, 4))] := rfl
  dsimp only at hsignals
  rw [hmembers] at hsignals
  obtain ⟨byte, _, hbyte, hrest, hfirst⟩ := List.forall₂_cons_right_iff.mp hsignals
  obtain ⟨word, _, hword, hnil, rfl⟩ := List.forall₂_cons_right_iff.mp hrest
  cases List.forall₂_nil_right_iff.mp hnil
  exact ⟨net, message, byte, word, hrun, hsingle, hfirst, hbyte.name, hbyte.offset, hword.name,
    hword.offset⟩

def noFrames : FrameMetadata where
  frames := []
  nodup := List.nodup_nil

/-- A struct without frame metadata is passed over before its types are looked at. -/
theorem not_offsets_generated : ¬ ∀ (go : CaseMappings) (c : GenNetworkCommand)
    (fmd : FrameMetadata) (idx : Index) (order : Iteration fmd idx),
    (∃ e ∈ idx.structs, ∃ s ∈ e.2, ¬ Known s) →
    ∃ failure, run go c fmd idx order = .error failure := by
  intro h
  obtain ⟨failure, hrun⟩ := h keepCase canCommand noFrames (oneStruct "can_m_t" [⟨"a", "bool"⟩])
    (listed _ _) ⟨_, List.mem_singleton_self _, _, List.mem_singleton_self _, by decide +kernel⟩
  have hnone : (run keepCase canCommand noFrames (oneStruct "can_m_t" [⟨"a", "bool"⟩])
      (listed _ _)).toOption = some (network keepCase canCommand (listed noFrames
        (oneStruct "can_m_t" [⟨"a", "bool"⟩]))) := by
    decide +kernel
  rw [hrun] at hnone
  cases hnone

end GenNetwork
end DseNetwork
