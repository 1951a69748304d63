import DseNetwork.Generate.Offsets
import Mathlib.Data.List.Nodup

/-
The signal style of a generated network.

The generator decides which members a container keeps by their restyled names.  Two
styles give the same network, but for the names, when they lead to the same decisions.
-/

namespace DseNetwork

/-! ## Networks without the names of their signals -/

namespace Kind

def NetworkSignal.eraseName (s : NetworkSignal) : NetworkSignal := { s with signal := "" }

def NetworkMessage.eraseNames (m : NetworkMessage) : NetworkMessage :=
  { m with signals := m.signals.map (·.map NetworkSignal.eraseName) }

def Network.eraseNames (net : Network) : Network :=
  { net with messages := net.messages.map NetworkMessage.eraseNames }

end Kind

namespace GenNetwork

def GenNetworkCommand.withStyle (c : GenNetworkCommand) (style : Style) : GenNetworkCommand :=
  { c with signalStyle := style }

/-- In the container of a message and in its contained frames, the names of a member lead
to the same decisions. -/
structure SameDecisions (go : CaseMappings) (fmd : FrameMetadata) (message : String)
    (name name' : String) : Prop where
  headerId : isHeaderId go name = isHeaderId go name'
  headerDlc : isHeaderDlc go name = isHeaderDlc go name'
  keeps : ∀ f ∈ containedFrames fmd.frames message, keeps go f.2 name = keeps go f.2 name'

/-- The names that two styles give the members of containers lead to the same decisions. -/
def StylesAgree (go : CaseMappings) (dbcName : String) (fmd : FrameMetadata)
    (structs : List (String × List IndexMemberDecl)) (style style' : Style) : Prop :=
  ∀ e ∈ structs, ∀ frameInfo, findFrameInfo fmd e.1 dbcName = some frameInfo →
    frameInfo.isContainer = true → ∀ s ∈ e.2,
      SameDecisions go fmd (messageName go e.1 dbcName) (getSignalName go s.name style)
        (getSignalName go s.name style')

variable {go : CaseMappings} {style style' : Style}

/-! ## The signals of a message -/

theorem keptSignals_erased
    (annotate : String → IndexMemberDecl → Nat → Option Kind.Annotations)
    (members : List IndexMemberDecl) (fields : List (Nat × Nat)) :
    (keptSignals go style annotate members fields).map Kind.NetworkSignal.eraseName =
      (members.zip fields).filterMap (fun e =>
        (annotate (getSignalName go e.1.name style) e.1 e.2.1).map
          (fun annotations => { signal := "", annotations := some annotations })) := by
  rw [keptSignals, List.map_filterMap]
  refine congrArg (List.filterMap · _) (funext fun e => ?_)
  cases annotate (getSignalName go e.1.name style) e.1 e.2.1 <;> rfl

/-- The offsets of the members of a struct differ. -/
theorem zip_offset_inj {members : List IndexMemberDecl} (h : ∀ s ∈ members, Known s)
    {e e' : IndexMemberDecl × (Nat × Nat)} (he : e ∈ members.zip (memberFields members))
    (he' : e' ∈ members.zip (memberFields members)) (heq : e.2.1 = e'.2.1) : e = e' := by
  have hpos : ∀ f ∈ memberFields members, 0 < f.2 := fun f hf => by
    refine memberSizes_pos h f.2 ?_
    rw [← Layout.fields_sizes 0 (memberSizes members)]
    exact List.mem_map_of_mem hf
  have hdistinct : ((memberFields members).map (·.1)).Nodup := by
    refine List.pairwise_map.mpr ((naturalStruct h).ordered.imp_of_mem (fun {f g} hf _ hle => ?_))
    have := hpos f hf
    omega
  have hlength : (memberFields members).length ≤ members.length := by
    rw [memberFields, Layout.fields_length, memberSizes, List.length_map]
  have hzip : ((members.zip (memberFields members)).map (·.2.1)).Nodup := by
    have hsnd := List.map_snd_zip hlength
    rw [← hsnd, List.map_map] at hdistinct
    exact hdistinct
  exact List.inj_on_of_nodup_map hzip he he' heq

/-- The offset tells of which member a signal is: what one style annotates a member with,
another that keeps the same signals, but for the names, annotates it with too. -/
theorem annotate_of_keptSignals_erased
    {annotate : String → IndexMemberDecl → Nat → Option Kind.Annotations} {kept : String → Bool}
    (hannotate : Annotates annotate kept) {members : List IndexMemberDecl}
    (h : ∀ s ∈ members, Known s)
    (heq : (keptSignals go style annotate members (memberFields members)).map
        Kind.NetworkSignal.eraseName =
      (keptSignals go style' annotate members (memberFields members)).map
        Kind.NetworkSignal.eraseName)
    {e : IndexMemberDecl × (Nat × Nat)} (he : e ∈ members.zip (memberFields members))
    {annotations : Kind.Annotations}
    (hkept : annotate (getSignalName go e.1.name style) e.1 e.2.1 = some annotations) :
    annotate (getSignalName go e.1.name style') e.1 e.2.1 = some annotations := by
  rw [keptSignals_erased, keptSignals_erased] at heq
  have hmem : ({ signal := "", annotations := some annotations } : Kind.NetworkSignal) ∈
      (members.zip (memberFields members)).filterMap (fun e =>
        (annotate (getSignalName go e.1.name style') e.1 e.2.1).map
          (fun annotations => { signal := "", annotations := some annotations })) := by
    rw [← heq]
    exact List.mem_filterMap.mpr ⟨e, he, by rw [hkept]; rfl⟩
  obtain ⟨e', he', hmap⟩ := List.mem_filterMap.mp hmem
  obtain ⟨annotations', hkept', hsame⟩ := Option.map_eq_some_iff.mp hmap
  have hannotations : annotations' = annotations :=
    Option.some.inj (congrArg Kind.NetworkSignal.annotations hsame)
  rw [hannotations] at hkept'
  have hoffset := hannotate.of_some hkept
  rw [hannotate.of_some hkept'] at hoffset
  have hint := Kind.Value.int.inj (Option.some.inj hoffset)
  rw [zip_offset_inj h he he' (Int.ofNat_inj.mp hint).symm]
  exact hkept'

/-- Two styles keep the same signals, but for the names, when they annotate every member
alike. -/
theorem keptSignals_erased_iff
    {annotate : String → IndexMemberDecl → Nat → Option Kind.Annotations} {kept : String → Bool}
    (hannotate : Annotates annotate kept) {members : List IndexMemberDecl}
    (h : ∀ s ∈ members, Known s) :
    (keptSignals go style annotate members (memberFields members)).map
        Kind.NetworkSignal.eraseName =
      (keptSignals go style' annotate members (memberFields members)).map
        Kind.NetworkSignal.eraseName ↔
    ∀ e ∈ members.zip (memberFields members),
      annotate (getSignalName go e.1.name style) e.1 e.2.1 =
        annotate (getSignalName go e.1.name style') e.1 e.2.1 := by
  constructor
  · intro heq e he
    exact Option.ext (fun annotations =>
      ⟨annotate_of_keptSignals_erased hannotate h heq he,
        annotate_of_keptSignals_erased hannotate h heq.symm he⟩)
  · intro hall
    rw [keptSignals_erased, keptSignals_erased]
    exact List.filterMap_congr (fun e he => by rw [hall e he])

/-! ## The decisions on a member -/

/-- No name is both headers. -/
theorem header_exclusive (go : CaseMappings) (name : String) (h : isHeaderId go name = true) :
    isHeaderDlc go name = false := by
  unfold isHeaderId at h
  unfold isHeaderDlc
  rw [of_decide_eq_true h]
  decide

theorem containerAnnotations_eq_iff {name name' : String} {s : IndexMemberDecl} {offset : Nat} :
    containerAnnotations go name s offset = containerAnnotations go name' s offset ↔
      isHeaderId go name = isHeaderId go name' ∧ isHeaderDlc go name = isHeaderDlc go name' := by
  unfold containerAnnotations
  have hone := header_exclusive go name
  have hone' := header_exclusive go name'
  revert hone hone'
  cases isHeaderId go name <;> cases isHeaderId go name' <;> cases isHeaderDlc go name <;>
    cases isHeaderDlc go name' <;> simp [memberAnnotations]

theorem containedAnnotations_eq_iff {frameInfo : FrameInfo} {name name' : String}
    {s : IndexMemberDecl} {offset : Nat} (hid : isHeaderId go name = isHeaderId go name')
    (hdlc : isHeaderDlc go name = isHeaderDlc go name') :
    containedAnnotations go frameInfo name s offset =
        containedAnnotations go frameInfo name' s offset ↔
      keeps go frameInfo name = keeps go frameInfo name' := by
  unfold containedAnnotations
  rw [← keeps, ← keeps, hid, hdlc]
  cases keeps go frameInfo name <;> cases keeps go frameInfo name' <;> simp

theorem forall_member_iff {members : List IndexMemberDecl} {P : IndexMemberDecl → Prop} :
    (∀ e ∈ members.zip (memberFields members), P e.1) ↔ ∀ s ∈ members, P s := by
  have hlength : members.length ≤ (memberFields members).length := by
    rw [memberFields, Layout.fields_length, memberSizes, List.length_map]
  conv_rhs => rw [← List.map_fst_zip hlength]
  rw [List.forall_mem_map]

/-! ## The messages of a struct -/

theorem frameMessage_erased_iff {name structName : String} {frameInfo : FrameInfo}
    {signals signals' : List Kind.NetworkSignal} {offset : Nat} :
    (frameMessage name structName frameInfo signals offset).eraseNames =
        (frameMessage name structName frameInfo signals' offset).eraseNames ↔
      signals.map Kind.NetworkSignal.eraseName = signals'.map Kind.NetworkSignal.eraseName := by
  simp [frameMessage, Kind.NetworkMessage.eraseNames]

theorem containedMessage_erased_iff {frameName structName : String} {frameInfo : FrameInfo}
    {signals signals' : List Kind.NetworkSignal} {offset : Nat} :
    (containedMessage frameName structName frameInfo signals offset).eraseNames =
        (containedMessage frameName structName frameInfo signals' offset).eraseNames ↔
      signals.map Kind.NetworkSignal.eraseName = signals'.map Kind.NetworkSignal.eraseName := by
  simp [containedMessage, Kind.NetworkMessage.eraseNames]

/-- For members that are the same headers, a contained frame has the same message exactly
when it keeps the same members. -/
theorem containedOf_erased_iff {structName : String} {members : List IndexMemberDecl}
    (hknown : ∀ s ∈ members, Known s)
    (hheaders : ∀ s ∈ members,
      isHeaderId go (getSignalName go s.name style) =
          isHeaderId go (getSignalName go s.name style') ∧
        isHeaderDlc go (getSignalName go s.name style) =
          isHeaderDlc go (getSignalName go s.name style'))
    (f : String × FrameInfo) :
    (containedOf go style structName members f).eraseNames =
        (containedOf go style' structName members f).eraseNames ↔
      ∀ s ∈ members, keeps go f.2 (getSignalName go s.name style) =
        keeps go f.2 (getSignalName go s.name style') := by
  rw [containedOf, containedOf, containedMessage_erased_iff,
    keptSignals_erased_iff (containedAnnotations_annotates f.2) hknown, ← forall_member_iff]
  refine forall₂_congr (fun e he => ?_)
  obtain ⟨hid, hdlc⟩ := hheaders e.1 (List.of_mem_zip he).1
  exact containedAnnotations_eq_iff hid hdlc

/-- The messages of a struct are the same, but for the names, when its frame is no
container or the names of its members lead to the same decisions. -/
theorem messagesOf_erased_iff {c : GenNetworkCommand} {fmd : FrameMetadata}
    {frames : List (String × FrameInfo)} (hframes : frames.Perm fmd.frames)
    {structName : String} {members : List IndexMemberDecl}
    (h : (findFrameInfo fmd structName c.dbcName).isSome → ∀ s ∈ members, Known s) :
    (messagesOf go (c.withStyle style) fmd frames structName members).map
          Kind.NetworkMessage.eraseNames =
        (messagesOf go (c.withStyle style') fmd frames structName members).map
          Kind.NetworkMessage.eraseNames ↔
      ∀ frameInfo, findFrameInfo fmd structName c.dbcName = some frameInfo →
        frameInfo.isContainer = true → ∀ s ∈ members,
          SameDecisions go fmd (messageName go structName c.dbcName)
            (getSignalName go s.name style) (getSignalName go s.name style') := by
  cases hinfo : findFrameInfo fmd structName c.dbcName with
  | none =>
    rw [messagesOf_none (c := c.withStyle style) hinfo,
      messagesOf_none (c := c.withStyle style') hinfo]
    exact iff_of_true rfl (fun frameInfo hsome => by cases hsome)
  | some frameInfo =>
    have hknown := h (by rw [hinfo]; rfl)
    rw [messagesOf_some (c := c.withStyle style) hinfo,
      messagesOf_some (c := c.withStyle style') hinfo]
    dsimp only [GenNetworkCommand.withStyle]
    rw [List.map_cons, List.map_cons, List.cons.injEq, frameMessage_erased_iff,
      keptSignals_erased_iff (structAnnotations_annotates frameInfo) hknown]
    by_cases hcontainer : frameInfo.isContainer = true
    · have hstruct : structAnnotations go frameInfo = containerAnnotations go := if_pos hcontainer
      rw [if_pos hcontainer, if_pos hcontainer, List.map_map, List.map_map, List.map_inj_left,
        hstruct]
      constructor
      · rintro ⟨hown, hcontained⟩ frameInfo' _ _
        have hheaders : ∀ s ∈ members,
            isHeaderId go (getSignalName go s.name style) =
                isHeaderId go (getSignalName go s.name style') ∧
              isHeaderDlc go (getSignalName go s.name style) =
                isHeaderDlc go (getSignalName go s.name style') :=
          forall_member_iff.mp (fun e he => containerAnnotations_eq_iff.mp (hown e he))
        intro s hs
        refine ⟨(hheaders s hs).1, (hheaders s hs).2, fun f hf => ?_⟩
        have hmem := ((hframes.filter _).mem_iff).mpr hf
        exact (containedOf_erased_iff hknown hheaders f).mp (hcontained f hmem) s hs
      · intro hall
        have hdecisions := hall frameInfo rfl hcontainer
        refine ⟨fun e he => ?_, fun f hf => ?_⟩
        · have hs := hdecisions e.1 (List.of_mem_zip he).1
          exact containerAnnotations_eq_iff.mpr ⟨hs.headerId, hs.headerDlc⟩
        · have hmem := ((hframes.filter _).mem_iff).mp hf
          exact (containedOf_erased_iff hknown
            (fun s hs => ⟨(hdecisions s hs).headerId, (hdecisions s hs).headerDlc⟩) f).mpr
            (fun s hs => (hdecisions s hs).keeps f hmem)
    · have hstruct : structAnnotations go frameInfo = normalAnnotations := if_neg hcontainer
      rw [if_neg hcontainer, if_neg hcontainer, hstruct]
      refine iff_of_true ⟨fun e he => rfl, rfl⟩ (fun frameInfo' hsome hcontainer' => ?_)
      rw [Option.some.inj hsome] at hcontainer
      exact absurd hcontainer' hcontainer

/-- The style has no part in how many messages a struct has. -/
theorem messagesOf_length (c : GenNetworkCommand) (fmd : FrameMetadata)
    (frames : List (String × FrameInfo)) (structName : String) (members : List IndexMemberDecl)
    (style style' : Style) :
    (messagesOf go (c.withStyle style) fmd frames structName members).length =
      (messagesOf go (c.withStyle style') fmd frames structName members).length := by
  cases hinfo : findFrameInfo fmd structName c.dbcName with
  | none =>
    rw [messagesOf_none (c := c.withStyle style) hinfo,
      messagesOf_none (c := c.withStyle style') hinfo]
  | some frameInfo =>
    rw [messagesOf_some (c := c.withStyle style) hinfo,
      messagesOf_some (c := c.withStyle style') hinfo, List.length_cons, List.length_cons]
    split
    · rw [List.length_map, List.length_map]
      rfl
    · rfl

/-! ## The whole network -/

theorem flatMap_inj_of_length {α β : Type} {f g : α → List β} {l : List α}
    (h : ∀ a ∈ l, (f a).length = (g a).length) :
    l.flatMap f = l.flatMap g ↔ ∀ a ∈ l, f a = g a := by
  induction l with
  | nil => exact iff_of_true rfl (fun a ha => by cases ha)
  | cons a rest ih =>
    obtain ⟨hhead, htail⟩ := List.forall_mem_cons.mp h
    rw [List.flatMap_cons, List.flatMap_cons, List.forall_mem_cons, ← ih htail]
    exact ⟨fun heq => List.append_inj heq hhead, fun ⟨h₁, h₂⟩ => by rw [h₁, h₂]⟩

theorem network_erased_iff {c : GenNetworkCommand} {fmd : FrameMetadata} {idx : Index}
    (order : Iteration fmd idx) (h : Completes c.dbcName fmd idx.structs) :
    (network go (c.withStyle style) order).eraseNames =
        (network go (c.withStyle style') order).eraseNames ↔
      StylesAgree go c.dbcName fmd idx.structs style style' := by
  rw [Kind.Network.eraseNames, Kind.Network.eraseNames, Kind.Network.mk.injEq, network, network,
    List.map_flatMap, List.map_flatMap, flatMap_inj_of_length (fun e _ => by
      rw [List.length_map, List.length_map, messagesOf_length])]
  refine (and_iff_right rfl).trans ⟨fun hsame e he => ?_, fun hagree e he => ?_⟩
  · have he' := order.structs_perm.mem_iff.mpr he
    exact (messagesOf_erased_iff (order.frames_perm e.1) (h e he).2).mp (hsame e he')
  · have he' := order.structs_perm.mem_iff.mp he
    exact (messagesOf_erased_iff (order.frames_perm e.1) (h e he').2).mpr (hagree e he')

/-- Two styles lead to the same result, but for the names of the signals, exactly when no
network is built or the names they give the members of containers lead to the same
decisions. -/
theorem style_renames_iff (go : CaseMappings) (c : GenNetworkCommand) {fmd : FrameMetadata}
    {idx : Index} (order : Iteration fmd idx) (style style' : Style) :
    (run go (c.withStyle style) fmd idx order).map Kind.Network.eraseNames =
        (run go (c.withStyle style') fmd idx order).map Kind.Network.eraseNames ↔
      (Completes c.dbcName fmd idx.structs →
        StylesAgree go c.dbcName fmd idx.structs style style') := by
  have hcheck := order.checkStructs_ok_iff c.dbcName
  rw [run_eq, run_eq]
  show ((checkStructs c.dbcName fmd order.structs).map _).map _ =
    ((checkStructs c.dbcName fmd order.structs).map _).map _ ↔ _
  cases hrun : checkStructs c.dbcName fmd order.structs with
  | error failure =>
    refine iff_of_true rfl (fun hcompletes => ?_)
    rw [hcheck.mpr hcompletes] at hrun
    cases hrun
  | ok u =>
    have hcompletes := hcheck.mp hrun
    show Except.ok _ = Except.ok _ ↔ _
    rw [Except.ok.injEq, network_erased_iff order hcompletes]
    exact ⟨fun h _ => h, fun h => h hcompletes⟩

/-! ## A container in two styles -/

/-- The case mappings on parts of ASCII identifiers. -/
def asciiCase : CaseMappings where
  toLower s := String.ofList (s.toList.map Char.toLower)
  title s := String.ofList (s.toList.modifyHead Char.toUpper)
  caserString s := String.ofList ((s.toList.map Char.toLower).modifyHead Char.toUpper)

def containerFrame (frameId : Int) : FrameInfo :=
  { plainFrame frameId with isContainer := true }

def oneContainer : FrameMetadata where
  frames := [("c", containerFrame 0x1a0)]
  nodup := List.pairwise_singleton _ _

def headerStruct : Index := oneStruct "can_c_t" [⟨"header_id", "uint8_t"⟩]

/-- In Pascal case the header is no longer found: the container has no signals. -/
theorem not_style_renames : ¬ ∀ (go : CaseMappings) (c : GenNetworkCommand)
    (fmd : FrameMetadata) (idx : Index) (order : Iteration fmd idx) (style style' : Style),
    (run go (c.withStyle style) fmd idx order).map Kind.Network.eraseNames =
      (run go (c.withStyle style') fmd idx order).map Kind.Network.eraseNames := by
  intro h
  have hsame := congrArg Except.toOption (h asciiCase canCommand oneContainer headerStruct
    (listed _ _) .pascalCase .snakeCase)
  revert hsame
  decide +kernel

end GenNetwork
end DseNetwork
