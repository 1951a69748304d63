import DseNetwork.Generate.Style
import DseNetwork.Network.FrameLookup
import Mathlib.Data.List.Nodup

/-
The order of generated messages.

A container message and its contained messages have one frame identifier.  The generator
appends the contained messages right behind their container, whatever the order in which
it goes through its maps, so the container is the first message with the identifier.
-/

namespace DseNetwork
namespace GenNetwork

/-! ## Names of structs -/

theorem trimSuffix_append (s suffix : String) : trimSuffix (s ++ suffix) suffix = s := by
  have hsuffix : suffix.toList.isSuffixOf (s ++ suffix).toList = true := by
    rw [List.isSuffixOf_iff_suffix, String.toList_append]
    exact List.suffix_append _ _
  rw [trimSuffix, if_pos hsuffix, String.toList_append, List.length_append, Nat.add_sub_cancel,
    List.take_left, String.ofList_toList]

theorem trimStart_append (start s : String) : trimStart (start ++ s) start = s := by
  have hstart : start.toList.isPrefixOf (start ++ s).toList = true := by
    rw [List.isPrefixOf_iff_prefix, String.toList_append]
    exact List.prefix_append _ _
  rw [trimStart, if_pos hstart, String.toList_append, List.drop_left, String.ofList_toList]

/-- The struct of a frame in the header of a network. -/
def structNameOf (dbcName frameName : String) : String := dbcName ++ "_" ++ frameName ++ "_t"

theorem findFrameInfo_struct (fmd : FrameMetadata) (dbcName frameName : String) :
    findFrameInfo fmd (structNameOf dbcName frameName) dbcName = fmd.frames.lookup frameName := by
  rw [findFrameInfo, structNameOf, trimSuffix_append, trimStart_append]

theorem messageName_struct {go : CaseMappings} {dbcName : String}
    (hlower : go.toLower dbcName = dbcName) (frameName : String) :
    messageName go (structNameOf dbcName frameName) dbcName = frameName := by
  have hlength : "_t".toList.length = 2 := rfl
  rw [messageName, hlower, structNameOf, String.toList_append, List.length_append, hlength,
    Nat.add_sub_cancel, List.take_left, String.ofList_toList, trimStart_append]

theorem lookup_eq_some_iff {fmd : FrameMetadata} {frameName : String} {frameInfo : FrameInfo} :
    fmd.frames.lookup frameName = some frameInfo ↔ (frameName, frameInfo) ∈ fmd.frames := by
  have hmem : ∀ info, fmd.frames.lookup frameName = some info →
      (frameName, info) ∈ fmd.frames := fun info h => by
    obtain ⟨_, _, hsplit, _⟩ := List.lookup_eq_some_iff.mp h
    rw [hsplit]
    simp
  refine ⟨hmem frameInfo, fun h => ?_⟩
  obtain ⟨info, hinfo⟩ := Option.isSome_iff_exists.mp
    (List.lookup_isSome_iff.mpr ⟨(frameName, frameInfo), h, beq_self_eq_true _⟩)
  have hsame := List.inj_on_of_nodup_map fmd.nodup (hmem info hinfo) h rfl
  rw [hinfo, (Prod.mk.inj hsame).2]

/-! ## Frame metadata with containers -/

/-- `f` is contained in the container `k`. -/
def Contained (fmd : FrameMetadata) (f k : String × FrameInfo) : Prop :=
  f ∈ fmd.frames ∧ k ∈ fmd.frames ∧ k.2.isContainer = true ∧ f.2.container = k.1

def HasStruct (dbcName : String) (idx : Index) (frameName : String) : Prop :=
  ∃ members, (structNameOf dbcName frameName, members) ∈ idx.structs

/-- Metadata and header as they are generated from one database: a contained frame has
the identifier of its container and no struct, all other frames have identifiers of their
own, and the structs are named after frames. -/
structure FromDatabase (go : CaseMappings) (dbcName : String) (fmd : FrameMetadata)
    (idx : Index) : Prop where
  lower : go.toLower dbcName = dbcName
  names : ∀ e ∈ idx.structs, ∃ frameName, e.1 = structNameOf dbcName frameName
  frameId : ∀ f k, Contained fmd f k → f.2.frameId = k.2.frameId
  noStruct : ∀ f k, Contained fmd f k → ¬ HasStruct dbcName idx f.1
  distinct : ∀ f ∈ fmd.frames, ∀ g ∈ fmd.frames, (∀ k, ¬ Contained fmd f k) →
    (∀ k, ¬ Contained fmd g k) → f.2.frameId = g.2.frameId → f = g
  nonzero : ∀ f ∈ fmd.frames, (∀ k, ¬ Contained fmd f k) → f.2.frameId ≠ 0

/-- The frame identifier of a message. -/
def messageId (message : Kind.NetworkMessage) : Int :=
  match annotation message.annotations "frame_id" with
  | some (.int frameId) => frameId
  | _ => 0

variable {go : CaseMappings} {c : GenNetworkCommand} {fmd : FrameMetadata} {idx : Index}

theorem HasStruct.not_contained (h : FromDatabase go c.dbcName fmd idx) {f : String × FrameInfo}
    (hf : HasStruct c.dbcName idx f.1) : ∀ k, ¬ Contained fmd f k :=
  fun k hk => h.noStruct f k hk hf

/-- The messages of the struct `e`: that of its frame `k`, then those of the frames that
are contained in it. -/
structure FrameMessages (go : CaseMappings) (c : GenNetworkCommand) (fmd : FrameMetadata)
    (e : String × List IndexMemberDecl) (k : String × FrameInfo) (own : Kind.NetworkMessage)
    (contained : List (String × FrameInfo)) (messages : List Kind.NetworkMessage) : Prop where
  frame : k ∈ fmd.frames
  struct : e.1 = structNameOf c.dbcName k.1
  messages : messages = own :: contained.map (containedOf go c.signalStyle e.1 e.2)
  message : own.message = k.1
  messageId : messageId own = k.2.frameId
  container : annotation own.annotations "container" = none
  nodup : (contained.map (·.1)).Nodup
  contained : ∀ f, f ∈ contained ↔ Contained fmd f k

theorem messagesOf_frame (h : FromDatabase go c.dbcName fmd idx)
    {frames : List (String × FrameInfo)} (hframes : frames.Perm fmd.frames)
    {e : String × List IndexMemberDecl} {k : String × FrameInfo} (hk : k ∈ fmd.frames)
    (hname : e.1 = structNameOf c.dbcName k.1) :
    ∃ own contained, FrameMessages go c fmd e k own contained
      (messagesOf go c fmd frames e.1 e.2) := by
  have hinfo : findFrameInfo fmd e.1 c.dbcName = some k.2 := by
    rw [hname, findFrameInfo_struct]
    exact lookup_eq_some_iff.mpr hk
  have hmessage : messageName go e.1 c.dbcName = k.1 := by
    rw [hname, messageName_struct h.lower]
  rw [messagesOf_some hinfo, hmessage]
  by_cases hcontainer : k.2.isContainer = true
  · rw [if_pos hcontainer]
    refine ⟨_, containedFrames frames k.1, hk, hname, rfl, rfl, rfl, annotation_frame _ (by decide),
      ?_, fun f => ?_⟩
    · exact (List.filter_sublist.map _).nodup ((hframes.map _).nodup_iff.mpr fmd.nodup)
    · rw [containedFrames, List.mem_filter, hframes.mem_iff]
      exact ⟨fun ⟨hf, heq⟩ => ⟨hf, hk, hcontainer, of_decide_eq_true heq⟩,
        fun ⟨hf, _, _, heq⟩ => ⟨hf, decide_eq_true heq⟩⟩
  · rw [if_neg hcontainer]
    exact ⟨_, [], hk, hname, rfl, rfl, rfl, annotation_frame _ (by decide), List.nodup_nil,
      fun f => iff_of_false List.not_mem_nil (fun hf => hcontainer hf.2.2.1)⟩

/-- Every struct that leaves messages is that of a frame. -/
theorem messagesOf_struct (h : FromDatabase go c.dbcName fmd idx)
    {frames : List (String × FrameInfo)} (hframes : frames.Perm fmd.frames)
    {e : String × List IndexMemberDecl} (he : e ∈ idx.structs) {m : Kind.NetworkMessage}
    (hm : m ∈ messagesOf go c fmd frames e.1 e.2) :
    ∃ k own contained, FrameMessages go c fmd e k own contained
      (messagesOf go c fmd frames e.1 e.2) := by
  obtain ⟨frameName, hname⟩ := h.names e he
  cases hinfo : findFrameInfo fmd e.1 c.dbcName with
  | none =>
    rw [messagesOf_none hinfo] at hm
    cases hm
  | some frameInfo =>
    have hk : (frameName, frameInfo) ∈ fmd.frames := by
      rwa [hname, findFrameInfo_struct, lookup_eq_some_iff] at hinfo
    obtain ⟨own, contained, hframe⟩ := messagesOf_frame h hframes hk hname
    exact ⟨_, own, contained, hframe⟩

namespace FrameMessages

variable {e : String × List IndexMemberDecl} {k : String × FrameInfo}
  {own : Kind.NetworkMessage} {contained : List (String × FrameInfo)}
  {messages : List Kind.NetworkMessage}

theorem hasStruct (hframe : FrameMessages go c fmd e k own contained messages)
    (he : e ∈ idx.structs) : HasStruct c.dbcName idx k.1 :=
  ⟨e.2, by rw [← hframe.struct]; exact he⟩

theorem names_eq (hframe : FrameMessages go c fmd e k own contained messages) :
    messages.map (·.message) = k.1 :: contained.map (·.1) := by
  rw [hframe.messages, List.map_cons, hframe.message, List.map_map]
  rfl

/-- All messages of a struct have the identifier of its frame. -/
theorem ids (h : FromDatabase go c.dbcName fmd idx)
    (hframe : FrameMessages go c fmd e k own contained messages) :
    ∀ m ∈ messages, GenNetwork.messageId m = k.2.frameId := by
  intro m hm
  rw [hframe.messages] at hm
  rcases List.mem_cons.mp hm with rfl | hm
  · exact hframe.messageId
  · obtain ⟨f, hf, rfl⟩ := List.mem_map.mp hm
    exact h.frameId f k ((hframe.contained f).mp hf)

theorem names_nodup (h : FromDatabase go c.dbcName fmd idx)
    (hframe : FrameMessages go c fmd e k own contained messages) (he : e ∈ idx.structs) :
    (messages.map (·.message)).Nodup := by
  rw [hframe.names_eq]
  refine List.nodup_cons.mpr ⟨fun hmem => ?_, hframe.nodup⟩
  obtain ⟨f, hf, heq⟩ := List.mem_map.mp hmem
  exact h.noStruct f k ((hframe.contained f).mp hf) (heq ▸ hframe.hasStruct he)

/-- Two structs that have a message name in common are one. -/
theorem struct_unique (h : FromDatabase go c.dbcName fmd idx)
    (hframe : FrameMessages go c fmd e k own contained messages) (he : e ∈ idx.structs)
    {e' : String × List IndexMemberDecl} {k' : String × FrameInfo} {own' : Kind.NetworkMessage}
    {contained' : List (String × FrameInfo)} {messages' : List Kind.NetworkMessage}
    (hframe' : FrameMessages go c fmd e' k' own' contained' messages') (he' : e' ∈ idx.structs)
    {name : String} (hname : name ∈ messages.map (·.message))
    (hname' : name ∈ messages'.map (·.message)) : e.1 = e'.1 := by
  have hstruct := hframe.hasStruct he
  have hstruct' := hframe'.hasStruct he'
  rw [hframe.struct, hframe'.struct]
  rw [hframe.names_eq, List.mem_cons] at hname
  rw [hframe'.names_eq, List.mem_cons] at hname'
  rcases hname with rfl | hname
  · rcases hname' with heq | hname'
    · rw [heq]
    · obtain ⟨f, hf, heq⟩ := List.mem_map.mp hname'
      exact absurd (heq ▸ hstruct) (h.noStruct f k' ((hframe'.contained f).mp hf))
  · obtain ⟨f, hf, rfl⟩ := List.mem_map.mp hname
    have hcontained := (hframe.contained f).mp hf
    rcases hname' with heq | hname'
    · exact absurd (heq ▸ hstruct') (h.noStruct f k hcontained)
    · obtain ⟨g, hg, heq⟩ := List.mem_map.mp hname'
      have hcontained' := (hframe'.contained g).mp hg
      have hsame := List.inj_on_of_nodup_map fmd.nodup hcontained'.1 hcontained.1 heq
      rw [← hcontained.2.2.2, ← hcontained'.2.2.2, hsame]

end FrameMessages

/-! ## The whole network -/

/-- No two messages of the network have one name. -/
theorem network_names_nodup (h : FromDatabase go c.dbcName fmd idx) (order : Iteration fmd idx) :
    ((network go c order).messages.map (·.message)).Nodup := by
  rw [network, List.map_flatMap, List.nodup_flatMap]
  constructor
  · intro e he
    have hidx := order.structs_perm.mem_iff.mp he
    cases hmessages : messagesOf go c fmd (order.frames e.1) e.1 e.2 with
    | nil => exact List.nodup_nil
    | cons m rest =>
      obtain ⟨k, own, contained, hframe⟩ := messagesOf_struct h (order.frames_perm e.1) hidx
        (hmessages ▸ List.mem_cons_self : m ∈ messagesOf go c fmd (order.frames e.1) e.1 e.2)
      rw [← hmessages]
      exact hframe.names_nodup h hidx
  · have hkeys : (order.structs.map (·.1)).Nodup :=
      (order.structs_perm.map _).nodup_iff.mpr idx.nodup
    refine (List.pairwise_map.mp hkeys).imp_of_mem (fun {e e'} he he' hne => ?_)
    intro name hname hname'
    have hidx := order.structs_perm.mem_iff.mp he
    have hidx' := order.structs_perm.mem_iff.mp he'
    obtain ⟨m, hm, _⟩ := List.mem_map.mp hname
    obtain ⟨m', hm', _⟩ := List.mem_map.mp hname'
    obtain ⟨_, _, _, hframe⟩ := messagesOf_struct h (order.frames_perm e.1) hidx hm
    obtain ⟨_, _, _, hframe'⟩ := messagesOf_struct h (order.frames_perm e'.1) hidx' hm'
    exact hne (hframe.struct_unique h hidx hframe' hidx' hname hname')

/-- The messages of the struct of a frame stand together in the network, and all messages
before them have other frame identifiers. -/
theorem network_split (h : FromDatabase go c.dbcName fmd idx) (order : Iteration fmd idx)
    {k : String × FrameInfo} (hk : k ∈ fmd.frames) (hstruct : HasStruct c.dbcName idx k.1) :
    ∃ e own contained l₁ l₂, FrameMessages go c fmd e k own contained
        (own :: contained.map (containedOf go c.signalStyle e.1 e.2)) ∧
      (network go c order).messages =
        l₁ ++ (own :: contained.map (containedOf go c.signalStyle e.1 e.2)) ++ l₂ ∧
      ∀ m ∈ l₁, messageId m ≠ k.2.frameId := by
  obtain ⟨members, hidx⟩ := hstruct
  have he := order.structs_perm.mem_iff.mpr hidx
  obtain ⟨own, contained, hframe⟩ := messagesOf_frame h
    (order.frames_perm (structNameOf c.dbcName k.1)) (e := (structNameOf c.dbcName k.1, members))
    hk rfl
  obtain ⟨s₁, s₂, hsplit⟩ := List.append_of_mem he
  refine ⟨_, own, contained,
    s₁.flatMap (fun e => messagesOf go c fmd (order.frames e.1) e.1 e.2),
    s₂.flatMap (fun e => messagesOf go c fmd (order.frames e.1) e.1 e.2),
    hframe.messages ▸ hframe, ?_, fun m hm hid => ?_⟩
  · rw [← hframe.messages, network, hsplit, List.flatMap_append, List.flatMap_cons,
      List.append_assoc]
  · obtain ⟨e', he', hm⟩ := List.mem_flatMap.mp hm
    have hmem : e' ∈ order.structs := by
      rw [hsplit]
      exact List.mem_append_left _ he'
    have hidx' := order.structs_perm.mem_iff.mp hmem
    obtain ⟨k', own', contained', hframe'⟩ :=
      messagesOf_struct h (order.frames_perm e'.1) hidx' hm
    have hsame : k' = k := h.distinct k' hframe'.frame k hk
      ((hframe'.hasStruct hidx').not_contained h) ((hframe.hasStruct hidx).not_contained h)
      ((hframe'.ids h m hm).symm.trans hid)
    have hkeys : (order.structs.map (·.1)).Nodup :=
      (order.structs_perm.map _).nodup_iff.mpr idx.nodup
    rw [hsplit, List.map_append, List.map_cons] at hkeys
    have hname : e'.1 ∈ s₁.map (·.1) := List.mem_map_of_mem he'
    rw [hframe'.struct, hsame] at hname
    exact (List.nodup_middle.mp hkeys).notMem (List.mem_append_left _ hname)

/-- All messages have an identifier. -/
theorem network_nonzero (h : FromDatabase go c.dbcName fmd idx) (order : Iteration fmd idx) :
    ∀ m ∈ (network go c order).messages, messageId m ≠ 0 := by
  intro m hm
  obtain ⟨e, he, hm⟩ := List.mem_flatMap.mp hm
  have hidx := order.structs_perm.mem_iff.mp he
  obtain ⟨k, own, contained, hframe⟩ := messagesOf_struct h (order.frames_perm e.1) hidx hm
  rw [hframe.ids h m hm]
  exact h.nonzero k hframe.frame ((hframe.hasStruct hidx).not_contained h)

/-! ## Reception -/

/-- The engine reads the names and the frame identifiers of a network as they are. -/
structure ParsedIds (net : Kind.Network) (n : Network) : Prop where
  names : n.messages.map (·.name) = net.messages.map (·.message)
  ids : n.messages.map (fun nm => (nm.frameId.toNat : Int)) = net.messages.map messageId

theorem ParsedIds.nonzero {net : Kind.Network} {n : Network} (hparsed : ParsedIds net n)
    (h : ∀ m ∈ net.messages, messageId m ≠ 0) : 0#32 ∉ n.frameIds := by
  intro hmem
  obtain ⟨nm, hnm, hid⟩ := List.mem_map.mp hmem
  have hids : (nm.frameId.toNat : Int) ∈ net.messages.map messageId := by
    rw [← hparsed.ids]
    exact List.mem_map_of_mem hnm
  obtain ⟨m, hm, heq⟩ := List.mem_map.mp hids
  rw [hid] at heq
  exact h m hm heq

/-- The first message with an identifier is at the position it has in the file. -/
theorem ParsedIds.firstMessage_val {net : Kind.Network} {n : Network}
    (hparsed : ParsedIds net n) {frameId : BitVec 32} {l₁ l₂ : List Kind.NetworkMessage}
    {own : Kind.NetworkMessage} (hsplit : net.messages = l₁ ++ own :: l₂)
    (hown : messageId own = frameId.toNat) (hbefore : ∀ m ∈ l₁, messageId m ≠ frameId.toNat) :
    (n.firstMessage frameId).map Fin.val = some l₁.length := by
  have hdeclared : n.declared frameId =
      net.messages.map (fun m => decide (messageId m = frameId.toNat)) := by
    have hids := congrArg (List.map (fun id : Int => decide (id = frameId.toNat))) hparsed.ids
    rw [List.map_map, List.map_map] at hids
    rw [Network.declared]
    refine Eq.trans (List.map_congr_left (fun nm _ => ?_)) hids
    simp [BitVec.toNat_inj]
  have hnone : l₁.findIdx? (fun m => decide (messageId m = frameId.toNat)) = none :=
    List.findIdx?_eq_none_iff.mpr (fun m hm => decide_eq_false (hbefore m hm))
  rw [Network.firstMessage_val, hdeclared, List.findIdx?_map, hsplit, List.findIdx?_append]
  show Option.or (l₁.findIdx? (fun m => decide (messageId m = frameId.toNat))) _ = _
  rw [hnone, Option.none_or, List.findIdx?_cons]
  simp [hown]

/-- A frame finds the first message with its identifier. -/
theorem ParsedIds.finds {net : Kind.Network} {n : Network} (hparsed : ParsedIds net n)
    (hnonzero : ∀ m ∈ net.messages, messageId m ≠ 0) {frameId : BitVec 32}
    {l₁ l₂ : List Kind.NetworkMessage} {own : Kind.NetworkMessage}
    (hsplit : net.messages = l₁ ++ own :: l₂) (hown : messageId own = frameId.toNat)
    (hbefore : ∀ m ∈ l₁, messageId m ≠ frameId.toNat) :
    ∃ i, n.findMessage frameId (List.finRange n.messages.length) = some i ∧
      (n.msg i).name = own.message := by
  have hahead := noZeroAhead_of_not_mem (hparsed.nonzero hnonzero) frameId
  obtain ⟨i, hi, hval⟩ :=
    Option.map_eq_some_iff.mp (hparsed.firstMessage_val hsplit hown hbefore)
  refine ⟨i, (Network.findMessage_eq_first_iff.mpr hahead).trans hi, ?_⟩
  have hleft : (n.messages.map (·.name))[i.val]? = some (n.msg i).name := by
    rw [List.getElem?_map, List.getElem?_eq_getElem i.isLt]
    rfl
  have hright : (net.messages.map (·.message))[i.val]? = some own.message := by
    rw [hval, hsplit, List.getElem?_map, List.getElem?_append_right (Nat.le_refl _), Nat.sub_self]
    rfl
  rw [hparsed.names, hright] at hleft
  exact (Option.some.inj hleft).symm

/-- The list has one message of the name. -/
def Once (messages : List Kind.NetworkMessage) (name : String) : Prop :=
  (messages.map (·.message)).count name = 1

/-- A message of one name stands behind a message of another. -/
def Behind (messages : List Kind.NetworkMessage) (first name : String) : Prop :=
  ∃ l₁ own l₂ m l₃, messages = l₁ ++ own :: (l₂ ++ m :: l₃) ∧ own.message = first ∧
    m.message = name

/-- The first message with the identifier of the frame `k` is that of `k` itself, and it is
the one that a received frame is processed for. -/
structure FirstOfId (net : Kind.Network) (k : String × FrameInfo) : Prop where
  first : ∃ l₁ own l₂, net.messages = l₁ ++ own :: l₂ ∧ own.message = k.1 ∧
    annotation own.annotations "container" = none ∧ messageId own = k.2.frameId ∧
    ∀ m ∈ l₁, messageId m ≠ k.2.frameId
  found : ∀ n : Network, ParsedIds net n → ∀ frameId : BitVec 32,
    (frameId.toNat : Int) = k.2.frameId →
    ∃ i, n.findMessage frameId (List.finRange n.messages.length) = some i ∧
      (n.msg i).name = k.1

theorem network_once (h : FromDatabase go c.dbcName fmd idx) (order : Iteration fmd idx)
    {m : Kind.NetworkMessage} (hm : m ∈ (network go c order).messages) :
    Once (network go c order).messages m.message :=
  List.count_eq_one_of_mem (network_names_nodup h order) (List.mem_map_of_mem hm)

/-- Whatever the order in which a run goes through its maps: frames with a struct and the
frames contained in them have one message each, a contained frame behind its container,
and a received frame finds the container. -/
theorem containers_received (h : FromDatabase go c.dbcName fmd idx) (order : Iteration fmd idx)
    {net : Kind.Network} (hrun : run go c fmd idx order = .ok net) :
    (∀ f k, Contained fmd f k → HasStruct c.dbcName idx k.1 →
      Once net.messages f.1 ∧ Behind net.messages k.1 f.1) ∧
    (∀ k ∈ fmd.frames, HasStruct c.dbcName idx k.1 → Once net.messages k.1) ∧
    ∀ k ∈ fmd.frames, HasStruct c.dbcName idx k.1 → FirstOfId net k := by
  obtain ⟨_, rfl⟩ := run_ok_iff.mp hrun
  refine ⟨fun f k hf hstruct => ?_, fun k hk hstruct => ?_, fun k hk hstruct => ?_⟩
  · obtain ⟨e, own, contained, l₁, l₂, hframe, hsplit, _⟩ := network_split h order hf.2.1 hstruct
    obtain ⟨a, b, hcontained⟩ := List.append_of_mem ((hframe.contained f).mpr hf)
    have hbehind : (network go c order).messages =
        l₁ ++ own :: (a.map (containedOf go c.signalStyle e.1 e.2) ++
          containedOf go c.signalStyle e.1 e.2 f ::
            (b.map (containedOf go c.signalStyle e.1 e.2) ++ l₂)) := by
      rw [hsplit, hcontained, List.map_append, List.map_cons]
      simp only [List.append_assoc, List.cons_append]
    refine ⟨?_, _, _, _, _, _, hbehind, hframe.message, rfl⟩
    exact network_once h order (m := containedOf go c.signalStyle e.1 e.2 f)
      (by rw [hbehind]; simp)
  · obtain ⟨e, own, contained, l₁, l₂, hframe, hsplit, _⟩ := network_split h order hk hstruct
    rw [← hframe.message]
    exact network_once h order (by rw [hsplit]; simp)
  · obtain ⟨e, own, contained, l₁, l₂, hframe, hsplit, hbefore⟩ := network_split h order hk hstruct
    rw [List.append_assoc, List.cons_append] at hsplit
    refine ⟨⟨l₁, own, _, hsplit, hframe.message, hframe.container, hframe.messageId, hbefore⟩,
      fun n hparsed frameId hid => ?_⟩
    obtain ⟨i, hi, hname⟩ := hparsed.finds (network_nonzero h order) hsplit
      (hframe.messageId.trans hid.symm) (fun m hm => hid ▸ hbefore m hm)
    exact ⟨i, hi, hname.trans hframe.message⟩

/-! ## A container, a frame in it and a plain frame -/

def containedFrame (frameId : Int) (container : String) (muxId : Int) (signals : List String) :
    FrameInfo :=
  { plainFrame frameId with
    container := container
    containerMuxId := muxId
    signals := signals }

def database : FrameMetadata where
  frames := [("c", containerFrame 0x1a0), ("c_0x5", containedFrame 0x1a0 "c" 5 ["s"]),
    ("p", plainFrame 0x1a1)]
  nodup := by decide

def databaseHeader : Index where
  structs := [("can_p_t", [⟨"a", "uint16_t"⟩]),
    ("can_c_t", [⟨"header_id", "uint8_t"⟩, ⟨"s", "uint8_t"⟩])]
  nodup := by decide

theorem database_frames {f : String × FrameInfo} (hf : f ∈ database.frames) :
    f = ("c", containerFrame 0x1a0) ∨ f = ("c_0x5", containedFrame 0x1a0 "c" 5 ["s"]) ∨
      f = ("p", plainFrame 0x1a1) := by
  simpa [database] using hf

theorem database_contained {f k : String × FrameInfo} (h : Contained database f k) :
    f = ("c_0x5", containedFrame 0x1a0 "c" 5 ["s"]) ∧ k = ("c", containerFrame 0x1a0) := by
  obtain ⟨hf, hk, hcontainer, heq⟩ := h
  rcases database_frames hf with rfl | rfl | rfl <;>
    rcases database_frames hk with rfl | rfl | rfl <;>
    simp [containerFrame, containedFrame, plainFrame] at hcontainer heq ⊢

theorem database_contains : Contained database ("c_0x5", containedFrame 0x1a0 "c" 5 ["s"])
    ("c", containerFrame 0x1a0) :=
  ⟨by simp [database], by simp [database], rfl, rfl⟩

theorem database_from : FromDatabase keepCase "can" database databaseHeader where
  lower := rfl
  names := by
    intro e he
    rcases List.mem_cons.mp he with rfl | he
    · exact ⟨"p", rfl⟩
    · rw [List.mem_singleton.mp he]
      exact ⟨"c", rfl⟩
  frameId f k h := by
    obtain ⟨rfl, rfl⟩ := database_contained h
    rfl
  noStruct f k h := by
    obtain ⟨rfl, rfl⟩ := database_contained h
    rintro ⟨members, hmem⟩
    have hname : structNameOf "can" "c_0x5" ∈ databaseHeader.structs.map (·.1) :=
      List.mem_map_of_mem hmem
    exact absurd hname (by decide)
  distinct f hf g hg hnf hng heq := by
    rcases database_frames hf with rfl | rfl | rfl <;>
      rcases database_frames hg with rfl | rfl | rfl
    all_goals first
      | rfl
      | exact absurd database_contains (hnf _)
      | exact absurd database_contains (hng _)
      | exact absurd heq (by decide)
  nonzero f hf _ := by
    rcases database_frames hf with rfl | rfl | rfl <;> decide

theorem containers_received_database : ∃ net,
    run keepCase canCommand database databaseHeader (listed _ _) = .ok net ∧
      Behind net.messages "c" "c_0x5" ∧ FirstOfId net ("c", containerFrame 0x1a0) := by
  have hcompletes : Completes "can" database databaseHeader.structs := by
    unfold Completes
    decide +kernel
  have hrun : run keepCase canCommand database databaseHeader (listed _ _) =
      .ok (network keepCase canCommand (listed _ _)) := run_ok_iff.mpr ⟨hcompletes, rfl⟩
  have hstruct : HasStruct "can" databaseHeader "c" :=
    ⟨_, List.mem_cons_of_mem _ List.mem_cons_self⟩
  obtain ⟨hcontained, _, hfirst⟩ := containers_received database_from (listed _ _) hrun
  exact ⟨_, hrun, (hcontained _ _ database_contains hstruct).2,
    hfirst _ database_contains.2.1 hstruct⟩

end GenNetwork
end DseNetwork
