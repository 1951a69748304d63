import DseNetwork.Generate.Kind
import DseNetwork.Lib.Layout
import DseNetwork.Lib.Sweep

/-
Networks from a header file and frame metadata, after `network.go`.

A string of Go is a sequence of bytes.  Here it is a `String` with one character for each
byte, the one with its number: lengths are what `len` counts, slices are cut between bytes,
and a letter outside ASCII is the two to four characters of its bytes.  What the case
mappings of Go do to such letters is a parameter, so nothing is assumed of it.

A map of Go is the list of its entries with distinct keys, and every `range` over one
goes through a permutation of it.  Files are read and written elsewhere: `run` returns the
network that it writes.
-/

namespace DseNetwork
namespace GenNetwork

/-! ## Strings -/

/-- `ToLower` and `Title` of `strings`, and `String` of the title caser of `cases`. -/
structure CaseMappings where
  toLower : String → String
  title : String → String
  caserString : String → String

def split (s : String) : List String := (s.toList.splitOn '_').map String.ofList

def trimSuffix (s suffix : String) : String :=
  if suffix.toList.isSuffixOf s.toList then
    String.ofList (s.toList.take (s.toList.length - suffix.toList.length))
  else s

def trimStart (s start : String) : String :=
  if start.toList.isPrefixOf s.toList then String.ofList (s.toList.drop start.toList.length)
  else s

/-! ## Input -/

/-- The accepted values of `-style`. -/
inductive Style
  | pascalCase | camelCase | snakeCase
  deriving DecidableEq

structure GenNetworkCommand where
  dbcName : String
  messageLib : String
  functionLib : String
  netoffSignal : String
  signalStyle : Style

structure FrameInfo where
  frameId : Int
  frameLength : Int
  cycleTime : Int
  canFD : Bool
  extendedFrame : Bool
  container : String
  containerMuxId : Int
  isContainer : Bool
  signals : List String
  deriving DecidableEq

structure FrameMetadata where
  frames : List (String × FrameInfo)
  nodup : (frames.map (·.1)).Nodup

structure IndexMemberDecl where
  name : String
  typeName : String

/-- The index of a header file, by the names of its structs. -/
structure Index where
  structs : List (String × List IndexMemberDecl)
  nodup : (structs.map (·.1)).Nodup

/-- The orders in which a run goes through its maps: the structs, and the frames for the
container with a given struct. -/
structure Iteration (fmd : FrameMetadata) (idx : Index) where
  structs : List (String × List IndexMemberDecl)
  structs_perm : structs.Perm idx.structs
  frames : String → List (String × FrameInfo)
  frames_perm : ∀ structName, (frames structName).Perm fmd.frames

/-! ## Names and types -/

/-- The ways a run ends without a network: it returns an error, or a slice expression is
out of range. -/
inductive Failure
  | error (text : String)
  | sliceBounds
  deriving DecidableEq

variable (go : CaseMappings)

def findFrameInfo (fmd : FrameMetadata) (name dbc : String) : Option FrameInfo :=
  fmd.frames.lookup (trimStart (trimSuffix name "_t") (dbc ++ "_"))

/-- The name without its last two bytes, and without the name of the network. -/
def getMessageName (structName dbcName : String) : Except Failure String :=
  if structName.toList.length < 2 then .error .sliceBounds
  else
    let name := String.ofList (structName.toList.take (structName.toList.length - 2))
    .ok (trimStart name (go.toLower dbcName ++ "_"))

def getSignalName (name : String) : Style → String
  | .pascalCase => String.join ((split name).map (fun part => go.title (go.toLower part)))
  | .camelCase =>
    String.join ((split name).mapIdx (fun i part => if i ≠ 0 then go.caserString part else part))
  | .snakeCase => "_".intercalate (split name)

def getFrameType (f : FrameInfo) : Int :=
  (if f.canFD then 2 else 0) + (if f.extendedFrame then 1 else 0)

def dataTypeSize : List (String × Nat) :=
  [("float", 4), ("double", 8), ("int", 4), ("char", 1), ("short", 2), ("unsigned int", 4),
    ("long", 4), ("uint8_t", 1), ("uint16_t", 2), ("uint32_t", 4), ("uint64_t", 8),
    ("int8_t", 1), ("int16_t", 2), ("int32_t", 4), ("int64_t", 8)]

def getTypeSize (t : String) : Except Failure Nat :=
  match dataTypeSize.lookup t with
  | some size => .ok size
  | none => .error (.error ("Unknown type size: " ++ t))

/-! ## Messages -/

/-- The loop over the members of a struct, from an offset on.  `annotate` gives the
annotations of a member that is kept, by its signal name and its offset. -/
def signalLoop (signalStyle : Style)
    (annotate : String → IndexMemberDecl → Nat → Option Kind.Annotations) :
    Nat → List IndexMemberDecl → Except Failure (List Kind.NetworkSignal × Nat)
  | offset, [] => .ok ([], offset)
  | offset, s :: rest => do
    let name := getSignalName go s.name signalStyle
    let typeSize ← getTypeSize s.typeName
    let offset := Layout.alignUp offset typeSize
    let (signals, final) ← signalLoop signalStyle annotate (offset + typeSize) rest
    .ok (((annotate name s offset).map
      (fun annotations => { signal := name, annotations := some annotations })).toList ++
        signals, final)

def isHeaderId (name : String) : Bool := go.toLower name = "header_id"

def isHeaderDlc (name : String) : Bool := go.toLower name = "header_dlc"

def memberAnnotations (s : IndexMemberDecl) (offset : Nat) : Kind.Annotations :=
  [("struct_member_name", .string s.name), ("struct_member_offset", .int offset),
    ("struct_member_primitive_type", .string s.typeName)]

/-- A member of a normal frame. -/
def normalAnnotations (_name : String) (s : IndexMemberDecl) (offset : Nat) :
    Option Kind.Annotations :=
  some (memberAnnotations s offset)

/-- A member of a container frame: its headers are kept. -/
def containerAnnotations (name : String) (s : IndexMemberDecl) (offset : Nat) :
    Option Kind.Annotations :=
  let annotations := if isHeaderId go name then [("mux_signal", Kind.Value.string "true")] else []
  if isHeaderId go name || isHeaderDlc go name then
    some (annotations ++ memberAnnotations s offset)
  else none

/-- A member of a contained frame: its headers, which are internal, and its signals. -/
def containedAnnotations (frameInfo : FrameInfo) (name : String) (s : IndexMemberDecl)
    (offset : Nat) : Option Kind.Annotations :=
  if isHeaderId go name || isHeaderDlc go name || frameInfo.signals.contains name then
    some (memberAnnotations s offset ++
      (if isHeaderId go name then
        [("internal", .string "true"), ("value", .int frameInfo.containerMuxId)] else []) ++
      (if isHeaderDlc go name then
        [("internal", .string "true"), ("value", .int frameInfo.frameLength)] else []))
  else none

def frameAnnotations (frameInfo : FrameInfo) : Kind.Annotations :=
  [("frame_id", .int frameInfo.frameId), ("frame_length", .int frameInfo.frameLength),
    ("frame_type", .int (getFrameType frameInfo))] ++
  (if frameInfo.cycleTime ≠ 0 then [("cycle_time_ms", .int frameInfo.cycleTime)] else [])

/-- The message of a frame with a struct of its own, for the end of its last member. -/
def frameMessage (name structName : String) (frameInfo : FrameInfo)
    (signals : List Kind.NetworkSignal) (offset : Nat) : Kind.NetworkMessage where
  message := name
  annotations := some (frameAnnotations frameInfo ++
    [("struct_name", .string structName),
      ("struct_size", .string (toString (Layout.alignUp offset 8)))])
  signals := some signals

/-- The message of a contained frame, which has the struct of its container. -/
def containedMessage (frameName structName : String) (frameInfo : FrameInfo)
    (signals : List Kind.NetworkSignal) (offset : Nat) : Kind.NetworkMessage where
  message := frameName
  annotations := some (frameAnnotations frameInfo ++
    [("container", .string frameInfo.container),
      ("container_mux_id", .int frameInfo.containerMuxId),
      ("struct_name", .string structName),
      ("struct_size", .int (Layout.alignUp offset 8))])
  signals := some signals

/-- The loop of `processContainer`: the messages it appends to the network. -/
def processContainer (message structName : String) (signalList : List IndexMemberDecl)
    (signalStyle : Style) : List (String × FrameInfo) → Except Failure (List Kind.NetworkMessage)
  | [] => .ok []
  | (frameName, frameInfo) :: rest =>
    if frameInfo.container = message then do
      let (signals, offset) ←
        signalLoop go signalStyle (containedAnnotations go frameInfo) 0 signalList
      let messages ← processContainer message structName signalList signalStyle rest
      .ok (containedMessage frameName structName frameInfo signals offset :: messages)
    else processContainer message structName signalList signalStyle rest

/-- The annotations of the members of a frame's own struct. -/
def structAnnotations (frameInfo : FrameInfo) :
    String → IndexMemberDecl → Nat → Option Kind.Annotations :=
  if frameInfo.isContainer then containerAnnotations go else normalAnnotations

/-- One iteration of the loop over the structs: the messages it appends. -/
def structMessages (c : GenNetworkCommand) (fmd : FrameMetadata)
    (frames : List (String × FrameInfo)) (structName : String)
    (signalList : List IndexMemberDecl) : Except Failure (List Kind.NetworkMessage) := do
  let name ← getMessageName go structName c.dbcName
  match findFrameInfo fmd structName c.dbcName with
  | none => .ok []
  | some frameInfo => do
    let (signals, offset) ←
      signalLoop go c.signalStyle (structAnnotations go frameInfo) 0 signalList
    let message := frameMessage name structName frameInfo signals offset
    if frameInfo.isContainer then do
      let contained ← processContainer go name structName signalList c.signalStyle frames
      .ok (message :: contained)
    else .ok [message]

def messagesLoop (c : GenNetworkCommand) (fmd : FrameMetadata)
    (frames : String → List (String × FrameInfo)) :
    List (String × List IndexMemberDecl) → Except Failure (List Kind.NetworkMessage)
  | [] => .ok []
  | (structName, signalList) :: rest => do
    let messages ← structMessages go c fmd (frames structName) structName signalList
    let others ← messagesLoop c fmd frames rest
    .ok (messages ++ others)

def networkMetadata (c : GenNetworkCommand) : Kind.ObjectMetadata where
  name := c.dbcName
  annotations := some ([("message_lib", .string c.messageLib)] ++
    (if c.functionLib ≠ "" then [("function_lib", .string c.functionLib)] else []) ++
    (if c.netoffSignal ≠ "" then [("netoff_signal", .string c.netoffSignal)] else []))
  labels := none

/-- `GenNetworkCommand.Run`, from the loaded files to the network it writes. -/
def run (c : GenNetworkCommand) (fmd : FrameMetadata) (idx : Index) (order : Iteration fmd idx) :
    Except Failure Kind.Network := do
  let messages ← messagesLoop go c fmd order.frames order.structs
  .ok { metadata := some (networkMetadata c), messages := messages }

/-! ## What a run checks, and what it builds -/

def Known (s : IndexMemberDecl) : Prop := (dataTypeSize.lookup s.typeName).isSome

instance (s : IndexMemberDecl) : Decidable (Known s) :=
  inferInstanceAs (Decidable (_ = true))

/-- The sizes of members of known types. -/
def memberSizes (members : List IndexMemberDecl) : List Nat :=
  members.map (fun s => (dataTypeSize.lookup s.typeName).getD 0)

def memberFields (members : List IndexMemberDecl) : List (Nat × Nat) :=
  Layout.fields 0 (memberSizes members)

def structSize (members : List IndexMemberDecl) : Nat :=
  Layout.alignUp (Layout.extent 0 (memberSizes members)) 8

/-- The members up to the first one of an unknown type. -/
def checkTypes : List IndexMemberDecl → Except Failure Unit
  | [] => .ok ()
  | s :: rest => do
    let _ ← getTypeSize s.typeName
    checkTypes rest

/-- The signals of the members that are kept. -/
def keptSignals (signalStyle : Style)
    (annotate : String → IndexMemberDecl → Nat → Option Kind.Annotations)
    (members : List IndexMemberDecl) (fields : List (Nat × Nat)) : List Kind.NetworkSignal :=
  (members.zip fields).filterMap (fun e =>
    (annotate (getSignalName go e.1.name signalStyle) e.1 e.2.1).map
      (fun annotations =>
        { signal := getSignalName go e.1.name signalStyle, annotations := some annotations }))

variable {go}

theorem keptSignals_cons (signalStyle : Style)
    (annotate : String → IndexMemberDecl → Nat → Option Kind.Annotations)
    (s : IndexMemberDecl) (rest : List IndexMemberDecl) (f : Nat × Nat) (fs : List (Nat × Nat)) :
    keptSignals go signalStyle annotate (s :: rest) (f :: fs) =
      ((annotate (getSignalName go s.name signalStyle) s f.1).map
        (fun annotations => { signal := getSignalName go s.name signalStyle,
                              annotations := some annotations })).toList ++
        keptSignals go signalStyle annotate rest fs := by
  unfold keptSignals
  rw [List.zip_cons_cons, List.filterMap_cons]
  dsimp only
  cases annotate (getSignalName go s.name signalStyle) s f.1 <;> rfl

/-- The loop over the members fails where the check of their types does; else it keeps
signals of the natural layout of the struct. -/
theorem signalLoop_eq (signalStyle : Style)
    (annotate : String → IndexMemberDecl → Nat → Option Kind.Annotations)
    (offset : Nat) (members : List IndexMemberDecl) :
    signalLoop go signalStyle annotate offset members =
      (checkTypes members).map (fun _ =>
        (keptSignals go signalStyle annotate members (Layout.fields offset (memberSizes members)),
          Layout.extent offset (memberSizes members))) := by
  induction members generalizing offset with
  | nil => rfl
  | cons s rest ih =>
    rw [signalLoop, checkTypes, getTypeSize]
    cases hsize : dataTypeSize.lookup s.typeName with
    | none => rfl
    | some size =>
      show (signalLoop go signalStyle annotate _ rest >>= _) = Except.map _ (checkTypes rest)
      rw [ih]
      cases checkTypes rest with
      | error e => rfl
      | ok u =>
        have hsizes : memberSizes (s :: rest) = size :: memberSizes rest := by
          rw [memberSizes, List.map_cons, hsize]
          rfl
        show Except.ok _ = Except.ok _
        rw [hsizes, Layout.fields, keptSignals_cons, Layout.extent]

theorem checkTypes_ok_iff (members : List IndexMemberDecl) :
    checkTypes members = .ok () ↔ ∀ s ∈ members, Known s := by
  induction members with
  | nil => exact iff_of_true rfl (fun s hs => by cases hs)
  | cons s rest ih =>
    rw [checkTypes, getTypeSize, List.forall_mem_cons, ← ih, Known]
    cases dataTypeSize.lookup s.typeName with
    | none => exact iff_of_false (fun h => by cases h) (fun h => by cases h.1)
    | some size => exact ⟨fun h => ⟨rfl, h⟩, fun h => h.2⟩

/-- The frames contained in the container of a message. -/
def containedFrames (frames : List (String × FrameInfo)) (message : String) :
    List (String × FrameInfo) :=
  frames.filter (fun f => f.2.container = message)

variable (go)

/-- The message name of a struct whose name has two bytes. -/
def messageName (structName dbcName : String) : String :=
  trimStart (String.ofList (structName.toList.take (structName.toList.length - 2)))
    (go.toLower dbcName ++ "_")

/-- The message of a contained frame, for the struct of the container. -/
def containedOf (signalStyle : Style) (structName : String) (members : List IndexMemberDecl)
    (f : String × FrameInfo) : Kind.NetworkMessage :=
  containedMessage f.1 structName f.2
    (keptSignals go signalStyle (containedAnnotations go f.2) members (memberFields members))
    (Layout.extent 0 (memberSizes members))

/-- The messages of a struct with known types. -/
def messagesOf (c : GenNetworkCommand) (fmd : FrameMetadata) (frames : List (String × FrameInfo))
    (structName : String) (members : List IndexMemberDecl) : List Kind.NetworkMessage :=
  match findFrameInfo fmd structName c.dbcName with
  | none => []
  | some frameInfo =>
    frameMessage (messageName go structName c.dbcName) structName frameInfo
      (keptSignals go c.signalStyle (structAnnotations go frameInfo) members (memberFields members))
      (Layout.extent 0 (memberSizes members)) ::
    if frameInfo.isContainer then
      (containedFrames frames (messageName go structName c.dbcName)).map
        (containedOf go c.signalStyle structName members)
    else []

def checkStruct (dbcName : String) (fmd : FrameMetadata) (structName : String)
    (members : List IndexMemberDecl) : Except Failure Unit :=
  if structName.toList.length < 2 then .error .sliceBounds
  else if (findFrameInfo fmd structName dbcName).isSome then checkTypes members
  else .ok ()

def checkStructs (dbcName : String) (fmd : FrameMetadata) :
    List (String × List IndexMemberDecl) → Except Failure Unit
  | [] => .ok ()
  | (structName, members) :: rest => do
    checkStruct dbcName fmd structName members
    checkStructs dbcName fmd rest

variable {go}

theorem messagesOf_none {c : GenNetworkCommand} {fmd : FrameMetadata} {structName : String}
    (h : findFrameInfo fmd structName c.dbcName = none) (frames : List (String × FrameInfo))
    (members : List IndexMemberDecl) : messagesOf go c fmd frames structName members = [] := by
  rw [messagesOf, h]

theorem messagesOf_some {c : GenNetworkCommand} {fmd : FrameMetadata} {structName : String}
    {frameInfo : FrameInfo} (h : findFrameInfo fmd structName c.dbcName = some frameInfo)
    (frames : List (String × FrameInfo)) (members : List IndexMemberDecl) :
    messagesOf go c fmd frames structName members =
      frameMessage (messageName go structName c.dbcName) structName frameInfo
        (keptSignals go c.signalStyle (structAnnotations go frameInfo) members
          (memberFields members)) (Layout.extent 0 (memberSizes members)) ::
      if frameInfo.isContainer then
        (containedFrames frames (messageName go structName c.dbcName)).map
          (containedOf go c.signalStyle structName members)
      else [] := by
  rw [messagesOf, h]

theorem processContainer_eq {members : List IndexMemberDecl} (h : checkTypes members = .ok ())
    (message structName : String) (signalStyle : Style) (frames : List (String × FrameInfo)) :
    processContainer go message structName members signalStyle frames =
      .ok ((containedFrames frames message).map
        (containedOf go signalStyle structName members)) := by
  induction frames with
  | nil => rfl
  | cons f rest ih =>
    rw [processContainer, signalLoop_eq, h, ih]
    by_cases hf : f.2.container = message
    · have hcons : containedFrames (f :: rest) message = f :: containedFrames rest message :=
        List.filter_cons_of_pos (decide_eq_true hf)
      rw [if_pos hf, hcons]
      rfl
    · have hskip : containedFrames (f :: rest) message = containedFrames rest message :=
        List.filter_cons_of_neg (by simpa using hf)
      rw [if_neg hf, hskip]

theorem structMessages_eq (c : GenNetworkCommand) (fmd : FrameMetadata)
    (frames : List (String × FrameInfo)) (structName : String) (members : List IndexMemberDecl) :
    structMessages go c fmd frames structName members =
      (checkStruct c.dbcName fmd structName members).map
        (fun _ => messagesOf go c fmd frames structName members) := by
  unfold structMessages checkStruct messagesOf getMessageName
  by_cases hlen : structName.toList.length < 2
  · rw [if_pos hlen, if_pos hlen]
    rfl
  · rw [if_neg hlen, if_neg hlen]
    cases findFrameInfo fmd structName c.dbcName with
    | none => rfl
    | some frameInfo =>
      show (signalLoop go c.signalStyle _ 0 members >>= _) = _
      rw [signalLoop_eq]
      cases hcheck : checkTypes members with
      | error e => rfl
      | ok u =>
        show (if frameInfo.isContainer = true then _ else _) =
          Except.ok (_ :: if frameInfo.isContainer = true then _ else _)
        by_cases hcontainer : frameInfo.isContainer = true
        · rw [if_pos hcontainer, if_pos hcontainer]
          show (processContainer go (messageName go structName c.dbcName) structName members
            c.signalStyle frames >>= _) = _
          rw [processContainer_eq hcheck]
          rfl
        · rw [if_neg hcontainer, if_neg hcontainer]
          rfl

theorem messagesLoop_eq (c : GenNetworkCommand) (fmd : FrameMetadata)
    (frames : String → List (String × FrameInfo))
    (structs : List (String × List IndexMemberDecl)) :
    messagesLoop go c fmd frames structs = (checkStructs c.dbcName fmd structs).map (fun _ =>
      structs.flatMap (fun e => messagesOf go c fmd (frames e.1) e.1 e.2)) := by
  induction structs with
  | nil => rfl
  | cons e rest ih =>
    rw [messagesLoop, checkStructs, structMessages_eq, ih, List.flatMap_cons]
    cases checkStruct c.dbcName fmd e.1 e.2 with
    | error e => rfl
    | ok u => cases checkStructs c.dbcName fmd rest <;> rfl

/-- The network that a run builds, if it builds one. -/
def network (go : CaseMappings) (c : GenNetworkCommand) {fmd : FrameMetadata} {idx : Index}
    (order : Iteration fmd idx) : Kind.Network where
  metadata := some (networkMetadata c)
  messages := order.structs.flatMap (fun e => messagesOf go c fmd (order.frames e.1) e.1 e.2)

/-- A run fails in a way that neither the style nor the case mappings have a part in, or
it builds the network. -/
theorem run_eq (c : GenNetworkCommand) (fmd : FrameMetadata) (idx : Index)
    (order : Iteration fmd idx) :
    run go c fmd idx order =
      (checkStructs c.dbcName fmd order.structs).map (fun _ => network go c order) := by
  rw [run, messagesLoop_eq]
  cases checkStructs c.dbcName fmd order.structs <;> rfl

/-- Every struct has a name of at least two bytes, and one with frame metadata has
members of known types. -/
def Completes (dbcName : String) (fmd : FrameMetadata)
    (structs : List (String × List IndexMemberDecl)) : Prop :=
  ∀ e ∈ structs, 2 ≤ e.1.toList.length ∧
    ((findFrameInfo fmd e.1 dbcName).isSome → ∀ s ∈ e.2, Known s)

theorem checkStructs_ok_iff (dbcName : String) (fmd : FrameMetadata)
    (structs : List (String × List IndexMemberDecl)) :
    checkStructs dbcName fmd structs = .ok () ↔ Completes dbcName fmd structs := by
  have hstruct : ∀ e : String × List IndexMemberDecl,
      checkStruct dbcName fmd e.1 e.2 = .ok () ↔ 2 ≤ e.1.toList.length ∧
        ((findFrameInfo fmd e.1 dbcName).isSome → ∀ s ∈ e.2, Known s) := fun e => by
    unfold checkStruct
    by_cases hlen : e.1.toList.length < 2
    · rw [if_pos hlen]
      exact iff_of_false (fun h => by cases h) (fun h => absurd h.1 (Nat.not_le_of_lt hlen))
    · rw [if_neg hlen, ← checkTypes_ok_iff]
      by_cases hinfo : (findFrameInfo fmd e.1 dbcName).isSome
      · rw [if_pos hinfo]
        exact ⟨fun h => ⟨Nat.le_of_not_lt hlen, fun _ => h⟩, fun h => h.2 hinfo⟩
      · rw [if_neg hinfo]
        exact iff_of_true rfl ⟨Nat.le_of_not_lt hlen, fun h => absurd h hinfo⟩
  induction structs with
  | nil => exact iff_of_true rfl (fun e he => by cases he)
  | cons e rest ih =>
    unfold Completes
    rw [checkStructs, List.forall_mem_cons, ← hstruct e]
    cases checkStruct dbcName fmd e.1 e.2 with
    | error f => exact iff_of_false (fun h => by cases h) (fun h => by cases h.1)
    | ok u => exact ⟨fun h => ⟨rfl, ih.mp h⟩, fun h => ih.mpr h.2⟩

/-- The order in which a run goes through the structs has no part in whether it completes. -/
theorem Iteration.checkStructs_ok_iff {fmd : FrameMetadata} {idx : Index}
    (order : Iteration fmd idx) (dbcName : String) :
    checkStructs dbcName fmd order.structs = .ok () ↔ Completes dbcName fmd idx.structs := by
  rw [GenNetwork.checkStructs_ok_iff]
  exact ⟨fun h e he => h e (order.structs_perm.mem_iff.mpr he),
    fun h e he => h e (order.structs_perm.mem_iff.mp he)⟩

/-- A run builds the network exactly when it completes. -/
theorem run_ok_iff {c : GenNetworkCommand} {fmd : FrameMetadata} {idx : Index}
    {order : Iteration fmd idx} {net : Kind.Network} :
    run go c fmd idx order = .ok net ↔
      Completes c.dbcName fmd idx.structs ∧ net = network go c order := by
  rw [run_eq, ← order.checkStructs_ok_iff, map_eq_ok]
  exact ⟨fun ⟨u, hu, hnet⟩ => ⟨hu, hnet.symm⟩, fun ⟨hu, hnet⟩ => ⟨(), hu, hnet.symm⟩⟩

end GenNetwork
end DseNetwork
