import DseNetwork.Lib.Compact
import DseNetwork.Lib.Sweep

/-
The signal patch of a network, after `patch/network.go`.

The reader of package `csv` gives the records of the patch file, or an error.  What an
annotation or the metadata may hold is left open: nothing here reads it.
-/

namespace DseNetwork
namespace Patch

/-! ## Networks -/

structure NetworkSignal (Annotations : Type) where
  signal : String
  annotations : Option Annotations

structure NetworkFunction (Annotations : Type) where
  function : String
  annotations : Option Annotations

structure NetworkFunctions (Annotations : Type) where
  decode : Option (List (NetworkFunction Annotations))
  encode : Option (List (NetworkFunction Annotations))

structure NetworkMessage (Annotations : Type) where
  message : String
  annotations : Option Annotations
  functions : Option (NetworkFunctions Annotations)
  signals : Option (List (NetworkSignal Annotations))

/-- A document of kind `Network` as it is read and written back. -/
structure Network (Annotations Metadata : Type) where
  kind : String
  metadata : Option Metadata
  messages : List (NetworkMessage Annotations)

/-! ## The patch file -/

/-- What `csv.Reader` reads: the first record, and after it `ReadAll` the others.  A record
has a field, and the others have as many as the first. -/
structure CsvFile where
  first : Except String (List String)
  others : Except String (List (List String))
  nonempty : ∀ record, first = .ok record → record ≠ []
  fieldsPerRecord : ∀ record records, first = .ok record → others = .ok records →
    ∀ r ∈ records, r.length = record.length

/-- The ways the patch ends without a network: an error, or a record that is indexed beyond
its fields. -/
inductive Failure
  | error (text : String)
  | indexOutOfRange
  deriving DecidableEq

def field (record : List String) (i : Nat) : Except Failure String :=
  record[i]?.elim (.error .indexOutOfRange) .ok

/-- The loop over the records that loads the patch map. -/
def loadPatch : List (List String) → (String → Option String) →
    Except Failure (String → Option String)
  | [], patch => .ok patch
  | record :: rest, patch => do
    let target ← field record 1
    let source ← field record 0
    loadPatch rest (Function.update patch source (some (if target ≠ "" then target else source)))

/-! ## The patch -/

section

variable {Annotations Metadata : Type}

/-- What the loop over the signals of a message writes back for a signal, if it keeps it. -/
def patchSignal (patch : String → Option String) (removeUnknown : Bool)
    (s : NetworkSignal Annotations) : Option (NetworkSignal Annotations) :=
  match patch s.signal with
  | some target => if target ≠ "inactive" then some { s with signal := target } else none
  | none => if removeUnknown = false then some s else none

def patchMessage (patch : String → Option String) (removeUnknown : Bool)
    (m : NetworkMessage Annotations) : NetworkMessage Annotations :=
  { m with signals := m.signals.map (Compact.compact (patchSignal patch removeUnknown)) }

/-- The columns are not those of a signal patch. -/
def unexpectedColumns (record : List String) : Except Failure Bool := do
  let source ← field record 0
  if source ≠ "source" then .ok true
  else do
    let target ← field record 1
    .ok (target ≠ "target")

/-- The part of `patchSignals` after its first record is read. -/
def patchRecords (network : Network Annotations Metadata) (r : CsvFile) (record : List String)
    (removeUnknown : Bool) : Except Failure (Network Annotations Metadata) := do
  if ← unexpectedColumns record then
    .error (.error ("Unexpected csv columns ([" ++ " ".intercalate record ++ "])"))
  else do
    let records ← r.others.mapError (fun err => .error ("Unable to read csv (" ++ err ++ ")"))
    let patch ← loadPatch records (fun _ => none)
    .ok { network with messages := network.messages.map (patchMessage patch removeUnknown) }

/-- `patchSignals`, for what `os.Open` gives for the patch file. -/
def patchSignals (network : Network Annotations Metadata) (patchFile : String)
    (file : Except String CsvFile) (removeUnknown : Bool) :
    Except Failure (Network Annotations Metadata) := do
  let r ← file.mapError (fun err =>
    .error ("Unable to open patch file: " ++ patchFile ++ " (" ++ err ++ ")"))
  let record ← r.first.mapError (fun err => .error ("Unable to read csv (" ++ err ++ ")"))
  patchRecords network r record removeUnknown

/-! ## The patched network -/

/-- The target of the last row for the signal. -/
def lastTarget (rows : List (List String)) (signal : String) : Option String :=
  (rows.reverse.find? (fun row => row[0]? = some signal)).bind (·[1]?)

/-- What becomes of a signal, if it is not removed. -/
def patched (rows : List (List String)) (removeUnknown : Bool) (s : NetworkSignal Annotations) :
    Option (NetworkSignal Annotations) :=
  match lastTarget rows s.signal with
  | some target =>
    if target = "inactive" then none
    else some { s with signal := if target = "" then s.signal else target }
  | none => if removeUnknown then none else some s

/-- The message with its signals patched, in their order, and nothing else changed. -/
def patchedMessage (rows : List (List String)) (removeUnknown : Bool)
    (m : NetworkMessage Annotations) : NetworkMessage Annotations :=
  { m with signals := m.signals.map (List.filterMap (patched rows removeUnknown)) }

def patchedNetwork (rows : List (List String)) (removeUnknown : Bool)
    (network : Network Annotations Metadata) : Network Annotations Metadata :=
  { network with messages := network.messages.map (patchedMessage rows removeUnknown) }

/-! ## The patch map -/

variable {rows : List (List String)} {removeUnknown : Bool} {name : String}

theorem lastTarget_cons {source target : String} {others : List String}
    (h : ∀ row ∈ rows, 2 ≤ row.length) (name : String) :
    lastTarget ((source :: target :: others) :: rows) name =
      (lastTarget rows name).or (if source = name then some target else none) := by
  unfold lastTarget
  rw [List.reverse_cons, List.find?_append]
  cases hfind : rows.reverse.find? (fun row => row[0]? = some name) with
  | none =>
    rw [Option.none_or, Option.bind_none, Option.none_or]
    by_cases hname : source = name <;> simp [hname]
  | some row =>
    have hrow := h row (List.mem_reverse.mp (List.mem_of_find?_eq_some hfind))
    rw [Option.some_or, Option.bind_some, List.getElem?_eq_getElem (by omega : 1 < row.length),
      Option.some_or]

/-- The entry that the loading loop leaves for a signal. -/
def entry (rows : List (List String)) (name : String) : Option String :=
  (lastTarget rows name).map (fun target => if target ≠ "" then target else name)

theorem loadPatch_ok (h : ∀ row ∈ rows, 2 ≤ row.length) (patch : String → Option String) :
    loadPatch rows patch = .ok (fun name => (entry rows name).or (patch name)) := by
  induction rows generalizing patch with
  | nil => rfl
  | cons row rest ih =>
    obtain ⟨hrow, hrest⟩ := List.forall_mem_cons.mp h
    obtain ⟨source, target, others, rfl⟩ : ∃ source target others,
        row = source :: target :: others := by
      match row, hrow with
      | source :: target :: others, _ => exact ⟨source, target, others, rfl⟩
    show loadPatch rest _ = _
    rw [ih hrest]
    refine congrArg Except.ok (funext fun name => ?_)
    rw [entry, entry, lastTarget_cons hrest]
    cases lastTarget rest name with
    | some other => rfl
    | none =>
      by_cases hname : source = name
      · subst hname
        simp [Function.update_self]
      · simp [Function.update_of_ne (Ne.symm hname), hname]

/-! ## The loop over the signals -/

/-- The loop does with a signal as it should, except that it removes one of the name
`inactive` whose row has no target. -/
theorem patchSignal_entry (rows : List (List String)) (removeUnknown : Bool)
    (s : NetworkSignal Annotations) :
    patchSignal (entry rows) removeUnknown s =
      if s.signal = "inactive" ∧ lastTarget rows "inactive" = some "" then none
      else patched rows removeUnknown s := by
  unfold patchSignal patched entry
  cases hrow : lastTarget rows s.signal with
  | none =>
    have hnot : ¬ (s.signal = "inactive" ∧ lastTarget rows "inactive" = some "") := by
      intro h
      obtain ⟨hname, hempty⟩ := h
      rw [← hname, hrow] at hempty
      cases hempty
    rw [if_neg hnot]
    cases removeUnknown <;> rfl
  | some target =>
    by_cases hempty : target = ""
    · subst hempty
      by_cases hname : s.signal = "inactive"
      · rw [hname] at hrow
        simp [hname, hrow]
      · simp [hname]
    · have hnot : ¬ (s.signal = "inactive" ∧ lastTarget rows "inactive" = some "") := by
        intro h
        obtain ⟨hname, hlast⟩ := h
        rw [← hname, hrow] at hlast
        exact hempty (Option.some.inj hlast)
      rw [if_neg hnot]
      by_cases hinactive : target = "inactive" <;> simp [hempty, hinactive]

theorem patched_inactive (removeUnknown : Bool) {s : NetworkSignal Annotations}
    (h : s.signal = "inactive" ∧ lastTarget rows "inactive" = some "") :
    patched rows removeUnknown s = some s := by
  obtain ⟨signal, annotations⟩ := s
  obtain ⟨rfl, hlast⟩ := h
  rw [patched, hlast]
  rfl

theorem patchSignal_eq_iff {s : NetworkSignal Annotations} :
    patchSignal (entry rows) removeUnknown s = patched rows removeUnknown s ↔
      (s.signal = "inactive" → lastTarget rows "inactive" ≠ some "") := by
  rw [patchSignal_entry]
  by_cases h : s.signal = "inactive" ∧ lastTarget rows "inactive" = some ""
  · rw [if_pos h, patched_inactive removeUnknown h]
    simp [h.1, h.2]
  · rw [if_neg h]
    exact iff_of_true rfl (fun hname hlast => h ⟨hname, hlast⟩)

theorem patchMessage_eq_iff {m : NetworkMessage Annotations} :
    patchMessage (entry rows) removeUnknown m = patchedMessage rows removeUnknown m ↔
      ∀ signals, m.signals = some signals → ∀ s ∈ signals,
        s.signal = "inactive" → lastTarget rows "inactive" ≠ some "" := by
  obtain ⟨message, annotations, functions, signals⟩ := m
  cases signals with
  | none => simp [patchMessage, patchedMessage]
  | some signals =>
    have hdrop : ∀ s ∈ signals, patchSignal (entry rows) removeUnknown s = none ∨
        patchSignal (entry rows) removeUnknown s = patched rows removeUnknown s := fun s _ => by
      rw [patchSignal_entry]
      exact (em _).imp (fun h => if_pos h) (fun h => if_neg h)
    have hlists := Compact.filterMap_eq_iff hdrop
    rw [← Compact.compact_eq_filterMap] at hlists
    simp only [patchSignal_eq_iff] at hlists
    simp only [patchMessage, patchedMessage, Option.map_some, NetworkMessage.mk.injEq,
      Option.some.injEq, true_and, hlists, forall_eq']

/-! ## The command -/

theorem patchSignals_first {file : CsvFile} {record : List String}
    (hfirst : file.first = .ok record) (network : Network Annotations Metadata)
    (patchFile : String) (removeUnknown : Bool) :
    patchSignals network patchFile (.ok file) removeUnknown =
      patchRecords network file record removeUnknown := by
  simp only [patchSignals, Except.mapError, hfirst, bind, Except.bind]

theorem unexpectedColumns_cons (source target : String) (others : List String) :
    unexpectedColumns (source :: target :: others) =
      .ok (!decide (source = "source" ∧ target = "target")) := by
  by_cases hsource : source = "source" <;> by_cases htarget : target = "target" <;>
    simp [unexpectedColumns, field, hsource, htarget, bind, Except.bind]

/-- The run on a file with the columns of a signal patch, once its records are read. -/
theorem patchSignals_ok {file : CsvFile} {others : List String}
    (hfirst : file.first = .ok ("source" :: "target" :: others))
    (hothers : file.others = .ok rows) (network : Network Annotations Metadata)
    (patchFile : String) (removeUnknown : Bool) :
    patchSignals network patchFile (.ok file) removeUnknown = .ok { network with
      messages := network.messages.map (patchMessage (entry rows) removeUnknown) } := by
  have hload : loadPatch rows (fun _ => none) = .ok (entry rows) := by
    rw [loadPatch_ok (fun row hrow => by
      rw [file.fieldsPerRecord _ rows hfirst hothers row hrow]
      exact Nat.le_add_left 2 others.length)]
    simp only [Option.or_none]
  rw [patchSignals_first hfirst, patchRecords, unexpectedColumns_cons, hothers]
  simp [Except.mapError, bind, Except.bind, hload]

/-- The patch indexes beyond a record exactly if the file has a single column, `source`. -/
theorem patchSignals_indexOutOfRange_iff (network : Network Annotations Metadata)
    (patchFile : String) (file : CsvFile) (removeUnknown : Bool) :
    patchSignals network patchFile (.ok file) removeUnknown = .error .indexOutOfRange ↔
      file.first = .ok ["source"] := by
  cases hfirst : file.first with
  | error err =>
    refine iff_of_false (fun h => ?_) (fun h => by cases h)
    simp only [patchSignals, Except.mapError, hfirst, bind, Except.bind] at h
    cases h
  | ok record =>
    rw [Except.ok.injEq]
    match record, hfirst with
    | [], hfirst => exact absurd rfl (file.nonempty [] hfirst)
    | [source], hfirst =>
      rw [patchSignals_first hfirst, patchRecords]
      by_cases hsource : source = "source" <;>
        simp [unexpectedColumns, field, hsource, bind, Except.bind]
    | source :: target :: others, hfirst =>
      refine iff_of_false (fun h => ?_) (by simp)
      by_cases hcolumns : source = "source" ∧ target = "target"
      · obtain ⟨rfl, rfl⟩ := hcolumns
        cases hothers : file.others with
        | error err =>
          rw [patchSignals_first hfirst, patchRecords, unexpectedColumns_cons, hothers] at h
          cases h
        | ok rows =>
          rw [patchSignals_ok hfirst hothers] at h
          cases h
      · rw [patchSignals_first hfirst, patchRecords, unexpectedColumns_cons,
          decide_eq_false hcolumns] at h
        cases h

/-- On a file with the columns of a signal patch the command patches the network as it
should exactly if no signal of the name `inactive` has a last row without target. -/
theorem patchSignals_eq_iff (network : Network Annotations Metadata) (patchFile : String)
    (file : CsvFile) {others : List String}
    (hfirst : file.first = .ok ("source" :: "target" :: others))
    (hothers : file.others = .ok rows) (removeUnknown : Bool) :
    patchSignals network patchFile (.ok file) removeUnknown =
        .ok (patchedNetwork rows removeUnknown network) ↔
      ∀ m ∈ network.messages, ∀ signals, m.signals = some signals → ∀ s ∈ signals,
        s.signal = "inactive" → lastTarget rows "inactive" ≠ some "" := by
  rw [patchSignals_ok hfirst hothers, Except.ok.injEq, patchedNetwork, Network.mk.injEq,
    List.map_inj_left]
  simp only [true_and, patchMessage_eq_iff]

/-! ## A signal that is called inactive -/

/-- The file with the given rows under the columns of a signal patch. -/
def signalPatch (rows : List (String × String)) : CsvFile where
  first := .ok ["source", "target"]
  others := .ok (rows.map (fun row => [row.1, row.2]))
  nonempty := by
    rintro record ⟨⟩
    exact List.cons_ne_nil _ _
  fieldsPerRecord := by
    rintro record records ⟨⟩ ⟨⟩ r hr
    obtain ⟨row, _, rfl⟩ := List.mem_map.mp hr
    rfl

/-- The network of one message with the given signals. -/
def oneMessage (signals : List String) : Network Unit Unit where
  kind := "Network"
  metadata := none
  messages := [{
    message := "M"
    annotations := none
    functions := none
    signals := some (signals.map (fun signal => ⟨signal, none⟩)) }]

def severalRows : List (String × String) :=
  [("a", "b"), ("b", "c"), ("k", ""), ("r", "inactive")]

/-- A signal is renamed, one is removed, one kept, and one without a row removed. -/
theorem patchSignals_several :
    patchSignals (oneMessage ["a", "r", "k", "u"]) "patch.csv" (.ok (signalPatch severalRows))
        true =
      .ok (patchedNetwork (severalRows.map (fun row => [row.1, row.2])) true
        (oneMessage ["a", "r", "k", "u"])) ∧
    patchedNetwork (severalRows.map (fun row => [row.1, row.2])) true
      (oneMessage ["a", "r", "k", "u"]) = oneMessage ["b", "k"] :=
  ⟨(patchSignals_eq_iff (oneMessage ["a", "r", "k", "u"]) "patch.csv" (signalPatch severalRows)
    rfl rfl true).mpr (by
      intro m hm signals hsignals s hs hname
      decide +kernel), rfl⟩

/-- A row keeps the name of its signal, and the signal is removed for it. -/
theorem not_patchSignals_inactive :
    patchSignals (oneMessage ["inactive"]) "patch.csv" (.ok (signalPatch [("inactive", "")]))
        false ≠
      .ok (patchedNetwork [["inactive", ""]] false (oneMessage ["inactive"])) := by
  intro h
  have hcount := congrArg (fun r => r.toOption.map (fun network =>
    network.messages.map (fun m => m.signals.map List.length))) h
  revert hcount
  decide +kernel

end

end Patch
end DseNetwork
