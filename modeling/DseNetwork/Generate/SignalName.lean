import DseNetwork.Generate.GenNetwork
import Mathlib.Data.List.Basic

/-
Signal names of different members.

Pascal case and camel case drop the underscores of a member name and capitalise letters.
What is left of the name is its letters and digits, each with a mark for a capital: two
members get one signal name exactly if these agree.
-/

namespace DseNetwork
namespace GenNetwork

/-! ## Case of ASCII words -/

/-- The first letter in upper case.  Digits before it are no letters and begin no word. -/
def firstLetterUpper : List Char → List Char
  | [] => []
  | c :: rest => if c.isDigit then c :: firstLetterUpper rest else c.toUpper :: rest

/-- What the case mappings do to a word of ASCII letters and digits: `Title` takes its
first character to upper case, the title caser its first letter. -/
def asciiWords : CaseMappings where
  toLower s := String.ofList (s.toList.map Char.toLower)
  title s := String.ofList (s.toList.modifyHead Char.toUpper)
  caserString s := String.ofList (firstLetterUpper (s.toList.map Char.toLower))

/-- A letter in lower case or a digit. -/
def IsWordChar (c : Char) : Prop := c.isLower = true ∨ c.isDigit = true

instance : DecidablePred IsWordChar := fun _ => inferInstanceAs (Decidable (_ ∨ _))

structure OnWords (go : CaseMappings) : Prop where
  toLower : ∀ s : String, (∀ c ∈ s.toList, IsWordChar c) → go.toLower s = asciiWords.toLower s
  title : ∀ s : String, (∀ c ∈ s.toList, IsWordChar c) → go.title s = asciiWords.title s
  caserString : ∀ s : String, (∀ c ∈ s.toList, IsWordChar c) →
    go.caserString s = asciiWords.caserString s

/-- A member name in snake case. -/
def IsMemberName (name : String) : Prop := ∀ c ∈ name.toList, c = '_' ∨ IsWordChar c

instance : DecidablePred IsMemberName := fun name => List.decidableBAll _ name.toList

/-! ## Marks -/

/-- The characters of a name without its underscores, each with whether it is a letter that
is capitalised: one at the start of a part, or after characters that keep a part at its
start. -/
def marks (keepsStart : Char → Bool) : Bool → List Char → List (Char × Bool)
  | _, [] => []
  | start, c :: rest =>
    if c = '_' then marks keepsStart true rest
    else (c, start && c.isLower) :: marks keepsStart (start && keepsStart c) rest

def shown (m : Char × Bool) : Char := if m.2 then m.1.toUpper else m.1

/-- The mark that is shown as a character of a signal name. -/
def unshown (c : Char) : Char × Bool := (c.toLower, c.isUpper)

/-- The marks of a name in Pascal case. -/
def pascalMarks (name : String) : List (Char × Bool) := marks (fun _ => false) true name.toList

/-- The marks of a name in camel case, where the first part has no capital. -/
def camelMarks (name : String) : List (Char × Bool) := marks Char.isDigit false name.toList

variable {keepsStart : Char → Bool} {start : Bool} {l l' : List Char} {c : Char}

theorem marks_underscore : marks keepsStart start ('_' :: l) = marks keepsStart true l :=
  if_pos rfl

theorem marks_cons (h : c ≠ '_') : marks keepsStart start (c :: l) =
    (c, start && c.isLower) :: marks keepsStart (start && keepsStart c) l :=
  if_neg h

theorem IsWordChar.ne_underscore (h : IsWordChar c) : c ≠ '_' := by
  rintro rfl
  revert h
  unfold IsWordChar
  decide

theorem isLower_iff : c.isLower = true ↔ 97 ≤ c.toNat ∧ c.toNat ≤ 122 := by
  show (decide (c.val ≥ 'a'.val) && decide (c.val ≤ 'z'.val)) = true ↔ _
  rw [Bool.and_eq_true, decide_eq_true_eq, decide_eq_true_eq]
  exact Iff.rfl

theorem isDigit_iff : c.isDigit = true ↔ 48 ≤ c.toNat ∧ c.toNat ≤ 57 := by
  show (decide (c.val ≥ '0'.val) && decide (c.val ≤ '9'.val)) = true ↔ _
  rw [Bool.and_eq_true, decide_eq_true_eq, decide_eq_true_eq]
  exact Iff.rfl

theorem not_isLower_of_isDigit (h : c.isDigit = true) : c.isLower = false := by
  rw [Bool.eq_false_iff, Ne, isLower_iff]
  have := isDigit_iff.mp h
  omega

/-- A property of the letters and of the digits is one of the characters of words. -/
theorem IsWordChar.of_ascii {p : Char → Prop} (h : IsWordChar c)
    (letters : ∀ i, i < 26 → p (Char.ofNat (97 + i)))
    (digits : ∀ i, i < 10 → p (Char.ofNat (48 + i))) : p c := by
  rw [← Char.ofNat_toNat c]
  rcases h with hlower | hdigit
  · have hrange := isLower_iff.mp hlower
    have hp := letters (c.toNat - 97) (by omega)
    rwa [Nat.add_sub_cancel' hrange.1] at hp
  · have hrange := isDigit_iff.mp hdigit
    have hp := digits (c.toNat - 48) (by omega)
    rwa [Nat.add_sub_cancel' hrange.1] at hp

theorem IsWordChar.case (h : IsWordChar c) : c.isUpper = false ∧ c.toLower = c :=
  h.of_ascii (p := fun c => c.isUpper = false ∧ c.toLower = c) (by decide) (by decide)

theorem IsWordChar.toUpper (h : IsWordChar c) :
    (c.isLower = false → c.toUpper = c) ∧
      (c.isLower = true → c.toUpper.toLower = c ∧ c.toUpper.isUpper = true) :=
  h.of_ascii (p := fun c => (c.isLower = false → c.toUpper = c) ∧
    (c.isLower = true → c.toUpper.toLower = c ∧ c.toUpper.isUpper = true))
    (by decide) (by decide)

/-- A mark of a member name. -/
structure IsMark (m : Char × Bool) : Prop where
  char : IsWordChar m.1
  letter : m.2 = true → m.1.isLower = true

theorem marks_isMark (h : ∀ c ∈ l, c = '_' ∨ IsWordChar c) :
    ∀ m ∈ marks keepsStart start l, IsMark m := by
  induction l generalizing start with
  | nil => exact fun m hm => absurd hm List.not_mem_nil
  | cons c rest ih =>
    obtain ⟨hc, hrest⟩ := List.forall_mem_cons.mp h
    by_cases hu : c = '_'
    · subst hu
      rw [marks_underscore]
      exact ih hrest
    · rw [marks_cons hu]
      refine List.forall_mem_cons.mpr ⟨⟨hc.resolve_left hu, fun hcap => ?_⟩, ih hrest⟩
      exact (Bool.and_eq_true_iff.mp hcap).2

theorem IsMark.unshown_shown {m : Char × Bool} (h : IsMark m) : unshown (shown m) = m := by
  obtain ⟨c, capital⟩ := m
  cases capital with
  | false => exact Prod.ext h.char.case.2 h.char.case.1
  | true =>
    obtain ⟨hlower, hupper⟩ := h.char.toUpper.2 (h.letter rfl)
    exact Prod.ext hlower hupper

theorem map_shown_inj {ms ms' : List (Char × Bool)} (h : ∀ m ∈ ms, IsMark m)
    (h' : ∀ m ∈ ms', IsMark m) : ms.map shown = ms'.map shown ↔ ms = ms' := by
  have hread : ∀ {ms : List (Char × Bool)}, (∀ m ∈ ms, IsMark m) →
      (ms.map shown).map unshown = ms := fun hms => by
    rw [List.map_map]
    exact (List.map_congr_left (fun m hm => (hms m hm).unshown_shown)).trans (List.map_id _)
  constructor
  · intro heq
    rw [← hread h, heq, hread h']
  · rintro rfl
    rfl

/-! ## Parts -/

theorem marks_split (keepsStart : Char → Bool) (start : Bool) (l : List Char) :
    ∃ part parts, l.splitOn '_' = part :: parts ∧ marks keepsStart start l =
      marks keepsStart start part ++ parts.flatMap (marks keepsStart true) := by
  induction l generalizing start with
  | nil => exact ⟨[], [], rfl, rfl⟩
  | cons c rest ih =>
    rw [List.splitOn_cons_eq_if_modifyHead]
    by_cases hu : c = '_'
    · subst hu
      obtain ⟨part, parts, hsplit, hmarks⟩ := ih true
      refine ⟨[], part :: parts, by rw [hsplit]; rfl, ?_⟩
      rw [marks_underscore, hmarks]
      rfl
    · obtain ⟨part, parts, hsplit, hmarks⟩ := ih (start && keepsStart c)
      refine ⟨c :: part, parts, ?_, ?_⟩
      · rw [hsplit, if_neg (by simpa using hu), List.modifyHead_cons]
      · rw [marks_cons hu, marks_cons hu, hmarks, List.cons_append]

theorem splitOn_isWordChar (h : ∀ c ∈ l, c = '_' ∨ IsWordChar c) :
    ∀ part ∈ l.splitOn '_', ∀ c ∈ part, IsWordChar c := by
  induction l with
  | nil =>
    intro part hpart c hc
    rw [List.mem_singleton.mp hpart] at hc
    cases hc
  | cons c rest ih =>
    obtain ⟨hc, hrest⟩ := List.forall_mem_cons.mp h
    have hparts := ih hrest
    rw [List.splitOn_cons_eq_if_modifyHead]
    by_cases hu : c = '_'
    · rw [if_pos (by simpa using hu)]
      exact List.forall_mem_cons.mpr ⟨fun _ hmem => absurd hmem List.not_mem_nil, hparts⟩
    · rw [if_neg (by simpa using hu)]
      obtain ⟨part, parts, hsplit⟩ := List.exists_cons_of_ne_nil (List.splitOn_ne_nil '_' rest)
      rw [hsplit] at hparts ⊢
      obtain ⟨hpart, hothers⟩ := List.forall_mem_cons.mp hparts
      exact List.forall_mem_cons.mpr
        ⟨List.forall_mem_cons.mpr ⟨hc.resolve_left hu, hpart⟩, hothers⟩

/-! ## Words -/

theorem map_shown_word (h : ∀ c ∈ l, IsWordChar c) :
    (marks keepsStart false l).map shown = l := by
  induction l with
  | nil => rfl
  | cons c rest ih =>
    obtain ⟨hc, hrest⟩ := List.forall_mem_cons.mp h
    rw [marks_cons hc.ne_underscore, Bool.false_and, Bool.false_and, List.map_cons, ih hrest]
    rfl

theorem IsWordChar.shown_start (h : IsWordChar c) :
    shown (c, true && c.isLower) = c.toUpper := by
  rw [Bool.true_and, shown]
  by_cases hl : c.isLower = true
  · rw [if_pos hl]
  · rw [if_neg hl, h.toUpper.1 (Bool.eq_false_iff.mpr hl)]

theorem map_toLower_word (h : ∀ c ∈ l, IsWordChar c) : l.map Char.toLower = l :=
  (List.map_congr_left (fun c hc => (h c hc).case.2)).trans (List.map_id l)

theorem modifyHead_toUpper (h : ∀ c ∈ l, IsWordChar c) :
    l.modifyHead Char.toUpper = (marks (fun _ => false) true l).map shown := by
  cases l with
  | nil => rfl
  | cons c rest =>
    obtain ⟨hc, hrest⟩ := List.forall_mem_cons.mp h
    rw [marks_cons hc.ne_underscore, List.map_cons, hc.shown_start, Bool.and_false,
      map_shown_word hrest, List.modifyHead_cons]

theorem firstLetterUpper_eq (h : ∀ c ∈ l, IsWordChar c) :
    firstLetterUpper l = (marks Char.isDigit true l).map shown := by
  induction l with
  | nil => rfl
  | cons c rest ih =>
    obtain ⟨hc, hrest⟩ := List.forall_mem_cons.mp h
    rw [marks_cons hc.ne_underscore, List.map_cons, hc.shown_start, Bool.true_and,
      firstLetterUpper]
    by_cases hd : c.isDigit = true
    · rw [if_pos hd, hd, ih hrest,
        hc.toUpper.1 (not_isLower_of_isDigit hd)]
    · rw [if_neg hd, Bool.eq_false_iff.mpr hd, map_shown_word hrest]

/-! ## Signal names -/

variable {go : CaseMappings} {name name' : String}

theorem getSignalName_snakeCase (go : CaseMappings) (name : String) :
    getSignalName go name .snakeCase = name := by
  refine String.toList_inj.mp ?_
  rw [getSignalName, split, String.toList_intercalate, List.map_map]
  have hself : (name.toList.splitOn '_').map (String.toList ∘ String.ofList) =
      name.toList.splitOn '_' :=
    (List.map_congr_left (fun _ _ => String.toList_ofList)).trans (List.map_id _)
  rw [hself]
  exact List.intercalate_splitOn '_'

theorem OnWords.title_toLower (hgo : OnWords go) (h : ∀ c ∈ l, IsWordChar c) :
    (go.title (go.toLower (String.ofList l))).toList =
      (marks (fun _ => false) true l).map shown := by
  have hlower : go.toLower (String.ofList l) = String.ofList l := by
    rw [hgo.toLower _ (by rwa [String.toList_ofList])]
    show String.ofList ((String.ofList l).toList.map Char.toLower) = _
    rw [String.toList_ofList, map_toLower_word h]
  rw [hlower, hgo.title _ (by rwa [String.toList_ofList])]
  show (String.ofList ((String.ofList l).toList.modifyHead Char.toUpper)).toList = _
  rw [String.toList_ofList, String.toList_ofList, modifyHead_toUpper h]

theorem OnWords.caserString_eq (hgo : OnWords go) (h : ∀ c ∈ l, IsWordChar c) :
    (go.caserString (String.ofList l)).toList = (marks Char.isDigit true l).map shown := by
  rw [hgo.caserString _ (by rwa [String.toList_ofList])]
  show (String.ofList (firstLetterUpper ((String.ofList l).toList.map Char.toLower))).toList = _
  rw [String.toList_ofList, String.toList_ofList, map_toLower_word h, firstLetterUpper_eq h]

theorem getSignalName_pascalCase (hgo : OnWords go) (h : IsMemberName name) :
    (getSignalName go name .pascalCase).toList = (pascalMarks name).map shown := by
  obtain ⟨part, parts, hsplit, hmarks⟩ := marks_split (fun _ => false) true name.toList
  have hwords := splitOn_isWordChar h
  rw [getSignalName, split, String.toList_join, List.map_map, List.flatMap_map, pascalMarks,
    hmarks, ← List.flatMap_cons, ← hsplit, List.map_flatMap]
  exact List.flatMap_congr (fun word hword => hgo.title_toLower (hwords word hword))

theorem getSignalName_camelCase (hgo : OnWords go) (h : IsMemberName name) :
    (getSignalName go name .camelCase).toList = (camelMarks name).map shown := by
  obtain ⟨part, parts, hsplit, hmarks⟩ := marks_split Char.isDigit false name.toList
  have hwords := splitOn_isWordChar h
  rw [hsplit] at hwords
  obtain ⟨hpart, hparts⟩ := List.forall_mem_cons.mp hwords
  have hothers : ∀ word ∈ parts, (go.caserString (String.ofList word)).toList =
      (marks Char.isDigit true word).map shown :=
    fun word hword => hgo.caserString_eq (hparts word hword)
  rw [getSignalName, split, hsplit, String.toList_join, camelMarks, hmarks, List.map_append,
    map_shown_word hpart, List.map_flatMap, ← List.flatMap_congr hothers]
  have hrest : (parts.map String.ofList).mapIdx (fun i word =>
      if i + 1 ≠ 0 then go.caserString word else word) =
      parts.map (fun word => go.caserString (String.ofList word)) := by
    refine List.mapIdx_eq_iff.mpr (fun i => ?_)
    rw [List.getElem?_map, List.getElem?_map, Option.map_map]
    rfl
  rw [List.map_cons, List.mapIdx_cons, List.flatMap_cons, hrest, List.flatMap_map,
    if_neg (not_not.mpr rfl), String.toList_ofList]

/-! ## Names that stay distinct -/

/-- Every underscore of the name is followed by a letter. -/
def lettersFollow : List Char → Bool
  | [] => true
  | c :: rest => (c != '_' || rest.head?.any Char.isLower) && lettersFollow rest

/-- A name that starts with a letter and has a letter after each underscore. -/
def IsPlain (name : String) : Prop :=
  name.toList.head?.any Char.isLower = true ∧ lettersFollow name.toList = true

instance : DecidablePred IsPlain := fun _ => inferInstanceAs (Decidable (_ ∧ _))

/-- The name with an underscore before each capital. -/
def unmark (ms : List (Char × Bool)) : List Char :=
  ms.flatMap (fun m => if m.2 then ['_', m.1] else [m.1])

theorem unmark_marks (hkeeps : ∀ c, c.isLower = true → keepsStart c = false)
    (h : lettersFollow l = true) : unmark (marks keepsStart false l) = l ∧
      (l.head?.any Char.isLower = true → unmark (marks keepsStart true l) = '_' :: l) := by
  induction l with
  | nil => exact ⟨rfl, fun hhead => absurd hhead (by decide)⟩
  | cons c rest ih =>
    rw [lettersFollow, Bool.and_eq_true, Bool.or_eq_true, bne_iff_ne] at h
    obtain ⟨hplain, hstart⟩ := ih h.2
    by_cases hu : c = '_'
    · subst hu
      refine ⟨?_, fun hhead => absurd (show '_'.isLower = true from hhead) (by decide)⟩
      rw [marks_underscore, hstart (h.1.resolve_left (not_not.mpr rfl))]
    · rw [marks_cons hu, marks_cons hu]
      constructor
      · rw [Bool.false_and, Bool.false_and]
        exact congrArg (c :: ·) hplain
      · intro hl
        have hl : c.isLower = true := hl
        rw [hl, hkeeps c hl]
        exact congrArg (fun rest => '_' :: c :: rest) hplain

theorem IsPlain.of_pascalMarks (h : IsPlain name) :
    unmark (pascalMarks name) = '_' :: name.toList :=
  (unmark_marks (fun _ _ => rfl) h.2).2 h.1

theorem IsPlain.of_camelMarks (h : IsPlain name) : unmark (camelMarks name) = name.toList := by
  refine (unmark_marks (fun c hc => ?_) h.2).1
  rw [Bool.eq_false_iff]
  intro hd
  rw [not_isLower_of_isDigit hd] at hc
  cases hc

/-- Snake case keeps member names apart.  The other styles give two of them one signal name
exactly if their marks agree, which those of two plain names never do. -/
theorem signalNames_eq_iff (go : CaseMappings) (hgo : OnWords go) {name name' : String}
    (h : IsMemberName name) (h' : IsMemberName name') :
    (getSignalName go name .snakeCase = getSignalName go name' .snakeCase ↔ name = name') ∧
      (getSignalName go name .pascalCase = getSignalName go name' .pascalCase ↔
        pascalMarks name = pascalMarks name') ∧
      (getSignalName go name .camelCase = getSignalName go name' .camelCase ↔
        camelMarks name = camelMarks name') ∧
      (IsPlain name → IsPlain name' → name ≠ name' → ∀ style,
        getSignalName go name style ≠ getSignalName go name' style) := by
  have hsnake : getSignalName go name .snakeCase = getSignalName go name' .snakeCase ↔
      name = name' := by
    rw [getSignalName_snakeCase, getSignalName_snakeCase]
  have hpascal : getSignalName go name .pascalCase = getSignalName go name' .pascalCase ↔
      pascalMarks name = pascalMarks name' := by
    rw [← String.toList_inj, getSignalName_pascalCase hgo h, getSignalName_pascalCase hgo h']
    exact map_shown_inj (marks_isMark h) (marks_isMark h')
  have hcamel : getSignalName go name .camelCase = getSignalName go name' .camelCase ↔
      camelMarks name = camelMarks name' := by
    rw [← String.toList_inj, getSignalName_camelCase hgo h, getSignalName_camelCase hgo h']
    exact map_shown_inj (marks_isMark h) (marks_isMark h')
  refine ⟨hsnake, hpascal, hcamel, fun hp hp' hne style heq => hne ?_⟩
  cases style with
  | snakeCase => exact hsnake.mp heq
  | pascalCase =>
    have hmarks := congrArg unmark (hpascal.mp heq)
    rw [hp.of_pascalMarks, hp'.of_pascalMarks] at hmarks
    exact String.toList_inj.mp (List.cons.inj hmarks).2
  | camelCase =>
    have hmarks := congrArg unmark (hcamel.mp heq)
    rw [hp.of_camelMarks, hp'.of_camelMarks] at hmarks
    exact String.toList_inj.mp hmarks

theorem asciiWords_onWords : OnWords asciiWords :=
  ⟨fun _ _ => rfl, fun _ _ => rfl, fun _ _ => rfl⟩

theorem signalNames_rpm : getSignalName asciiWords "engine_rpm" .camelCase ≠
    getSignalName asciiWords "enginer_pm" .camelCase :=
  (signalNames_eq_iff asciiWords asciiWords_onWords
    (show IsMemberName "engine_rpm" by decide +kernel)
    (show IsMemberName "enginer_pm" by decide +kernel)).2.2.2
    (by decide +kernel) (by decide +kernel) (by decide) .camelCase

/-- A digit after an underscore has no capital to tell of the underscore. -/
theorem not_signalNames_distinct : ¬ ∀ (go : CaseMappings), OnWords go →
    ∀ (style : Style) (name name' : String), IsMemberName name → IsMemberName name' →
      name ≠ name' → getSignalName go name style ≠ getSignalName go name' style := by
  intro h
  exact h asciiWords asciiWords_onWords .pascalCase "a1" "a_1" (by decide +kernel)
    (by decide +kernel) (by decide) (by decide +kernel)

end GenNetwork
end DseNetwork
