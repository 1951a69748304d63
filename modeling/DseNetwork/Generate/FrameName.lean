import DseNetwork.Generate.Containers

/-
The name of a message and the frame of its struct.

`findFrameInfo` looks a struct up under its name without the suffix `_t` and the name of
the network as it is given.  `getMessageName` cuts two bytes and takes the name of the
network in lower case, which may have another length.  Where the two come to different
names, no frame is found to be contained in the message.
-/

namespace DseNetwork
namespace GenNetwork

/-! ## Trimming -/

def StartsWith (s start : String) : Prop := start.toList <+: s.toList

instance (s start : String) : Decidable (StartsWith s start) :=
  inferInstanceAs (Decidable (_ <+: _))

def EndsWith (s suffix : String) : Prop := suffix.toList <:+ s.toList

instance (s suffix : String) : Decidable (EndsWith s suffix) :=
  inferInstanceAs (Decidable (_ <:+ _))

variable {s start : String}

theorem toList_trimStart (h : StartsWith s start) :
    (trimStart s start).toList = s.toList.drop start.toList.length := by
  rw [trimStart, if_pos (List.isPrefixOf_iff_prefix.mpr h), String.toList_ofList]

theorem trimStart_of_not (h : ¬ StartsWith s start) : trimStart s start = s := by
  rw [trimStart, if_neg (fun hs => h (List.isPrefixOf_iff_prefix.mp hs))]

theorem length_trimStart_lt (h : StartsWith s start) (hstart : start.toList ≠ []) :
    (trimStart s start).toList.length < s.toList.length := by
  have hle := h.length_le
  have hpos := List.length_pos_of_ne_nil hstart
  rw [toList_trimStart h, List.length_drop]
  omega

theorem length_trimStart_le (s start : String) :
    (trimStart s start).toList.length ≤ s.toList.length := by
  by_cases h : StartsWith s start
  · rw [toList_trimStart h, List.length_drop]
    exact Nat.sub_le _ _
  · rw [trimStart_of_not h]

/-- Trimming one of two strings comes to the same exactly if they are one string, or the
name starts with none of them. -/
theorem trimStart_eq_iff {a b : String} (ha : a.toList ≠ []) (hb : b.toList ≠ []) :
    trimStart s a = trimStart s b ↔ a = b ∨ (¬ StartsWith s a ∧ ¬ StartsWith s b) := by
  by_cases hsa : StartsWith s a
  · refine ⟨fun heq => .inl ?_, fun h => h.elim (fun h => by rw [h]) (fun h => absurd hsa h.1)⟩
    by_cases hsb : StartsWith s b
    · have hlength := congrArg (fun name => name.toList.length) heq
      simp only [toList_trimStart hsa, toList_trimStart hsb, List.length_drop] at hlength
      have hle := hsa.length_le
      have hle' := hsb.length_le
      exact String.toList_inj.mp ((List.prefix_of_prefix_length_le hsa hsb (by omega)).eq_of_length
        (by omega))
    · have hlt := length_trimStart_lt hsa ha
      rw [heq, trimStart_of_not hsb] at hlt
      exact absurd hlt (Nat.lt_irrefl _)
  · by_cases hsb : StartsWith s b
    · refine iff_of_false (fun heq => ?_) (fun h => ?_)
      · have hlt := length_trimStart_lt hsb hb
        rw [← heq, trimStart_of_not hsa] at hlt
        exact Nat.lt_irrefl _ hlt
      · exact h.elim (fun h => hsa (h ▸ hsb)) (fun h => h.2 hsb)
    · exact iff_of_true (by rw [trimStart_of_not hsa, trimStart_of_not hsb]) (.inr ⟨hsa, hsb⟩)

theorem eq_append_trimStart (h : StartsWith s start) : s = start ++ trimStart s start := by
  obtain ⟨rest, hrest⟩ := h
  have hsplit : s = start ++ String.ofList rest := by
    rw [← String.toList_inj, String.toList_append, String.toList_ofList, hrest]
  rw [hsplit, trimStart_append]

/-- What trimming comes to, by whether the string starts so. -/
theorem trimStart_eq_iff_append {name : String} :
    trimStart s start = name ↔ s = start ++ name ∨ (s = name ∧ ¬ StartsWith s start) := by
  by_cases h : StartsWith s start
  · refine ⟨fun heq => .inl (heq ▸ eq_append_trimStart h), fun hs => ?_⟩
    rcases hs with hs | ⟨_, hnot⟩
    · rw [hs, trimStart_append]
    · exact absurd h hnot
  · rw [trimStart_of_not h]
    refine ⟨fun heq => .inr ⟨heq, h⟩, fun hs => hs.elim (fun hs => absurd ?_ h) And.left⟩
    exact ⟨name.toList, by rw [hs, String.toList_append]⟩

/-! ## The two names -/

/-- The name that `findFrameInfo` looks a struct up under. -/
def frameKey (structName dbcName : String) : String :=
  trimStart (trimSuffix structName "_t") (dbcName ++ "_")

theorem findFrameInfo_eq (fmd : FrameMetadata) (structName dbcName : String) :
    findFrameInfo fmd structName dbcName = fmd.frames.lookup (frameKey structName dbcName) := rfl

/-- The name of a struct without its last two bytes. -/
def structBody (structName : String) : String :=
  String.ofList (structName.toList.take (structName.toList.length - 2))

variable (go : CaseMappings)

theorem getMessageName_eq (structName dbcName : String) :
    getMessageName go structName dbcName =
      if structName.toList.length < 2 then .error .sliceBounds
      else .ok (trimStart (structBody structName) (go.toLower dbcName ++ "_")) := rfl

/-- The two names of a struct agree.  With the suffix `_t` the name of the network is in
lower case already, or the rest of the name starts with it in neither case.  Without the
suffix the name starts with that of the network, and without its last two bytes it is what
follows there, alone or behind the name of the network in lower case. -/
def SameName (structName dbcName : String) : Prop :=
  (EndsWith structName "_t" ∧ (go.toLower dbcName = dbcName ∨
    (¬ StartsWith (structBody structName) (go.toLower dbcName ++ "_") ∧
      ¬ StartsWith (structBody structName) (dbcName ++ "_")))) ∨
  (¬ EndsWith structName "_t" ∧ StartsWith structName (dbcName ++ "_") ∧
    (structBody structName = go.toLower dbcName ++ "_" ++ trimStart structName (dbcName ++ "_") ∨
      (structBody structName = trimStart structName (dbcName ++ "_") ∧
        ¬ StartsWith (structBody structName) (go.toLower dbcName ++ "_"))))

instance (structName dbcName : String) : Decidable (SameName go structName dbcName) :=
  inferInstanceAs (Decidable (_ ∨ _ ∧ _ ∧ _))

variable {go} {structName dbcName : String}

theorem trimSuffix_of_endsWith (h : EndsWith structName "_t") :
    trimSuffix structName "_t" = structBody structName := by
  rw [trimSuffix, if_pos (List.isSuffixOf_iff_suffix.mpr h), structBody]
  rfl

theorem trimSuffix_of_not (h : ¬ EndsWith structName "_t") :
    trimSuffix structName "_t" = structName := by
  rw [trimSuffix, if_neg (fun hs => h (List.isSuffixOf_iff_suffix.mp hs))]

theorem length_structBody (h : 2 ≤ structName.toList.length) :
    (structBody structName).toList.length + 2 = structName.toList.length := by
  rw [structBody, String.toList_ofList, List.length_take]
  omega

theorem append_underscore_ne_nil (s : String) : (s ++ "_").toList ≠ [] := by
  rw [String.toList_append]
  exact List.append_ne_nil_of_right_ne_nil _ (by decide)

theorem append_underscore_inj {s s' : String} : s ++ "_" = s' ++ "_" ↔ s = s' := by
  rw [← String.toList_inj, String.toList_append, String.toList_append, List.append_left_inj,
    String.toList_inj]

/-- Without the suffix the name has to be trimmed, since its last two bytes are cut. -/
theorem cut_eq_iff (h2 : 2 ≤ structName.toList.length) :
    trimStart (structBody structName) (go.toLower dbcName ++ "_") =
        trimStart structName (dbcName ++ "_") ↔
      StartsWith structName (dbcName ++ "_") ∧
        (structBody structName =
            go.toLower dbcName ++ "_" ++ trimStart structName (dbcName ++ "_") ∨
          (structBody structName = trimStart structName (dbcName ++ "_") ∧
            ¬ StartsWith (structBody structName) (go.toLower dbcName ++ "_"))) := by
  rw [← trimStart_eq_iff_append]
  refine ⟨fun heq => ⟨?_, heq⟩, And.right⟩
  by_contra hnot
  have hbody := length_structBody h2
  have hle := length_trimStart_le (structBody structName) (go.toLower dbcName ++ "_")
  rw [heq, trimStart_of_not hnot] at hle
  omega

theorem messageName_eq_frameKey_iff (h2 : 2 ≤ structName.toList.length) :
    trimStart (structBody structName) (go.toLower dbcName ++ "_") = frameKey structName dbcName ↔
      SameName go structName dbcName := by
  by_cases hsuffix : EndsWith structName "_t"
  · rw [frameKey, trimSuffix_of_endsWith hsuffix, trimStart_eq_iff (append_underscore_ne_nil _)
      (append_underscore_ne_nil _), append_underscore_inj]
    simp only [SameName, hsuffix, true_and, not_true_eq_false, false_and, or_false]
  · rw [frameKey, trimSuffix_of_not hsuffix, cut_eq_iff h2]
    simp only [SameName, hsuffix, false_and, not_false_eq_true, true_and, false_or]

/-! ## Contained frames -/

/-- A run of `processContainer` that returns has a message for every frame contained in the
message. -/
theorem processContainer_finds {message : String} {members : List IndexMemberDecl}
    {style : Style} {frames : List (String × FrameInfo)} {messages : List Kind.NetworkMessage}
    (h : processContainer go message structName members style frames = .ok messages)
    {f : String × FrameInfo} (hf : f ∈ frames) (hcontainer : f.2.container = message) :
    ∃ m ∈ messages, m.message = f.1 := by
  induction frames generalizing messages with
  | nil => cases hf
  | cons g rest ih =>
    obtain ⟨frameName, frameInfo⟩ := g
    rw [processContainer] at h
    by_cases hg : frameInfo.container = message
    · rw [if_pos hg] at h
      obtain ⟨⟨signals, offset⟩, _, h⟩ := bind_eq_ok.mp h
      obtain ⟨others, hothers, h⟩ := bind_eq_ok.mp h
      cases h
      rcases List.mem_cons.mp hf with rfl | hmem
      · exact ⟨_, List.mem_cons_self, rfl⟩
      · obtain ⟨m, hm, hname⟩ := ih hothers hmem
        exact ⟨m, List.mem_cons_of_mem _ hm, hname⟩
    · rw [if_neg hg] at h
      rcases List.mem_cons.mp hf with rfl | hmem
      · exact absurd hcontainer hg
      · exact ih h hmem

/-- `getMessageName` returns, and where `findFrameInfo` finds a frame for the struct, it
returns the key of that frame, under which `processContainer` finds every frame that is
contained in it. -/
def NamesAgree (go : CaseMappings) (fmd : FrameMetadata) (structName dbcName : String) : Prop :=
  ∃ message, getMessageName go structName dbcName = .ok message ∧
    ∀ frameInfo, findFrameInfo fmd structName dbcName = some frameInfo →
      (message, frameInfo) ∈ fmd.frames ∧ message = frameKey structName dbcName ∧
      ∀ members style frames messages, List.Perm frames fmd.frames →
        processContainer go message structName members style frames = .ok messages →
        ∀ f ∈ fmd.frames, f.2.container = frameKey structName dbcName →
          ∃ m ∈ messages, m.message = f.1

/-- The names agree exactly if the name of the struct has two bytes that can be cut and,
where a frame is found for it, the two ways of trimming it come to the same. -/
theorem namesAgree_iff (go : CaseMappings) (fmd : FrameMetadata) (structName dbcName : String) :
    NamesAgree go fmd structName dbcName ↔ 2 ≤ structName.toList.length ∧
      ((findFrameInfo fmd structName dbcName).isSome → SameName go structName dbcName) := by
  unfold NamesAgree
  by_cases h2 : 2 ≤ structName.toList.length
  · have hname : getMessageName go structName dbcName =
        .ok (trimStart (structBody structName) (go.toLower dbcName ++ "_")) := by
      rw [getMessageName_eq, if_neg (by omega)]
    have hsame : _ ↔ SameName go structName dbcName := messageName_eq_frameKey_iff h2
    constructor
    · intro h
      obtain ⟨message, hmessage, hkey⟩ := h
      refine ⟨h2, fun hfound => hsame.mp ?_⟩
      obtain ⟨frameInfo, hfind⟩ := Option.isSome_iff_exists.mp hfound
      rw [hname, Except.ok.injEq] at hmessage
      rw [hmessage]
      exact (hkey frameInfo hfind).2.1
    · intro h
      obtain ⟨_, hcond⟩ := h
      refine ⟨_, hname, fun frameInfo hfind => ?_⟩
      have hmessage := hsame.mpr (hcond (by rw [hfind]; rfl))
      rw [findFrameInfo_eq, ← hmessage] at hfind
      refine ⟨lookup_eq_some_iff.mp hfind, hmessage,
        fun members style frames messages hperm hrun f hf hcontainer => ?_⟩
      exact processContainer_finds hrun (hperm.mem_iff.mpr hf) (hcontainer.trans hmessage.symm)
  · refine iff_of_false (fun h => ?_) (fun h => h2 h.1)
    obtain ⟨message, hmessage, _⟩ := h
    rw [getMessageName_eq, if_pos (by omega)] at hmessage
    cases hmessage

/-- The struct of a network with a capital in its name is found, and its message keeps the
name of the network. -/
theorem not_namesAgree_capital : ¬ NamesAgree asciiCase oneContainer "Can_c_t" "Can" := by
  intro h
  obtain ⟨message, hmessage, hkey⟩ := h
  have hname : getMessageName asciiCase "Can_c_t" "Can" = .ok "Can_c" := by decide +kernel
  have hfind : (findFrameInfo oneContainer "Can_c_t" "Can").isSome = true := by decide +kernel
  obtain ⟨frameInfo, hfind⟩ := Option.isSome_iff_exists.mp hfind
  rw [hname, Except.ok.injEq] at hmessage
  have hc := hmessage.trans (hkey frameInfo hfind).2.1
  revert hc
  decide +kernel

end GenNetwork
end DseNetwork
