import DseNetwork.Lib.Sweep

/-
Actions that are taken one after the other, on several channels.

Actions of different channels can be exchanged, so the outcome depends only on the order
in which each channel has its own.
-/

namespace DseNetwork
namespace Interleave

variable {σ φ ο κ ε : Type}

/-- The actions in order, with what each of them emits. -/
def run (act : φ → σ → Except ε (σ × ο)) : List φ → σ → Except ε (σ × List ο)
  | [], s => .ok (s, [])
  | f :: rest, s => do
    let (s, o) ← act f s
    let (s, os) ← run act rest s
    .ok (s, o :: os)

/-- Two actions of different channels may be taken in the other order, to the same end. -/
def Exchange (act : φ → σ → Except ε (σ × ο)) (channel : φ → κ) : Prop :=
  ∀ f g s s₁ s₂ o p, channel f ≠ channel g → act f s = .ok (s₁, o) → act g s₁ = .ok (s₂, p) →
    ∃ t, act g s = .ok (t, p) ∧ act f t = .ok (s₂, o)

/-- Each channel has the same elements in the same order. -/
def SameChannels [DecidableEq κ] (channel : φ → κ) (l l' : List φ) : Prop :=
  ∀ c, l.filter (fun f => channel f = c) = l'.filter (fun f => channel f = c)

variable {act : φ → σ → Except ε (σ × ο)} {channel : φ → κ}

theorem run_cons {f : φ} {rest : List φ} {s s' : σ} {os : List ο} :
    run act (f :: rest) s = .ok (s', os) ↔
      ∃ t o os', act f s = .ok (t, o) ∧ run act rest t = .ok (s', os') ∧ os = o :: os' := by
  rw [run]
  constructor
  · intro h
    obtain ⟨⟨t, o⟩, hf, h⟩ := bind_eq_ok.mp h
    obtain ⟨⟨t', os'⟩, hrest, h⟩ := bind_eq_ok.mp h
    cases h
    exact ⟨t, o, os', hf, hrest, rfl⟩
  · rintro ⟨t, o, os', hf, hrest, rfl⟩
    exact bind_eq_ok.mpr ⟨(t, o), hf, bind_eq_ok.mpr ⟨(s', os'), hrest, rfl⟩⟩

/-- An action moves behind actions of other channels. -/
theorem run_delay (hexchange : Exchange act channel) {f : φ} {before after : List φ}
    (hbefore : ∀ g ∈ before, channel g ≠ channel f) {s t s' : σ} {o : ο} {os : List ο}
    (hf : act f s = .ok (t, o)) (hrest : run act (before ++ after) t = .ok (s', os)) :
    ∃ os₁ os₂, os = os₁ ++ os₂ ∧ os₁.length = before.length ∧
      run act (before ++ f :: after) s = .ok (s', os₁ ++ o :: os₂) := by
  induction before generalizing s t os with
  | nil => exact ⟨[], os, rfl, rfl, run_cons.mpr ⟨t, o, os, hf, hrest, rfl⟩⟩
  | cons g rest ih =>
    obtain ⟨hg, hothers⟩ := List.forall_mem_cons.mp hbefore
    obtain ⟨t', p, os', hgt, hrun, rfl⟩ := run_cons.mp hrest
    obtain ⟨u, hgs, hfu⟩ := hexchange f g s t t' o p (Ne.symm hg) hf hgt
    obtain ⟨os₁, os₂, rfl, hlen, hrun'⟩ := ih hothers hfu hrun
    exact ⟨p :: os₁, os₂, rfl, congrArg Nat.succ hlen,
      run_cons.mpr ⟨u, p, _, hgs, hrun', rfl⟩⟩

/-- What is emitted at each place is of the channel of the action there. -/
theorem run_channels {channelOf : ο → κ}
    (hemit : ∀ f s t o, act f s = .ok (t, o) → channelOf o = channel f) {l : List φ} {s s' : σ}
    {os : List ο} (h : run act l s = .ok (s', os)) : os.map channelOf = l.map channel := by
  induction l generalizing s os with
  | nil =>
    cases h
    rfl
  | cons f rest ih =>
    obtain ⟨t, o, os', hf, hrest, rfl⟩ := run_cons.mp h
    rw [List.map_cons, List.map_cons, hemit f s t o hf, ih hrest]

variable [DecidableEq κ]

theorem SameChannels.swap {f g : φ} (h : channel f ≠ channel g) (l : List φ) :
    SameChannels channel (f :: g :: l) (g :: f :: l) := by
  intro c
  by_cases hf : channel f = c
  · have hg : channel g ≠ c := fun hg => h (hf.trans hg.symm)
    simp [hf, hg]
  · simp [hf, List.filter_cons]

/-- The first element of a list stands in every list with the same channels, behind
elements of other channels. -/
theorem SameChannels.split {f : φ} {rest l' : List φ} (h : SameChannels channel (f :: rest) l') :
    ∃ before after, l' = before ++ f :: after ∧ (∀ g ∈ before, channel g ≠ channel f) ∧
      SameChannels channel rest (before ++ after) := by
  have hown := h (channel f)
  rw [List.filter_cons_of_pos (by simp)] at hown
  obtain ⟨before, after, rfl, hnone, _, hafter⟩ := List.filter_eq_cons_iff.mp hown.symm
  have hbefore : ∀ g ∈ before, channel g ≠ channel f := fun g hg => by
    simpa using hnone g hg
  refine ⟨before, after, rfl, hbefore, fun c => ?_⟩
  have hc := h c
  rw [List.filter_append] at hc ⊢
  by_cases hfc : channel f = c
  · subst hfc
    have hempty : before.filter (fun g => channel g = channel f) = [] :=
      List.filter_eq_nil_iff.mpr (fun g hg => by simpa using hbefore g hg)
    rw [hempty, List.nil_append] at hc ⊢
    exact hafter.symm
  · rwa [List.filter_cons_of_neg (by simpa using hfc),
      List.filter_cons_of_neg (by simpa using hfc)] at hc

/-- Runs over two lists with the same channels end in the same state, and emit the same
on each channel. -/
theorem run_interleaved (hexchange : Exchange act channel) (channelOf : ο → κ)
    (hemit : ∀ f s t o, act f s = .ok (t, o) → channelOf o = channel f) {l l' : List φ}
    (hl : SameChannels channel l l') {s s' : σ} {os : List ο}
    (h : run act l s = .ok (s', os)) :
    ∃ os', run act l' s = .ok (s', os') ∧ SameChannels channelOf os os' := by
  induction l generalizing l' s os with
  | nil =>
    cases l' with
    | nil => exact ⟨os, h, fun _ => rfl⟩
    | cons f rest =>
      have hnone := hl (channel f)
      rw [List.filter_cons_of_pos (by simp)] at hnone
      cases hnone
  | cons f rest ih =>
    obtain ⟨t, o, os₀, hf, hrest, rfl⟩ := run_cons.mp h
    obtain ⟨before, after, rfl, hbefore, hsame⟩ := hl.split
    obtain ⟨os', hrun, hos⟩ := ih hsame hrest
    obtain ⟨os₁, os₂, rfl, hlen, hrun'⟩ := run_delay hexchange hbefore hf hrun
    refine ⟨os₁ ++ o :: os₂, hrun', fun c => ?_⟩
    -- What is emitted before has the channels of the actions before.
    have hmap := run_channels hemit hrun
    rw [List.map_append, List.map_append] at hmap
    have hfirst : os₁.map channelOf = before.map channel :=
      (List.append_inj hmap (by rw [List.length_map, List.length_map, hlen])).1
    have hothers : ∀ p ∈ os₁, channelOf p ≠ channel f := fun p hp => by
      obtain ⟨g, hg, hgp⟩ := List.mem_map.mp (hfirst ▸ List.mem_map_of_mem hp)
      rw [← hgp]
      exact hbefore g hg
    have hc := hos c
    have ho := hemit f s t o hf
    rw [List.filter_append] at hc ⊢
    by_cases hoc : channelOf o = c
    · have hempty : os₁.filter (fun p => channelOf p = c) = [] :=
        List.filter_eq_nil_iff.mpr (fun p hp => by
          have hne := hothers p hp
          rw [← ho, hoc] at hne
          simpa using hne)
      rw [hempty, List.nil_append] at hc ⊢
      rw [List.filter_cons_of_pos (by simpa using hoc),
        List.filter_cons_of_pos (by simpa using hoc), hc]
    · rw [List.filter_cons_of_neg (by simpa using hoc),
        List.filter_cons_of_neg (by simpa using hoc), hc]

end Interleave
end DseNetwork
