import DseNetwork.Lib.Sweep
import DseNetwork.Lib.Transition
import Mathlib.Data.List.Forall2

/-
Two computations side by side.

`Follows R x x'`: whenever `x` completes, so does `x'`, with a result related by `R`.
A system whose every step is followed by a step of another has its runs followed by
runs of the other, step by step.
-/

namespace DseNetwork

/-! ## Computations that may fail -/

section Follows

variable {ε α α' β β' : Type} {R : α → α' → Prop} {Q : β → β' → Prop}

def Follows (R : α → α' → Prop) (x : Except ε α) (x' : Except ε α') : Prop :=
  ∀ a, x = .ok a → ∃ a', x' = .ok a' ∧ R a a'

theorem Follows.ok {a : α} {a' : α'} (h : R a a') : Follows R (.ok a : Except ε α) (.ok a') := by
  intro b hb
  cases hb
  exact ⟨a', rfl, h⟩

theorem Follows.error (e : ε) (x' : Except ε α') : Follows R (.error e : Except ε α) x' := by
  intro a ha
  cases ha

theorem Follows.bind {x : Except ε α} {x' : Except ε α'} {f : α → Except ε β}
    {f' : α' → Except ε β'} (hx : Follows R x x')
    (hf : ∀ a a', R a a' → Follows Q (f a) (f' a')) : Follows Q (x >>= f) (x' >>= f') := by
  intro b hb
  obtain ⟨a, ha, hfa⟩ := bind_eq_ok.mp hb
  obtain ⟨a', ha', hR⟩ := hx a ha
  obtain ⟨b', hb', hQ⟩ := hf a a' hR b hfa
  exact ⟨b', bind_eq_ok.mpr ⟨a', ha', hb'⟩, hQ⟩

end Follows

/-! ## Sweeps over renamed indices -/

namespace Sweep

variable {ι ι' α β β' ε : Type} [DecidableEq ι] [DecidableEq ι']

/-- A sweep over some of the cells of another, with bodies that agree on these up to what
they emit. -/
theorem sweep_follows {f : ι → α → Except ε (α × List β)}
    {f' : ι' → α → Except ε (α × List β')} {l : List ι} {l' : List ι'} (hl : l.Nodup)
    (hl' : l'.Nodup) (origin : ι' → ι) (horigin : ∀ j ∈ l', origin j ∈ l)
    (hf : ∀ j a, Follows (fun r r' => r'.1 = r.1) (f (origin j) a) (f' j a))
    {s : ι → α} {s' : ι' → α} (hs : ∀ j, s' j = s (origin j)) :
    Follows (fun r r' => ∀ j ∈ l', r'.1 j = r.1 (origin j)) (sweep f l s) (sweep f' l' s') := by
  rintro ⟨t, out⟩ h
  obtain ⟨_, hbody, _⟩ := sweep_ok hl h
  obtain ⟨t', out', h'⟩ := sweep_complete (f := f') (s := s') hl' (fun j hj => by
    obtain ⟨r', hr', _⟩ := hf j (s (origin j)) _ (hbody _ (horigin j hj))
    rw [hs j]
    exact ⟨r'.1, r'.2, hr'⟩)
  refine ⟨(t', out'), h', fun j hj => ?_⟩
  obtain ⟨r', hr', heq⟩ := hf j (s (origin j)) _ (hbody _ (horigin j hj))
  have hbody' := (sweep_ok hl' h').2.1 j hj
  rw [hs j, hr'] at hbody'
  exact (congrArg Prod.fst (Except.ok.inj hbody')).symm.trans heq

end Sweep

/-! ## Transition systems -/

namespace System

variable {σ ι ο σ' ι' ο' : Type} {S : System σ ι ο} {S' : System σ' ι' ο'}

/-- From related states every step of `S` is followed by a step of `S'` that `E` relates
to it. -/
def Simulates (S : System σ ι ο) (S' : System σ' ι' ο') (R : σ → σ' → Prop)
    (E : Step σ ι ο → Step σ' ι' ο' → Prop) : Prop :=
  ∀ s i o t s', R s s' → S.next s i o t →
    ∃ i' o' t', S'.next s' i' o' t' ∧ R t t' ∧ E ⟨s, i, o, t⟩ ⟨s', i', o', t'⟩

theorem Run.simulate {R : σ → σ' → Prop} {E : Step σ ι ο → Step σ' ι' ο' → Prop}
    (hsim : S.Simulates S' R E) {s t : σ} {s' : σ'} {l : List (Step σ ι ο)} (hR : R s s')
    (h : S.Run s l t) :
    ∃ l' t', S'.Run s' l' t' ∧ R t t' ∧ List.Forall₂ E l l' := by
  induction h with
  | nil => exact ⟨[], s', Run.nil, hR, List.Forall₂.nil⟩
  | snoc _ hn ih =>
    obtain ⟨l', t', hrun', hR', hall⟩ := ih
    obtain ⟨i', o', t'', hn', hR'', hE⟩ := hsim _ _ _ _ _ hR' hn
    exact ⟨_, t'', hrun'.snoc hn', hR'',
      List.rel_append hall (List.Forall₂.cons hE List.Forall₂.nil)⟩

/-- The steps of a system that have a property. -/
def restrict (S : System σ ι ο) (P : Step σ ι ο → Prop) : System σ ι ο where
  init := S.init
  next s i o s' := S.next s i o s' ∧ P ⟨s, i, o, s'⟩

theorem Run.restrict {P : Step σ ι ο → Prop} {s s' : σ} {l : List (Step σ ι ο)}
    (h : S.Run s l s') (hl : ∀ e ∈ l, P e) : (S.restrict P).Run s l s' := by
  induction h with
  | nil => exact .nil
  | snoc _ hn ih =>
    exact (ih (fun e he => hl e (List.mem_append_left _ he))).snoc
      ⟨hn, hl _ (List.mem_append_right _ (List.mem_singleton.mpr rfl))⟩

theorem exists_of_forall₂ {α β : Type} {R : α → β → Prop} {l : List α} {l' : List β}
    (h : List.Forall₂ R l l') {a : α} (ha : a ∈ l) : ∃ b ∈ l', R a b := by
  induction h with
  | nil => cases ha
  | @cons x y _ _ hxy _ ih =>
    rcases List.mem_cons.mp ha with rfl | ha
    · exact ⟨y, List.mem_cons_self, hxy⟩
    · obtain ⟨z, hz, hR⟩ := ih ha
      exact ⟨z, List.mem_cons_of_mem _ hz, hR⟩

end System
end DseNetwork
