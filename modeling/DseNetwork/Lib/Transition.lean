import Mathlib.Data.List.Basic

/-
Labelled transition systems, their runs, and invariants.

A run is kept as the list of the steps it took, each with the states around it, so
that a property of a run can speak about the state a step started from.
-/

namespace DseNetwork

structure System (σ ι ο : Type) where
  init : σ → Prop
  /-- `next s i o s'`: on input `i` the system goes from `s` to `s'` and emits `o`. -/
  next : σ → ι → ο → σ → Prop

structure Step (σ ι ο : Type) where
  before : σ
  input : ι
  output : ο
  after : σ

namespace System

variable {σ ι ο : Type} (S : System σ ι ο)

inductive Run (s : σ) : List (Step σ ι ο) → σ → Prop
  | nil : Run s [] s
  | snoc {l : List (Step σ ι ο)} {s' s'' : σ} {i : ι} {o : ο} :
      Run s l s' → S.next s' i o s'' → Run s (l ++ [⟨s', i, o, s''⟩]) s''

inductive Reachable : σ → Prop
  | init {s : σ} : S.init s → Reachable s
  | next {s s' : σ} {i : ι} {o : ο} : Reachable s → S.next s i o s' → Reachable s'

variable {S}

/-- An invariant that holds initially and is kept by every step holds in every
reachable state.  The step may use that its start is reachable. -/
theorem Reachable.invariant {P : σ → Prop} (h0 : ∀ s, S.init s → P s)
    (hstep : ∀ s i o s', S.Reachable s → P s → S.next s i o s' → P s') {s : σ}
    (h : S.Reachable s) : P s := by
  induction h with
  | init hs => exact h0 _ hs
  | next hr hn ih => exact hstep _ _ _ _ hr ih hn

theorem Run.reachable {s s' : σ} {l : List (Step σ ι ο)} (hs : S.Reachable s)
    (h : S.Run s l s') : S.Reachable s' := by
  induction h with
  | nil => exact hs
  | snoc _ hn ih => exact ih.next hn

theorem Run.eq_of_nil {s s' : σ} {l : List (Step σ ι ο)} (h : S.Run s l s') (hl : l = []) :
    s' = s := by
  cases h with
  | nil => rfl
  | snoc _ _ => simp at hl

theorem Run.cons {s s' s'' : σ} {i : ι} {o : ο} {l : List (Step σ ι ο)} (h : S.Run s' l s'')
    (hn : S.next s i o s') : S.Run s (⟨s, i, o, s'⟩ :: l) s'' := by
  induction h with
  | nil => exact Run.snoc Run.nil hn
  | snoc _ hlast ih => exact Run.snoc ih hlast

/-- Every step of a run starts in a reachable state and is a step of the system. -/
theorem Run.step_mem {s s' : σ} {l : List (Step σ ι ο)} (hs : S.Reachable s)
    (h : S.Run s l s') {e : Step σ ι ο} (he : e ∈ l) :
    S.Reachable e.before ∧ S.next e.before e.input e.output e.after := by
  induction h with
  | nil => cases he
  | snoc hr hn ih =>
    rcases List.mem_append.mp he with he | he
    · exact ih he
    · rw [List.mem_singleton] at he
      subst he
      exact ⟨hr.reachable hs, hn⟩

/-- The steps ahead of a step are a run to where it starts. -/
theorem Run.step_at {s s' : σ} {l : List (Step σ ι ο)} (h : S.Run s l s') {n : Nat}
    {e : Step σ ι ο} (he : l[n]? = some e) :
    S.Run s (l.take n) e.before ∧ S.next e.before e.input e.output e.after := by
  induction h with
  | nil => cases he
  | @snoc l s₁ s₂ i o hr hn ih =>
    rcases Nat.lt_or_ge n l.length with hlt | hge
    · rw [List.getElem?_append_left hlt] at he
      rw [List.take_append_of_le_length (Nat.le_of_lt hlt)]
      exact ih he
    · rw [List.getElem?_append_right hge, List.getElem?_singleton] at he
      split at he
      · obtain rfl : n = l.length := by omega
        cases he
        rw [List.take_left]
        exact ⟨hr, hn⟩
      · cases he

end System
end DseNetwork
