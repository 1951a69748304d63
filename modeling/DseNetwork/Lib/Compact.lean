import Mathlib.Data.List.Basic

/-
Compaction of an array in place.

A loop reads the elements of an array in order and writes those that it keeps, changed or
not, to the front of the same array.  It never writes ahead of where it reads, so that the
front holds what mapping and filtering the array gives.
-/

namespace DseNetwork
namespace Compact

variable {α β : Type}

/-- The array and the number of elements written to its front. -/
structure State (α : Type) where
  array : List α
  kept : Nat

/-- The loop at index `k`, which finds the element that the array has there by now. -/
def step (f : α → Option α) (st : State α) (k : Nat) : State α :=
  (st.array[k]?.bind f).elim st (fun b => ⟨st.array.set st.kept b, st.kept + 1⟩)

def compact (f : α → Option α) (l : List α) : List α :=
  let st := (List.range l.length).foldl (step f) ⟨l, 0⟩
  st.array.take st.kept

/-- Before index `k` the front has what was kept of the elements before, and the rest is
as it was. -/
structure Invariant (f : α → Option α) (l : List α) (k : Nat) (st : State α) : Prop where
  front : st.array.take st.kept = (l.take k).filterMap f
  kept_le : st.kept ≤ k
  rest : st.array.drop k = l.drop k

variable {f : α → Option α} {l : List α} {k : Nat} {st : State α}

theorem Invariant.step (h : Invariant f l k st) (hk : k < l.length) :
    Invariant f l (k + 1) (step f st k) := by
  have hread : st.array[k]? = some l[k] := by
    have hhead := congrArg (·[0]?) h.rest
    simpa [List.getElem?_eq_getElem hk] using hhead
  have htake : (l.take (k + 1)).filterMap f = (l.take k).filterMap f ++ (f l[k]).toList := by
    rw [← List.take_append_getElem hk, List.filterMap_append]
    cases hf : f l[k] <;> simp [hf]
  have hdrop : st.array.drop (k + 1) = l.drop (k + 1) := by
    rw [← List.drop_drop, ← List.drop_drop, h.rest]
  rw [Compact.step, hread, Option.bind_some]
  cases hf : f l[k] with
  | none =>
    refine ⟨?_, Nat.le_succ_of_le h.kept_le, hdrop⟩
    rw [htake, hf, Option.toList_none, List.append_nil]
    exact h.front
  | some b =>
    have hlt : st.kept < st.array.length :=
      Nat.lt_of_le_of_lt h.kept_le (List.getElem?_eq_some_iff.mp hread).1
    refine ⟨?_, Nat.succ_le_succ h.kept_le, ?_⟩
    · show (st.array.set st.kept b).take (st.kept + 1) = _
      rw [List.take_add_one, List.getElem?_set_self hlt, List.take_set_of_le (Nat.le_refl _),
        h.front, htake, hf]
    · show (st.array.set st.kept b).drop (k + 1) = _
      rw [List.drop_set_of_lt (Nat.lt_succ_of_le h.kept_le), hdrop]

theorem invariant_loop (f : α → Option α) (l : List α) {k : Nat} (hk : k ≤ l.length) :
    Invariant f l k ((List.range k).foldl (step f) ⟨l, 0⟩) := by
  induction k with
  | zero => exact ⟨rfl, Nat.le_refl 0, rfl⟩
  | succ k ih =>
    rw [List.range_succ, List.foldl_append]
    exact (ih (Nat.le_of_succ_le hk)).step hk

theorem compact_eq_filterMap (f : α → Option α) (l : List α) : compact f l = l.filterMap f := by
  have hfront := (invariant_loop f l (Nat.le_refl l.length)).front
  rwa [List.take_length] at hfront

section

variable {f g : α → Option β} {l : List α}

theorem filterMap_sublist (h : ∀ a ∈ l, f a = none ∨ f a = g a) :
    (l.filterMap f).Sublist (l.filterMap g) := by
  induction l with
  | nil => exact List.nil_sublist _
  | cons a rest ih =>
    obtain ⟨ha, hrest⟩ := List.forall_mem_cons.mp h
    cases hg : g a with
    | none =>
      have hf : f a = none := ha.elim id (fun heq => heq.trans hg)
      rw [List.filterMap_cons_none hf, List.filterMap_cons_none hg]
      exact ih hrest
    | some b =>
      rw [List.filterMap_cons_some hg]
      rcases ha with hf | hf
      · rw [List.filterMap_cons_none hf]
        exact (ih hrest).cons b
      · rw [List.filterMap_cons_some (hf.trans hg)]
        exact (ih hrest).cons_cons b

/-- Two ways of filtering, of which one drops more and else agrees with the other, leave
the same of a list exactly if they agree on it. -/
theorem filterMap_eq_iff (h : ∀ a ∈ l, f a = none ∨ f a = g a) :
    l.filterMap f = l.filterMap g ↔ ∀ a ∈ l, f a = g a := by
  refine ⟨fun heq => ?_, fun hall => List.filterMap_congr hall⟩
  induction l with
  | nil => exact fun a ha => absurd ha List.not_mem_nil
  | cons a rest ih =>
    obtain ⟨ha, hrest⟩ := List.forall_mem_cons.mp h
    cases hg : g a with
    | none =>
      have hf : f a = none := ha.elim id (fun heq => heq.trans hg)
      rw [List.filterMap_cons_none hf, List.filterMap_cons_none hg] at heq
      exact List.forall_mem_cons.mpr ⟨hf.trans hg.symm, ih hrest heq⟩
    | some b =>
      rw [List.filterMap_cons_some hg] at heq
      rcases ha with hf | hf
      · -- What is dropped here is missed further on.
        rw [List.filterMap_cons_none hf] at heq
        have hle := (filterMap_sublist hrest).length_le
        rw [heq, List.length_cons] at hle
        exact absurd hle (Nat.not_succ_le_self _)
      · rw [List.filterMap_cons_some (hf.trans hg)] at heq
        exact List.forall_mem_cons.mpr ⟨hf, ih hrest (List.cons.inj heq).2⟩

end

end Compact
end DseNetwork
