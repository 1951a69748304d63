import Mathlib.Order.Bounds.Basic
import Mathlib.Data.List.Pairwise
import Mathlib.Data.Nat.Basic

/-
Naturally aligned layouts.

A layout places fields of given sizes one behind the other, each at the least multiple
of its size that is free.  A field is its offset and its size.
-/

namespace DseNetwork
namespace Layout

/-- Round an offset up to a multiple of a size. -/
def alignUp (offset size : Nat) : Nat :=
  if offset % size ≠ 0 then offset / size * size + size else offset

theorem alignUp_isLeast {size : Nat} (h : 0 < size) (offset : Nat) :
    IsLeast {x | size ∣ x ∧ offset ≤ x} (alignUp offset size) := by
  have hdiv : offset / size * size + offset % size = offset := Nat.div_add_mod' offset size
  have hmod := Nat.mod_lt offset h
  unfold alignUp
  by_cases hrem : offset % size = 0
  · rw [if_neg (not_not.mpr hrem)]
    exact ⟨⟨Nat.dvd_of_mod_eq_zero hrem, Nat.le_refl _⟩, fun x hx => hx.2⟩
  · rw [if_pos hrem]
    refine ⟨⟨Nat.dvd_add (Nat.dvd_mul_left _ _) (Nat.dvd_refl _), by omega⟩, ?_⟩
    rintro x ⟨⟨q, rfl⟩, hle⟩
    have hq : offset / size < q := by
      by_contra hge
      have hmul := Nat.mul_le_mul_left size (Nat.le_of_not_lt hge)
      rw [Nat.mul_comm size (offset / size)] at hmul
      omega
    have hmul := Nat.mul_le_mul_left size hq
    rwa [Nat.mul_succ, Nat.mul_comm size (offset / size)] at hmul

/-- Every field starts at the least multiple of its size that is not below the end of
the field before; the first one, that is not below `start`. -/
inductive Natural : Nat → List (Nat × Nat) → Prop
  | nil {start : Nat} : Natural start []
  | cons {start offset size : Nat} {rest : List (Nat × Nat)} :
      IsLeast {x | size ∣ x ∧ start ≤ x} offset → Natural (offset + size) rest →
      Natural start ((offset, size) :: rest)

/-- The fields of the given sizes. -/
def fields : Nat → List Nat → List (Nat × Nat)
  | _, [] => []
  | start, size :: rest =>
    (alignUp start size, size) :: fields (alignUp start size + size) rest

/-- The end of the last field. -/
def extent : Nat → List Nat → Nat
  | start, [] => start
  | start, size :: rest => extent (alignUp start size + size) rest

theorem fields_natural {sizes : List Nat} (h : ∀ size ∈ sizes, 0 < size) (start : Nat) :
    Natural start (fields start sizes) := by
  induction sizes generalizing start with
  | nil => exact .nil
  | cons size rest ih =>
    obtain ⟨hsize, hrest⟩ := List.forall_mem_cons.mp h
    exact .cons (alignUp_isLeast hsize start) (ih hrest _)

@[simp] theorem fields_sizes (start : Nat) (sizes : List Nat) :
    (fields start sizes).map (·.2) = sizes := by
  induction sizes generalizing start with
  | nil => rfl
  | cons size rest ih => rw [fields, List.map_cons, ih]

@[simp] theorem fields_length (start : Nat) (sizes : List Nat) :
    (fields start sizes).length = sizes.length := by
  have h := congrArg List.length (fields_sizes start sizes)
  rwa [List.length_map] at h

theorem Natural.dvd {start : Nat} {l : List (Nat × Nat)} (h : Natural start l) :
    ∀ f ∈ l, f.2 ∣ f.1 := by
  induction h with
  | nil => exact fun f hf => by cases hf
  | cons hleast _ ih => exact List.forall_mem_cons.mpr ⟨hleast.1.1, ih⟩

theorem Natural.start_le {start : Nat} {l : List (Nat × Nat)} (h : Natural start l) :
    ∀ f ∈ l, start ≤ f.1 := by
  induction h with
  | nil => exact fun f hf => by cases hf
  | cons hleast _ ih =>
    refine List.forall_mem_cons.mpr ⟨hleast.1.2, fun f hf => ?_⟩
    exact hleast.1.2.trans ((Nat.le_add_right _ _).trans (ih f hf))

/-- The fields are disjoint and in order. -/
theorem Natural.ordered {start : Nat} {l : List (Nat × Nat)} (h : Natural start l) :
    l.Pairwise (fun f g => f.1 + f.2 ≤ g.1) := by
  induction h with
  | nil => exact List.Pairwise.nil
  | cons _ hrest ih => exact List.Pairwise.cons (fun g hg => hrest.start_le g hg) ih

theorem le_extent (start : Nat) (sizes : List Nat) (h : ∀ size ∈ sizes, 0 < size) :
    start ≤ extent start sizes := by
  induction sizes generalizing start with
  | nil => exact Nat.le_refl _
  | cons size rest ih =>
    obtain ⟨hsize, hrest⟩ := List.forall_mem_cons.mp h
    have hle := (alignUp_isLeast hsize start).1.2
    exact (hle.trans (Nat.le_add_right _ _)).trans (ih _ hrest)

/-- The extent is the end of the last field. -/
theorem fields_le_extent (start : Nat) (sizes : List Nat) (h : ∀ size ∈ sizes, 0 < size) :
    ∀ f ∈ fields start sizes, f.1 + f.2 ≤ extent start sizes := by
  induction sizes generalizing start with
  | nil => exact fun f hf => by cases hf
  | cons size rest ih =>
    obtain ⟨hsize, hrest⟩ := List.forall_mem_cons.mp h
    exact List.forall_mem_cons.mpr ⟨le_extent _ rest hrest, ih _ hrest⟩

theorem extent_eq_last (start : Nat) (sizes : List Nat) :
    extent start sizes = ((fields start sizes).getLast?.map (fun f => f.1 + f.2)).getD start := by
  induction sizes generalizing start with
  | nil => rfl
  | cons size rest ih =>
    rw [extent, fields, List.getLast?_cons, ih]
    cases (fields (alignUp start size + size) rest).getLast? <;> rfl

end Layout
end DseNetwork
