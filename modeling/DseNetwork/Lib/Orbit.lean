import Mathlib.Data.List.Nodup
import Mathlib.Logic.Relation

/-
Orbits of a partial function.

`orbit next depth a` lists `a` and what follows it, at most `depth` places long.  The
orbits of `a` never meet a place twice exactly if none of the places that follow `a` follows
itself.  A walk that carries a state goes the way of the orbit in its first state, as long
as it enters no place twice and changes only the places that it has left.
-/

namespace DseNetwork
namespace Orbit

open Relation

section

variable {α : Type} {next : α → Option α} {a b : α}

def orbit (next : α → Option α) : Nat → α → List α
  | 0, _ => []
  | depth + 1, a => a :: (next a).elim [] (fun b => orbit next depth b)

/-- `b` comes right after `a`. -/
def Then (next : α → Option α) (a b : α) : Prop := next a = some b

theorem orbit_of_none (h : next a = none) (depth : Nat) : orbit next (depth + 1) a = [a] := by
  rw [orbit, h]
  rfl

theorem orbit_of_some (h : next a = some b) (depth : Nat) :
    orbit next (depth + 1) a = a :: orbit next depth b := by
  rw [orbit, h]
  rfl

theorem reflTransGen_of_mem {depth : Nat} (h : b ∈ orbit next depth a) :
    ReflTransGen (Then next) a b := by
  induction depth generalizing a with
  | zero => cases h
  | succ depth ih =>
    cases hnext : next a with
    | none =>
      rw [orbit_of_none hnext, List.mem_singleton] at h
      exact h ▸ .refl
    | some c =>
      rw [orbit_of_some hnext] at h
      rcases List.mem_cons.mp h with rfl | hmem
      · exact .refl
      · exact .head hnext (ih hmem)

theorem exists_mem_of_reflTransGen (h : ReflTransGen (Then next) a b) :
    ∃ depth, b ∈ orbit next depth a := by
  induction h using ReflTransGen.head_induction_on with
  | refl => exact ⟨1, List.mem_cons_self⟩
  | head hnext _ ih =>
    obtain ⟨depth, hmem⟩ := ih
    refine ⟨depth + 1, ?_⟩
    rw [orbit_of_some hnext]
    exact List.mem_cons_of_mem _ hmem

/-- No place from `a` on follows itself. -/
def Acyclic (next : α → Option α) (a : α) : Prop :=
  ∀ b, ReflTransGen (Then next) a b → ¬ TransGen (Then next) b b

theorem Acyclic.tail (h : Acyclic next a) (hnext : next a = some b) : Acyclic next b :=
  fun c hc => h c (.head hnext hc)

theorem Acyclic.nodup_orbit (h : Acyclic next a) (depth : Nat) : (orbit next depth a).Nodup := by
  induction depth generalizing a with
  | zero => exact List.nodup_nil
  | succ depth ih =>
    cases hnext : next a with
    | none =>
      rw [orbit_of_none hnext]
      exact List.nodup_singleton a
    | some b =>
      rw [orbit_of_some hnext]
      refine List.nodup_cons.mpr ⟨fun hmem => ?_, ih (h.tail hnext)⟩
      exact h a .refl (.head' hnext (reflTransGen_of_mem hmem))

theorem nodup_orbit_iff : (∀ depth, (orbit next depth a).Nodup) ↔ Acyclic next a := by
  refine ⟨fun h b hb => ?_, fun h => h.nodup_orbit⟩
  induction hb using ReflTransGen.head_induction_on with
  | refl =>
    intro hcycle
    obtain ⟨c, hnext, hback⟩ := TransGen.head'_iff.mp hcycle
    obtain ⟨depth, hmem⟩ := exists_mem_of_reflTransGen hback
    have hnodup := h (depth + 1)
    rw [orbit_of_some hnext] at hnodup
    exact (List.nodup_cons.mp hnodup).1 hmem
  | head hnext _ ih =>
    refine ih (fun depth => ?_)
    have hnodup := h (depth + 1)
    rw [orbit_of_some hnext] at hnodup
    exact (List.nodup_cons.mp hnodup).2

end

/-! ## Walks -/

section

variable {α σ τ : Type} {next : α × σ → Option (α × σ)} {look : α → σ → τ}

/-- The place after `a`, if the walk were at `a` in state `s`. -/
def placeAfter (next : α × σ → Option (α × σ)) (s : σ) (a : α) : Option α :=
  (next (a, s)).map Prod.fst

/-- The places of a walk. -/
def places (next : α × σ → Option (α × σ)) (depth : Nat) (a : α) (s : σ) : List α :=
  (orbit next depth (a, s)).map Prod.fst

/-- What a walk does at a place depends on what it finds there, and it changes no other
place. -/
structure Local (next : α × σ → Option (α × σ)) (look : α → σ → τ) : Prop where
  reads : ∀ a s s', look a s = look a s' → placeAfter next s a = placeAfter next s' a
  writes : ∀ a s b s', next (a, s) = some (b, s') → ∀ c, c ≠ a → look c s' = look c s

theorem places_of_none {a : α} {s : σ} (h : placeAfter next s a = none) (depth : Nat) :
    places next (depth + 1) a s = [a] := by
  rw [places, orbit_of_none (Option.map_eq_none_iff.mp h)]
  rfl

theorem places_of_some {a b : α} {s s' : σ} (h : next (a, s) = some (b, s')) (depth : Nat) :
    places next (depth + 1) a s = a :: places next depth b s' := by
  rw [places, orbit_of_some h]
  rfl

theorem fresh_cons {a : α} {left l : List α} (ha : a ∉ left) :
    ((a :: l).Nodup ∧ ∀ c ∈ left, c ∉ a :: l) ↔ (l.Nodup ∧ ∀ c ∈ a :: left, c ∉ l) := by
  rw [List.nodup_cons, List.forall_mem_cons, and_comm (a := a ∉ l), and_assoc]
  refine and_congr_right (fun _ => and_congr_right (fun _ => forall₂_congr (fun c hc => ?_)))
  rw [List.mem_cons, not_or]
  exact and_iff_right (ne_of_mem_of_not_mem hc ha)

/-- From a state that differs from `s` at the places `left` only, the walk goes on to new
places only exactly if the orbit in `s` does. -/
theorem Local.fresh_iff (h : Local next look) {s : σ} (depth : Nat) (left : List α) (a : α)
    (s' : σ) (hleft : ∀ c, c ∉ left → look c s' = look c s) :
    ((places next depth a s').Nodup ∧ ∀ c ∈ left, c ∉ places next depth a s') ↔
      ((orbit (placeAfter next s) depth a).Nodup ∧
        ∀ c ∈ left, c ∉ orbit (placeAfter next s) depth a) := by
  induction depth generalizing left a s' with
  | zero => exact Iff.rfl
  | succ depth ih =>
    by_cases ha : a ∈ left
    · -- Both lists start with a place that was left before.
      constructor
      · exact fun hf => absurd List.mem_cons_self (hf.2 a ha)
      · exact fun hf => absurd List.mem_cons_self (hf.2 a ha)
    · have hplace := h.reads a s' s (hleft a ha)
      cases hnext : next (a, s') with
      | none =>
        have hnone : placeAfter next s' a = none := by rw [placeAfter, hnext]; rfl
        rw [places_of_none hnone, orbit_of_none (hplace ▸ hnone)]
      | some r =>
        obtain ⟨b, s''⟩ := r
        have hsome : placeAfter next s' a = some b := by rw [placeAfter, hnext]; rfl
        have hrest := ih (a :: left) b s'' (fun c hc => by
          rw [List.mem_cons, not_or] at hc
          rw [h.writes a s' b s'' hnext c hc.1, hleft c hc.2])
        rw [places_of_some hnext, orbit_of_some (hplace ▸ hsome), fresh_cons ha, hrest,
          ← fresh_cons ha]

theorem Local.nodup_places_iff (h : Local next look) (a : α) (s : σ) :
    (∀ depth, (places next depth a s).Nodup) ↔ Acyclic (placeAfter next s) a := by
  rw [← nodup_orbit_iff]
  refine forall_congr' (fun depth => ?_)
  have hfresh := h.fresh_iff depth [] a s (fun _ _ => rfl)
  simpa using hfresh

end

end Orbit
end DseNetwork
