import Mathlib.Data.List.Basic
import Mathlib.Logic.Function.Basic

/-
Loops over an indexed family of cells.

A `for` loop whose body reads and writes only the cell of the current index is
determined cell by cell.  `foldl_update_apply` is that fact for a fold whose items
name the cell they touch, and `sweep` is the loop over the indices themselves, which
may fail and which records what it emits.
-/

namespace DseNetwork

/-! ## Results that may be a fault -/

theorem bind_eq_ok {ε α β : Type} {x : Except ε α} {f : α → Except ε β} {b : β} :
    (x >>= f) = .ok b ↔ ∃ a, x = .ok a ∧ f a = .ok b := by
  cases x with
  | error e =>
    constructor
    · intro h; cases h
    · rintro ⟨a, h, _⟩; cases h
  | ok a =>
    constructor
    · intro h; exact ⟨a, rfl, h⟩
    · rintro ⟨a', h, hf⟩; cases h; exact hf

theorem map_eq_ok {ε α β : Type} {x : Except ε α} {f : α → β} {b : β} :
    x.map f = .ok b ↔ ∃ a, x = .ok a ∧ f a = b := by
  cases x with
  | error e =>
    constructor
    · intro h; cases h
    · rintro ⟨a, h, _⟩; cases h
  | ok a =>
    constructor
    · intro h; exact ⟨a, rfl, Except.ok.inj h⟩
    · rintro ⟨a', h, hf⟩; cases h; exact congrArg Except.ok hf

namespace Sweep

variable {ι κ α β ε : Type} [DecidableEq ι]

/-- Folding point updates leaves at `i` the fold of the updates made at `i`. -/
theorem foldl_update_apply (key : κ → ι) (g : κ → α → α) (l : List κ) (s : ι → α) (i : ι) :
    l.foldl (fun s k => Function.update s (key k) (g k (s (key k)))) s i =
      (l.filter (fun k => key k = i)).foldl (fun a k => g k a) (s i) := by
  induction l generalizing s with
  | nil => rfl
  | cons k rest ih =>
    rw [List.foldl_cons, ih]
    by_cases hk : key k = i
    · subst hk
      rw [List.filter_cons_of_pos (by simp), List.foldl_cons, Function.update_self]
    · rw [List.filter_cons_of_neg (by simpa using hk), Function.update_of_ne (Ne.symm hk)]

theorem filter_key_eq_singleton {key : κ → ι} {l : List κ} (hl : (l.map key).Nodup)
    {k : κ} (hk : k ∈ l) : l.filter (fun k' => key k' = key k) = [k] := by
  induction l with
  | nil => cases hk
  | cons a rest ih =>
    rw [List.map_cons, List.nodup_cons] at hl
    obtain ⟨hna, hrest⟩ := hl
    rcases List.mem_cons.mp hk with rfl | hmem
    · have hnone : rest.filter (fun k' => key k' = key k) = [] := by
        refine List.filter_eq_nil_iff.mpr (fun b hb heq => hna ?_)
        rw [← of_decide_eq_true heq]
        exact List.mem_map_of_mem hb
      rw [List.filter_cons_of_pos (by simp), hnone]
    · have hne : key a ≠ key k := fun h => hna (h ▸ List.mem_map_of_mem hmem)
      rw [List.filter_cons_of_neg (by simpa using hne)]
      exact ih hrest hmem

/-- Of items listed index by index, those of one index are the ones listed for it. -/
theorem filter_flatMap_key (key : κ → ι) (f : ι → List κ) (hf : ∀ j, ∀ k ∈ f j, key k = j)
    {l : List ι} (hl : l.Nodup) {i : ι} (hi : i ∈ l) :
    (l.flatMap f).filter (fun k => key k = i) = f i := by
  have hself : ∀ j, (f j).filter (fun k => key k = j) = f j := fun j =>
    List.filter_eq_self.mpr (fun k hk => decide_eq_true (hf j k hk))
  induction l with
  | nil => cases hi
  | cons j rest ih =>
    obtain ⟨hnj, hrest⟩ := List.nodup_cons.mp hl
    rw [List.flatMap_cons, List.filter_append]
    by_cases hij : j = i
    · subst hij
      have hnone : (rest.flatMap f).filter (fun k => key k = j) = [] := by
        refine List.filter_eq_nil_iff.mpr (fun k hk heq => hnj ?_)
        obtain ⟨j', hj', hk⟩ := List.mem_flatMap.mp hk
        rwa [← of_decide_eq_true heq, hf j' k hk]
      rw [hself, hnone, List.append_nil]
    · have hnone : (f j).filter (fun k => key k = i) = [] :=
        List.filter_eq_nil_iff.mpr (fun k hk heq =>
          hij ((hf j k hk).symm.trans (of_decide_eq_true heq)))
      rw [hnone, List.nil_append]
      exact ih hrest ((List.mem_cons.mp hi).resolve_left (Ne.symm hij))

/-- The loop `for i in l` with a body that may fail and that emits a log. -/
def sweep (f : ι → α → Except ε (α × List β)) :
    List ι → (ι → α) → Except ε ((ι → α) × List β)
  | [], s => .ok (s, [])
  | i :: rest, s => do
    let (a, out) ← f i (s i)
    let (s', outs) ← sweep f rest (Function.update s i a)
    .ok (s', out ++ outs)

def emitted (f : ι → α → Except ε (α × List β)) (i : ι) (a : α) : List β :=
  match f i a with
  | .ok (_, out) => out
  | .error _ => []

omit [DecidableEq ι] in
theorem emitted_of_ok {f : ι → α → Except ε (α × List β)} {i : ι} {a a' : α} {out : List β}
    (h : f i a = .ok (a', out)) : emitted f i a = out := by
  simp [emitted, h]

/-- A completed sweep ran the body once on every index of the list, on the cell as it
was before the sweep, and touched nothing else. -/
theorem sweep_ok {f : ι → α → Except ε (α × List β)} {l : List ι} (hl : l.Nodup)
    {s s' : ι → α} {out : List β} (h : sweep f l s = .ok (s', out)) :
    (∀ i, i ∉ l → s' i = s i) ∧
      (∀ i, i ∈ l → f i (s i) = .ok (s' i, emitted f i (s i))) ∧
      out = l.flatMap (fun i => emitted f i (s i)) := by
  induction l generalizing s out with
  | nil =>
    cases h
    exact ⟨fun _ _ => rfl, fun i hi => absurd hi List.not_mem_nil, rfl⟩
  | cons i rest ih =>
    obtain ⟨hni, hrest⟩ := List.nodup_cons.mp hl
    rw [sweep] at h
    obtain ⟨⟨a, outi⟩, hfi, h⟩ := bind_eq_ok.mp h
    obtain ⟨⟨s'', outs⟩, hsweep, h⟩ := bind_eq_ok.mp h
    cases h
    obtain ⟨hout, hin, hlog⟩ := ih hrest hsweep
    have hother : ∀ j, j ∈ rest → Function.update s i a j = s j := fun j hj =>
      Function.update_of_ne (ne_of_mem_of_not_mem hj hni) _ _
    have hi : s' i = a := by rw [hout i hni, Function.update_self]
    have hemit : emitted f i (s i) = outi := emitted_of_ok hfi
    refine ⟨fun j hj => ?_, fun j hj => ?_, ?_⟩
    · rw [List.mem_cons, not_or] at hj
      rw [hout j hj.2, Function.update_of_ne hj.1]
    · rcases List.mem_cons.mp hj with rfl | hj
      · rw [hfi, hi, hemit]
      · have := hin j hj
        rwa [hother j hj] at this
    · rw [List.flatMap_cons, hemit, hlog]
      refine congrArg (outi ++ ·) (List.flatMap_congr (fun j hj => ?_))
      rw [hother j hj]

/-- A change of the cells that the body passes on is passed on by the sweep. -/
theorem sweep_map {f : ι → α → Except ε (α × List β)} {c : α → α}
    (hf : ∀ i a, f i (c a) = (f i a).map (fun r => (c r.1, r.2))) (l : List ι) (s : ι → α) :
    sweep f l (fun i => c (s i)) = (sweep f l s).map (fun r => (fun i => c (r.1 i), r.2)) := by
  induction l generalizing s with
  | nil => rfl
  | cons i rest ih =>
    rw [sweep, sweep, hf]
    cases f i (s i) with
    | error e => rfl
    | ok r =>
      have hupdate : Function.update (fun j => c (s j)) i (c r.1) =
          fun j => c (Function.update s i r.1 j) := by
        funext j
        by_cases hij : j = i
        · subst hij
          rw [Function.update_self, Function.update_self]
        · rw [Function.update_of_ne hij, Function.update_of_ne hij]
      show (sweep f rest (Function.update (fun j => c (s j)) i (c r.1)) >>= _) = _
      rw [hupdate, ih]
      show _ = Except.map _ (sweep f rest (Function.update s i r.1) >>= _)
      cases sweep f rest (Function.update s i r.1) with
      | error e => rfl
      | ok r' => rfl

/-- A sweep completes when its body completes on every cell. -/
theorem sweep_complete {f : ι → α → Except ε (α × List β)} {l : List ι} (hl : l.Nodup)
    {s : ι → α} (h : ∀ i ∈ l, ∃ a out, f i (s i) = .ok (a, out)) :
    ∃ s' out, sweep f l s = .ok (s', out) := by
  induction l generalizing s with
  | nil => exact ⟨s, [], rfl⟩
  | cons i rest ih =>
    obtain ⟨hni, hrest⟩ := List.nodup_cons.mp hl
    obtain ⟨a, out, hfi⟩ := h i List.mem_cons_self
    have hcells : ∀ j ∈ rest, ∃ a' out', f j (Function.update s i a j) = .ok (a', out') := by
      intro j hj
      rw [Function.update_of_ne (ne_of_mem_of_not_mem hj hni)]
      exact h j (List.mem_cons_of_mem i hj)
    obtain ⟨s', outs, hsweep⟩ := ih hrest hcells
    refine ⟨s', out ++ outs, ?_⟩
    rw [sweep, hfi]
    show (sweep f rest (Function.update s i a) >>= _) = _
    rw [hsweep]
    rfl

end Sweep
end DseNetwork
