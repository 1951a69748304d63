import DseNetwork.Lib.Simulation
import Mathlib.Data.Nat.Find
import Mathlib.Logic.Function.Iterate

/-
Two parties that answer each other.

In a round a party takes in the value that came, unless it has it already.  It then has the
answer to that value, and sends it if it is another value.  One value on its way starts an
exchange, which ends at the first value that is its own answer.
-/

namespace DseNetwork
namespace Exchange

variable {V : Type}

structure State (V : Type) where
  held : Bool → V
  /-- The value on its way to a party. -/
  flight : Bool → Option V

structure Round (answer : V → V) (s s' : State V) : Prop where
  idle : ∀ k, s.flight k = none → s'.held k = s.held k ∧ s'.flight (!k) = none
  known : ∀ k, s.flight k = some (s.held k) → s'.held k = s.held k ∧ s'.flight (!k) = none
  answered : ∀ k v, s.flight k = some v → v ≠ s.held k → s'.held k = answer v ∧
    (answer v = v → s'.flight (!k) = none) ∧ (answer v ≠ v → s'.flight (!k) = some (answer v))

def system (answer : V → V) : System (State V) Unit Unit where
  init _ := True
  next s _ _ s' := Round answer s s'

/-- The value comes to rest after `c` answers. -/
structure Rests (answer : V → V) (v : V) (c : Nat) : Prop where
  moves : ∀ n, n < c → answer^[n + 1] v ≠ answer^[n] v
  rests : answer^[c + 1] v = answer^[c] v

/-- The party that a value comes to in round `n`, if it is `k` that one comes to first. -/
def turn (k : Bool) : Nat → Bool
  | 0 => k
  | n + 1 => !turn k n

/-- The `n`-th answer is on its way to a party that has another value. -/
structure Moving (answer : V → V) (k : Bool) (v : V) (n : Nat) (s : State V) : Prop where
  coming : s.flight (turn k n) = some (answer^[n] v)
  unseen : answer^[n] v ≠ s.held (turn k n)
  sent : s.held (!turn k n) = answer^[n] v
  alone : s.flight (!turn k n) = none

structure Resting (v : V) (s : State V) : Prop where
  held : ∀ k, s.held k = v
  quiet : ∀ k, s.flight k = none

variable {answer : V → V} {k : Bool} {v : V} {n c : Nat} {s s' : State V}

theorem Moving.round (h : Moving answer k v n s) (hr : Round answer s s')
    (hne : answer^[n + 1] v ≠ answer^[n] v) : Moving answer k v (n + 1) s' := by
  rw [Function.iterate_succ_apply'] at hne
  obtain ⟨hheld, _, hsent⟩ := hr.answered _ _ h.coming h.unseen
  obtain ⟨hkept, hnone⟩ := hr.idle _ h.alone
  refine ⟨?_, ?_, ?_, ?_⟩
  · rw [Function.iterate_succ_apply']
    exact hsent hne
  · rw [Function.iterate_succ_apply']
    show _ ≠ s'.held (!turn k n)
    rwa [hkept, h.sent]
  · rw [Function.iterate_succ_apply']
    show s'.held (!!turn k n) = _
    rw [Bool.not_not, hheld]
  · exact hnone

theorem Moving.round_rests (h : Moving answer k v n s) (hr : Round answer s s')
    (heq : answer^[n + 1] v = answer^[n] v) : Resting (answer^[n] v) s' := by
  rw [Function.iterate_succ_apply'] at heq
  obtain ⟨hheld, hsent, _⟩ := hr.answered _ _ h.coming h.unseen
  obtain ⟨hkept, hnone⟩ := hr.idle _ h.alone
  rw [heq] at hheld
  rw [h.sent] at hkept
  rw [Bool.not_not] at hnone
  refine ⟨fun j => ?_, fun j => ?_⟩
  · by_cases hj : j = turn k n
    · rw [hj, hheld]
    · rw [Bool.eq_not_of_ne hj, hkept]
  · by_cases hj : j = turn k n
    · rw [hj, hnone]
    · rw [Bool.eq_not_of_ne hj, hsent heq]

theorem Resting.round (h : Resting v s) (hr : Round answer s s') : Resting v s' := by
  refine ⟨fun j => ?_, fun j => ?_⟩
  · rw [(hr.idle j (h.quiet j)).1, h.held j]
  · have hnone := (hr.idle (!j) (h.quiet (!j))).2
    rwa [Bool.not_not] at hnone

/-- A value that is at rest after `n` answers came to rest at the first that is its own. -/
theorem Rests.exists_le (h : answer^[n + 1] v = answer^[n] v) : ∃ c, c ≤ n ∧ Rests answer v c := by
  classical
  have hexists : ∃ n, answer^[n + 1] v = answer^[n] v := ⟨n, h⟩
  exact ⟨Nat.find hexists, Nat.find_min' hexists h,
    fun _ hlt => Nat.find_min hexists hlt, Nat.find_spec hexists⟩

/-- Up to round `c` an answer is on its way, and from then on both parties have the value
that it came to rest at. -/
theorem run_phase (h0 : Moving answer k v 0 s) (hc : Rests answer v c)
    {l : List (Step (State V) Unit Unit)} (hrun : (system answer).Run s l s') :
    (l.length ≤ c → Moving answer k v l.length s') ∧
      (c < l.length → Resting (answer^[c] v) s') := by
  induction hrun with
  | nil => exact ⟨fun _ => h0, fun h => absurd h (Nat.not_lt_zero c)⟩
  | @snoc l s₁ s₂ _ _ _ hn ih =>
    obtain ⟨hmoving, hresting⟩ := ih
    rw [List.length_append, List.length_singleton]
    refine ⟨fun hle => ?_, fun hlt => ?_⟩
    · exact (hmoving (by omega)).round hn (hc.moves _ (by omega))
    · by_cases heq : l.length = c
      · have hlast := hmoving (Nat.le_of_eq heq)
        rw [heq] at hlast
        exact hlast.round_rests hn hc.rests
      · exact (hresting (by omega)).round hn

end Exchange
end DseNetwork
