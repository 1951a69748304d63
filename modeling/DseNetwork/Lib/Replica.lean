import DseNetwork.Lib.Transition

/-
A register with one writer and any number of copies.

In a round the writer takes a value and sends it, or keeps the one it has and need not
send it; what it sends has reached every copy when the next round begins.  The copies are
then one round behind the writer.
-/

namespace DseNetwork
namespace Replica

variable {κ V : Type}

structure State (κ V : Type) where
  writer : V
  copy : κ → V
  /-- The values on their way to a copy. -/
  inbox : κ → List V

/-- What a copy holds once it has taken in the values that came. -/
def latest (v : V) (values : List V) : V := values.foldl (fun _ w => w) v

structure Round (s : State κ V) (v : V) (s' : State κ V) : Prop where
  writer : s'.writer = v
  copy : ∀ k, s'.copy k = latest (s.copy k) (s.inbox k)
  sent : ∀ k, s'.inbox k = [v] ∨ (s'.inbox k = [] ∧ v = s.writer)

def system (κ V : Type) : System (State κ V) V Unit where
  init s := ∀ k, s.copy k = s.writer ∧ s.inbox k = []
  next s v _ s' := Round s v s'

/-- With what is on its way every copy is up to date. -/
def InSync (s : State κ V) : Prop := ∀ k, latest (s.copy k) (s.inbox k) = s.writer

variable {s s' : State κ V} {v : V}

theorem Round.inSync (h : Round s v s') (hs : InSync s) : InSync s' := by
  intro k
  rw [h.copy k, hs k, h.writer]
  rcases h.sent k with hsent | ⟨hnone, rfl⟩
  · rw [hsent]
    rfl
  · rw [hnone]
    rfl

theorem reachable_inSync (h : (system κ V).Reachable s) : InSync s := by
  refine h.invariant (P := InSync) ?_ (fun s v _ s' _ hs hn => Round.inSync hn hs)
  intro s hinit k
  obtain ⟨hcopy, hinbox⟩ := hinit k
  rw [hinbox]
  exact hcopy

/-- In every round of a run each copy comes to the value that the writer had before it. -/
theorem run_delayed {s₀ sₙ : State κ V} {l : List (Step (State κ V) V Unit)}
    (h0 : (system κ V).init s₀) (hrun : (system κ V).Run s₀ l sₙ)
    {e : Step (State κ V) V Unit} (he : e ∈ l) (k : κ) : e.after.copy k = e.before.writer := by
  obtain ⟨hreach, hround⟩ := hrun.step_mem (.init h0) he
  rw [hround.copy k]
  exact reachable_inSync hreach k

end Replica
end DseNetwork
