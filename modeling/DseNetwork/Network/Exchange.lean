import DseNetwork.Lib.Exchange
import DseNetwork.Network.Answer
import DseNetwork.Network.Bus

/-
Two models that answer each other.

Of a message that two models of a bus know, each answers what came from the other.  Where
decoding and encoding again does not restore the fields, one changed value is followed by
answers to and fro, as many as it takes the value to come to rest.
-/

namespace DseNetwork
namespace Bus

variable {κ : Type} [DecidableEq κ] {b : Bus κ}

/-- A message that two models know by its identifier alone, and no other model. -/
structure Pair (b : Bus κ) where
  message : NetworkMessage
  party : Bool → κ
  apart : party true ≠ party false
  ref : ∀ k, (b.model (party k)).network.Ref
  same : ∀ k, (b.model (party k)).network.msg (ref k) = message
  sole : ∀ k, (b.model (party k)).network.Sole (ref k)
  others : ∀ x, (∀ k, x ≠ party k) → ∀ i, ((b.model x).network.msg i).frameId ≠ message.frameId
  conveyed : message.Conveyed
  members : message.WritesMembers

namespace Pair

variable (p : b.Pair)

/-- The fields that the parties have, and those on their way. -/
def exchange (s : b.State) : Exchange.State p.message.Fields where
  held k := p.message.fields ((s.node (p.party k)).network.message (p.ref k)).buffer
  flight k := ((NetworkModel.framesFor p.message (s.inbox (p.party k))).map
    (NetworkModel.carried p.message)).head?

/-- A round with the network on, in which other models change no signal of the message and
the checksums show the changes of its fields. -/
structure Undisturbed (e : b.BusStep) : Prop where
  on : ∀ k, (b.model (p.party k)).netOff (e.input (p.party k)).scalar = false
  kept : ∀ k, NetworkModel.KeptScalars (b.model (p.party k)) (e.input (p.party k))
    (e.before.node (p.party k)) (p.ref k)
  shows : ∀ k, NetworkModel.Shows p.message (e.input (p.party k)) (e.before.node (p.party k))
    (e.output (p.party k)) (p.ref k)

/-- To each party one frame is on its way, or none. -/
structure InFlight (s : b.State) : Prop where
  reachable : b.system.Reachable s
  one : ∀ k, NetworkModel.OneCarried p.message (s.inbox (p.party k))

omit [DecidableEq κ] in
theorem party_ne (k : Bool) : p.party k ≠ p.party (!k) := by
  cases k with
  | true => exact p.apart
  | false => exact p.apart.symm

section
variable {p}

omit [DecidableEq κ] in
theorem flight_none {s : b.State} {k : Bool} (h : (p.exchange s).flight k = none) :
    NetworkModel.framesFor p.message (s.inbox (p.party k)) = [] := by
  change ((NetworkModel.framesFor _ _).map _).head? = none at h
  rw [List.head?_eq_none_iff, List.map_eq_nil_iff] at h
  exact h

/-- What is on its way to a party is the fields of the one frame in its inbox. -/
theorem flight_some {s : b.State} (hs : p.InFlight s) {k : Bool} {v : p.message.Fields}
    (h : (p.exchange s).flight k = some v) :
    ∃ f, NetworkModel.framesFor p.message (s.inbox (p.party k)) = [f] ∧
      NetworkModel.carried p.message f = v := by
  change ((NetworkModel.framesFor _ _).map _).head? = some v at h
  rcases hs.one k with hnil | ⟨f, _, hone, _⟩
  · rw [hnil] at h
    cases h
  · rw [hone] at h
    exact ⟨f, hone, Option.some.inj h⟩

end

/-- A party finds what the other wrote. -/
theorem delivered {s s' : b.State} {input : κ → StepInput} {trace : b.Traces}
    (h : b.Round s input trace s') (k : Bool) :
    (NetworkModel.framesFor p.message (s'.inbox (p.party k))).Perm
      (NetworkModel.sentFrames (trace (p.party (!k))) p.message.frameId) := by
  have hnone : ∀ x, x ≠ p.party k → x ≠ p.party (!k) →
      NetworkModel.sentFrames (trace x) p.message.frameId = [] := by
    intro x hk hk'
    obtain ⟨g⟩ := NetworkModel.modelStep_ok (h.step x)
    refine g.sentFrames_eq_nil (fun i hi => absurd hi (p.others x (fun j => ?_) i))
    by_cases hj : j = k
    · rwa [hj]
    · rwa [Bool.eq_not_of_ne hj]
  have hwritten : (b.written trace (p.party k)).filter
      (fun f => f.frameId = p.message.frameId) = (b.peers.filter (· ≠ p.party k)).flatMap
        (fun x => NetworkModel.sentFrames (trace x) p.message.frameId) := by
    rw [written, List.filter_flatMap]
    rfl
  have hother : p.party (!k) ∈ b.peers.filter (· ≠ p.party k) :=
    List.mem_filter.mpr ⟨b.complete _, by simpa using (p.party_ne k).symm⟩
  have hperm := (h.delivered (p.party k)).filter (fun f => f.frameId = p.message.frameId)
  rw [hwritten, flatMap_single (b.nodup.filter _) hother
    (fun x hx hne => hnone x (by simpa using (List.mem_filter.mp hx).2) hne)] at hperm
  exact hperm

theorem answers {e : b.BusStep} (hs : p.InFlight e.before)
    (hround : b.Round e.before e.input e.output e.after) (hu : p.Undisturbed e) (k : Bool) :
    NetworkModel.Answers p.message (e.before.inbox (p.party k))
      ((p.exchange e.before).held k) ((p.exchange e.after).held k)
      (NetworkModel.writes (e.output (p.party k)) (p.ref k))
      (NetworkModel.sentFrames (e.output (p.party k)) p.message.frameId) := by
  obtain ⟨g⟩ := NetworkModel.modelStep_ok (hround.step (p.party k))
  have hframes := hround.frames (p.party k)
  have hanswers := g.answers (reachable_node hs.reachable (p.party k)) (p.same k) p.conveyed
    p.members (p.sole k) (hu.kept k) (hu.on k) (by rw [hframes]; exact hs.one k) (hu.shows k)
  rwa [hframes] at hanswers

/-- What comes to a party is what the other wrote. -/
theorem arrives {e : b.BusStep} (hs : p.InFlight e.before)
    (hround : b.Round e.before e.input e.output e.after) (hu : p.Undisturbed e) (k : Bool) :
    (NetworkModel.writes (e.output (p.party k)) (p.ref k) = 0 →
      NetworkModel.framesFor p.message (e.after.inbox (p.party (!k))) = []) ∧
    (NetworkModel.writes (e.output (p.party k)) (p.ref k) = 1 →
      ∃ f, NetworkModel.framesFor p.message (e.after.inbox (p.party (!k))) = [f] ∧
        NetworkModel.Carries p.message f ((p.exchange e.after).held k) ∧
        NetworkModel.AllInRange p.message ((p.exchange e.after).held k)) := by
  have hanswers := p.answers hs hround hu k
  have hperm := p.delivered hround (!k)
  rw [Bool.not_not] at hperm
  refine ⟨fun hzero => ?_, fun hone => ?_⟩
  · rw [hanswers.silent hzero] at hperm
    exact hperm.eq_nil
  · obtain ⟨f, hsent, hcarries, hrange⟩ := hanswers.carries hone
    rw [hsent] at hperm
    exact ⟨f, List.perm_singleton.mp hperm, hcarries, hrange⟩

/-- In a round a party writes once or not at all. -/
theorem writes_le {e : b.BusStep}
    (hround : b.Round e.before e.input e.output e.after) (k : Bool) :
    NetworkModel.writes (e.output (p.party k)) (p.ref k) = 0 ∨
      NetworkModel.writes (e.output (p.party k)) (p.ref k) = 1 := by
  obtain ⟨g⟩ := NetworkModel.modelStep_ok (hround.step (p.party k))
  rw [g.writes_eq]
  split
  · exact .inr rfl
  · exact .inl rfl

theorem round {e : b.BusStep} (hs : p.InFlight e.before)
    (hround : b.Round e.before e.input e.output e.after) (hu : p.Undisturbed e) :
    p.InFlight e.after ∧ Exchange.Round (NetworkModel.reencoded p.message)
      (p.exchange e.before) (p.exchange e.after) := by
  have hquiet : ∀ k, NetworkModel.writes (e.output (p.party k)) (p.ref k) = 0 →
      (p.exchange e.after).flight (!k) = none := by
    intro k hzero
    show ((NetworkModel.framesFor _ _).map _).head? = none
    rw [(p.arrives hs hround hu k).1 hzero]
    rfl
  have hsent : ∀ k, NetworkModel.writes (e.output (p.party k)) (p.ref k) = 1 →
      (p.exchange e.after).flight (!k) = some ((p.exchange e.after).held k) := by
    intro k hone
    obtain ⟨f, hf, hcarries, _⟩ := (p.arrives hs hround hu k).2 hone
    show ((NetworkModel.framesFor _ _).map _).head? = _
    rw [hf, List.map_singleton, hcarries.carried_eq]
    rfl
  refine ⟨⟨hs.reachable.next hround, fun k => ?_⟩, fun k hk => ?_, fun k hk => ?_,
    fun k v hk hne => ?_⟩
  · rcases p.writes_le hround (!k) with hzero | hone
    · have hfree := (p.arrives hs hround hu (!k)).1 hzero
      rw [Bool.not_not] at hfree
      exact .inl hfree
    · obtain ⟨f, hf, hcarries, hrange⟩ := (p.arrives hs hround hu (!k)).2 hone
      rw [Bool.not_not] at hf
      exact .inr ⟨f, _, hf, hcarries, hrange⟩
  · obtain ⟨hheld, hzero⟩ := (p.answers hs hround hu k).idle (flight_none hk)
    exact ⟨hheld, hquiet k hzero⟩
  · obtain ⟨f, hf, hv⟩ := flight_some hs hk
    obtain ⟨hheld, hzero⟩ := (p.answers hs hround hu k).known f hf hv
    exact ⟨hheld, hquiet k hzero⟩
  · obtain ⟨f, hf, rfl⟩ := flight_some hs hk
    obtain ⟨hheld, hrests, hmoves⟩ := (p.answers hs hround hu k).answered f hf hne
    refine ⟨hheld, fun heq => hquiet k (hrests heq), fun hmove => ?_⟩
    rw [hsent k (hmoves hmove), hheld]

/-- Undisturbed rounds of the bus are rounds of the exchange. -/
theorem simulates_exchange : (b.system.restrict p.Undisturbed).Simulates
    (Exchange.system (NetworkModel.reencoded p.message))
    (fun s x => p.InFlight s ∧ x = p.exchange s) (fun _ _ => True) := by
  rintro s input trace s' _ ⟨hs, rfl⟩ ⟨hround, hu⟩
  obtain ⟨hflight, hexchange⟩ := p.round (e := ⟨s, input, trace, s'⟩) hs hround hu
  exact ⟨(), (), _, hexchange, ⟨hflight, rfl⟩, trivial⟩

/-! ## Runs -/

/-- What the parties write in a round in which one value is on its way. -/
theorem writes_moving {e : b.BusStep} (hs : p.InFlight e.before)
    (hround : b.Round e.before e.input e.output e.after) (hu : p.Undisturbed e) {k : Bool}
    {v : p.message.Fields} {n : Nat}
    (h : Exchange.Moving (NetworkModel.reencoded p.message) k v n (p.exchange e.before))
    (j : Bool) :
    ((NetworkModel.reencoded p.message)^[n + 1] v = (NetworkModel.reencoded p.message)^[n] v →
      NetworkModel.writes (e.output (p.party j)) (p.ref j) = 0) ∧
    ((NetworkModel.reencoded p.message)^[n + 1] v ≠ (NetworkModel.reencoded p.message)^[n] v →
      NetworkModel.writes (e.output (p.party j)) (p.ref j) =
        if j = Exchange.turn k n then 1 else 0) := by
  rw [Function.iterate_succ_apply']
  by_cases hj : j = Exchange.turn k n
  · subst hj
    obtain ⟨f, hf, hv⟩ := flight_some hs h.coming
    have hanswered := (p.answers hs hround hu _).answered f hf (by rw [hv]; exact h.unseen)
    rw [hv] at hanswered
    rw [if_pos rfl]
    exact hanswered.2
  · have halone := h.alone
    rw [← Bool.eq_not_of_ne hj] at halone
    have hidle := ((p.answers hs hround hu j).idle (flight_none halone)).2
    rw [if_neg hj]
    exact ⟨fun _ => hidle, fun _ => hidle⟩

/-- One value on its way to a party, which comes to rest after `c` answers, is followed by
exactly these answers, one in a round and by turns.  From round `c` on nobody writes the
message, and both parties have the fields that the value came to rest at. -/
theorem exchange_counted {s s' : b.State} {l : List b.BusStep} (hs : p.InFlight s) {k : Bool}
    {v : p.message.Fields} {c : Nat}
    (hstart : Exchange.Moving (NetworkModel.reencoded p.message) k v 0 (p.exchange s))
    (hc : Exchange.Rests (NetworkModel.reencoded p.message) v c)
    (hrun : b.system.Run s l s') (hl : ∀ e ∈ l, p.Undisturbed e) {n : Nat} {e : b.BusStep}
    (he : l[n]? = some e) :
    (∀ j, NetworkModel.writes (e.output (p.party j)) (p.ref j) =
      if n < c ∧ j = Exchange.turn k n then 1 else 0) ∧
    (n < c → Exchange.Moving (NetworkModel.reencoded p.message) k v (n + 1) (p.exchange e.after)) ∧
    (c ≤ n → Exchange.Resting ((NetworkModel.reencoded p.message)^[c] v) (p.exchange e.after)) := by
  obtain ⟨hahead, hround⟩ := hrun.step_at he
  have hu := hl e (List.mem_of_getElem? he)
  obtain ⟨l', _, hrun', ⟨hflight, rfl⟩, hall⟩ := (hahead.restrict
    (fun e he' => hl e (List.mem_of_mem_take he'))).simulate p.simulates_exchange ⟨hs, rfl⟩
  have hlen : l'.length = n := by
    have hlt : n < l.length := (List.getElem?_eq_some_iff.mp he).1
    rw [← hall.length_eq, List.length_take, Nat.min_eq_left (Nat.le_of_lt hlt)]
  obtain ⟨hmoving, hresting⟩ := Exchange.run_phase hstart hc hrun'
  rw [hlen] at hmoving hresting
  obtain ⟨_, hexchange⟩ := p.round hflight hround hu
  rcases Nat.lt_trichotomy n c with hlt | rfl | hgt
  · have hmove := hmoving (Nat.le_of_lt hlt)
    refine ⟨fun j => ?_, fun _ => hmove.round hexchange (hc.moves n hlt),
      fun hge => absurd hge (by omega)⟩
    rw [(p.writes_moving hflight hround hu hmove j).2 (hc.moves n hlt)]
    simp only [hlt, true_and]
  · have hmove := hmoving (Nat.le_refl n)
    refine ⟨fun j => ?_, fun hlt => absurd hlt (Nat.lt_irrefl n),
      fun _ => hmove.round_rests hexchange hc.rests⟩
    rw [(p.writes_moving hflight hround hu hmove j).1 hc.rests,
      if_neg (fun h => Nat.lt_irrefl n h.1)]
  · have hrest := hresting hgt
    refine ⟨fun j => ?_, fun hlt => absurd hlt (Nat.lt_asymm hgt),
      fun _ => hrest.round hexchange⟩
    rw [((p.answers hflight hround hu j).idle (flight_none (hrest.quiet j))).2,
      if_neg (fun h => Nat.lt_asymm hgt h.1)]

end Pair
end Bus
end DseNetwork
