import DseNetwork.Network.EndOfStep
import Mathlib.Tactic.Linarith
import Mathlib.Tactic.FieldSimp
import Mathlib.Tactic.Push

/-
The cadence of the schedule ticks over a run.

A step scales the time since the last tick by 1.01 and truncates.  The push is meant to
absorb the rounding of the quotient; taken exactly, it gains a tick over spans of a
hundred milliseconds, and loses fractions of ticks that end up in `last_tick`.
-/

namespace DseNetwork
namespace NetworkModel

def millis (t : ℚ) : Int := ⌊t * 1000⌋

/-- The part of a model time beyond its whole milliseconds, in milliseconds. -/
def beyond (t : ℚ) : ℚ := t * 1000 - millis t

/-- The span from the last tick to the model time is one whose scaled length truncates
to the whole milliseconds passed. -/
def InCadence (lastTick modelTime : ℚ) : Prop :=
  let n : ℚ := millis modelTime - millis lastTick
  let d : ℚ := beyond modelTime - beyond lastTick
  0 ≤ n + 101 * d ∧ n + 101 * d < 100

instance (lastTick modelTime : ℚ) : Decidable (InCadence lastTick modelTime) :=
  inferInstanceAs (Decidable (_ ∧ _))

theorem beyond_nonneg (t : ℚ) : 0 ≤ beyond t := by
  have := Int.floor_le (t * 1000)
  unfold beyond millis
  linarith

theorem beyond_lt_one (t : ℚ) : beyond t < 1 := by
  have := Int.lt_floor_add_one (t * 1000)
  unfold beyond millis
  linarith

theorem tdiv_eq_floor {q : ℚ} (hq : 0 ≤ q) : q.num.tdiv q.den = ⌊q⌋ := by
  rw [Int.tdiv_eq_ediv_of_nonneg (Rat.num_nonneg.mpr hq), Rat.floor_def']

theorem toInt32_span_eq_iff {n : Int} {d : ℚ} (hspan : 0 ≤ n + d)
    (hlo : -1 < d) (hhi : d < 1) :
    ((toInt32 ((n + d) * (101 / 100))).toNat : Int) = n ↔
      0 ≤ n + 101 * d ∧ n + 101 * d < 100 := by
  generalize hq : ((n : ℚ) + d) * (101 / 100) = q
  have hq0 : 0 ≤ q := by linarith
  have hfloor : 0 ≤ ⌊q⌋ := Int.floor_nonneg.mpr hq0
  rw [toInt32, tdiv_eq_floor hq0]
  by_cases hint : ⌊q⌋ < 2 ^ 31
  · rw [if_pos ⟨by omega, hint⟩, Int.toNat_of_nonneg hfloor, Int.floor_eq_iff]
    constructor
    · rintro ⟨hle, hlt⟩
      constructor <;> linarith
    · rintro ⟨hle, hlt⟩
      constructor <;> linarith
  · -- Such a span has far more whole milliseconds than either side allows.
    have hbig : ((2 ^ 31 : Int) : ℚ) ≤ q := Int.le_floor.mp (not_lt.mp hint)
    rw [if_neg (fun hr => hint hr.2)]
    push_cast at hbig
    constructor
    · intro h0
      have hzero : (n : ℚ) = 0 := by
        rw [← h0]
        rfl
      linarith
    · rintro ⟨_, hlt⟩
      linarith

/-- A step ticks as many times as whole milliseconds passed exactly on such a span. -/
theorem stepTicks_eq_iff {lastTick modelTime : ℚ} (h : lastTick ≤ modelTime) :
    ((stepTicks modelTime lastTick).toNat : Int) = millis modelTime - millis lastTick ↔
      InCadence lastTick modelTime := by
  have hsum : ((millis modelTime - millis lastTick : Int) : ℚ) +
      (beyond modelTime - beyond lastTick) = (modelTime - lastTick) * 1000 := by
    unfold beyond
    push_cast
    ring
  have hscaled : (modelTime - lastTick) / (1 / 1000) * (101 / 100) =
      (((millis modelTime - millis lastTick : Int) : ℚ) +
        (beyond modelTime - beyond lastTick)) * (101 / 100) := by
    rw [hsum]
    ring
  have hd₁ := beyond_lt_one modelTime
  have hd₂ := beyond_nonneg modelTime
  have hd₃ := beyond_lt_one lastTick
  have hd₄ := beyond_nonneg lastTick
  rw [stepTicks, hscaled, toInt32_span_eq_iff (by linarith) (by linarith) (by linarith),
    InCadence]
  push_cast
  rfl

/-! ## Runs -/

def totalTicks {n : Network} (l : List (ModelStep n)) : Nat :=
  (l.map (·.output.ticks)).sum

/-- The model time starts at zero and never goes back. -/
structure Clocked {n : Network} (l : List (ModelStep n)) :
    Prop where
  start : ∀ t ∈ (l.map (·.input.modelTime)).head?, t = 0
  mono : (l.map (·.input.modelTime)).Pairwise (· ≤ ·)

/-- After each step, one tick for each millisecond from zero on. -/
def TicksEveryMilli {n : Network} (l : List (ModelStep n)) :
    Prop :=
  ∀ pre e, pre ++ [e] <+: l → (totalTicks (pre ++ [e]) : Int) = 1 + millis e.input.modelTime

/-- Every step of the sequence was entered on such a span. -/
def StepsInCadence {n : Network} (l : List (ModelStep n)) :
    Prop :=
  ∀ e ∈ l, InCadence e.before.lastTick e.input.modelTime

section

variable {n : Network} {l : List (ModelStep n)}
  {e : ModelStep n}

theorem totalTicks_snoc : totalTicks (l ++ [e]) = totalTicks l + e.output.ticks := by
  simp [totalTicks]

theorem Clocked.init (h : Clocked (l ++ [e])) : Clocked l where
  start t ht := by
    refine h.start t ?_
    cases l with
    | nil => cases ht
    | cons a rest => exact ht
  mono := by
    have hmono := h.mono
    rw [List.map_append, List.pairwise_append] at hmono
    exact hmono.1

theorem Clocked.le (h : Clocked (l ++ [e])) {e' : ModelStep n}
    (he' : e' ∈ l) : e'.input.modelTime ≤ e.input.modelTime := by
  have hmono := h.mono
  rw [List.map_append, List.pairwise_append] at hmono
  exact hmono.2.2 _ (List.mem_map_of_mem he') _ (List.mem_singleton_self _)

theorem ticksEveryMilli_snoc : TicksEveryMilli (l ++ [e]) ↔
    TicksEveryMilli l ∧ (totalTicks (l ++ [e]) : Int) = 1 + millis e.input.modelTime := by
  constructor
  · intro h
    refine ⟨fun pre e' hpre => h pre e' ?_, h l e (List.prefix_refl _)⟩
    exact hpre.trans (List.prefix_append l [e])
  · rintro ⟨hl, hlast⟩ pre e' hpre
    rcases List.prefix_concat_iff.mp hpre with heq | hpre
    · obtain ⟨rfl, hsame⟩ := List.append_inj' heq rfl
      rw [List.singleton_inj] at hsame
      rw [hsame]
      exact hlast
    · exact hl pre e' hpre

theorem TicksEveryMilli.last (h : TicksEveryMilli l) (he : e ∈ l.getLast?) :
    (totalTicks l : Int) = 1 + millis e.input.modelTime := by
  obtain ⟨pre, rfl⟩ := List.getLast?_eq_some_iff.mp he
  exact h pre e (List.prefix_refl _)

theorem stepsInCadence_snoc : StepsInCadence (l ++ [e]) ↔
    StepsInCadence l ∧ InCadence e.before.lastTick e.input.modelTime := by
  simp only [StepsInCadence, List.mem_append, List.mem_singleton, or_imp, forall_and,
    forall_eq]

end

variable {m : NetworkModel}

/-- What the clock of a run has come to. -/
structure ClockOf (l : List (ModelStep m.network))
    (s : ModelState m.network) : Prop where
  fresh : l = [] → s.initTickDone = false ∧ s.lastTick = 0
  started : l ≠ [] → s.initTickDone = true
  behind : ∀ e ∈ l.getLast?, s.lastTick ≤ e.input.modelTime
  cadence : TicksEveryMilli l ↔ StepsInCadence l
  counted : l ≠ [] → StepsInCadence l → (totalTicks l : Int) = 1 + millis s.lastTick

variable {input : StepInput} {s s' : ModelState m.network} {trace : StepTrace m.network}
  {l : List (ModelStep m.network)}

theorem clockOf_create (scalar : Nat → Double) : ClockOf [] (m.modelCreate scalar) where
  fresh _ := ⟨rfl, rfl⟩
  started h := absurd rfl h
  behind _ h := by cases h
  cadence := by
    refine ⟨fun _ _ he => absurd he List.not_mem_nil, fun _ pre e hpre => ?_⟩
    simp at hpre
  counted h := absurd rfl h

theorem clockOf_first (hstart : input.modelTime = 0) (hc : ClockOf [] s)
    (h : m.modelStep input s = .ok (s', trace)) : ClockOf [⟨s, input, trace, s'⟩] s' := by
  obtain ⟨g⟩ := modelStep_ok h
  obtain ⟨hinit, hlast⟩ := hc.fresh rfl
  have hzero : stepTicks (0 : ℚ) 0 = 0 := by decide +kernel
  have hmillis : millis 0 = 0 := by decide +kernel
  have hticks : trace.ticks = 1 := by
    rw [g.ticks, hstart, hlast, hzero, hinit]
    rfl
  have hlast' : s'.lastTick = 0 := by
    rw [g.lastTick, hstart, hlast, hzero]
    rfl
  have hin : InCadence s.lastTick input.modelTime := by
    rw [hlast, hstart, InCadence]
    simp
  have htotal : (totalTicks [⟨s, input, trace, s'⟩] : Int) = 1 := by
    simp [totalTicks, hticks]
  refine ⟨fun he => (by cases he), fun _ => ?_, fun e he => ?_, ?_, fun _ _ => ?_⟩
  · rw [g.initTickDone, hstart]
    simp
  · cases he
    rw [hlast']
    exact hstart.ge
  · have hsnoc := ticksEveryMilli_snoc (l := []) (e := ⟨s, input, trace, s'⟩)
    have hsteps := stepsInCadence_snoc (l := []) (e := ⟨s, input, trace, s'⟩)
    rw [List.nil_append] at hsnoc hsteps
    rw [hsnoc, hsteps, hc.cadence]
    refine and_congr_right (fun _ => ⟨fun _ => hin, fun _ => ?_⟩)
    rw [htotal, hstart, hmillis]
    rfl
  · rw [htotal, hlast', hmillis]
    rfl

theorem clockOf_later (hl : l ≠ []) (hclock : Clocked (l ++ [⟨s, input, trace, s'⟩]))
    (hc : ClockOf l s) (h : m.modelStep input s = .ok (s', trace)) :
    ClockOf (l ++ [⟨s, input, trace, s'⟩]) s' := by
  obtain ⟨g⟩ := modelStep_ok h
  have hinit := hc.started hl
  have hticks : trace.ticks = (stepTicks input.modelTime s.lastTick).toNat := by
    rw [g.ticks, hinit]
    simp [initialTicks]
  have hle : s.lastTick ≤ input.modelTime := by
    obtain ⟨e, he⟩ := Option.isSome_iff_exists.mp (List.getLast?_isSome.mpr hl)
    exact (hc.behind e he).trans (hclock.le (List.mem_of_getLast? he))
  have hstep := stepTicks_eq_iff hle
  refine ⟨fun he => (by simp at he), fun _ => ?_, fun e he => ?_, ?_, fun _ hcad => ?_⟩
  · rw [g.initTickDone, hinit]
    rfl
  · rw [List.getLast?_append_of_ne_nil _ (by simp)] at he
    cases he
    rw [g.lastTick]
    split
    · exact le_refl _
    · exact hle
  · rw [ticksEveryMilli_snoc, stepsInCadence_snoc, hc.cadence, totalTicks_snoc, ← hstep]
    refine and_congr_right (fun hcad => ?_)
    have htotal := hc.counted hl hcad
    dsimp only
    rw [hticks]
    push_cast
    omega
  · rw [stepsInCadence_snoc] at hcad
    have htotal := hc.counted hl hcad.1
    have hnow := hstep.mpr hcad.2
    rw [totalTicks_snoc, g.lastTick]
    dsimp only
    rw [hticks]
    push_cast
    by_cases hpos : 0 < stepTicks input.modelTime s.lastTick
    · rw [if_pos hpos]
      omega
    · rw [if_neg hpos]
      omega

theorem clockOf_run {s₀ : ModelState m.network} (h0 : m.system.init s₀)
    (hrun : m.system.Run s₀ l s) (hclock : Clocked l) : ClockOf l s := by
  induction hrun with
  | nil =>
    obtain ⟨scalar, rfl⟩ := h0
    exact clockOf_create scalar
  | @snoc l s s' input trace hrun hn ih =>
    have hc := ih hclock.init
    cases l with
    | nil => exact clockOf_first (hclock.start _ rfl) hc hn
    | cons a rest => exact clockOf_later (List.cons_ne_nil _ _) hclock hc hn

/-- Over a run, one tick is made for each millisecond exactly when every step was
entered on a span whose scaled length truncates to the milliseconds passed. -/
theorem ticksEveryMilli_iff {s₀ : ModelState m.network}
    (h0 : m.system.init s₀) (hrun : m.system.Run s₀ l s) (hclock : Clocked l) :
    TicksEveryMilli l ↔ StepsInCadence l :=
  (clockOf_run h0 hrun hclock).cadence

def stepsAt (times : List ℚ) : List (ModelStep oneByte.network) :=
  oneByte.steps (times.map (.ofFrames [])) (oneByte.modelCreate fun _ => ⟨0#64⟩)

theorem ticksEveryMilli_half : TicksEveryMilli (stepsAt [0, 1 / 2000, 1 / 1000, 3 / 2000]) := by
  obtain ⟨s, hrun⟩ := oneByte.steps_run
    ([0, 1 / 2000, 1 / 1000, 3 / 2000].map (.ofFrames [])) (oneByte.modelCreate fun _ => ⟨0#64⟩)
  have hclock : Clocked (stepsAt [0, 1 / 2000, 1 / 1000, 3 / 2000]) :=
    ⟨by decide +kernel, by decide +kernel⟩
  refine (ticksEveryMilli_iff ⟨_, rfl⟩ hrun hclock).mpr ?_
  unfold StepsInCadence
  decide +kernel

/-- A step of a tenth of a second ticks a hundred and one times. -/
theorem not_ticksEveryMilli : ¬ ∀ (m : NetworkModel) (s₀ s : ModelState m.network)
    (l : List (ModelStep m.network)),
    m.system.init s₀ → m.system.Run s₀ l s → Clocked l → TicksEveryMilli l := by
  intro h
  obtain ⟨s, hrun⟩ := oneByte.steps_run ([0, 1 / 10].map (.ofFrames []))
    (oneByte.modelCreate fun _ => ⟨0#64⟩)
  have hclock : Clocked (stepsAt [0, 1 / 10]) := ⟨by decide +kernel, by decide +kernel⟩
  have hall := h oneByte _ s (stepsAt [0, 1 / 10]) ⟨_, rfl⟩ hrun hclock
  have htime : (stepsAt [0, 1 / 10]).getLast?.map (fun e => millis e.input.modelTime) =
      some 100 := by decide +kernel
  obtain ⟨e, he, hmillis⟩ := Option.map_eq_some_iff.mp htime
  have hcount := hall.last he
  have htotal : totalTicks (stepsAt [0, 1 / 10]) = 102 := by decide +kernel
  rw [htotal, hmillis] at hcount
  omega

end NetworkModel
end DseNetwork
