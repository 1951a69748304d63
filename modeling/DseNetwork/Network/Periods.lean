import DseNetwork.Network.Schedule
import DseNetwork.Network.Library
import Mathlib.Tactic.Linarith

/-
The tick numbers at which the alarm of a cyclic message fires.

The schedule list takes the tick counter at zero for its first tick and leaves the alarms
as they are.  The counter has 32 bits and is zero again every 2^32 ticks, so that from then
on every alarm is late by one tick for each time it came round.
-/

namespace DseNetwork

/-! ## One alarm -/

namespace Alarm

/-- The tick number, less the ticks that the counter showed as zero since the first. -/
def counted (k : Nat) : Nat := k - k / 2 ^ 32

/-- The alarm of an item before tick number `k` since the reset. -/
def before (cycleTimeMs : Nat) : Nat → Nat
  | 0 => 0
  | k + 1 => cycleTimeMs - counted k % cycleTimeMs

/-- The alarm of an item fires in tick number `k`. -/
def FiresAt (cycleTimeMs k : Nat) : Prop := k % 2 ^ 32 ≠ 0 ∧ cycleTimeMs ∣ counted k

instance (cycleTimeMs k : Nat) : Decidable (FiresAt cycleTimeMs k) :=
  inferInstanceAs (Decidable (_ ∧ _))

variable {c k : Nat}

theorem counted_succ_of_mod_eq_zero (h : (k + 1) % 2 ^ 32 = 0) :
    counted (k + 1) = counted k := by
  unfold counted
  omega

theorem counted_succ_of_mod_ne_zero (h : (k + 1) % 2 ^ 32 ≠ 0) :
    counted (k + 1) = counted k + 1 := by
  unfold counted
  omega

theorem counted_of_lt (h : k < 2 ^ 32) : counted k = k := by
  unfold counted
  omega

theorem le_counted (h : 2 ^ 32 ≤ k) (hmod : k % 2 ^ 32 ≠ 0) : 2 ^ 32 ≤ counted k := by
  unfold counted
  omega

theorem ofNat_eq_zero_iff : BitVec.ofNat 32 k = 0#32 ↔ k % 2 ^ 32 = 0 := by
  rw [← BitVec.toNat_inj, BitVec.toNat_ofNat]
  rfl

theorem before_succ_pos (hc : c ≠ 0) : before c (k + 1) ≠ 0 := by
  have := Nat.mod_lt (counted k) (Nat.pos_of_ne_zero hc)
  rw [before]
  omega

theorem before_eq_one_iff (hc : c ≠ 0) : before c (k + 1) = 1 ↔ c ∣ counted k + 1 := by
  have hpos := Nat.pos_of_ne_zero hc
  have hlt := Nat.mod_lt (counted k) hpos
  rw [before, ← Nat.mod_eq_sub_iff Nat.zero_lt_one hpos]
  omega

theorem alarmFires_before_iff (hc : c ≠ 0) :
    alarmFires (BitVec.ofNat 32 k) (before c k) ↔ FiresAt c k := by
  rw [alarmFires, FiresAt, Ne, ofNat_eq_zero_iff]
  refine and_congr_right (fun hmod => ?_)
  cases k with
  | zero => exact absurd rfl hmod
  | succ k => rw [before_eq_one_iff hc, counted_succ_of_mod_ne_zero hmod]

theorem before_counted_succ (hc : c ≠ 0) (hmod : (k + 1) % 2 ^ 32 ≠ 0) :
    before c (k + 2) = if before c (k + 1) ≤ 1 then c else before c (k + 1) - 1 := by
  have hpos := Nat.pos_of_ne_zero hc
  have hlt := Nat.mod_lt (counted k) hpos
  have hnext : before c (k + 2) = c - (counted k + 1) % c := by
    rw [before, counted_succ_of_mod_ne_zero hmod]
  by_cases hone : before c (k + 1) = 1
  · rw [if_pos hone.le, hnext, Nat.mod_eq_zero_of_dvd ((before_eq_one_iff hc).mp hone),
      Nat.sub_zero]
  · have hne := before_succ_pos (k := k) hc
    have hsucc : counted k % c + 1 < c := by
      rw [before] at hone
      omega
    have hmodsucc : (counted k + 1) % c = counted k % c + 1 := by
      rw [Nat.add_mod, Nat.mod_eq_of_lt (by omega : 1 < c), Nat.mod_eq_of_lt hsucc]
    rw [if_neg (by omega), hnext, hmodsucc, before]
    omega

theorem scheduleItemTick_alarm (tick : BitVec 32) (c alarm : Nat) (st : MessageState) :
    (scheduleItemTick tick c alarm st).1 =
      if tick = 0#32 then (if alarm = 0 then c else alarm)
      else if alarm ≤ 1 then c else alarm - 1 := by
  unfold scheduleItemTick
  by_cases ht : tick = 0#32
  · simp [ht]
  · rcases alarm with _ | _ | alarm
    · simp [ht]
    · by_cases hc : c = 0
      · simp [ht, hc]
      · simp [ht, hc]
    · simp [ht]

/-- The body of the loop takes the alarm before a tick to the alarm before the next one. -/
theorem scheduleItemTick_before (hc : c ≠ 0) (k : Nat) (st : MessageState) :
    (scheduleItemTick (BitVec.ofNat 32 k) c (before c k) st).1 = before c (k + 1) := by
  rw [scheduleItemTick_alarm]
  by_cases hmod : k % 2 ^ 32 = 0
  · rw [if_pos (ofNat_eq_zero_iff.mpr hmod)]
    cases k with
    | zero => rw [before, if_pos rfl, before, counted_of_lt (by decide), Nat.zero_mod, Nat.sub_zero]
    | succ k =>
      rw [if_neg (before_succ_pos hc), before, before, counted_succ_of_mod_eq_zero hmod]
  · rw [if_neg (mt ofNat_eq_zero_iff.mp hmod)]
    cases k with
    | zero => exact absurd rfl hmod
    | succ k => rw [before_counted_succ hc hmod]

/-! ## Periods -/

/-- The alarm fires in tick number `k` exactly if that is a positive multiple of the cycle
time. -/
def OnPeriod (cycleTimeMs k : Nat) : Prop := FiresAt cycleTimeMs k ↔ 0 < k ∧ cycleTimeMs ∣ k

theorem onPeriod_of_lt (h : k < 2 ^ 32) : OnPeriod c k := by
  rw [OnPeriod, FiresAt, counted_of_lt h, Nat.mod_eq_of_lt h, Nat.pos_iff_ne_zero]

/-- The first multiple of the cycle time from 2^32 on is missed. -/
theorem not_onPeriod (h : 2 ^ 32 ≤ k) (hdvd : c ∣ k) (hfirst : k < 2 ^ 32 + c) :
    ¬ OnPeriod c k := by
  intro hon
  obtain ⟨hmod, hcounted⟩ := hon.mpr ⟨by omega, hdvd⟩
  have hround : c ∣ k / 2 ^ 32 := by
    have hlate : k / 2 ^ 32 = k - counted k := by
      unfold counted
      omega
    rw [hlate]
    exact Nat.dvd_sub hdvd hcounted
  have hle : c ≤ k / 2 ^ 32 := Nat.le_of_dvd (by omega) hround
  rcases Nat.lt_or_ge 1 c with hlt | hge
  · omega
  · omega

/-- The alarm keeps its period below `N` ticks exactly if no multiple of the cycle time
lies between 2^32 and `N`. -/
theorem onPeriod_iff (hc : c ≠ 0) (N : Nat) :
    (∀ k, k < N → OnPeriod c k) ↔ ∀ k, k < N → 2 ^ 32 ≤ k → ¬ c ∣ k := by
  constructor
  · intro hon k hk hle hdvd
    have hpos := Nat.pos_of_ne_zero hc
    -- The least multiple from 2^32 on is at most `k`.
    have hdm := Nat.div_add_mod (2 ^ 32 + c - 1) c
    have hlt := Nat.mod_lt (2 ^ 32 + c - 1) hpos
    have hfirst : c * ((2 ^ 32 + c - 1) / c) ≤ k := by
      obtain ⟨q, rfl⟩ := hdvd
      refine Nat.mul_le_mul_left _ (Nat.le_of_lt_succ ?_)
      rw [Nat.div_lt_iff_lt_mul hpos, Nat.succ_mul, Nat.mul_comm q]
      omega
    exact not_onPeriod (by omega) (Nat.dvd_mul_right _ _) (by omega)
      (hon _ (lt_of_le_of_lt hfirst hk))
  · intro hnone k hk
    rcases Nat.lt_or_ge k (2 ^ 32) with hlt | hge
    · exact onPeriod_of_lt hlt
    · constructor
      · intro hfire
        exact absurd hfire.2 (hnone _ (lt_of_le_of_lt (Nat.sub_le _ _) hk)
          (le_counted hge hfire.1))
      · rintro ⟨_, hdvd⟩
        exact absurd hdvd (hnone k hk hge)

end Alarm

/-! ## The schedule list -/

/-- `NetworkScheduleItem`. -/
structure NetworkScheduleItem (n : Network) where
  message : n.Ref
  alarm : Nat

/-- The part of a `Network` that its schedule reads and writes. -/
structure NetworkSchedule (n : Network) where
  message : n.Ref → MessageState
  scheduleList : List (NetworkScheduleItem n)
  tick : BitVec 32

namespace NetworkSchedule

variable {n : Network}

/-- The messages with a schedule item, in the order of the message list. -/
def scheduled (n : Network) : List n.Ref :=
  (List.finRange n.messages.length).filter (fun i => (n.msg i).cycleTimeMs ≠ 0)

/-- `network_schedule_reset`: the items come from `calloc`. -/
def reset (s : NetworkSchedule n) : NetworkSchedule n where
  message := s.message
  scheduleList := (scheduled n).map (fun i => ⟨i, 0⟩)
  tick := 0#32

/-- The loop of `network_schedule_tick` over the rest of the schedule list. -/
def tickItems (tick : BitVec 32) : List (NetworkScheduleItem n) → (n.Ref → MessageState) →
    List (NetworkScheduleItem n) × (n.Ref → MessageState)
  | [], message => ([], message)
  | nsi :: rest, message =>
    let after := scheduleItemTick tick (n.msg nsi.message).cycleTimeMs nsi.alarm
      (message nsi.message)
    let done := tickItems tick rest (Function.update message nsi.message after.2)
    (⟨nsi.message, after.1⟩ :: done.1, done.2)

/-- `network_schedule_tick`. -/
def networkScheduleTick (s : NetworkSchedule n) : NetworkSchedule n where
  message := (tickItems s.tick s.scheduleList s.message).2
  scheduleList := (tickItems s.tick s.scheduleList s.message).1
  tick := s.tick + 1#32

theorem mem_scheduled {i : n.Ref} : i ∈ scheduled n ↔ (n.msg i).cycleTimeMs ≠ 0 := by
  simp [scheduled]

theorem nodup_scheduled : (scheduled n).Nodup := (List.nodup_finRange _).filter _

/-- The loop over items of different messages, with the alarms `alarm`, goes item by
item. -/
theorem tickItems_map (tick : BitVec 32) (alarm : n.Ref → Nat) {l : List n.Ref} (hl : l.Nodup)
    (message : n.Ref → MessageState) :
    (tickItems tick (l.map (fun i => ⟨i, alarm i⟩)) message).1 = l.map (fun i =>
        ⟨i, (scheduleItemTick tick (n.msg i).cycleTimeMs (alarm i) (message i)).1⟩) ∧
      ∀ i, (tickItems tick (l.map (fun i => ⟨i, alarm i⟩)) message).2 i =
        if i ∈ l then (scheduleItemTick tick (n.msg i).cycleTimeMs (alarm i) (message i)).2
        else message i := by
  induction l generalizing message with
  | nil => exact ⟨rfl, fun i => rfl⟩
  | cons j rest ih =>
    obtain ⟨hj, hrest⟩ := List.nodup_cons.mp hl
    obtain ⟨hitems, hmessage⟩ := ih hrest (Function.update message j
      (scheduleItemTick tick (n.msg j).cycleTimeMs (alarm j) (message j)).2)
    constructor
    · rw [List.map_cons, List.map_cons, tickItems, hitems]
      refine congrArg _ (List.map_congr_left (fun i hi => ?_))
      rw [Function.update_of_ne (ne_of_mem_of_not_mem hi hj)]
    · intro i
      rw [List.map_cons, tickItems, hmessage]
      by_cases hij : i = j
      · subst hij
        rw [if_neg hj, if_pos (List.mem_cons_self ..), Function.update_self]
      · rw [Function.update_of_ne hij]
        simp only [List.mem_cons, hij, false_or]

/-! ## The state of the engine -/

/-- The schedule list of a state that keeps each alarm under its message. -/
def ofState (s : n.State) : NetworkSchedule n where
  message := s.message
  scheduleList := (scheduled n).map (fun i => ⟨i, s.alarm i⟩)
  tick := s.tick

theorem reset_ofState (s : n.State) : (ofState s).reset = ofState (n.scheduleReset s) := rfl

theorem networkScheduleTick_ofState (s : n.State) :
    (ofState s).networkScheduleTick = ofState (n.scheduleTick s) := by
  obtain ⟨hitems, hmessage⟩ := tickItems_map s.tick s.alarm (nodup_scheduled (n := n)) s.message
  have hcells : (tickItems s.tick (ofState s).scheduleList s.message).2 =
      (n.scheduleTick s).message := by
    funext i
    refine (hmessage i).trans ?_
    by_cases hc : (n.msg i).cycleTimeMs = 0
    · rw [if_neg (fun hi => mem_scheduled.mp hi hc), Network.scheduleTick_event hc]
    · rw [if_pos (mem_scheduled.mpr hc), (Network.scheduleTick_cyclic hc s).1]
  have hlist : (tickItems s.tick (ofState s).scheduleList s.message).1 =
      (ofState (n.scheduleTick s)).scheduleList := by
    refine hitems.trans (List.map_congr_left (fun i hi => ?_))
    rw [(Network.scheduleTick_cyclic (mem_scheduled.mp hi) s).2]
  exact congr (congrArg (fun message items => NetworkSchedule.mk message items _) hcells) hlist

/-! ## Runs -/

/-- The schedule after `k` calls of `network_schedule_tick` since a reset, between which
the rest of the code leaves the list and the tick counter alone. -/
inductive Ticked (n : Network) : Nat → NetworkSchedule n → Prop
  | reset (s : NetworkSchedule n) : Ticked n 0 s.reset
  | other {k : Nat} {s : NetworkSchedule n} (message : n.Ref → MessageState) :
      Ticked n k s → Ticked n k { s with message := message }
  | tick {k : Nat} {s : NetworkSchedule n} : Ticked n k s → Ticked n (k + 1) s.networkScheduleTick

/-- The ticks that the engine makes after a reset are such a run. -/
theorem ticked_scheduleTicks (k : Nat) (s : n.State) :
    Ticked n k (ofState (n.scheduleTicks k (n.scheduleReset s))) := by
  induction k with
  | zero =>
    rw [Network.scheduleTicks, Function.iterate_zero_apply, ← reset_ofState]
    exact .reset _
  | succ k ih =>
    rw [Network.scheduleTicks_succ, ← networkScheduleTick_ofState]
    exact .tick ih

variable {k : Nat} {s : NetworkSchedule n}

/-- The tick counter and every alarm are known from the tick number. -/
theorem Ticked.counters (h : Ticked n k s) : s.tick = BitVec.ofNat 32 k ∧
    s.scheduleList =
      (scheduled n).map (fun i => ⟨i, Alarm.before (n.msg i).cycleTimeMs k⟩) := by
  induction h with
  | reset s => exact ⟨rfl, rfl⟩
  | other message _ ih => exact ih
  | @tick k s _ ih =>
    refine ⟨?_, ?_⟩
    · rw [networkScheduleTick, ih.1]
      exact (BitVec.ofNat_add ..).symm
    · rw [networkScheduleTick, ih.1, ih.2, (tickItems_map _ _ nodup_scheduled _).1]
      refine List.map_congr_left (fun i hi => ?_)
      rw [Alarm.scheduleItemTick_before (mem_scheduled.mp hi)]

/-- A message whose alarm has fired. -/
def fired (st : MessageState) : MessageState :=
  { st with bufferChecksum := 0#32, needsTx := true }

/-- Tick number `k` has the effect on each message that its cycle time gives. -/
theorem Ticked.message (h : Ticked n k s) (i : n.Ref) :
    s.networkScheduleTick.message i =
      if (n.msg i).cycleTimeMs ≠ 0 ∧ Alarm.FiresAt (n.msg i).cycleTimeMs k
      then fired (s.message i) else s.message i := by
  show (tickItems s.tick s.scheduleList s.message).2 i = _
  rw [h.counters.1, h.counters.2, (tickItems_map _ _ nodup_scheduled _).2]
  by_cases hc : (n.msg i).cycleTimeMs = 0
  · rw [if_neg (fun hi => mem_scheduled.mp hi hc), if_neg (fun hf => hf.1 hc)]
  · rw [if_pos (mem_scheduled.mpr hc), scheduleItemTick_message _ hc]
    exact if_congr ((Alarm.alarmFires_before_iff hc).trans (and_iff_right hc).symm) rfl rfl

/-- Tick number `k` sends each message with a period that divides `k`, but none at zero,
and touches no other. -/
def ExactPeriods (k : Nat) (s : NetworkSchedule n) : Prop :=
  ∀ i, s.networkScheduleTick.message i =
    if (n.msg i).cycleTimeMs ≠ 0 ∧ 0 < k ∧ (n.msg i).cycleTimeMs ∣ k then fired (s.message i)
    else s.message i

/-- The effect of tick number `k` on a message is its effect on every message of the same
cycle time, in every message list. -/
def Independent (k : Nat) (s : NetworkSchedule n) : Prop :=
  ∀ (n' : Network) (s' : NetworkSchedule n') (i : n.Ref) (i' : n'.Ref), Ticked n' k s' →
    (n.msg i).cycleTimeMs = (n'.msg i').cycleTimeMs → s.message i = s'.message i' →
    s.networkScheduleTick.message i = s'.networkScheduleTick.message i'

theorem Ticked.independent (h : Ticked n k s) : s.Independent k := by
  intro n' s' i i' h' hc hst
  rw [h.message, h'.message, hc, hst]

theorem exists_ticked (n : Network) (k : Nat) (message : n.Ref → MessageState) :
    ∃ s, Ticked n k s ∧ s.message = message := by
  induction k with
  | zero => exact ⟨_, .reset ⟨message, [], 0#32⟩, rfl⟩
  | succ k ih =>
    obtain ⟨s, h, _⟩ := ih
    exact ⟨_, .other message h.tick, rfl⟩

theorem fired_ne_initial : fired .initial ≠ .initial := fun h =>
  absurd (congrArg MessageState.needsTx h) (by decide)

/-- Tick number `k` is exact from every state exactly if every alarm keeps its period. -/
theorem exactPeriods_forall_iff : (∀ s : NetworkSchedule n, Ticked n k s → s.ExactPeriods k) ↔
    ∀ i, (n.msg i).cycleTimeMs ≠ 0 → Alarm.OnPeriod (n.msg i).cycleTimeMs k := by
  constructor
  · intro hexact i hc
    obtain ⟨s, hs, hmessage⟩ := exists_ticked n k (fun _ => .initial)
    have hi := hexact s hs i
    rw [hs.message, hmessage] at hi
    constructor
    · intro hfire
      by_contra hno
      rw [if_pos ⟨hc, hfire⟩, if_neg (fun hm => hno hm.2)] at hi
      exact fired_ne_initial hi
    · intro hmult
      by_contra hno
      rw [if_neg (fun hf => hno hf.2), if_pos ⟨hc, hmult⟩] at hi
      exact fired_ne_initial hi.symm
  · intro hon s hs i
    rw [hs.message]
    by_cases hc : (n.msg i).cycleTimeMs = 0
    · rw [if_neg (fun hf => hf.1 hc), if_neg (fun hf => hf.1 hc)]
    · exact if_congr (and_congr_right (fun _ => hon i hc)) rfl rfl

/-- The periods are exact over `N` ticks, message by message, exactly if none of the ticks
from 2^32 on is one at which a cyclic message is due. -/
theorem exactPeriods_iff (n : Network) (N : Nat) :
    (∀ k, k < N → ∀ s : NetworkSchedule n, Ticked n k s → s.ExactPeriods k ∧ s.Independent k) ↔
      ∀ i, (n.msg i).cycleTimeMs ≠ 0 →
        ∀ k, k < N → 2 ^ 32 ≤ k → ¬ (n.msg i).cycleTimeMs ∣ k := by
  constructor
  · intro h i hc
    exact (Alarm.onPeriod_iff hc N).mp (fun k hk =>
      exactPeriods_forall_iff.mp (fun s hs => (h k hk s hs).1) i hc)
  · intro h k hk s hs
    refine ⟨exactPeriods_forall_iff.mpr (fun i hc => ?_) s hs, hs.independent⟩
    exact (Alarm.onPeriod_iff hc N).mpr (h i hc) k hk

def eachTick : Network :=
  .ofMessages [{ plainMessage "M" 0x1a0#32 4 [wordSignal "s" 0 0] with cycleTimeMs := 1 }]
    (by simp [plainMessage])

/-- A message due at every tick is not sent at tick number 2^32. -/
theorem not_exactPeriods_wrap :
    ¬ ∀ s : NetworkSchedule eachTick, Ticked eachTick (2 ^ 32) s → s.ExactPeriods (2 ^ 32) := by
  rw [exactPeriods_forall_iff]
  intro hon
  exact Alarm.not_onPeriod (c := 1) le_rfl (Nat.one_dvd _) (by omega)
    (hon ⟨0, Nat.zero_lt_one⟩ Nat.one_ne_zero)

end NetworkSchedule
end DseNetwork
