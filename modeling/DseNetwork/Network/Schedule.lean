import DseNetwork.Network.Engine

/-
The 1 ms schedule of cyclic messages, after `schedule.c`.

The schedule list has one item for each message with a cycle time, and an item changes
its own alarm and its own message.  The alarm is kept under the message.
-/

namespace DseNetwork

/-- The alarm of an item reaches zero in a tick. -/
def alarmFires (tick : BitVec 32) (alarm : Nat) : Prop := tick ≠ 0#32 ∧ alarm = 1

instance (tick : BitVec 32) (alarm : Nat) : Decidable (alarmFires tick alarm) :=
  inferInstanceAs (Decidable (_ ∧ _))

/-- The body of the loop of `network_schedule_tick`, for an item with the given cycle
time and alarm and the message it refers to. -/
def scheduleItemTick (tick : BitVec 32) (cycleTimeMs alarm : Nat) (st : MessageState) :
    Nat × MessageState :=
  let (alarm, st) :=
    if tick = 0#32 then (alarm, st)
    else if alarm ≠ 0 then
      let alarm := alarm - 1
      if alarm = 0 then
        -- Alarm fired, reset checksum.
        if cycleTimeMs ≠ 0 then (alarm, { st with bufferChecksum := 0#32, needsTx := true })
        else (alarm, st)
      else (alarm, st)
    else (alarm, st)
  (if alarm = 0 then cycleTimeMs else alarm, st)

theorem scheduleItemTick_message (tick : BitVec 32) {cycleTimeMs : Nat} (hc : cycleTimeMs ≠ 0)
    (alarm : Nat) (st : MessageState) :
    (scheduleItemTick tick cycleTimeMs alarm st).2 =
      if alarmFires tick alarm then { st with bufferChecksum := 0#32, needsTx := true }
      else st := by
  unfold scheduleItemTick alarmFires
  by_cases ht : tick = 0#32
  · simp [ht]
  · rcases alarm with _ | _ | alarm
    · simp [ht]
    · simp [ht, hc]
    · simp [ht]

namespace Network

variable (n : Network)

/-- `network_schedule_reset`. -/
def scheduleReset (s : n.State) : n.State := { s with alarm := fun _ => 0, tick := 0#32 }

/-- `network_schedule_tick`. -/
def scheduleTick (s : n.State) : n.State where
  message i :=
    if (n.msg i).cycleTimeMs = 0 then s.message i
    else (scheduleItemTick s.tick (n.msg i).cycleTimeMs (s.alarm i) (s.message i)).2
  signalVector := s.signalVector
  alarm i :=
    if (n.msg i).cycleTimeMs = 0 then s.alarm i
    else (scheduleItemTick s.tick (n.msg i).cycleTimeMs (s.alarm i) (s.message i)).1
  tick := s.tick + 1#32

def scheduleTicks (k : Nat) (s : n.State) : n.State := (n.scheduleTick)^[k] s

/-- The alarm of message `i` reaches zero in one of `k` ticks. -/
def AlarmFired (k : Nat) (s : n.State) (i : n.Ref) : Prop :=
  ∃ j, j < k ∧ alarmFires (n.scheduleTicks j s).tick ((n.scheduleTicks j s).alarm i)

instance (k : Nat) (s : n.State) (i : n.Ref) : Decidable (n.AlarmFired k s i) :=
  inferInstanceAs (Decidable (∃ j, j < k ∧ _))

variable {n}

theorem scheduleTick_event {i : n.Ref} (hevent : (n.msg i).cycleTimeMs = 0) (s : n.State) :
    (n.scheduleTick s).message i = s.message i :=
  if_pos hevent

theorem scheduleTick_cyclic {i : n.Ref} (hcyclic : (n.msg i).cycleTimeMs ≠ 0) (s : n.State) :
    (n.scheduleTick s).message i =
        (scheduleItemTick s.tick (n.msg i).cycleTimeMs (s.alarm i) (s.message i)).2 ∧
      (n.scheduleTick s).alarm i =
        (scheduleItemTick s.tick (n.msg i).cycleTimeMs (s.alarm i) (s.message i)).1 :=
  ⟨if_neg hcyclic, if_neg hcyclic⟩

theorem scheduleTicks_succ (k : Nat) (s : n.State) :
    n.scheduleTicks (k + 1) s = n.scheduleTick (n.scheduleTicks k s) :=
  Function.iterate_succ_apply' _ _ _

theorem scheduleTicks_add (j k : Nat) (s : n.State) :
    n.scheduleTicks k (n.scheduleTicks j s) = n.scheduleTicks (j + k) s := by
  rw [scheduleTicks, scheduleTicks, scheduleTicks, Nat.add_comm, Function.iterate_add_apply]

theorem AlarmFired.succ {k : Nat} {s : n.State} {i : n.Ref} :
    n.AlarmFired (k + 1) s i ↔ n.AlarmFired k s i ∨
      alarmFires (n.scheduleTicks k s).tick ((n.scheduleTicks k s).alarm i) := by
  constructor
  · rintro ⟨j, hj, hfire⟩
    rcases Nat.lt_succ_iff_lt_or_eq.mp hj with hlt | rfl
    · exact .inl ⟨j, hlt, hfire⟩
    · exact .inr hfire
  · rintro (⟨j, hj, hfire⟩ | hfire)
    · exact ⟨j, Nat.lt_succ_of_lt hj, hfire⟩
    · exact ⟨k, Nat.lt_succ_self k, hfire⟩

@[simp] theorem scheduleTicks_signalVector (k : Nat) (s : n.State) :
    (n.scheduleTicks k s).signalVector = s.signalVector := by
  induction k with
  | zero => rfl
  | succ k ih => rw [scheduleTicks_succ, scheduleTick, ih]

theorem scheduleTicks_event {i : n.Ref} (hevent : (n.msg i).cycleTimeMs = 0) (k : Nat)
    (s : n.State) : (n.scheduleTicks k s).message i = s.message i := by
  induction k with
  | zero => rfl
  | succ k ih =>
    rw [scheduleTicks_succ, scheduleTick_event hevent, ih]

/-- A cyclic message is marked for transmission when its alarm fired, and else left. -/
theorem scheduleTicks_cyclic {i : n.Ref} (hcyclic : (n.msg i).cycleTimeMs ≠ 0) (k : Nat)
    (s : n.State) :
    (n.AlarmFired k s i → (n.scheduleTicks k s).message i =
        { s.message i with bufferChecksum := 0#32, needsTx := true }) ∧
      (¬ n.AlarmFired k s i → (n.scheduleTicks k s).message i = s.message i) := by
  induction k with
  | zero => exact ⟨fun ⟨_, hj, _⟩ => absurd hj (Nat.not_lt_zero _), fun _ => rfl⟩
  | succ k ih =>
    have hstep : (n.scheduleTicks (k + 1) s).message i =
        if alarmFires (n.scheduleTicks k s).tick ((n.scheduleTicks k s).alarm i) then
          { (n.scheduleTicks k s).message i with bufferChecksum := 0#32, needsTx := true }
        else (n.scheduleTicks k s).message i := by
      rw [scheduleTicks_succ, (scheduleTick_cyclic hcyclic _).1,
        scheduleItemTick_message _ hcyclic]
    rw [hstep, AlarmFired.succ]
    by_cases hbefore : n.AlarmFired k s i
    · rw [ih.1 hbefore]
      refine ⟨fun _ => ?_, fun hno => absurd (.inl hbefore) hno⟩
      split <;> rfl
    · rw [ih.2 hbefore]
      by_cases hnow : alarmFires (n.scheduleTicks k s).tick ((n.scheduleTicks k s).alarm i)
      · rw [if_pos hnow]
        exact ⟨fun _ => rfl, fun hno => absurd (.inr hnow) hno⟩
      · rw [if_neg hnow]
        exact ⟨fun hor => absurd hor (not_or.mpr ⟨hbefore, hnow⟩), fun _ => rfl⟩

/-- Ticks write the checksum and the transmission flag of a message, and nothing else. -/
theorem scheduleTicks_message (k : Nat) (s : n.State) (i : n.Ref) :
    ∃ sum tx, (n.scheduleTicks k s).message i =
      { s.message i with bufferChecksum := sum, needsTx := tx } := by
  by_cases hevent : (n.msg i).cycleTimeMs = 0
  · rw [scheduleTicks_event hevent]
    exact ⟨_, _, rfl⟩
  · obtain ⟨hfired, hquiet⟩ := scheduleTicks_cyclic hevent k s
    by_cases hfire : n.AlarmFired k s i
    · exact ⟨_, _, hfired hfire⟩
    · exact ⟨_, _, hquiet hfire⟩

end Network
end DseNetwork
