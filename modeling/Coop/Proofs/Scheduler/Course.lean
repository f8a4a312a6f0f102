import Coop.Proofs.Scheduler.Dispatch
import Coop.Proofs.Scheduler.Effect

/-!
# What becomes of a task

A running task is moved by turns, and between turns by the requests that are made of it. Both are
listed here once and for all.

* `Task.given?`: the task as it gets control in a turn, if it does;
* **`Task.Course`**, `Task.course`: the courses a turn can take for a task;
* `Scheduler.mem_dispatches_iff_given`, `Scheduler.mem_ids_dispatches_iff`: the tasks that get
  control in a turn of the scheduler;
* `Standing`, `Action.onStanding`: what decides about the turns of a task, and the calls that reach
  it;
* **`Task.standing_effect`**, `Task.standing_effect_of_dormant`: any call that is no turn, on a
  running task and on a dormant one;
* `Task.phase_effect`: the phase of any task after such a call.
-/

namespace Coop

/-! ## Turns -/

namespace Task

variable {c : Clock} {t : Task}

/-- The task as it gets control in a turn, with its budget as its timeslice, if it does. -/
def given? (c : Clock) (t : Task) : Option Task :=
  if (t.interrupted.woken c).phase = .ready then
    some { t.interrupted.woken c with timeslice := c.timeslice }
  else none

/-- **The courses a turn can take for a task**: the task as it gets control, if it does, and the
task after the turn. -/
inductive Course (c : Clock) (t : Task) : Option Task → Task → Prop
  /-- It was asked to stop, and is ended. -/
  | ended (hp : t.phase ≠ .dormant) (hi : t.interrupt = true) :
    Course c t none { t.finish none with phase := .dormant }
  | dormant (hp : t.phase = .dormant) : Course c t none t
  | suspended (hp : t.phase = .suspended) (hi : t.interrupt = false) : Course c t none t
  /-- It sleeps on. -/
  | asleep (hp : t.phase = .waiting) (hi : t.interrupt = false) (hw : c.tick < t.wakeupTick) :
    Course c t none t
  /-- Its sleep is over, and it is parked as it was asked to. -/
  | parked (hp : t.phase = .waiting) (hi : t.interrupt = false) (hw : t.wakeupTick ≤ c.tick)
    (hs : t.suspend = true) : Course c t none t.awake
  /-- It is ready, or its sleep is over, and it gets control. -/
  | given {d : Task} (hi : t.interrupt = false)
    (hp : t.phase = .ready ∨ t.phase = .waiting ∧ t.wakeupTick ≤ c.tick ∧ t.suspend = false)
    (hd : d = { t with
      phase := .ready
      waitReason := d.waitReason
      timeslice := c.timeslice }) :
    Course c t (some d) (d.step.task.settled c d.step.handback)

theorem turn_of_ne_ready {u : Task} (hu : t.interrupted.woken c = u) (hp : u.phase ≠ .ready) :
    t.given? c = none ∧ t.turn c = u := by
  subst hu
  exact ⟨if_neg hp, if_neg hp⟩

theorem turn_of_ready {u : Task} (hu : t.interrupted.woken c = u) (hp : u.phase = .ready) :
    let d := { u with timeslice := c.timeslice }
    t.given? c = some d ∧ t.turn c = d.step.task.settled c d.step.handback := by
  subst hu
  exact ⟨if_pos hp, if_pos hp⟩

/-- **A turn takes one of its courses.** -/
theorem course (c : Clock) (t : Task) : Course c t (t.given? c) (t.turn c) := by
  by_cases hi : t.phase ≠ .dormant ∧ t.interrupt = true
  · obtain ⟨hp, hi⟩ := hi
    have hended : t.interrupted = { t.finish none with phase := .dormant } :=
      if_pos (by simp [hp, hi])
    have hwoken : t.interrupted.woken c = { t.finish none with phase := .dormant } := by
      rw [hended]
      exact woken_of_lt nofun
    obtain ⟨hnone, hturn⟩ := turn_of_ne_ready hwoken nofun
    rw [hnone, hturn]
    exact .ended hp hi
  · have hsame : t.interrupted = t := interrupted_of_not (by simpa [or_iff_not_imp_left] using hi)
    by_cases hw : t.phase = .waiting ∧ t.wakeupTick ≤ c.tick
    · obtain ⟨hp, hw⟩ := hw
      have hi : t.interrupt = false := by simpa [hp] using hi
      have hawake : t.woken c = t.awake := if_pos ⟨hp, hw⟩
      have hwoken : t.interrupted.woken c = t.awake := by rw [hsame, hawake]
      cases hs : t.suspend with
      | true =>
        have hphase : t.awake.phase = .suspended := if_pos hs
        obtain ⟨hnone, hturn⟩ := turn_of_ne_ready hwoken (by simp [hphase])
        rw [hnone, hturn]
        exact .parked hp hi hw hs
      | false =>
        have hphase : t.awake.phase = .ready := if_neg (by simp [hs])
        obtain ⟨hsome, hturn⟩ := turn_of_ready hwoken hphase
        rw [hsome, hturn]
        refine .given hi (.inr ⟨hp, hw, hs⟩) ?_
        simp only [awake, hs]
        rfl
    · have hwoken : t.woken c = t := if_neg hw
      have hboth : t.interrupted.woken c = t := by rw [hsame, hwoken]
      cases hp : t.phase with
      | ready =>
        have hi : t.interrupt = false := by simpa [hp] using hi
        obtain ⟨hsome, hturn⟩ := turn_of_ready hboth hp
        rw [hsome, hturn]
        refine .given hi (.inl hp) ?_
        rw [← hp]
      | dormant =>
        obtain ⟨hnone, hturn⟩ := turn_of_ne_ready hboth (by simp [hp])
        rw [hnone, hturn]
        exact .dormant hp
      | waiting =>
        have hi : t.interrupt = false := by simpa [hp] using hi
        obtain ⟨hnone, hturn⟩ := turn_of_ne_ready hboth (by simp [hp])
        rw [hnone, hturn]
        exact .asleep hp hi (by simpa [hp] using hw)
      | suspended =>
        have hi : t.interrupt = false := by simpa [hp] using hi
        obtain ⟨hnone, hturn⟩ := turn_of_ne_ready hboth (by simp [hp])
        rw [hnone, hturn]
        exact .suspended hp hi

/-- A task that was asked to stop does not get control in its next turn, and does not survive it. -/
theorem turn_of_interrupt (hp : t.phase ≠ .dormant) (hi : t.interrupt = true) (c : Clock) :
    t.given? c = none ∧ t.turn c = { t.finish none with phase := .dormant } := by
  have hcourse := t.course c
  generalize t.given? c = d, t.turn c = t' at hcourse ⊢
  cases hcourse with
  | ended => exact ⟨rfl, rfl⟩
  | dormant hd => exact absurd hd hp
  | suspended _ hn | asleep _ hn | parked _ hn | given hn => simp [hi] at hn

theorem woken_interrupted_of_ready (hp : t.phase = .ready) (hi : t.interrupt = false) :
    t.interrupted.woken c = t := by
  rw [interrupted_of_not (.inr hi), woken_of_lt (by simp [hp])]

theorem given?_of_ready (hp : t.phase = .ready) (hi : t.interrupt = false) :
    t.given? c = some { t with timeslice := c.timeslice } :=
  (turn_of_ready (woken_interrupted_of_ready hp hi) hp).1

theorem turnText_of_given?_eq_none (h : t.given? c = none) : t.turnText c = "" := by
  refine if_neg fun hp => ?_
  rw [given?, if_pos hp] at h
  cases h

theorem id_interrupted : t.interrupted.id = t.id := by
  unfold interrupted
  split_ifs <;> rfl

theorem id_woken : (t.woken c).id = t.id := by
  unfold woken
  split_ifs <;> rfl

theorem id_of_given {d : Task} (h : t.given? c = some d) : d.id = t.id := by
  unfold given? at h
  split_ifs at h
  cases h
  exact id_woken.trans id_interrupted

end Task

namespace Scheduler

variable {s : Scheduler} {u : TaskId} {t : Task}

/-- The tasks that get control in a turn of the scheduler are those that get it in their own. -/
theorem mem_dispatches_iff_given (hs : s.Partitioned) {d : Task} : d ∈ s.dispatches ↔
    ∃ t, s.find? d.id = some t ∧ t.given? s.clock.next = some d := by
  rw [mem_dispatches_iff hs, find?_roundStart hs]
  cases s.find? d.id with
  | none => simp
  | some t => simp [Task.given?, clock, Clock.next, eq_comm]

theorem mem_dispatches_of_ready (hs : s.Partitioned) (h : s.find? u = some t)
    (hp : t.phase = .ready) (hi : t.interrupt = false) :
    { t with timeslice := s.timeslice } ∈ s.dispatches := by
  refine (mem_dispatches_iff_given hs).mpr ⟨t, ?_, Task.given?_of_ready hp hi⟩
  rw [← h, id_of_find? h]

theorem not_mem_ids_dispatches (hs : s.Partitioned) (h : s.find? u = none) :
    u ∉ s.dispatches.map Task.id := by
  intro hu
  obtain ⟨d, hd, rfl⟩ := List.mem_map.mp hu
  obtain ⟨t, ht, -⟩ := (mem_dispatches_iff_given hs).mp hd
  rw [h] at ht
  cases ht

theorem mem_ids_dispatches_iff (hs : s.Partitioned) (h : s.find? u = some t) :
    u ∈ s.dispatches.map Task.id ↔ (t.given? s.clock.next).isSome = true := by
  rw [List.mem_map, Option.isSome_iff_exists]
  constructor
  · rintro ⟨d, hd, rfl⟩
    obtain ⟨t', ht', hgiven⟩ := (mem_dispatches_iff_given hs).mp hd
    rw [h] at ht'
    cases ht'
    exact ⟨d, hgiven⟩
  · rintro ⟨d, hd⟩
    have hid : d.id = u := (Task.id_of_given hd).trans (id_of_find? h)
    exact ⟨d, (mem_dispatches_iff_given hs).mpr ⟨t, hid ▸ h, hd⟩, hid⟩

end Scheduler

/-! ## Calls between turns -/

/-- What decides about the turns of a running task. -/
structure Standing where
  phase : Phase
  interrupt : Bool
  suspend : Bool
  wakeupTick : Nat

/-- The standing of a task. -/
def Task.standing (t : Task) : Standing := ⟨t.phase, t.interrupt, t.suspend, t.wakeupTick⟩

/-- What a call that is no turn does to the standing of the running task with number `u`. -/
def Scheduler.Action.onStanding (u : TaskId) (st : Standing) : Action → Standing
  | .resume id => if id = u ∧ st.phase = .suspended then { st with phase := .ready } else st
  | .on id .interrupt => if id = u then { st with interrupt := true } else st
  | .on id .suspend => if id = u then { st with suspend := true } else st
  | _ => st

namespace Scheduler.Action

variable {u : TaskId} {st : Standing}

theorem phase_onStanding {a : Action} (h : st.phase ≠ .suspended ∨ a ≠ .resume u) :
    (a.onStanding u st).phase = st.phase := by
  unfold onStanding
  split
  · rename_i id
    refine congrArg Standing.phase (if_neg ?_)
    rintro ⟨rfl, hp⟩
    exact h.elim (fun hne => hne hp) (fun hne => hne rfl)
  all_goals first
    | rfl
    | split_ifs <;> rfl

theorem interrupt_onStanding {a : Action} (h : a ≠ .on u .interrupt) :
    (a.onStanding u st).interrupt = st.interrupt := by
  unfold onStanding
  split
  · split_ifs <;> rfl
  · refine congrArg Standing.interrupt (if_neg ?_)
    rintro rfl
    exact h rfl
  · split_ifs <;> rfl
  · rfl

theorem suspend_onStanding {a : Action} (h : a ≠ .on u .suspend) :
    (a.onStanding u st).suspend = st.suspend := by
  unfold onStanding
  split
  · split_ifs <;> rfl
  · split_ifs <;> rfl
  · refine congrArg Standing.suspend (if_neg ?_)
    rintro rfl
    exact h rfl
  · rfl

theorem wakeupTick_onStanding (a : Action) : (a.onStanding u st).wakeupTick = st.wakeupTick := by
  unfold onStanding
  split
  all_goals first
    | rfl
    | split_ifs <;> rfl

end Scheduler.Action

namespace Task

open Scheduler

variable {c : Clock} {t : Task} {u : TaskId} {a : Scheduler.Action}

theorem standing_step : t.step.task.standing = t.standing := by
  unfold step
  split <;> rfl

theorem standing_loadImage (bytes : ByteArray) : (t.loadImage bytes).2.standing = t.standing := by
  unfold loadImage
  dsimp only
  split <;> rfl

/-- **What a call that is no turn does to a running task.** -/
theorem standing_effect (hp : t.phase ≠ .dormant) (ha : a ≠ .tick) :
    (a.effect c u t).standing = a.onStanding u t.standing := by
  cases a with
  | spawn | remove => rfl
  | tick => exact absurd rfl ha
  | launch id =>
    have hsame : t.launched = t := by rw [launched_eq, if_neg hp]
    rw [Action.effect, hsame, ite_self]
    rfl
  | resume id =>
    rw [Action.effect, Action.onStanding]
    by_cases hid : id = u
    · by_cases hs : t.phase = .suspended
      · rw [if_pos hid, if_pos ⟨hid, hs⟩, resumed, if_pos hs]
        rfl
      · rw [if_pos hid, if_neg (fun h => hs h.2), resumed, if_neg hs]
    · rw [if_neg hid, if_neg (fun h => hid h.1)]
  | on id a =>
    rw [Action.effect]
    by_cases hid : id = u
    · rw [if_pos hid]
      cases a with
      | compile source =>
        rw [Task.Action.apply, value_compile, if_neg hp]
        rfl
      | loadImage bytes => exact standing_loadImage bytes
      | mapImage | setPriority => rfl
      | interrupt =>
        rw [Task.Action.apply, requestInterrupt, if_neg hp, Action.onStanding, if_pos hid]
        rfl
      | suspend =>
        rw [Task.Action.apply, requestSuspend, if_neg hp, Action.onStanding, if_pos hid]
        rfl
    · rw [if_neg hid]
      cases a with
      | compile | loadImage | mapImage | setPriority => rfl
      | interrupt | suspend => exact (if_neg hid).symm

/-- What a call that is no turn does to a dormant task: nothing, unless it is launched. -/
theorem standing_effect_of_dormant (hp : t.phase = .dormant) (ha : a ≠ .tick) :
    (a.effect c u t).standing = t.standing ∨
      (a.effect c u t).standing = ⟨.ready, false, false, t.wakeupTick⟩ := by
  cases a with
  | spawn | remove => exact .inl rfl
  | tick => exact absurd rfl ha
  | launch id =>
    rw [Action.effect, launched_eq]
    repeat' split
    all_goals first
      | exact .inl rfl
      | exact .inr rfl
  | resume id =>
    have hsame : t.resumed = t := if_neg (by simp [hp])
    rw [Action.effect, hsame, ite_self]
    exact .inl rfl
  | on id a =>
    rw [Action.effect]
    split_ifs
    · refine .inl ?_
      cases a with
      | compile source =>
        rw [Task.Action.apply, value_compile]
        repeat' split
        all_goals rfl
      | loadImage bytes => exact standing_loadImage bytes
      | mapImage | setPriority => rfl
      | interrupt =>
        rw [Task.Action.apply, requestInterrupt, if_pos hp]
        rfl
      | suspend => rw [Task.Action.apply, requestSuspend, if_pos hp]
    · exact .inl rfl

theorem phase_effect (ha : a ≠ .tick) :
    (a.effect c u t).phase = t.phase ∨ (a.effect c u t).phase = .ready := by
  by_cases hp : t.phase = .dormant
  · exact (standing_effect_of_dormant hp ha).imp (congrArg Standing.phase)
      (congrArg Standing.phase)
  · have hst := congrArg Standing.phase (standing_effect (c := c) (u := u) hp ha)
    by_cases hr : t.phase = .suspended ∧ a = .resume u
    · obtain ⟨hs, rfl⟩ := hr
      exact .inr (hst.trans (congrArg Standing.phase (if_pos ⟨rfl, hs⟩)))
    · exact .inl (hst.trans (a.phase_onStanding (not_and_or.mp hr)))

end Task

end Coop
