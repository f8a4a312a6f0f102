import Coop.Proofs.Scheduler.Partition

/-!
# A turn, task by task

A turn of the scheduler does the same to every task, whatever the others are: what becomes of a task
is decided by the task and the clock alone.

* `Clock`: what a task sees of the scheduler;
* `Task.interrupted`, `Task.woken`, `Task.dispatched`: the three parts of a turn for one task;
* **`Task.turn`**, `Task.turnText`: a whole turn for one task, and the text it writes meanwhile;
* `Turn.record`, `Scheduler.turnRecord`: who wrote what during a turn, with `output_runTick`;
* **`find?_runTick`**, **`textOf_eq`**: the turn of the scheduler is the turn of each task.
-/

namespace Coop

/-- What a task sees of the scheduler: the number of the turn, the milliseconds a tick stands for,
and the instructions a task may run in a turn. -/
structure Clock where
  tick : Nat
  tickMs : Nat
  timeslice : Nat
  deriving DecidableEq

/-- The clock one turn later. -/
def Clock.next (c : Clock) : Clock := { c with tick := c.tick + 1 }

/-- The clock of a scheduler. -/
def Scheduler.clock (s : Scheduler) : Clock := ⟨s.tick, s.tickMs, s.timeslice⟩

/-! ## The turn of one task -/

namespace Task

/-- A running task with a pending interrupt is ended. -/
def interrupted (t : Task) : Task :=
  if t.phase ≠ .dormant && t.interrupt then { t.finish none with phase := .dormant } else t

/-- A sleeper, awake: ready, or suspended if that was asked for. -/
def awake (t : Task) : Task :=
  { t with
    waitReason := .nothing
    suspend := false
    phase := if t.suspend then .suspended else .ready }

/-- A sleeper whose time has come is woken. -/
def woken (c : Clock) (t : Task) : Task :=
  if t.phase = .waiting ∧ t.wakeupTick ≤ c.tick then t.awake else t

/-- A task after it handed control back. -/
def settled (c : Clock) (t : Task) : Handback → Task
  | .yield => { t with suspend := false, phase := if t.suspend then .suspended else .ready }
  | .sleep ms =>
    { t with
      wakeupTick := c.tick + max 1 ((ms + c.tickMs - 1) / c.tickMs)
      waitReason := .sleep
      phase := .waiting }
  | .suspend => { t with suspend := false, phase := .suspended }
  | .done => { t.finish none with phase := .dormant }
  | .fault e => { t.finish (some e) with phase := .dormant }

/-- One timeslice of a task. -/
def slice (c : Clock) (t : Task) : Dispatch := { t with timeslice := c.timeslice }.step

@[simp] theorem id_slice (c : Clock) (t : Task) : (t.slice c).task.id = t.id := id_step _

/-- A ready task gets one timeslice. -/
def dispatched (c : Clock) (t : Task) : Task :=
  if t.phase = .ready then (t.slice c).task.settled c (t.slice c).handback else t

/-- What a task writes when it is dispatched. -/
def dispatchText (c : Clock) (t : Task) : String :=
  if t.phase = .ready then (t.slice c).output else ""

/-- **The turn of one task.** -/
def turn (c : Clock) (t : Task) : Task := (t.interrupted.woken c).dispatched c

/-- What a task writes during a turn. -/
def turnText (c : Clock) (t : Task) : String := (t.interrupted.woken c).dispatchText c

end Task

/-! ## The clock stands still within a turn -/

namespace Scheduler

variable (s : Scheduler)

@[simp] theorem clock_modify (id : TaskId) (f : Task → Task) : (s.modify id f).clock = s.clock := by
  unfold modify
  cases s.find? id <;> rfl

@[simp] theorem clock_moveTo (id : TaskId) (p : Phase) : (s.moveTo id p).clock = s.clock := by
  unfold moveTo
  cases s.find? id <;> rfl

@[simp] theorem clock_endInterrupted : s.endInterrupted.value.clock = s.clock := by
  rw [value_endInterrupted]
  refine List.foldlRecOn (motive := fun x : Scheduler => x.clock = s.clock) _ _ rfl ?_
  intro x hx id _
  rw [value_endTask, clock_moveTo, clock_modify, hx]

@[simp] theorem clock_wake (id : TaskId) : (s.wake id).clock = s.clock := by
  unfold wake
  cases s.find? id with
  | none => rfl
  | some t => exact clock_moveTo _ _ _

@[simp] theorem clock_wakeDue : s.wakeDue.clock = s.clock := by
  refine List.foldlRecOn (motive := fun x : Scheduler => x.clock = s.clock) _ _ rfl ?_
  intro x hx id _
  rw [clock_wake, hx]

@[simp] theorem clock_roundStart : s.roundStart.clock = s.clock.next := by
  rw [roundStart, clock_wakeDue, clock_endInterrupted]
  rfl

@[simp] theorem clock_settle (t : Task) (h : Handback) : (s.settle t h).value.clock = s.clock := by
  cases h with
  | yield | sleep | suspend | done | fault => exact clock_moveTo _ _ _

@[simp] theorem clock_dispatch (turn : Turn) (id : TaskId) :
    (turn.dispatch id).value.scheduler.clock = turn.scheduler.clock := by
  unfold Turn.dispatch
  cases turn.scheduler.find? id with
  | none => rfl
  | some t =>
    dsimp only
    split_ifs
    · exact clock_settle _ _ _
    · rfl

theorem clock_runTick : s.runTick.value.scheduler.clock = s.clock.next := by
  rw [value_runTick, value_dispatchReady, ← clock_roundStart]
  refine List.foldlRecOn (motive := fun x : Turn => x.scheduler.clock = s.roundStart.clock) _ _
    rfl ?_
  intro x hx id _
  rw [clock_dispatch, hx]

/-! ## The numbers stay -/

theorem runTick_keep {α : Type} {f : Scheduler → α} (hput : ∀ s t, f (s.put t) = f s)
    (hmove : ∀ s id p, f (s.moveTo id p) = f s) (s : Scheduler) :
    f s.runTick.value.scheduler = f { s with tick := s.tick + 1 } := by
  have hend : ∀ s id, f (s.endTask id).value = f s := by
    intro s id
    rw [value_endTask, hmove, modify]
    cases s.find? id with
    | none => rfl
    | some t => exact hput s _
  have hwake : ∀ s id, f (s.wake id) = f s := by
    intro s id
    unfold wake
    cases s.find? id with
    | none => rfl
    | some t => exact (hmove _ _ _).trans (hput _ _)
  have hsettle : ∀ s t h, f (settle s t h).value = f s := by
    intro s t h
    cases h with
    | yield | sleep | suspend | done | fault => exact (hmove _ _ _).trans (hput _ _)
  have hdispatch : ∀ (turn : Turn) id, f (turn.dispatch id).value.scheduler = f turn.scheduler := by
    intro turn id
    unfold Turn.dispatch
    cases turn.scheduler.find? id with
    | none => rfl
    | some t =>
      dsimp only
      split_ifs
      · exact hsettle _ _ _
      · rfl
  rw [value_runTick, value_dispatchReady]
  refine List.foldlRecOn (motive := fun x : Turn => f x.scheduler = _) _ _ ?_ ?_
  · refine List.foldlRecOn (motive := fun x => f x = _) _ _ ?_ ?_
    · rw [value_endInterrupted]
      refine List.foldlRecOn (motive := fun x => f x = _) _ _ rfl ?_
      intro x hx id _
      rw [hend, hx]
    · intro x hx id _
      rw [hwake, hx]
  · intro x hx id _
    rw [hdispatch, hx]

theorem ids_runTick : s.runTick.value.scheduler.tasks.map Task.id = s.tasks.map Task.id :=
  runTick_keep (f := fun s => s.tasks.map Task.id) ids_put ids_moveTo s

/-! ## Interrupts and sleepers -/

variable {s}

theorem find?_endTask (id u : TaskId) : (s.endTask id).value.find? u =
    if id = u then (s.find? u).map fun t => { t.finish none with phase := .dormant }
    else s.find? u := by
  rw [value_endTask, find?_moveTo, find?_modify s (fun t => t.finish none) fun _ => rfl]
  split_ifs
  · rw [Option.map_map]; rfl
  · rfl

theorem mem_interrupted_iff (hs : s.Partitioned) (u : TaskId) : u ∈ s.interrupted ↔
    ∃ t, s.find? u = some t ∧ (t.phase ≠ .dormant && t.interrupt) = true := by
  constructor
  · intro h
    obtain ⟨t, ht, rfl⟩ := List.mem_map.mp h
    obtain ⟨hm, hc⟩ := List.mem_filter.mp ht
    exact ⟨t, (hs.find?_eq_some_iff _ _).mpr ⟨hm, rfl⟩, hc⟩
  · rintro ⟨t, ht, hc⟩
    exact List.mem_map.mpr ⟨t, List.mem_filter.mpr ⟨mem_of_find? ht, hc⟩, id_of_find? ht⟩

theorem find?_endInterrupted (hs : s.Partitioned) (u : TaskId) :
    s.endInterrupted.value.find? u = (s.find? u).map Task.interrupted := by
  have hn : s.interrupted.Nodup := hs.nodup.sublist (List.filter_sublist.map _)
  rw [value_endInterrupted, lookup_foldl find? (fun s id => (s.endTask id).value) (fun _ => True) _
    (fun _ _ _ => trivial) (fun x id u _ => find?_endTask id u) u hn trivial]
  have hmem := mem_interrupted_iff hs u
  cases hf : s.find? u with
  | none => simp
  | some t =>
    simp only [hf, Option.some.injEq, exists_eq_left'] at hmem
    by_cases hc : (t.phase ≠ .dormant && t.interrupt) = true
    · rw [if_pos (hmem.mpr hc), Option.map_some, Option.map_some, Task.interrupted, if_pos hc]
    · rw [if_neg (mt hmem.mp hc), Option.map_some, Task.interrupted, if_neg hc]

theorem find?_wake (id u : TaskId) :
    (s.wake id).find? u = if id = u then (s.find? u).map Task.awake else s.find? u := by
  unfold wake
  cases h : s.find? id with
  | none => exact find?_eq_ite (fun t ht => by simp [h] at ht) u
  | some t =>
    have ht : t.id = id := id_of_find? h
    refine (find?_put_moveTo s ?_ _ u).trans (ite_find?_congr h ?_ u)
    · exact ht
    · rfl

theorem mem_due_iff (hs : s.Partitioned) (u : TaskId) : u ∈ s.due ↔
    ∃ t, s.find? u = some t ∧ t.phase = .waiting ∧ t.wakeupTick ≤ s.tick := by
  have hw : u ∈ s.buckets.waiting ↔ s.phase? u = some .waiting := hs.mem_bucket_iff u .waiting
  rw [due, List.mem_filter, hw, phase?_eq_some_iff]
  cases s.find? u with
  | none => simp
  | some t => simp

theorem find?_wakeDue (hs : s.Partitioned) (u : TaskId) :
    s.wakeDue.find? u = (s.find? u).map (Task.woken s.clock) := by
  have hn : s.due.Nodup := (hs.nodup_bucket .waiting).sublist List.filter_sublist
  rw [wakeDue, lookup_foldl find? wake (fun _ => True) _ (fun _ _ _ => trivial)
    (fun x id u _ => find?_wake id u) u hn trivial]
  have hmem := mem_due_iff hs u
  cases hf : s.find? u with
  | none => simp
  | some t =>
    simp only [hf, Option.some.injEq, exists_eq_left'] at hmem
    by_cases hc : t.phase = .waiting ∧ t.wakeupTick ≤ s.tick
    · rw [if_pos (hmem.mpr hc), Option.map_some, Option.map_some, Task.woken]
      exact congrArg some (if_pos hc).symm
    · rw [if_neg (mt hmem.mp hc), Option.map_some, Task.woken]
      exact congrArg some (if_neg hc).symm

theorem find?_roundStart (hs : s.Partitioned) (u : TaskId) :
    s.roundStart.find? u = (s.find? u).map fun t => t.interrupted.woken s.clock.next := by
  have hs' : Partitioned { s with tick := s.tick + 1 } :=
    ⟨hs.ascending, hs.inRange, hs.next, hs.listed⟩
  rw [roundStart, find?_wakeDue hs'.endInterrupted, find?_endInterrupted hs', clock_endInterrupted,
    Option.map_map]
  rfl

/-! ## Dispatching -/

theorem find?_settle (t : Task) (h : Handback) (u : TaskId) : (s.settle t h).value.find? u =
    if t.id = u then (s.find? u).map fun _ => t.settled s.clock h else s.find? u := by
  cases h with
  | yield | sleep | suspend | done | fault =>
    refine find?_put_moveTo s ?_ _ u
    rfl

theorem find?_dispatch (turn : Turn) (id u : TaskId) :
    (turn.dispatch id).value.scheduler.find? u =
      if id = u then (turn.scheduler.find? u).map (Task.dispatched turn.scheduler.clock)
      else turn.scheduler.find? u := by
  unfold Turn.dispatch
  cases h : turn.scheduler.find? id with
  | none => exact find?_eq_ite (fun t ht => by simp [h] at ht) u
  | some t =>
    dsimp only
    by_cases hr : t.phase = .ready
    · rw [if_pos hr]
      change (turn.scheduler.settle (t.slice turn.scheduler.clock).task
        (t.slice turn.scheduler.clock).handback).value.find? u = _
      rw [find?_settle, Task.id_slice, id_of_find? h]
      refine ite_find?_congr h ?_ u
      rw [Task.dispatched, if_pos hr]
    · rw [if_neg hr, Logged.value_pure]
      refine find?_eq_ite (fun t' ht => ?_) u
      rw [h] at ht
      cases ht
      rw [Task.dispatched, if_neg hr]

theorem find?_dispatchReady (hs : s.Partitioned) (u : TaskId) :
    s.dispatchReady.value.scheduler.find? u = (s.find? u).map (Task.dispatched s.clock) := by
  have hn : s.buckets.ready.Nodup := hs.nodup_bucket .ready
  rw [value_dispatchReady, lookup_foldl (fun x : Turn => x.scheduler.find?)
    (fun turn id => (turn.dispatch id).value) (fun x => x.scheduler.clock = s.clock)
    (Task.dispatched s.clock) (fun x id hx => (clock_dispatch x id).trans hx)
    (fun x id u hx => hx ▸ find?_dispatch x id u) u hn rfl]
  have hmem : u ∈ s.buckets.ready ↔ s.phase? u = some .ready := hs.mem_bucket_iff u .ready
  rw [phase?_eq_some_iff] at hmem
  cases hf : s.find? u with
  | none => simp
  | some t =>
    simp only [hf, Option.some.injEq, exists_eq_left'] at hmem
    by_cases hr : t.phase = .ready
    · exact if_pos (hmem.mpr hr)
    · rw [if_neg (mt hmem.mp hr), Option.map_some, Task.dispatched, if_neg hr]

/-- **A turn of the scheduler is a turn of each task.** -/
theorem find?_runTick (hs : s.Partitioned) (u : TaskId) :
    s.runTick.value.scheduler.find? u = (s.find? u).map (Task.turn s.clock.next) := by
  rw [value_runTick, find?_dispatchReady hs.roundStart, find?_roundStart hs, clock_roundStart,
    Option.map_map]
  rfl

end Scheduler

/-! ## Who wrote what -/

namespace Turn

/-- What a task writes if it is the next to be dispatched. -/
def textOf (turn : Turn) (id : TaskId) : String :=
  ((turn.scheduler.find? id).map (Task.dispatchText turn.scheduler.clock)).getD ""

/-- Who writes what when the tasks of a list are dispatched in turn. -/
def record : Turn → List TaskId → List (TaskId × String)
  | _, [] => []
  | turn, id :: ids => (id, turn.textOf id) :: (turn.dispatch id).value.record ids

theorem output_dispatch (turn : Turn) (id : TaskId) :
    (turn.dispatch id).value.output = turn.output ++ turn.textOf id := by
  unfold dispatch textOf
  cases turn.scheduler.find? id with
  | none => exact (String.append_empty).symm
  | some t =>
    dsimp only
    rw [Option.map_some, Option.getD_some, Task.dispatchText]
    split_ifs
    · rfl
    · exact (String.append_empty).symm

theorem output_foldl_dispatch (ids : List TaskId) (turn : Turn) :
    (ids.foldl (fun turn id => (turn.dispatch id).value) turn).output =
      turn.output ++ String.join ((turn.record ids).map Prod.snd) := by
  induction ids generalizing turn with
  | nil => simp [record]
  | cons id ids ih =>
    rw [List.foldl_cons, ih, output_dispatch, record, List.map_cons, String.join_cons,
      String.append_assoc]

/-- The dispatch of one task is not noticed by another. -/
theorem textOf_dispatch {turn : Turn} {id u : TaskId} (h : id ≠ u) :
    (turn.dispatch id).value.textOf u = turn.textOf u := by
  rw [textOf, Scheduler.find?_dispatch, if_neg h, Scheduler.clock_dispatch, textOf]

/-- Distinct tasks write what each would write alone. -/
theorem record_eq {ids : List TaskId} (h : ids.Nodup) (turn : Turn) :
    turn.record ids = ids.map fun id => (id, turn.textOf id) := by
  induction ids generalizing turn with
  | nil => rfl
  | cons id ids ih =>
    obtain ⟨hid, hn⟩ := List.nodup_cons.mp h
    rw [record, ih hn, List.map_cons]
    refine congrArg _ (List.map_congr_left fun u hu => ?_)
    have hne : id ≠ u := fun e => hid (e ▸ hu)
    rw [textOf_dispatch hne]

end Turn

namespace Scheduler

variable {s : Scheduler}

/-- Who writes what during a turn, in the order of dispatch. -/
def turnRecord (s : Scheduler) : List (TaskId × String) :=
  Turn.record ⟨s.roundStart, "", 0⟩ s.roundStart.buckets.ready

/-- What one task writes during a turn. -/
def textOf (s : Scheduler) (u : TaskId) : String :=
  String.join ((s.turnRecord.filter fun e => e.1 = u).map Prod.snd)

/-- The text of a turn is what the tasks write, one after the other. -/
theorem output_runTick (s : Scheduler) :
    s.runTick.value.output = String.join (s.turnRecord.map Prod.snd) := by
  rw [value_runTick, value_dispatchReady, Turn.output_foldl_dispatch, String.empty_append]
  rfl

/-- **What a task writes during a turn is decided by the task and the clock.** -/
theorem textOf_eq (hs : s.Partitioned) (u : TaskId) :
    s.textOf u = ((s.find? u).map (Task.turnText s.clock.next)).getD "" := by
  have hr := hs.roundStart
  have hn : s.roundStart.buckets.ready.Nodup := hr.nodup_bucket .ready
  have htext : Turn.textOf ⟨s.roundStart, "", 0⟩ u =
      ((s.find? u).map (Task.turnText s.clock.next)).getD "" := by
    rw [Turn.textOf, find?_roundStart hs, clock_roundStart, Option.map_map]
    rfl
  rw [textOf, turnRecord, Turn.record_eq hn, List.filter_map]
  have hfilter : s.roundStart.buckets.ready.filter
      ((fun e : TaskId × String => decide (e.1 = u)) ∘
        fun id => (id, Turn.textOf ⟨s.roundStart, "", 0⟩ id)) =
      List.replicate (s.roundStart.buckets.ready.count u) u := List.filter_eq u
  rw [hfilter, hn.count]
  by_cases hmem : u ∈ s.roundStart.buckets.ready
  · rw [if_pos hmem, ← htext]
    simp
  · -- a task outside the ready bucket is not dispatched
    rw [if_neg hmem, ← htext, Turn.textOf]
    cases hf : s.roundStart.find? u with
    | none => rfl
    | some t =>
      have hp : t.phase ≠ .ready := fun hp =>
        hmem ((hr.mem_bucket_iff u .ready).mpr ((phase?_eq_some_iff _ u .ready).mpr ⟨t, hf, hp⟩))
      rw [Option.map_some, Option.getD_some, Task.dispatchText, if_neg hp]
      rfl

end Scheduler

end Coop
