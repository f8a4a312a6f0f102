import Coop.Proofs.Scheduler.Turn

/-!
# Who is dispatched in a turn

While a turn goes through the ready bucket as it was when the dispatching began, the bucket itself
is rearranged. No task is missed by that, and none gets control twice.

* `Turn.given?`, `Turn.given`: the tasks that get control, each with its budget as its timeslice;
* `value_dispatch_of_given`, `value_dispatch_of_none`: a dispatch is a step of that task;
* `Turn.given_eq`: the dispatch of one task does not decide about another;
* `Scheduler.dispatches`: the tasks that get control during a turn, in order;
* **`one_dispatch_each`**: a turn, part by part.
-/

namespace Coop

namespace Task

variable {t : Task}

theorem interrupted_of_not (h : t.phase = .dormant ∨ t.interrupt = false) : t.interrupted = t := by
  refine if_neg ?_
  rcases h with h | h <;> simp [h]

theorem woken_of_lt {c : Clock} (h : t.phase = .waiting → c.tick < t.wakeupTick) :
    t.woken c = t := by
  refine if_neg ?_
  rintro ⟨hp, hle⟩
  exact absurd hle (Nat.not_le_of_lt (h hp))

end Task

namespace Turn

variable (turn : Turn)

/-- The task that gets control when a number is tried: a live and ready one, for a whole timeslice.
-/
def given? (id : TaskId) : Option Task :=
  match turn.scheduler.find? id with
  | none => none
  | some t =>
    if t.phase = .ready then some { t with timeslice := turn.scheduler.timeslice } else none

/-- The tasks that get control when the numbers of a list are tried in turn. -/
def given : Turn → List TaskId → List Task
  | _, [] => []
  | turn, id :: ids => (turn.given? id).toList ++ (turn.dispatch id).value.given ids

variable {turn}

theorem given?_eq_some_iff {id : TaskId} {t : Task} : turn.given? id = some t ↔
    ∃ u, turn.scheduler.find? id = some u ∧ u.phase = .ready ∧
      t = { u with timeslice := turn.scheduler.timeslice } := by
  unfold given?
  cases turn.scheduler.find? id with
  | none => simp
  | some u =>
    by_cases hr : u.phase = .ready
    · simp [hr, eq_comm]
    · simp [hr]

theorem value_dispatch_of_given {id : TaskId} {t : Task} (h : turn.given? id = some t) :
    (turn.dispatch id).value = ⟨(turn.scheduler.settle t.step.task t.step.handback).value,
      turn.output ++ t.step.output, turn.dispatched + 1⟩ := by
  obtain ⟨u, hu, hr, rfl⟩ := given?_eq_some_iff.mp h
  simp only [dispatch, hu, if_pos hr]
  rfl

theorem value_dispatch_of_none {id : TaskId} (h : turn.given? id = none) :
    (turn.dispatch id).value = turn := by
  unfold given? at h
  unfold dispatch
  cases hf : turn.scheduler.find? id with
  | none => rfl
  | some u =>
    have hr : u.phase ≠ .ready := fun hr => by simp [hf, hr] at h
    simp only [if_neg hr]
    rfl

theorem dispatched_foldl (ids : List TaskId) (turn : Turn) :
    (ids.foldl (fun turn id => (turn.dispatch id).value) turn).dispatched =
      turn.dispatched + (turn.given ids).length := by
  induction ids generalizing turn with
  | nil => rfl
  | cons id ids ih =>
    rw [List.foldl_cons, ih, given, List.length_append, ← Nat.add_assoc]
    refine congrArg (· + _) ?_
    cases h : turn.given? id with
    | none => rw [value_dispatch_of_none h]; rfl
    | some t => rw [value_dispatch_of_given h]; rfl

/-- The dispatch of one task does not decide about another. -/
theorem given?_dispatch {id u : TaskId} (h : id ≠ u) :
    (turn.dispatch id).value.given? u = turn.given? u := by
  have hslice : (turn.dispatch id).value.scheduler.timeslice = turn.scheduler.timeslice :=
    congrArg Clock.timeslice (Scheduler.clock_dispatch turn id)
  unfold given?
  rw [Scheduler.find?_dispatch, if_neg h, hslice]

theorem given_eq {ids : List TaskId} (h : ids.Nodup) (turn : Turn) :
    turn.given ids = ids.filterMap turn.given? := by
  induction ids generalizing turn with
  | nil => rfl
  | cons id ids ih =>
    obtain ⟨hid, hn⟩ := List.nodup_cons.mp h
    have hrest : ids.filterMap (turn.dispatch id).value.given? = ids.filterMap turn.given? := by
      refine List.filterMap_congr fun u hu => given?_dispatch ?_
      rintro rfl
      exact hid hu
    rw [given, ih hn, hrest, List.filterMap_cons]
    cases turn.given? id <;> rfl

end Turn

namespace Scheduler

variable {s : Scheduler}

/-- The tasks that get control during a turn, in order, each with its budget as its timeslice. -/
def dispatches (s : Scheduler) : List Task :=
  Turn.given ⟨s.roundStart, "", 0⟩ s.roundStart.buckets.ready

theorem timeslice_roundStart (s : Scheduler) : s.roundStart.timeslice = s.timeslice :=
  congrArg Clock.timeslice (clock_roundStart s)

/-- The tasks of the ready bucket get control, in the order of the bucket. -/
theorem dispatches_eq (hs : s.Partitioned) : s.dispatches =
    s.roundStart.buckets.ready.filterMap fun id =>
      (s.roundStart.find? id).map fun t => { t with timeslice := s.timeslice } := by
  have hr := hs.roundStart
  have hn : s.roundStart.buckets.ready.Nodup := hr.nodup_bucket .ready
  rw [dispatches, Turn.given_eq hn]
  refine List.filterMap_congr fun id hid => ?_
  obtain ⟨t, ht, hp⟩ := (phase?_eq_some_iff _ _ _).mp ((hr.mem_bucket_iff id .ready).mp hid)
  rw [ht, Option.map_some, ← timeslice_roundStart]
  exact Turn.given?_eq_some_iff.mpr ⟨t, ht, hp, rfl⟩

theorem mem_dispatches_iff (hs : s.Partitioned) {t : Task} : t ∈ s.dispatches ↔
    ∃ u, s.roundStart.find? t.id = some u ∧ u.phase = .ready ∧
      t = { u with timeslice := s.timeslice } := by
  have hr := hs.roundStart
  rw [dispatches_eq hs, List.mem_filterMap]
  constructor
  · rintro ⟨id, hid, hmap⟩
    obtain ⟨u, hu, rfl⟩ := Option.map_eq_some_iff.mp hmap
    obtain ⟨u', hu', hp⟩ := (phase?_eq_some_iff _ _ _).mp ((hr.mem_bucket_iff id .ready).mp hid)
    rw [hu] at hu'
    cases hu'
    have hu : s.roundStart.find? u.id = some u := id_of_find? hu ▸ hu
    exact ⟨u, hu, hp, rfl⟩
  · rintro ⟨u, hu, hp, ht⟩
    refine ⟨t.id, (hr.mem_bucket_iff _ .ready).mpr ((phase?_eq_some_iff _ _ _).mpr ⟨u, hu, hp⟩), ?_⟩
    rw [hu, Option.map_some, ← ht]

theorem ids_dispatches (hs : s.Partitioned) :
    s.dispatches.map Task.id = s.roundStart.buckets.ready := by
  have hr := hs.roundStart
  rw [dispatches_eq hs, List.map_filterMap]
  conv_rhs => rw [← List.filterMap_some (l := s.roundStart.buckets.ready)]
  refine List.filterMap_congr fun id hid => ?_
  obtain ⟨t, ht⟩ := Option.isSome_iff_exists.mp (hr.find?_isSome_of_mem (p := .ready) hid)
  have hid : t.id = id := id_of_find? ht
  rw [ht, Option.map_some, Option.map_some]
  exact congrArg some hid

theorem dispatched_runTick (s : Scheduler) : s.runTick.value.dispatched = s.dispatches.length := by
  rw [value_runTick, value_dispatchReady, Turn.dispatched_foldl, Nat.zero_add]
  rfl

/-- The text of a turn is what the tasks that get control write, one after the other. -/
theorem output_eq_dispatches (hs : s.Partitioned) :
    s.runTick.value.output = String.join (s.dispatches.map fun t => t.step.output) := by
  have hn : s.roundStart.buckets.ready.Nodup := hs.roundStart.nodup_bucket .ready
  rw [output_runTick, turnRecord, Turn.record_eq hn, List.map_map,
    ← ids_dispatches hs, List.map_map]
  refine congrArg String.join (List.map_congr_left fun t ht => ?_)
  obtain ⟨u, hu, hp, htu⟩ := (mem_dispatches_iff hs).mp ht
  rw [Function.comp_apply, Function.comp_apply, Turn.textOf]
  dsimp only
  rw [hu, Option.map_some, Option.getD_some, Task.dispatchText, if_pos hp, Task.slice,
    clock_roundStart, htu]
  rfl

theorem find?_runTick_of_mem (hs : s.Partitioned) {t : Task} (h : t ∈ s.dispatches) :
    s.runTick.value.scheduler.find? t.id =
      some (t.step.task.settled s.clock.next t.step.handback) := by
  obtain ⟨u, hu, hp, ht⟩ := (mem_dispatches_iff hs).mp h
  rw [value_runTick, find?_dispatchReady hs.roundStart, hu, Option.map_some, Task.dispatched,
    if_pos hp, Task.slice, clock_roundStart, ht]
  rfl

theorem find?_runTick_of_not_mem (hs : s.Partitioned) {id : TaskId}
    (h : id ∉ s.dispatches.map Task.id) :
    s.runTick.value.scheduler.find? id = s.roundStart.find? id := by
  rw [ids_dispatches hs] at h
  rw [value_runTick, find?_dispatchReady hs.roundStart]
  cases hf : s.roundStart.find? id with
  | none => rfl
  | some t =>
    have hp : t.phase ≠ .ready := fun hp => h ((hs.roundStart.mem_bucket_iff id .ready).mpr
      ((phase?_eq_some_iff _ _ _).mpr ⟨t, hf, hp⟩))
    rw [Option.map_some, Task.dispatched, if_neg hp]

/-- **One dispatch for each ready task.** A turn in any reachable state has three parts. First every
running task with a pending interrupt is ended, and then every sleeper whose time has come is woken.
Then the tasks of the ready bucket, as it is by then, get control: each of them once, in the order
of the bucket, with a whole timeslice, and no other task. Their number is returned, their texts are
written one after the other, and each goes to where it belongs after its step. A task that was
neither ended nor woken nor got control is unchanged, and no ready task is passed over. -/
theorem one_dispatch_each (h : Reachable s) :
    let s₁ := { s with tick := s.tick + 1 }.endInterrupted.value
    let s₂ := s₁.wakeDue
    let turn := s.runTick.value
    turn = s₂.dispatchReady.value ∧
    (∀ id, s₁.find? id = (s.find? id).map Task.interrupted) ∧
    (∀ id, s₂.find? id = (s₁.find? id).map (Task.woken s.clock.next)) ∧
    (s₂.buckets.ready.Nodup ∧ ∀ id, id ∈ s₂.buckets.ready ↔ s₂.phase? id = some .ready) ∧
    s.dispatches.map Task.id = s₂.buckets.ready ∧
    (∀ t ∈ s.dispatches, t.timeslice = s.timeslice ∧
      (s₂.find? t.id).map (fun u => { u with timeslice := s.timeslice }) = some t ∧
      turn.scheduler.find? t.id = some (t.step.task.settled s.clock.next t.step.handback)) ∧
    turn.dispatched = s₂.buckets.ready.length ∧
    turn.output = String.join (s.dispatches.map fun t => t.step.output) ∧
    (∀ id t, s.find? id = some t → (t.phase = .dormant ∨ t.interrupt = false) →
      (t.phase = .waiting → s.tick + 1 < t.wakeupTick) → id ∉ s.dispatches.map Task.id →
      turn.scheduler.find? id = some t) ∧
    ∀ id t, s.find? id = some t → t.phase = .ready → t.interrupt = false →
      (s.dispatches.map Task.id).count id = 1 := by
  have hs := h.partitioned
  have hs' : Partitioned { s with tick := s.tick + 1 } :=
    ⟨hs.ascending, hs.inRange, hs.next, hs.listed⟩
  have hr : s.roundStart.Partitioned := hs.roundStart
  have hn : s.roundStart.buckets.ready.Nodup := hr.nodup_bucket .ready
  refine ⟨rfl, find?_endInterrupted hs', fun id => ?_, ⟨hn, fun id => hr.mem_bucket_iff id .ready⟩,
    ids_dispatches hs, fun t ht => ?_, ?_, output_eq_dispatches hs, ?_, ?_⟩
  · rw [find?_wakeDue hs'.endInterrupted, clock_endInterrupted]
    rfl
  · obtain ⟨u, hu, -, htu⟩ := (mem_dispatches_iff hs).mp ht
    refine ⟨by rw [htu], ?_, find?_runTick_of_mem hs ht⟩
    change (s.roundStart.find? t.id).map _ = _
    rw [hu, Option.map_some, ← htu]
  · rw [dispatched_runTick, ← List.length_map (f := Task.id), ids_dispatches hs]
    rfl
  · intro id t ht hi hw hid
    rw [find?_runTick_of_not_mem hs hid, find?_roundStart hs, ht, Option.map_some,
      Task.interrupted_of_not hi, Task.woken_of_lt hw]
  · intro id t ht hp hi
    have hfind : s.roundStart.find? id = some t := by
      rw [find?_roundStart hs, ht, Option.map_some, Task.interrupted_of_not (.inr hi),
        Task.woken_of_lt (by simp [hp])]
    rw [ids_dispatches hs, hn.count, if_pos]
    exact (hr.mem_bucket_iff id .ready).mpr ((phase?_eq_some_iff _ _ _).mpr ⟨t, hfind, hp⟩)

/-- Of three tasks, one was asked to stop while it was ready, one wakes up, and one goes on. -/
theorem one_dispatch_each_three : ∃ s : Scheduler, Reachable s ∧ s.buckets.ready = [⟨1⟩, ⟨3⟩] ∧
    s.buckets.waiting = [⟨2⟩] ∧ s.dispatches.map Task.id = [⟨3⟩, ⟨2⟩] ∧
    s.runTick.value.dispatched = 2 ∧ (s.dispatches.map Task.id).count ⟨3⟩ = 1 := by
  let greet := Image.build ((Instr.puts .empty).encode ++ Instr.pass.encode)
  let as : List Action := [.spawn none 64 0, .on ⟨1⟩ (.mapImage (Image.build Instr.pass.encode)),
    .launch ⟨1⟩, .spawn none 64 0, .on ⟨2⟩ (.mapImage (Image.build (Instr.sleep 1).encode)),
    .launch ⟨2⟩, .spawn none 64 0, .on ⟨3⟩ (.mapImage greet), .launch ⟨3⟩, .tick,
    .on ⟨1⟩ .interrupt]
  have h := Reachable.run (.new 10 1) as (by decide +kernel)
  obtain ⟨-, -, -, -, hids, -, hcount, -, -, hready⟩ := one_dispatch_each h
  obtain ⟨t, ht, hp, hi⟩ : ∃ t, ((new 10 1).run as).find? ⟨3⟩ = some t ∧
      t.phase = .ready ∧ t.interrupt = false := by decide +kernel
  exact ⟨_, h, by decide +kernel, by decide +kernel, hids.trans (by decide +kernel),
    hcount.trans (by decide +kernel), hready _ t ht hp hi⟩

end Scheduler

end Coop
