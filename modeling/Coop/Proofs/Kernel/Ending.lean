import Coop.Proofs.Kernel.Running

/-!
# Stopping a task

A request to stop is honoured first thing in the next turn, whatever the task was doing, whatever
else was asked of it, and even if it is due to wake up in that turn. Of its run nothing is left but
the image, and it can be started again.

* `Task.Unwound`: what is left of a task that was stopped;
* `Task.Coherent.unwound`, `Task.Coherent.restarted`: stopping a task, and starting it again;
* **`ended_at_next_turn`**.
-/

namespace Coop

namespace Task

variable {t : Task}

/-- The task `t'` is what is left of `t`: its image, and nothing of its run. -/
structure Unwound (t t' : Task) : Prop where
  phase : t'.phase = .dormant
  fiber : t'.fiber = none
  interrupt : t'.interrupt = false
  suspend : t'.suspend = false
  error : t'.error = none
  image : t'.image? = t.image?
  /-- The heap holds the image it held before, and nothing else. -/
  heap : t'.arena.image = t.arena.image ∧ t'.arena.used = t'.arena.image.size

/-- The task `t'` is about to run its image from the first instruction on. -/
structure Restarted (t t' : Task) : Prop where
  phase : t'.phase = .ready
  fiber : t'.fiber = some ⟨0⟩
  interrupt : t'.interrupt = false
  suspend : t'.suspend = false
  image : t'.image? = t.image?
  arena : t'.arena = t.arena

theorem Coherent.unwound (h : t.Coherent) (hp : t.phase ≠ .dormant) :
    t.Unwound { t.finish none with phase := .dormant } where
  phase := rfl
  fiber := rfl
  interrupt := rfl
  suspend := rfl
  error := h.error hp
  image := rfl
  heap := ⟨rfl, (Arena.size_image h.heap.release).symm⟩

theorem Coherent.restarted (h : t.Coherent) (hp : t.phase ≠ .dormant) {t' : Task}
    (ht : t.Unwound t') : t'.launch.value.1 = true ∧ t'.Restarted t'.launched := by
  obtain ⟨image, body, himage, hbody⟩ := h.image hp
  obtain ⟨hok, heq⟩ := launched_of_body (ht.image.trans himage) hbody ht.phase
  refine ⟨hok, ?_⟩
  rw [heq]
  exact ⟨rfl, rfl, rfl, rfl, rfl, rfl⟩

end Task

namespace Kernel

variable {k : Kernel} {id : TaskId} {t : Task}

/-- **A request to stop is honoured in the next turn.** Let a task of a reachable kernel have such a
request pending, in whatever phase it is. In the next turn it does not get control and writes
nothing. After the turn it is dormant; there is no program in progress, no request and no failure;
and its heap holds exactly its image, which is the same as before. Executing it then succeeds, and
it gets control in the turn after that, at the first instruction of this image. -/
theorem ended_at_next_turn (h : Reachable k) (ht : k.task? id = some t)
    (hi : t.interrupt = true) :
    let k₁ := k.tick.value.kernel
    let k₂ := (k₁.execute id).value.2
    id ∉ k.scheduler.dispatches.map Task.id ∧ k.scheduler.textOf id = "" ∧
    ∃ t₁, k₁.task? id = some t₁ ∧ t.Unwound t₁ ∧ (k₁.execute id).value.1 = true ∧
    ∃ t₂, k₂.task? id = some t₂ ∧ t₁.Restarted t₂ ∧
      { t₂ with timeslice := k.scheduler.timeslice } ∈ k₂.scheduler.dispatches := by
  intro k₁ k₂
  have hs := h.partitioned
  have hp := Pending.phase_ne h ht hi
  have hk₂ : k₂.Reachable := h.tick.execute id
  obtain ⟨hgiven, hturn⟩ := Task.turn_of_interrupt hp hi k.scheduler.clock.next
  obtain ⟨t₁, ht₁, hunwound⟩ : ∃ t₁, k₁.task? id = some t₁ ∧ t.Unwound t₁ :=
    ⟨_, task?_tick h ht, hturn ▸ (h.coherent ht).unwound hp⟩
  obtain ⟨hok, hrestarted⟩ := (h.coherent ht).restarted hp hunwound
  have ht₂ : k₂.task? id = some t₁.launched := task?_execute ht₁
  have hclock₁ : k₁.scheduler.clock = k.scheduler.clock.next := Scheduler.clock_runTick k.scheduler
  have hclock₂ : k₂.scheduler.clock = k₁.scheduler.clock :=
    Scheduler.clock_apply k₁.scheduler (.launch id)
  have hslice : k₂.scheduler.timeslice = k.scheduler.timeslice :=
    congrArg Clock.timeslice (hclock₂.trans hclock₁)
  refine ⟨?_, ?_, t₁, ht₁, hunwound, ?_, t₁.launched, ht₂, hrestarted, ?_⟩
  · rw [Scheduler.mem_ids_dispatches_iff hs ht, hgiven]
    exact nofun
  · rw [Scheduler.textOf_eq hs, show k.scheduler.find? id = some t from ht]
    exact Task.turnText_of_given?_eq_none hgiven
  · rw [execute_fst ht₁, hok]
  · rw [← hslice]
    exact Scheduler.mem_dispatches_of_ready hk₂.partitioned ht₂ hrestarted.phase
      hrestarted.interrupt

/-- A sleeper was asked to park and to stop, and is due in the next turn: it is stopped, and writes
its first line again when it is executed again. -/
theorem ended_at_next_turn_due : ∃ k : Kernel, Reachable k ∧
    (k.task? ⟨1⟩).map (fun t => (t.phase, t.suspend, t.wakeupTick)) =
      some (.waiting, true, k.scheduler.tick + 1) ∧
    ⟨1⟩ ∉ k.scheduler.dispatches.map Task.id ∧ k.scheduler.textOf ⟨1⟩ = "" ∧
    k.tick.value.kernel.phase? ⟨1⟩ = some .dormant ∧
    ∃ d ∈ (k.tick.value.kernel.execute ⟨1⟩).value.2.scheduler.dispatches,
      d.fiber = some ⟨0⟩ ∧ d.step.output = "hi\n" := by
  have hnew := (Reachable.new { Config.default with heapSize := 64 }).create none
    (by decide +kernel)
  have hasked := (((hnew.compile ⟨1⟩ "puts 'hi'\nsleep_ms 5\nputs 'no'").execute
    ⟨1⟩).tick.suspend ⟨1⟩).interrupt ⟨1⟩
  -- one evaluation of the kernel serves all of these
  obtain ⟨k, hk, ⟨t, ht, hi⟩, hsleeps, hwrites⟩ : ∃ k, Reachable k ∧ k.Pending ⟨1⟩ ∧
      (k.task? ⟨1⟩).map (fun t => (t.phase, t.suspend, t.wakeupTick)) =
        some (.waiting, true, k.scheduler.tick + 1) ∧
      ((k.tick.value.kernel.execute ⟨1⟩).value.2.task? ⟨1⟩).map (fun t =>
        { t with timeslice := k.scheduler.timeslice }.step.output) = some "hi\n" :=
    ⟨_, hasked, by decide +kernel⟩
  obtain ⟨hids, htext, t₁, ht₁, hunwound, -, t₂, ht₂, hrestarted, hmem⟩ :=
    ended_at_next_turn hk ht hi
  rw [ht₂] at hwrites
  refine ⟨k, hk, hsleeps, hids, htext, ?_, _, hmem, hrestarted.fiber, Option.some.inj hwrites⟩
  rw [phase?_of_task? ht₁, hunwound.phase]

end Kernel

end Coop
