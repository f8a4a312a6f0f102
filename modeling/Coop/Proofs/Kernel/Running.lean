import Coop.Proofs.Kernel.Population
import Coop.Proofs.Scheduler.Course

/-!
# Running a file to its end

A run that waits for its program ends in one of four ways, and each leaves the task of the run in a
state from which it can be disposed of: dormant, or asked to stop.

* `Pending`: a task was asked to stop;
* `phase?_onTask`, `phase?_load`: calls on a task do not move it;
* **`phase?_tick_of_pending`**: a task that was asked to stop is dormant after a turn;
* `RunEnd`, `join_ends`, **`runIn_ends`**: the ways a run can end;
* `run_ends`: a run in a fresh task.
-/

namespace Coop

namespace Kernel

variable {k k' : Kernel} {id : TaskId}

/-- A task was asked to stop and has not been stopped yet. -/
def Pending (k : Kernel) (id : TaskId) : Prop := ∃ t, k.task? id = some t ∧ t.interrupt = true

instance (k : Kernel) (id : TaskId) : Decidable (k.Pending id) :=
  decidable_of_iff ((k.task? id).any Task.interrupt = true) (Option.any_eq_true _ _)

theorem Reachable.coherent (h : Reachable k) {t : Task} (ht : k.task? id = some t) : t.Coherent :=
  h.supervised.coherent t (Scheduler.mem_of_find? ht)

theorem Pending.phase_ne (h : Reachable k) {t : Task} (ht : k.task? id = some t)
    (hi : t.interrupt = true) : t.phase ≠ .dormant := by
  intro hp
  rw [((h.coherent ht).requests hp).1] at hi
  cases hi

theorem Reachable.turns (h : Reachable k) (n : Nat) : Reachable (k.turns n) := by
  induction n generalizing k with
  | zero => exact h
  | succ n ih => exact ih h.tick

theorem task?_tick (h : Reachable k) {t : Task} (ht : k.task? id = some t) :
    k.tick.value.kernel.task? id = some (t.turn k.scheduler.clock.next) := by
  have hfind := Scheduler.find?_runTick h.partitioned id
  rw [show k.scheduler.find? id = some t from ht] at hfind
  exact hfind

/-- **A task that was asked to stop is dormant after a turn**, whatever it was doing. -/
theorem phase?_tick_of_pending (h : Reachable k) (hp : k.Pending id) :
    k.tick.value.kernel.phase? id = some .dormant := by
  obtain ⟨t, ht, hi⟩ := hp
  rw [phase?_of_task? (task?_tick h ht),
    (Task.turn_of_interrupt (Pending.phase_ne h ht hi) hi _).2]

/-! ## Phases -/

theorem phase?_onTask (id : TaskId) (a : Task.Action) (u : TaskId) :
    (k.onTask id a).phase? u = k.phase? u := by
  cases ht : k.task? id with
  | none => rw [onTask, ht]
  | some t =>
    have hid : t.id = id := Scheduler.id_of_find? ht
    rw [onTask_of_task? ht]
    change (k.scheduler.put (a.apply t)).phase? u = k.scheduler.phase? u
    rw [Scheduler.phase?_put, Task.Action.id_apply, Task.Action.phase_apply, hid]
    split_ifs with hu
    · have hf : k.scheduler.find? u = some t := hu ▸ ht
      rw [Scheduler.phase?, hf]
      rfl
    · rfl

theorem phase?_load {V : Type} [Volume V] (vol : V) (id : TaskId) (name : String) (u : TaskId) :
    (k.load vol id name).value.2.1.phase? u = k.phase? u := by
  rcases load_eq_or vol id name with h | ⟨-, a, h⟩
  · rw [h]
  · rw [h, phase?_onTask]

theorem execute_fst {t : Task} (ht : k.task? id = some t) :
    (k.execute id).value.1 = t.launch.value.1 := by
  have hf : k.scheduler.find? id = some t := ht
  unfold execute Scheduler.launch
  simp only [hf, Logged.value_bind]
  cases t.launch.value.1 <;> rfl

theorem task?_execute {t : Task} (ht : k.task? id = some t) :
    (k.execute id).value.2.task? id = some t.launched := by
  have hfind := Scheduler.find?_launch k.scheduler id id
  rw [if_pos rfl, show k.scheduler.find? id = some t from ht] at hfind
  exact hfind

theorem phase?_execute_of_refused (h : (k.execute id).value.1 = false) {p : Phase}
    (hp : k.phase? id = some p) : (k.execute id).value.2.phase? id = some p := by
  obtain ⟨t, ht, htp⟩ := (Scheduler.phase?_eq_some_iff _ _ _).mp hp
  rw [execute_fst ht] at h
  rw [phase?_of_task? (task?_execute ht), Task.launched, h]
  exact congrArg some (t.phase_launch.trans htp)

theorem atRest_of_task? {t : Task} (ht : k.task? id = some t) :
    k.atRest id = (t.phase == .dormant) := by
  rw [atRest, phase?_of_task? ht]

theorem task?_of_not_atRest (h : k.atRest id = false) :
    ∃ t, k.task? id = some t ∧ t.phase ≠ .dormant := by
  cases ht : k.task? id with
  | none =>
    have hp : k.phase? id = none := congrArg (Option.map Task.phase) ht
    rw [atRest, hp] at h
    cases h
  | some t =>
    rw [atRest_of_task? ht, beq_eq_false_iff_ne] at h
    exact ⟨t, rfl, h⟩

theorem phase?_of_atRest (h : k.atRest id = true) (hl : id ∈ k.live) :
    k.phase? id = some .dormant := by
  obtain ⟨t, ht⟩ := Option.isSome_iff_exists.mp (mem_live_iff.mp hl)
  rw [atRest_of_task? ht] at h
  rw [phase?_of_task? ht, eq_of_beq h]

theorem pending_interrupt (h : k.atRest id = false) (hl : id ∈ k.live) :
    (k.interrupt id).value.2.Pending id := by
  obtain ⟨t, ht⟩ := Option.isSome_iff_exists.mp (mem_live_iff.mp hl)
  rw [atRest_of_task? ht, beq_eq_false_iff_ne] at h
  rw [value_interrupt, onTask_of_task? ht]
  refine ⟨t.requestInterrupt.value.2, task?_put_self ht t.id_requestInterrupt, ?_⟩
  rw [Task.requestInterrupt, if_neg h]
  rfl

/-! ## Runs -/

/-- How a run that waits for its program can end: its result, if there is one, and the kernel after
it. The task of the run has the number `id`. -/
inductive RunEnd (k : Kernel) (id : TaskId) : Option (Except LoadError RunOutcome) → Kernel → Prop
  /-- Nothing was loaded, and the task was destroyed. -/
  | refused (e : LoadError) {k' : Kernel} (hp : SamePopulation k k')
    (hd : k'.phase? id = some .dormant) : RunEnd k id (some (.error e)) (k'.destroy id).value.2
  | ended {o : RunOutcome} {k' : Kernel} (ho : o = .completed id ∨ ∃ e, o = .failed id e)
    (hp : SamePopulation k k') (hd : k'.phase? id = some .dormant) : RunEnd k id (some (.ok o)) k'
  | interrupted {k' : Kernel} (hp : SamePopulation k k') (hi : k'.Pending id) :
    RunEnd k id (some (.ok (.interrupted id))) k'
  | unfinished (k' : Kernel) : RunEnd k id none k'

theorem RunEnd.of_same {r : Option (Except LoadError RunOutcome)} {k₁ : Kernel}
    (hs : SamePopulation k k₁) (h : RunEnd k₁ id r k') : RunEnd k id r k' := by
  cases h with
  | refused e hp hd => exact .refused e (hs.trans hp) hd
  | ended ho hp hd => exact .ended ho (hs.trans hp) hd
  | interrupted hp hi => exact .interrupted (hs.trans hp) hi
  | unfinished => exact .unfinished _

variable {V ι C : Type} [Volume V] [Receiver ι]

/-- A program is waited for until it ends, or until it is asked to stop. -/
theorem join_ends (hl : id ∈ k.live) (patience : Nat) (h : Host ι C) :
    RunEnd k id ((k.join patience id .untilSignal h).1.map .ok)
      (k.join patience id .untilSignal h).2.1 := by
  have hturns (n : Nat) : id ∈ (k.turns n).live := by
    rw [(SamePopulation.turns n).live]
    exact hl
  have hend := wait_ends patience k id .untilSignal h
  unfold join
  dsimp only
  generalize (k.wait patience id .untilSignal h).outcome = o at hend ⊢
  generalize (k.wait patience id .untilSignal h).kernel = k' at hend ⊢
  have hp := SamePopulation.waitEnd hend
  cases hend with
  | completed n hr =>
    refine .ended ?_ hp (phase?_of_atRest hr (hturns n))
    rw [outcome]
    cases error? _ id with
    | none => exact .inl rfl
    | some e => exact .inr ⟨e, rfl⟩
  | interrupted n hs hr => exact .interrupted hp (pending_interrupt hr (hturns n))
  | timedOut n ht => exact absurd rfl ht
  | unfinished n => exact .unfinished _

/-- **Every run in a task of its own ends in one of the known ways.** -/
theorem runIn_ends (hd : k.phase? id = some .dormant) (patience : Nat) (vol : V) (h : Host ι C)
    (name : String) (task : Option TaskId) :
    RunEnd k id (k.runIn patience vol h name id true ⟨task, true, .untilSignal⟩).result
      (k.runIn patience vol h name id true ⟨task, true, .untilSignal⟩).kernel := by
  have hload := SamePopulation.load (k := k) vol id name
  have hphase := phase?_load (k := k) vol id name id
  rw [hd] at hphase
  unfold runIn Host.absorb
  dsimp only
  generalize (k.load vol id name).value.1 = loaded
  generalize (k.load vol id name).value.2.1 = k₁ at hload hphase ⊢
  cases loaded with
  | error e => exact .refused e hload hphase
  | ok route =>
    have hexec := hload.trans (.execute id)
    dsimp only
    cases hl : (k₁.execute id).value.1 with
    | false => exact .ended (.inr ⟨_, rfl⟩) hexec (phase?_execute_of_refused hl hphase)
    | true =>
      have hlive : id ∈ (k₁.execute id).value.2.live := by
        rw [hexec.live]
        exact mem_live_of_phase? hd
      exact (join_ends hlive patience _).of_same hexec

theorem run_ends (h : Reachable k) (hroom : k.HasRoom) (patience : Nat)
    (vol : V) (host : Host ι C) (path : String) :
    RunEnd (k.create none).value.2 k.fresh
      (k.run patience vol host path ⟨none, true, .untilSignal⟩).result
      (k.run patience vol host path ⟨none, true, .untilSignal⟩).kernel := by
  have hb : (none : Option String).bind k.lookup = none := rfl
  have hd := phase?_create h hroom hb
  have hok : (k.create none).value.1 = .ok k.fresh := by rw [value_create hb]
  unfold run Host.absorb
  dsimp only
  rw [hok]
  exact runIn_ends hd patience vol _ path none

end Kernel

end Coop
