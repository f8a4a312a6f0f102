import Coop.Proofs.Kernel.Loading
import Coop.Proofs.Kernel.Waiting
import Coop.Proofs.Scheduler.History
import Coop.Run
import Mathlib.Logic.Relation

/-!
# Histories of a kernel

What a client can do with a kernel, and the small steps that all of it is made of. What every step
keeps is kept by every call.

* `Task.Action.isOpen`, `Kernel.onTask`: the calls that reach a task from outside;
* `Kernel.Reachable`: the states that calls on a kernel lead to;
* `Kernel.Step`, `Kernel.Steps`: the small steps;
* `load_eq_or`: loading a file is at most one call on the task;
* `steps_wait`, `steps_load`, `steps_run`: waiting, loading and running a file, in steps;
* **`Reachable.steps`**: every reachable state is a number of steps away from a new kernel;
* `Step.action`: a step is at most one call on the scheduler;
* `Reachable.supervised`: in no history of a kernel a running task loses its image.
-/

namespace Coop

/-- The call is open to every client. Images come only from the compiler and the loader. -/
def Task.Action.isOpen : Task.Action → Bool
  | loadImage _ | mapImage _ => false
  | _ => true

namespace Kernel

/-- A call on one task, if it is live. -/
def onTask (k : Kernel) (id : TaskId) (a : Task.Action) : Kernel :=
  match k.task? id with
  | none => k
  | some t => k.put (a.apply t)

/-- The states that calls on a kernel lead to. A wait is also looked at before it has ended. -/
inductive Reachable : Kernel → Prop
  | new (config : Config) : Reachable (Kernel.new config)
  | create {k : Kernel} (h : Reachable k) (name : Option String)
    (hroom : k.scheduler.tasks.length + 1 < Scheduler.numberBound) :
    Reachable (k.create name).value.2
  | register {k k' : Kernel} (h : Reachable k) {name : String} {id : TaskId}
    (hk : k.register name id = .ok k') : Reachable k'
  | remove {k : Kernel} (h : Reachable k) (name : String) : Reachable (k.remove name).value.2
  | destroy {k : Kernel} (h : Reachable k) (id : TaskId) : Reachable (k.destroy id).value.2
  | compile {k : Kernel} (h : Reachable k) (id : TaskId) (source : String) :
    Reachable (k.compile id source).value.2
  | execute {k : Kernel} (h : Reachable k) (id : TaskId) : Reachable (k.execute id).value.2
  | interrupt {k : Kernel} (h : Reachable k) (id : TaskId) : Reachable (k.interrupt id).value.2
  | suspend {k : Kernel} (h : Reachable k) (id : TaskId) : Reachable (k.suspend id).2
  | resume {k : Kernel} (h : Reachable k) (id : TaskId) : Reachable (k.resume id).2
  | onTask {k : Kernel} (h : Reachable k) (id : TaskId) {a : Task.Action} (ha : a.isOpen = true) :
    Reachable (k.onTask id a)
  | tick {k : Kernel} (h : Reachable k) : Reachable k.tick.value.kernel
  | wait {ι C : Type} [Receiver ι] {k : Kernel} (h : Reachable k) (patience : Nat) (id : TaskId)
    (opts : WaitOptions) (host : Host ι C) : Reachable (k.wait patience id opts host).kernel
  | load {V : Type} [Volume V] {k : Kernel} (h : Reachable k) (vol : V) (id : TaskId)
    (name : String) : Reachable (k.load vol id name).value.2.1
  | run {V ι C : Type} [Volume V] [Receiver ι] {k : Kernel} (h : Reachable k) (patience : Nat)
    (vol : V) (host : Host ι C) (name : String) {opts : RunOptions}
    (hroom : opts.task = none → k.scheduler.tasks.length + 1 < Scheduler.numberBound) :
    Reachable (k.run patience vol host name opts).kernel

/-! ## Small steps -/

/-- The small steps that calls on a kernel are made of. -/
inductive Step (k : Kernel) : Kernel → Prop
  | create (name : Option String)
    (hroom : k.scheduler.tasks.length + 1 < Scheduler.numberBound) : Step k (k.create name).value.2
  | register {k' : Kernel} {name : String} {id : TaskId} (hk : k.register name id = .ok k') :
    Step k k'
  | destroy (id : TaskId) : Step k (k.destroy id).value.2
  | execute (id : TaskId) : Step k (k.execute id).value.2
  | resume (id : TaskId) : Step k (k.resume id).2
  | tick : Step k k.tick.value.kernel
  /-- A call on a live task; its image is exchanged only while it is dormant. -/
  | onTask {id : TaskId} {t : Task} (h : k.task? id = some t) {a : Task.Action}
    (ha : a.isOpen = true ∨ t.phase = .dormant) : Step k (k.put (a.apply t))

/-- Any number of small steps. -/
abbrev Steps : Kernel → Kernel → Prop := Relation.ReflTransGen Step

variable {k : Kernel}

theorem Step.steps {k' : Kernel} (h : Step k k') : Steps k k' := .single h

theorem Steps.keep {P : Kernel → Prop} (hstep : ∀ {k k' : Kernel}, Step k k' → P k → P k')
    {k k' : Kernel} (h : Steps k k') (hk : P k) : P k' := by
  induction h with
  | refl => exact hk
  | tail _ hs ih => exact hstep hs ih

/-! ## Calls in steps -/

theorem steps_onTask (id : TaskId) {a : Task.Action} (ha : a.isOpen = true) :
    Steps k (k.onTask id a) := by
  unfold onTask
  cases h : k.task? id with
  | none => exact .refl
  | some t => exact (Step.onTask h (.inl ha)).steps

theorem value_compile (id : TaskId) (source : String) :
    (k.compile id source).value.2 = k.onTask id (.compile source) := by
  unfold compile onTask
  cases k.task? id <;> rfl

theorem value_interrupt (id : TaskId) : (k.interrupt id).value.2 = k.onTask id .interrupt := by
  unfold interrupt onTask
  cases k.task? id <;> rfl

theorem suspend_eq (id : TaskId) : (k.suspend id).2 = k.onTask id .suspend := by
  unfold suspend onTask
  cases k.task? id <;> rfl

theorem steps_compile (id : TaskId) (source : String) : Steps k (k.compile id source).value.2 := by
  rw [value_compile]
  exact steps_onTask id rfl

theorem steps_interrupt (id : TaskId) : Steps k (k.interrupt id).value.2 := by
  rw [value_interrupt]
  exact steps_onTask id rfl

theorem steps_remove (name : String) : Steps k (k.remove name).value.2 := by
  unfold remove
  cases k.lookup name with
  | none => exact .refl
  | some id =>
    have hd : Steps k (k.destroy id).value.2 := (Step.destroy id).steps
    dsimp only [Logged.value_bind]
    cases h : (k.destroy id).value.1 with
    | error e => simpa [h] using hd
    | ok u => simpa [h] using hd

theorem steps_turns (n : Nat) : Steps k (k.turns n) := by
  induction n generalizing k with
  | zero => exact .refl
  | succ n ih => exact Step.tick.steps.trans ih

theorem WaitEnd.steps {id : TaskId} {opts : WaitOptions} {o : Option WaitOutcome} {k' : Kernel}
    (h : WaitEnd id opts k o k') : Steps k k' := by
  cases h with
  | completed n | timedOut n | unfinished n => exact steps_turns n
  | interrupted n => exact (steps_turns n).trans (steps_interrupt id)

theorem steps_wait {ι C : Type} [Receiver ι] (patience : Nat) (id : TaskId) (opts : WaitOptions)
    (h : Host ι C) : Steps k (k.wait patience id opts h).kernel :=
  (wait_ends patience k id opts h).steps

theorem task?_put_self {id : TaskId} {t u : Task} (h : k.task? id = some t) (hu : u.id = t.id) :
    (k.put u).task? id = some u := by
  have hid : u.id = id := hu.trans (Scheduler.id_of_find? h)
  subst hid
  exact Scheduler.find?_put_self u h

theorem phase?_of_task? {id : TaskId} {t : Task} (h : k.task? id = some t) :
    k.phase? id = some t.phase :=
  congrArg (Option.map Task.phase) h

theorem onTask_of_task? {id : TaskId} {t : Task} (h : k.task? id = some t) (a : Task.Action) :
    k.onTask id a = k.put (a.apply t) := by
  rw [onTask, h]

section Load

theorem compileBytes_eq_or (id : TaskId) (bytes : ByteArray) :
    (k.compileBytes id bytes).value.2 = k ∨
      ∃ a, (k.compileBytes id bytes).value.2 = k.onTask id a := by
  unfold compileBytes
  cases String.fromUTF8? bytes with
  | none => exact .inl rfl
  | some source => exact .inr ⟨.compile source, value_compile id source⟩

theorem install_eq_or (id : TaskId) (c : Contents) :
    (k.install id c).value.2 = k ∨ ∃ a, (k.install id c).value.2 = k.onTask id a := by
  obtain ⟨route, bytes⟩ := c
  unfold install
  cases ht : k.task? id with
  | none =>
    cases route with
    | mappedImage | bufferedImage => exact .inl rfl
    | mappedSource | bufferedSource => exact compileBytes_eq_or id bytes
  | some t =>
    cases route with
    | mappedImage =>
      refine .inr ⟨.mapImage bytes, ?_⟩
      rw [onTask_of_task? ht]
      rfl
    | bufferedImage =>
      refine .inr ⟨.loadImage bytes, ?_⟩
      rw [onTask_of_task? ht, Task.Action.apply]
      dsimp only
      obtain ⟨result, t'⟩ := t.loadImage bytes
      cases result <;> rfl
    | mappedSource | bufferedSource => exact compileBytes_eq_or id bytes

/-- Loading a file is at most one call on the task, while it is dormant. -/
theorem load_eq_or {V : Type} [Volume V] (vol : V) (id : TaskId) (name : String) :
    (k.load vol id name).value.2.1 = k ∨
      k.phase? id = some .dormant ∧ ∃ a, (k.load vol id name).value.2.1 = k.onTask id a := by
  by_cases hd : k.phase? id = some .dormant
  · rw [value_load hd]
    obtain ⟨contents, vol⟩ := fetch k.config vol name
    cases contents with
    | error e => exact .inl rfl
    | ok c => exact (install_eq_or id c).imp_right fun h => ⟨hd, h⟩
  · obtain ⟨e, he⟩ := value_load_of_ne hd vol name
    rw [he]
    exact .inl rfl

theorem steps_load {V : Type} [Volume V] (vol : V) (id : TaskId) (name : String) :
    Steps k (k.load vol id name).value.2.1 := by
  rcases load_eq_or vol id name with h | ⟨hp, a, h⟩
  · rw [h]
  · obtain ⟨t, ht, hd⟩ := (Scheduler.phase?_eq_some_iff _ _ _).mp hp
    rw [h, onTask_of_task? ht]
    exact (Step.onTask ht (.inr hd)).steps

end Load

section Run

variable {V ι C : Type} [Volume V] [Receiver ι]

theorem steps_runIn (patience : Nat) (vol : V) (h : Host ι C) (name : String) (id : TaskId)
    (fresh : Bool) (opts : RunOptions) :
    Steps k (k.runIn patience vol h name id fresh opts).kernel := by
  have hload := steps_load (k := k) vol id name
  unfold runIn Host.absorb
  dsimp only
  cases (k.load vol id name).value.1 with
  | error e =>
    dsimp only
    split_ifs
    · exact hload.tail (.destroy id)
    · exact hload
  | ok route =>
    have hexec := hload.tail (.execute id)
    dsimp only
    split_ifs
    · exact hexec
    · exact hexec
    · exact hexec.trans (steps_wait patience id opts.wait _)

theorem steps_run (patience : Nat) (vol : V) (h : Host ι C) (name : String) {opts : RunOptions}
    (hroom : opts.task = none → k.scheduler.tasks.length + 1 < Scheduler.numberBound) :
    Steps k (k.run patience vol h name opts).kernel := by
  unfold run Host.absorb
  cases ht : opts.task with
  | some id => exact steps_runIn patience vol h name id false opts
  | none =>
    have hcreate : Steps k (k.create none).value.2 := (Step.create none (hroom ht)).steps
    dsimp only
    cases (k.create none).value.1 with
    | error e => exact hcreate
    | ok id => exact hcreate.trans (steps_runIn patience vol _ name id true opts)

end Run

/-- **Every reachable state is a number of steps away from a new kernel.** -/
theorem Reachable.steps (h : Reachable k) : ∃ config, Steps (Kernel.new config) k := by
  induction h with
  | new config => exact ⟨config, .refl⟩
  | create _ name hroom ih => exact ih.imp fun _ hs => hs.tail (.create name hroom)
  | register _ hk ih => exact ih.imp fun _ hs => hs.tail (.register hk)
  | remove _ name ih => exact ih.imp fun _ hs => hs.trans (steps_remove name)
  | destroy _ id ih => exact ih.imp fun _ hs => hs.tail (.destroy id)
  | compile _ id source ih => exact ih.imp fun _ hs => hs.trans (steps_compile id source)
  | execute _ id ih => exact ih.imp fun _ hs => hs.tail (.execute id)
  | interrupt _ id ih => exact ih.imp fun _ hs => hs.trans (steps_interrupt id)
  | suspend _ id ih =>
    rw [suspend_eq]
    exact ih.imp fun _ hs => hs.trans (steps_onTask id rfl)
  | resume _ id ih => exact ih.imp fun _ hs => hs.tail (.resume id)
  | onTask _ id ha ih => exact ih.imp fun _ hs => hs.trans (steps_onTask id ha)
  | tick _ ih => exact ih.imp fun _ hs => hs.tail .tick
  | wait _ patience id opts host ih =>
    exact ih.imp fun _ hs => hs.trans (steps_wait patience id opts host)
  | load _ vol id name ih => exact ih.imp fun _ hs => hs.trans (steps_load vol id name)
  | run _ patience vol host name hroom ih =>
    exact ih.imp fun _ hs => hs.trans (steps_run patience vol host name hroom)

/-! ## The scheduler of a kernel -/

/-- A step is at most one call on the scheduler. It removes dormant tasks only, no running task
loses its image, and a new task has the heap the settings ask for. -/
theorem Step.action {k' : Kernel} (h : Step k k') : k'.scheduler = k.scheduler ∨
    ∃ a : Scheduler.Action, a.Returns k.scheduler ∧ a.KeepsImages k.scheduler ∧
      (∀ id, a = .remove id → k.phase? id = some .dormant) ∧
      (∀ name heapSize priority, a = .spawn name heapSize priority →
        heapSize = k.config.heapSize) ∧
      k'.scheduler = a.apply k.scheduler := by
  cases h with
  | create name hroom =>
    have hspawn {s : Scheduler}
        (hs : s = (k.scheduler.spawn name k.config.heapSize k.config.priority).value.2) :
        ∃ a : Scheduler.Action, a.Returns k.scheduler ∧ a.KeepsImages k.scheduler ∧
          (∀ id, a = .remove id → k.phase? id = some .dormant) ∧
          (∀ name heapSize priority, a = .spawn name heapSize priority →
            heapSize = k.config.heapSize) ∧ s = a.apply k.scheduler := by
      refine ⟨.spawn name k.config.heapSize k.config.priority, hroom, trivial, nofun, ?_, hs⟩
      rintro _ _ _ ⟨⟩
      rfl
    unfold Kernel.create
    cases name.bind k.lookup with
    | some holder => exact .inl rfl
    | none =>
      cases name with
      | none => exact .inr (hspawn rfl)
      | some name =>
        dsimp only [Logged.value_bind]
        cases k.registry.register name _ <;> exact .inr (hspawn rfl)
  | @register _ name id hk' =>
    unfold Kernel.register at hk'
    cases ht : k.task? id with
    | none => simp [ht] at hk'
    | some t =>
      simp only [ht] at hk'
      cases hr : k.registry.register name id with
      | error e =>
        rw [hr] at hk'
        cases hk'
      | ok registry =>
        rw [hr] at hk'
        cases hk'
        exact .inl rfl
  | destroy id =>
    unfold Kernel.destroy
    cases hp : k.phase? id with
    | none => exact .inl rfl
    | some p =>
      cases p with
      | dormant =>
        refine .inr ⟨.remove id, trivial, trivial, fun u hu => ?_, nofun, rfl⟩
        cases hu
        exact hp
      | ready | waiting | suspended => exact .inl rfl
  | execute id => exact .inr ⟨.launch id, trivial, trivial, nofun, nofun, rfl⟩
  | resume id => exact .inr ⟨.resume id, trivial, trivial, nofun, nofun, rfl⟩
  | tick => exact .inr ⟨.tick, trivial, trivial, nofun, nofun, rfl⟩
  | @onTask id t ht a ha =>
    refine .inr ⟨.on id a, trivial, ?_, nofun, nofun, ?_⟩
    · rcases ha with ha | hd
      · cases a with
        | loadImage | mapImage => cases ha
        | compile | setPriority | interrupt | suspend => trivial
      · exact Scheduler.Action.keepsImages_of_dormant ht hd a
    · change k.scheduler.put (a.apply t) = k.scheduler.modify id a.apply
      rw [Scheduler.modify, show k.scheduler.find? id = some t from ht]

theorem Step.supervised {k' : Kernel} (h : Step k k') (hk : Scheduler.Supervised k.scheduler) :
    Scheduler.Supervised k'.scheduler := by
  rcases h.action with hs | ⟨a, hreturns, hkeeps, -, -, hs⟩
  · rwa [hs]
  · rw [hs]
    exact .act hk ⟨hreturns, hkeeps⟩

theorem Reachable.supervised (h : Reachable k) : Scheduler.Supervised k.scheduler := by
  obtain ⟨config, hs⟩ := h.steps
  exact hs.keep (P := fun k => Scheduler.Supervised k.scheduler) Step.supervised (.new _ _)

end Kernel

end Coop
