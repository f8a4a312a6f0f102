import Coop.Proofs.Kernel.Lifecycle
import Mathlib.Data.List.Nodup

/-!
# The population of a kernel

Which tasks are live, and under which names. Most calls change neither; a task that is made and
destroyed again leaves no trace.

* `Registry.enter`, `Registry.unbind_enter`: a name that is given and taken back;
* `live`, `fresh`, `HasRoom`: the numbers of the live tasks, and the next one;
* **`SamePopulation`**: the same tasks under the same names, with one lemma for each call that makes
  and destroys nothing;
* `value_create`, `value_destroy`: the two calls that do;
* `Named`, `Reachable.named`: every name stands for one live task;
* **`undo_create`**: destroying a task that was made undoes the making.
-/

namespace Coop

/-! ## Names -/

namespace Registry

variable {r : Registry} {name : String} {id : TaskId}

/-- No name stands for two tasks. -/
def Distinct (r : Registry) : Prop := (r.names.map Prod.fst).Nodup

/-- The registry with one more name, if one is given. -/
def enter (r : Registry) (name : Option String) (id : TaskId) : Registry :=
  match name with
  | none => r
  | some name => ⟨insert name id r.names⟩

theorem perm_insert (name : String) (id : TaskId) (names : List (String × TaskId)) :
    (insert name id names).Perm ((name, id) :: names) := by
  have h : (insert name id names).Perm ((name, id) ::
      (names.takeWhile (fun e => e.1 < name) ++ names.dropWhile (fun e => e.1 < name))) :=
    List.perm_middle
  rwa [List.takeWhile_append_dropWhile] at h

theorem isNamed_iff : r.isNamed id = true ↔ ∃ name, (name, id) ∈ r.names := by
  simp [isNamed]

theorem mem_of_lookup (h : r.lookup name = some id) : (name, id) ∈ r.names := by
  obtain ⟨before, after, hsplit, -⟩ := List.lookup_eq_some_iff.mp h
  rw [hsplit]
  exact List.mem_append_right _ List.mem_cons_self

theorem lookup_of_mem (hr : r.Distinct) (h : (name, id) ∈ r.names) : r.lookup name = some id := by
  obtain ⟨before, after, hsplit⟩ := List.append_of_mem h
  refine List.lookup_eq_some_iff.mpr ⟨before, after, hsplit, fun e he => ?_⟩
  rw [Distinct, hsplit, List.map_append, List.map_cons, List.nodup_append] at hr
  have hne := hr.2.2 e.1 (List.mem_map_of_mem he) name List.mem_cons_self
  exact bne_iff_ne.mpr hne.symm

theorem lookup_insert (h : r.lookup name = none) (id : TaskId) :
    lookup ⟨insert name id r.names⟩ name = some id := by
  have hnone := List.lookup_eq_none_iff.mp h
  refine List.lookup_eq_some_iff.mpr ⟨_, _, rfl, fun e he => hnone e ?_⟩
  exact (List.takeWhile_sublist _).subset he

theorem mem_enter {n : Option String} {e : String × TaskId} (h : e ∈ (r.enter n id).names) :
    e.2 = id ∨ e ∈ r.names := by
  cases n with
  | none => exact .inr h
  | some name =>
    rcases List.mem_cons.mp ((perm_insert name id r.names).mem_iff.mp h) with rfl | he
    · exact .inl rfl
    · exact .inr he

theorem Distinct.enter (hr : r.Distinct) {n : Option String} (h : n.bind r.lookup = none) :
    (r.enter n id).Distinct := by
  cases n with
  | none => exact hr
  | some name =>
    have hp := (perm_insert name id r.names).map Prod.fst
    refine hp.nodup_iff.mpr (List.nodup_cons.mpr ⟨fun hm => ?_, hr⟩)
    obtain ⟨e, he, rfl⟩ := List.mem_map.mp hm
    have hne := List.lookup_eq_none_iff.mp h e he
    exact bne_iff_ne.mp hne rfl

theorem unbind_of_not_isNamed (h : r.isNamed id = false) : r.unbind id = r := by
  have hall : ∀ e ∈ r.names, decide (e.2 ≠ id) = true := by
    simpa [isNamed] using h
  rw [unbind, List.filter_eq_self.mpr hall]

theorem unbind_enter (h : r.isNamed id = false) (n : Option String) :
    (r.enter n id).unbind id = r := by
  cases n with
  | none => exact unbind_of_not_isNamed h
  | some name =>
    have hr := unbind_of_not_isNamed h
    rw [unbind] at hr
    rw [enter, unbind, insert, List.filter_append, List.filter_cons_of_neg (by simp),
      ← List.filter_append, List.takeWhile_append_dropWhile]
    exact hr

theorem isNamed_unbind_of_ne {u : TaskId} (h : u ≠ id) :
    (r.unbind id).isNamed u = r.isNamed u := by
  rw [Bool.eq_iff_iff, isNamed_iff, isNamed_iff]
  simp [unbind, h]

end Registry

/-! ## The task table -/

namespace Scheduler

variable (s : Scheduler)

theorem ids_launch (id : TaskId) :
    (s.launch id).value.2.tasks.map Task.id = s.tasks.map Task.id := by
  cases h : s.find? id with
  | none =>
    unfold launch
    rw [h]
    rfl
  | some t =>
    rw [value_launch s h]
    split_ifs
    · rw [ids_moveTo, ids_put]
    · exact ids_put s _

theorem ids_resume (id : TaskId) : (s.resume id).2.tasks.map Task.id = s.tasks.map Task.id := by
  unfold resume
  split_ifs
  · exact ids_moveTo s id .ready
  · rfl

theorem tasks_remove (id : TaskId) :
    (s.remove id).value.tasks = s.tasks.filter (fun t => t.id ≠ id) := by
  unfold remove
  cases h : s.find? id with
  | some t => rfl
  | none =>
    have hne := (find?_eq_none_iff s id).mp h
    exact (List.filter_eq_self.mpr fun t ht => decide_eq_true (hne t ht)).symm

theorem perm_insertTask (t : Task) (tasks : List Task) :
    (insertTask t tasks).Perm (t :: tasks) := by
  have h : (insertTask t tasks).Perm (t :: (tasks.takeWhile (fun u => u.id.number < t.id.number) ++
      tasks.dropWhile (fun u => u.id.number < t.id.number))) := List.perm_middle
  rwa [List.takeWhile_append_dropWhile] at h

theorem filter_insertTask {t : Task} {tasks : List Task} (h : ∀ u ∈ tasks, u.id ≠ t.id) :
    (insertTask t tasks).filter (fun u => u.id ≠ t.id) = tasks := by
  have hself : tasks.filter (fun u => u.id ≠ t.id) = tasks :=
    List.filter_eq_self.mpr fun u hu => decide_eq_true (h u hu)
  rw [insertTask, List.filter_append, List.filter_cons_of_neg (by simp), ← List.filter_append,
    List.takeWhile_append_dropWhile, hself]

end Scheduler

namespace Kernel

variable {k k' : Kernel} {id : TaskId} {name : Option String}

/-- The numbers of the live tasks, in order. -/
def live (k : Kernel) : List TaskId := k.scheduler.tasks.map Task.id

/-- The number the next task gets. -/
def fresh (k : Kernel) : TaskId :=
  ⟨k.scheduler.freshFrom k.scheduler.tasks.length k.scheduler.nextId⟩

/-- There are numbers left for new tasks. Without one, the search for one goes on for ever. -/
def HasRoom (k : Kernel) : Prop := k.scheduler.tasks.length + 1 < Scheduler.numberBound

instance (k : Kernel) : Decidable k.HasRoom := inferInstanceAs (Decidable (_ < _))

/-- The tasks other than one. -/
def others (k : Kernel) (id : TaskId) : List Task :=
  k.scheduler.tasks.filter (fun t => t.id ≠ id)

theorem mem_live_iff : id ∈ k.live ↔ (k.task? id).isSome = true := by
  rw [live, List.mem_map, task?, Scheduler.find?, List.find?_isSome]
  simp

theorem mem_live_of_phase? {p : Phase} (h : k.phase? id = some p) : id ∈ k.live := by
  obtain ⟨t, ht, -⟩ := (Scheduler.phase?_eq_some_iff _ _ _).mp h
  rw [mem_live_iff, task?, ht, Option.isSome_some]

/-! ## Calls that make and destroy nothing -/

/-- **The same tasks are live**, under the same names. -/
structure SamePopulation (k k' : Kernel) : Prop where
  live : k'.live = k.live
  registry : k'.registry = k.registry

namespace SamePopulation

theorem refl (k : Kernel) : SamePopulation k k := ⟨rfl, rfl⟩

theorem trans {k'' : Kernel} (h : SamePopulation k k') (h' : SamePopulation k' k'') :
    SamePopulation k k'' :=
  ⟨h'.live.trans h.live, h'.registry.trans h.registry⟩

theorem onTask (id : TaskId) (a : Task.Action) : SamePopulation k (k.onTask id a) := by
  unfold Kernel.onTask
  cases k.task? id with
  | none => exact .refl k
  | some t => exact ⟨Scheduler.ids_put _ _, rfl⟩

theorem compile (id : TaskId) (source : String) :
    SamePopulation k (k.compile id source).value.2 := by
  rw [value_compile]
  exact .onTask id _

theorem interrupt (id : TaskId) : SamePopulation k (k.interrupt id).value.2 := by
  rw [value_interrupt]
  exact .onTask id _

theorem suspend (id : TaskId) : SamePopulation k (k.suspend id).2 := by
  rw [suspend_eq]
  exact .onTask id _

theorem execute (id : TaskId) : SamePopulation k (k.execute id).value.2 :=
  ⟨Scheduler.ids_launch _ id, rfl⟩

theorem resume (id : TaskId) : SamePopulation k (k.resume id).2 :=
  ⟨Scheduler.ids_resume _ id, rfl⟩

theorem tick : SamePopulation k k.tick.value.kernel := ⟨Scheduler.ids_runTick _, rfl⟩

theorem turns (n : Nat) : SamePopulation k (k.turns n) := by
  induction n generalizing k with
  | zero => exact .refl k
  | succ n ih => exact tick.trans ih

theorem waitEnd {opts : WaitOptions} {o : Option WaitOutcome} (h : WaitEnd id opts k o k') :
    SamePopulation k k' := by
  cases h with
  | completed n | timedOut n | unfinished n => exact turns n
  | interrupted n => exact (turns n).trans (interrupt id)

theorem load {V : Type} [Volume V] (vol : V) (id : TaskId) (name : String) :
    SamePopulation k (k.load vol id name).value.2.1 := by
  rcases load_eq_or vol id name with h | ⟨-, a, h⟩
  · rw [h]
    exact .refl k
  · rw [h]
    exact .onTask id a

end SamePopulation

/-! ## Making and destroying -/

theorem value_create (h : name.bind k.lookup = none) : (k.create name).value =
    (.ok k.fresh, { k with
      scheduler := (k.scheduler.spawn name k.config.heapSize k.config.priority).value.2
      registry := k.registry.enter name k.fresh }) := by
  unfold create
  rw [h]
  cases name with
  | none => rfl
  | some name =>
    have hl : k.registry.lookup name = none := h
    simp only [Logged.value_bind, Registry.register, hl]
    rfl

theorem value_create_of_taken {name : String} {holder : TaskId} (h : k.lookup name = some holder) :
    (k.create (some name)).value = (.error (.duplicate holder), k) := by
  have hb : (some name).bind k.lookup = some holder := h
  rw [create, hb]
  rfl

theorem value_destroy (h : k.phase? id = some .dormant) : (k.destroy id).value =
    (.ok (), { k with
      scheduler := (k.scheduler.remove id).value
      registry := k.registry.unbind id }) := by
  rw [destroy, h]
  rfl

theorem value_destroy_of_ne (h : k.phase? id ≠ some .dormant) :
    ∃ e, (k.destroy id).value = (.error e, k) := by
  unfold destroy
  cases hp : k.phase? id with
  | none => exact ⟨_, rfl⟩
  | some p =>
    cases p with
    | dormant => exact absurd hp h
    | ready | waiting | suspended => exact ⟨_, rfl⟩

theorem tasks_destroy (h : k.phase? id = some .dormant) :
    (k.destroy id).value.2.scheduler.tasks = k.others id := by
  rw [value_destroy h]
  exact Scheduler.tasks_remove _ id

theorem map_id_others (k : Kernel) (id : TaskId) :
    (k.others id).map Task.id = k.live.filter (fun u => u ≠ id) := by
  rw [others, live, List.filter_map]
  rfl

theorem live_destroy (h : k.phase? id = some .dormant) :
    (k.destroy id).value.2.live = k.live.filter (fun u => u ≠ id) := by
  rw [live, tasks_destroy h, map_id_others]

theorem perm_live_create (h : name.bind k.lookup = none) :
    (k.create name).value.2.live.Perm (k.fresh :: k.live) := by
  have hp := Scheduler.perm_insertTask
    (Task.new k.fresh name k.config.heapSize k.config.priority) k.scheduler.tasks
  rw [value_create h]
  exact hp.map Task.id

/-! ## Every name stands for one live task -/

/-- **Names and tasks agree.** -/
structure Named (k : Kernel) : Prop where
  distinct : k.registry.Distinct
  bound : ∀ e ∈ k.registry.names, e.2 ∈ k.live

namespace Named

theorem of_same (h : k.Named) (hp : SamePopulation k k') : k'.Named := by
  refine ⟨?_, ?_⟩
  · rw [hp.registry]
    exact h.distinct
  · rw [hp.registry, hp.live]
    exact h.bound

theorem create (h : k.Named) (name : Option String) : (k.create name).value.2.Named := by
  cases hn : name.bind k.lookup with
  | some holder =>
    unfold Kernel.create
    rw [hn]
    exact h
  | none =>
    have hp := perm_live_create hn
    rw [value_create hn] at hp ⊢
    refine ⟨h.distinct.enter hn, fun e he => hp.mem_iff.mpr ?_⟩
    rcases Registry.mem_enter he with hid | hold
    · rw [hid]
      exact List.mem_cons_self
    · exact List.mem_cons_of_mem _ (h.bound e hold)

theorem destroy (h : k.Named) (id : TaskId) : (k.destroy id).value.2.Named := by
  by_cases hd : k.phase? id = some .dormant
  · have hlive := live_destroy hd
    rw [value_destroy hd] at hlive ⊢
    refine ⟨h.distinct.sublist (List.filter_sublist.map _), fun e he => ?_⟩
    obtain ⟨hm, hne⟩ := List.mem_filter.mp he
    rw [hlive]
    exact List.mem_filter.mpr ⟨h.bound e hm, hne⟩
  · obtain ⟨e, he⟩ := value_destroy_of_ne hd
    rw [he]
    exact h

theorem register (h : k.Named) {name : String} (hk : k.register name id = .ok k') : k'.Named := by
  unfold Kernel.register at hk
  cases ht : k.task? id with
  | none =>
    rw [ht] at hk
    cases hk
  | some t =>
    rw [ht] at hk
    cases hl : k.registry.lookup name with
    | some holder =>
      rw [Registry.register, hl] at hk
      cases hk
    | none =>
      rw [Registry.register, hl] at hk
      cases hk
      refine ⟨h.distinct.enter (n := some name) hl, fun e he => ?_⟩
      rcases Registry.mem_enter (n := some name) he with hid | hold
      · change e.2 ∈ k.live
        rw [hid, mem_live_iff, ht]
        rfl
      · exact h.bound e hold

end Named

theorem Step.named (hs : Step k k') (h : k.Named) : k'.Named := by
  cases hs with
  | create name _ => exact h.create name
  | register hk => exact h.register hk
  | destroy id => exact h.destroy id
  | execute id => exact h.of_same (.execute id)
  | resume id => exact h.of_same (.resume id)
  | tick => exact h.of_same .tick
  | @onTask id t ht a _ =>
    rw [← onTask_of_task? ht]
    exact h.of_same (.onTask id a)

theorem Reachable.named (h : Reachable k) : k.Named := by
  obtain ⟨config, hs⟩ := h.steps
  refine hs.keep Step.named ⟨List.nodup_nil, fun e he => ?_⟩
  cases he

/-! ## A task that is made and destroyed -/

theorem Reachable.partitioned (h : Reachable k) : k.scheduler.Partitioned :=
  h.supervised.reachable.partitioned

section Fresh

variable (h : Reachable k) (hroom : k.HasRoom)
include h hroom

theorem task?_fresh : k.task? k.fresh = none := Scheduler.find?_freshFrom hroom h.partitioned.next

theorem fresh_notMem_live : k.fresh ∉ k.live := by
  rw [mem_live_iff, task?_fresh h hroom]
  simp

theorem isNamed_fresh : k.registry.isNamed k.fresh = false := by
  refine Bool.eq_false_iff.mpr fun hn => ?_
  obtain ⟨name, hm⟩ := Registry.isNamed_iff.mp hn
  exact fresh_notMem_live h hroom (h.named.bound _ hm)

theorem phase?_create (hn : name.bind k.lookup = none) :
    (k.create name).value.2.phase? k.fresh = some .dormant := by
  have hfind := Scheduler.find?_spawn k.scheduler name k.config.heapSize k.config.priority
    (task?_fresh h hroom) k.fresh
  rw [fresh, if_pos rfl] at hfind
  rw [value_create hn]
  exact (Scheduler.phase?_eq_some_iff _ _ _).mpr ⟨_, hfind, rfl⟩

theorem others_create (hn : name.bind k.lookup = none) :
    (k.create name).value.2.others k.fresh = k.scheduler.tasks := by
  have hfree := (Scheduler.find?_eq_none_iff _ _).mp (task?_fresh h hroom)
  rw [value_create hn]
  exact Scheduler.filter_insertTask
    (t := Task.new k.fresh name k.config.heapSize k.config.priority) hfree

/-- **A task that is made and destroyed leaves no trace**, whatever happened to the tasks in
between. -/
theorem undo_create (hn : name.bind k.lookup = none)
    (hp : SamePopulation (k.create name).value.2 k')
    (hd : k'.phase? k.fresh = some .dormant) : SamePopulation k (k'.destroy k.fresh).value.2 := by
  refine ⟨?_, ?_⟩
  · rw [live_destroy hd, hp.live, ← map_id_others, others_create h hroom hn]
    rfl
  · rw [value_destroy hd]
    change k'.registry.unbind k.fresh = k.registry
    rw [hp.registry, value_create hn]
    exact Registry.unbind_enter (isNamed_fresh h hroom) name

end Fresh

end Kernel

end Coop
