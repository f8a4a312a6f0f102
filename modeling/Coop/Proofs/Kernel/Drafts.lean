import Coop.Proofs.Kernel.Running

/-!
# Drafts

A task that was made and has not been launched yet is a draft: whatever is put into it, no other
task notices, and throwing it away leaves the tasks and the names as they were.

* `others_onTask`, `others_execute_of_refused`: calls on a task do not reach the others;
* `Drafted`: a task was made and worked on, and is still dormant;
* `Drafted.create`, `Drafted.compile`, `Drafted.load`, `Drafted.execute`: how drafts come about;
* **`Drafted.destroy`**: throwing a draft away.
-/

namespace Coop

theorem Scheduler.filter_put (s : Scheduler) (t : Task) :
    (s.put t).tasks.filter (fun u => u.id ≠ t.id) = s.tasks.filter (fun u => u.id ≠ t.id) := by
  unfold put
  dsimp only
  induction s.tasks with
  | nil => rfl
  | cons u us ih =>
    by_cases hu : u.id = t.id
    · rw [List.map_cons, if_pos hu, List.filter_cons_of_neg (by simp),
        List.filter_cons_of_neg (by simp [hu]), ih]
    · rw [List.map_cons, if_neg hu, List.filter_cons_of_pos (by simp [hu]),
        List.filter_cons_of_pos (by simp [hu]), ih]

namespace Kernel

variable {k k' : Kernel} {id : TaskId} {name : Option String}

theorem others_put {t u : Task} (h : k.task? id = some t) (hu : u.id = t.id) :
    (k.put u).others id = k.others id := by
  have hid : u.id = id := hu.trans (Scheduler.id_of_find? h)
  subst hid
  exact Scheduler.filter_put k.scheduler u

theorem others_onTask (id : TaskId) (a : Task.Action) :
    (k.onTask id a).others id = k.others id := by
  cases ht : k.task? id with
  | none => rw [onTask, ht]
  | some t =>
    rw [onTask_of_task? ht]
    exact others_put ht (a.id_apply t)

theorem others_execute_of_refused (h : (k.execute id).value.1 = false) :
    (k.execute id).value.2.others id = k.others id := by
  cases ht : k.task? id with
  | none =>
    have hf : k.scheduler.find? id = none := ht
    unfold execute Scheduler.launch
    rw [hf]
    rfl
  | some t =>
    have hf : k.scheduler.find? id = some t := ht
    rw [execute_fst ht] at h
    have hk : (k.execute id).value.2 = k.put t.launch.value.2 := by
      unfold execute
      simp only [Logged.value_bind, Scheduler.value_launch _ hf, h]
      rfl
    rw [hk]
    exact others_put ht t.id_launch

theorem value_remove {name : String} (h : k.lookup name = some id) :
    (k.remove name).value = (k.destroy id).value := by
  unfold remove
  rw [h]
  dsimp only [Logged.value_bind]
  cases (k.destroy id).value with
  | mk result k' => cases result <;> rfl

/-! ## Drafts -/

/-- A task was made, and nothing was touched since but this task, which is still dormant. -/
structure Drafted (k : Kernel) (name : Option String) (k' : Kernel) : Prop where
  reachable : Reachable k'
  same : SamePopulation (k.create name).value.2 k'
  others : k'.others k.fresh = k.scheduler.tasks
  dormant : k'.phase? k.fresh = some .dormant

namespace Drafted

theorem create (h : Reachable k) (hroom : k.HasRoom) (hn : name.bind k.lookup = none) :
    k.Drafted name (k.create name).value.2 :=
  ⟨h.create name hroom, .refl _, others_create h hroom hn, phase?_create h hroom hn⟩

theorem compile (h : k.Drafted name k') (source : String) :
    k.Drafted name (k'.compile k.fresh source).value.2 := by
  refine ⟨h.reachable.compile _ source, h.same.trans (.compile _ source), ?_, ?_⟩
  all_goals rw [value_compile]
  · rw [others_onTask, h.others]
  · rw [phase?_onTask, h.dormant]

theorem load {V : Type} [Volume V] (h : k.Drafted name k') (vol : V) (path : String) :
    k.Drafted name (k'.load vol k.fresh path).value.2.1 := by
  refine ⟨h.reachable.load vol _ path, h.same.trans (.load vol _ path), ?_, ?_⟩
  · rcases load_eq_or vol k.fresh path with hl | ⟨-, a, hl⟩
    · rw [hl, h.others]
    · rw [hl, others_onTask, h.others]
  · rw [phase?_load, h.dormant]

theorem execute (h : k.Drafted name k') (hx : (k'.execute k.fresh).value.1 = false) :
    k.Drafted name (k'.execute k.fresh).value.2 := by
  refine ⟨h.reachable.execute _, h.same.trans (.execute _), ?_, ?_⟩
  · rw [others_execute_of_refused hx, h.others]
  · exact phase?_execute_of_refused hx h.dormant

theorem lookup {name : String} (h : k.Drafted (some name) k') (hn : k.lookup name = none) :
    k'.lookup name = some k.fresh := by
  have hb : (some name).bind k.lookup = none := hn
  rw [Kernel.lookup, h.same.registry, value_create hb]
  exact Registry.lookup_insert hn k.fresh

theorem destroy (hd : k.Drafted name k') (h : Reachable k) (hroom : k.HasRoom)
    (hn : name.bind k.lookup = none) :
    (k'.destroy k.fresh).value.2.scheduler.tasks = k.scheduler.tasks ∧
      (k'.destroy k.fresh).value.2.registry = k.registry := by
  refine ⟨?_, (undo_create h hroom hn hd.same hd.dormant).registry⟩
  rw [tasks_destroy hd.dormant, hd.others]

end Drafted

end Kernel

end Coop
