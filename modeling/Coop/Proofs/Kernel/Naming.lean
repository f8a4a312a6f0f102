import Coop.Proofs.Kernel.Drafts
import Mathlib.Control.Monad.Basic

/-!
# Names and tasks

The names of a kernel and its tasks are kept in two tables. Whatever is done to one of them is done
to the other as far as it concerns it.

* `Registry.lookup_insert_of_ne`, `Registry.lookup_unbind`: names that are given and taken back;
* `Task.name_apply`, `Task.name_turn`: a task keeps the name it was made with;
* `Joined`, `Without`: one task more with its name, and one task less with all its names;
* `Answering`, `Reachable.answering`: a task is what its own name stands for;
* `Disposal`: what comes of a request to drop a task, by its number or by a name;
* **`names_and_tasks_agree`**: the two tables in every reachable kernel, and what creation and
  destruction do to them.
-/

namespace Coop

namespace Registry

variable {r : Registry} {n name : String} {id : TaskId}

theorem lookup_insert_of_ne (h : n ≠ name) (id : TaskId) :
    lookup ⟨insert name id r.names⟩ n = r.lookup n := by
  have hn : (n == name) = false := beq_false_of_ne h
  simp only [lookup, insert, List.lookup_append, List.lookup_cons, hn]
  rw [← List.lookup_append, List.takeWhile_append_dropWhile]

theorem lookup_eq_some_iff (hr : r.Distinct) : r.lookup n = some id ↔ (n, id) ∈ r.names :=
  ⟨mem_of_lookup, lookup_of_mem hr⟩

theorem Distinct.unbind (hr : r.Distinct) (id : TaskId) : (r.unbind id).Distinct :=
  hr.sublist (List.filter_sublist.map _)

theorem lookup_unbind (hr : r.Distinct) (id : TaskId) (n : String) :
    (r.unbind id).lookup n = (r.lookup n).filter fun u => u ≠ id := by
  ext u
  rw [lookup_eq_some_iff (hr.unbind id), Option.filter_eq_some_iff, lookup_eq_some_iff hr]
  simp [Registry.unbind]

end Registry

/-- A bucket loses the number that is taken out, and the others did not have it. -/
theorem Buckets.get_unlink_eq_filter {b : Buckets} {p : Phase} {id : TaskId}
    (hnodup : (b.get p).Nodup) (hother : ∀ q, q ≠ p → id ∉ b.get q) (q : Phase) :
    (b.unlink p id).get q = (b.get q).filter fun u => u ≠ id := by
  unfold unlink
  by_cases hq : q = p
  · subst hq
    rw [get_set_self, hnodup.erase_eq_filter]
    refine List.filter_congr fun u _ => ?_
    rw [bne, beq_eq_decide, decide_not]
  · have hid := hother q hq
    rw [get_set_of_ne b hq, List.filter_eq_self.mpr]
    intro u hu
    exact decide_eq_true fun h => hid (h ▸ hu)

/-! ## A task keeps its name -/

namespace Task

variable (t : Task)

theorem name_apply (a : Task.Action) : (a.apply t).name = t.name := by
  cases a with
  | compile source =>
    change (t.compile source).value.2.name = t.name
    rw [value_compile]
    repeat' split
    all_goals rfl
  | loadImage bytes =>
    change (t.loadImage bytes).2.name = t.name
    unfold loadImage
    dsimp only
    split <;> rfl
  | mapImage | setPriority => rfl
  | interrupt =>
    change t.requestInterrupt.value.2.name = t.name
    unfold requestInterrupt
    split <;> rfl
  | suspend =>
    change t.requestSuspend.2.name = t.name
    unfold requestSuspend
    split <;> rfl

theorem name_launched : t.launched.name = t.name := by
  rw [launched_eq]
  repeat' split
  all_goals rfl

theorem name_resumed : t.resumed.name = t.name := by
  unfold resumed
  split <;> rfl

theorem name_turn (c : Clock) : (t.turn c).name = t.name := by
  have hinterrupted : t.interrupted.name = t.name := by
    unfold interrupted
    split <;> rfl
  have hwoken : ∀ u : Task, (u.woken c).name = u.name := by
    intro u
    unfold woken awake
    split <;> rfl
  have hstep : ∀ u : Task, u.step.task.name = u.name := by
    intro u
    unfold step
    split <;> rfl
  have hdispatched : ∀ u : Task, (u.dispatched c).name = u.name := by
    intro u
    unfold dispatched
    split
    · have hslice : (u.slice c).task.name = u.name := hstep _
      rw [← hslice]
      cases (u.slice c).handback <;> rfl
    · rfl
  rw [turn, hdispatched, hwoken, hinterrupted]

end Task

namespace Kernel

variable {k k' : Kernel} {id : TaskId} {name : Option String}

/-- Every task that was made with a name is what the name stands for. -/
def Answering (k : Kernel) : Prop :=
  ∀ id t, k.task? id = some t → ∀ n, t.name = some n → k.lookup n = some id

/-- The names are the same, and every task had its name before. -/
structure KeepsNames (k k' : Kernel) : Prop where
  registry : k'.registry = k.registry
  name : ∀ u t', k'.task? u = some t' → ∃ t, k.task? u = some t ∧ t'.name = t.name

theorem Answering.of_keepsNames (h : k.Answering) (hk : KeepsNames k k') : k'.Answering := by
  intro u t' ht' n hn
  obtain ⟨t, ht, hname⟩ := hk.name u t' ht'
  rw [lookup, hk.registry]
  exact h u t ht n (hname ▸ hn)

theorem KeepsNames.of_map {f : Task → Task} (hf : ∀ t, (f t).name = t.name)
    (hr : k'.registry = k.registry)
    (ht : ∀ u, k'.task? u = (k.task? u).map f ∨ k'.task? u = k.task? u) : KeepsNames k k' := by
  refine ⟨hr, fun u t' ht' => ?_⟩
  rcases ht u with h | h
  · rw [h] at ht'
    obtain ⟨t, ht, rfl⟩ := Option.map_eq_some_iff.mp ht'
    exact ⟨t, ht, hf t⟩
  · exact ⟨t', h ▸ ht', rfl⟩

/-! ## One task more, one task less -/

/-- There is a new task, what its name stands for, if it has one, and nothing else has changed. -/
structure Joined (k : Kernel) (name : Option String) (id : TaskId) (k' : Kernel) : Prop where
  task : ∀ u, k'.task? u =
    if u = id then some (Task.new id name k.config.heapSize k.config.priority) else k.task? u
  lookup : ∀ n, k'.lookup n = if name = some n then some id else k.lookup n

/-- A task and all its names are gone, and nothing else has changed. -/
structure Without (k : Kernel) (id : TaskId) (k' : Kernel) : Prop where
  task : ∀ u, k'.task? u = if u = id then none else k.task? u
  lookup : ∀ n, k'.lookup n = (k.lookup n).filter fun u => u ≠ id
  bucket : ∀ p, k'.scheduler.buckets.get p = (k.scheduler.buckets.get p).filter fun u => u ≠ id
  clock : k'.scheduler.clock = k.scheduler.clock
  config : k'.config = k.config

theorem joined_create (h : k.task? k.fresh = none) (hn : name.bind k.lookup = none) :
    k.Joined name k.fresh (k.create name).value.2 := by
  have hfind := Scheduler.find?_spawn k.scheduler name k.config.heapSize k.config.priority h
  rw [value_create hn]
  refine ⟨fun u => (hfind u).trans ?_, fun n => ?_⟩
  · by_cases hu : u = k.fresh
    · rw [if_pos hu, hu]
      exact if_pos rfl
    · rw [if_neg hu]
      exact if_neg fun h => hu h.symm
  · change (k.registry.enter name k.fresh).lookup n = _
    cases name with
    | none => rfl
    | some name =>
      by_cases hname : name = n
      · subst hname
        rw [if_pos rfl]
        exact Registry.lookup_insert hn k.fresh
      · rw [if_neg fun h => hname (Option.some.inj h)]
        exact Registry.lookup_insert_of_ne (Ne.symm hname) k.fresh

theorem Joined.answering (h : k.Answering) (hj : k.Joined name id k')
    (hn : name.bind k.lookup = none) : k'.Answering := by
  intro u t ht n hname
  rw [hj.task] at ht
  rw [hj.lookup]
  split_ifs at ht with hu
  · cases ht
    have hname : name = some n := hname
    rw [hu, if_pos hname]
  · -- the new name was free, so no older task was made with it
    have hold := h u t ht n hname
    rw [if_neg, hold]
    rintro rfl
    rw [Option.bind_some, hold] at hn
    cases hn

theorem without_destroy (hp : k.scheduler.Partitioned) (hr : k.registry.Distinct)
    (hd : k.phase? id = some .dormant) : k.Without id (k.destroy id).value.2 := by
  obtain ⟨t, ht, htd⟩ := (Scheduler.phase?_eq_some_iff _ _ _).mp hd
  have hclock := Scheduler.clock_apply k.scheduler (.remove id)
  rw [value_destroy hd]
  refine ⟨fun u => ?_, fun n => Registry.lookup_unbind hr id n, fun p => ?_, hclock, rfl⟩
  · refine (Scheduler.find?_remove k.scheduler id u).trans ?_
    simp only [eq_comm (a := id)]
    rfl
  · have hbuckets : (k.scheduler.remove id).value.buckets =
        k.scheduler.buckets.unlink t.phase id := by
      rw [Scheduler.remove, ht]
      rfl
    rw [hbuckets]
    refine Buckets.get_unlink_eq_filter (hp.nodup_bucket _) (fun q hq hm => hq ?_) p
    have hq' := (hp.mem_bucket_iff id q).mp hm
    rw [Scheduler.phase?, ht] at hq'
    exact (Option.some.inj hq').symm

theorem Without.answering (h : k.Answering) (hw : k.Without id k') : k'.Answering := by
  intro u t ht n hname
  rw [hw.task] at ht
  split_ifs at ht with hu
  rw [hw.lookup, h u t ht n hname]
  simp [hu]

/-! ## Every history -/

theorem Answering.register (h : k.Answering) {n : String} (hk : k.register n id = .ok k') :
    k'.Answering := by
  unfold Kernel.register at hk
  cases ht : k.task? id with
  | none =>
    rw [ht] at hk
    cases hk
  | some t =>
    rw [ht] at hk
    cases hl : k.registry.lookup n with
    | some holder =>
      rw [Registry.register, hl] at hk
      cases hk
    | none =>
      rw [Registry.register, hl] at hk
      cases hk
      intro u t' ht' m hm
      have hold : k.registry.lookup m = some u := h u t' ht' m hm
      have hne : m ≠ n := by
        rintro rfl
        rw [hl] at hold
        cases hold
      exact (Registry.lookup_insert_of_ne hne id).trans hold

theorem Step.answering (hs : Step k k') (hp : k.scheduler.Partitioned) (hn : k.Named)
    (h : k.Answering) : k'.Answering := by
  cases hs with
  | create name hroom =>
    cases hb : name.bind k.lookup with
    | some holder =>
      unfold Kernel.create
      rw [hb]
      exact h
    | none =>
      have hfree : k.task? k.fresh = none := Scheduler.find?_freshFrom hroom hp.next
      exact (joined_create hfree hb).answering h hb
  | register hk => exact h.register hk
  | destroy id =>
    by_cases hd : k.phase? id = some .dormant
    · exact (without_destroy hp hn.distinct hd).answering h
    · obtain ⟨e, he⟩ := value_destroy_of_ne hd
      rw [he]
      exact h
  | execute id =>
    refine h.of_keepsNames (.of_map Task.name_launched rfl fun u => ?_)
    have hfind := Scheduler.find?_launch k.scheduler id u
    split_ifs at hfind
    · exact .inl hfind
    · exact .inr hfind
  | resume id =>
    refine h.of_keepsNames (.of_map Task.name_resumed rfl fun u => ?_)
    have hfind := Scheduler.find?_resume k.scheduler id u
    split_ifs at hfind
    · exact .inl hfind
    · exact .inr hfind
  | tick =>
    exact h.of_keepsNames (.of_map (fun t => t.name_turn _) rfl
      fun u => .inl (Scheduler.find?_runTick hp u))
  | @onTask id t ht a _ =>
    refine h.of_keepsNames (.of_map (fun t => t.name_apply a) rfl fun u => ?_)
    have hfind := Scheduler.find?_put k.scheduler (a.apply t) u
    split_ifs at hfind with hu
    · have htu : k.scheduler.find? u = some t := by
        rw [← hu, Task.Action.id_apply, Scheduler.id_of_find? ht]
        exact ht
      rw [htu] at hfind
      refine .inl (hfind.trans ?_)
      rw [task?, htu]
      rfl
    · exact .inr hfind

theorem Reachable.answering (h : Reachable k) : k.Answering := by
  obtain ⟨config, hs⟩ := h.steps
  have hkeep : Scheduler.Supervised k.scheduler ∧ k.Named ∧ k.Answering := by
    refine hs.keep (P := fun k => Scheduler.Supervised k.scheduler ∧ k.Named ∧ k.Answering)
      ?_ ⟨.new _ _, ⟨List.nodup_nil, fun e he => nomatch he⟩, fun u t ht => nomatch ht⟩
    rintro k k' hstep ⟨hsup, hnamed, hans⟩
    exact ⟨hstep.supervised hsup, hstep.named hnamed,
      hstep.answering hsup.reachable.partitioned hnamed hans⟩
  exact hkeep.2.2

/-! ## Dropping a task -/

/-- What comes of a request to drop the task `target`: it is dropped exactly if it is live and
dormant, then with all its names and nothing else, and a refusal changes nothing. -/
structure Disposal (k : Kernel) (target : Option TaskId)
    (outcome : Except Registry.Error Unit × Kernel) : Prop where
  ok_iff : outcome.1 = .ok () ↔ ∃ id, target = some id ∧ k.phase? id = some .dormant
  dropped : ∀ id, target = some id → outcome.1 = .ok () → k.Without id outcome.2
  refused : ∀ e, outcome.1 = .error e → outcome.2 = k

theorem Disposal.of_error {target : Option TaskId} (e : Registry.Error)
    (h : ∀ id, target = some id → k.phase? id ≠ some .dormant) :
    k.Disposal target (.error e, k) where
  ok_iff := by
    constructor
    · intro he
      cases he
    · rintro ⟨id, ht, hd⟩
      exact absurd hd (h id ht)
  dropped id _ he := nomatch he
  refused _ _ := rfl

theorem disposal_destroy (h : Reachable k) (id : TaskId) :
    k.Disposal (some id) (k.destroy id).value := by
  by_cases hd : k.phase? id = some .dormant
  · have hw := without_destroy h.partitioned h.named.distinct hd
    have hok : (k.destroy id).value.1 = .ok () := by rw [value_destroy hd]
    refine ⟨iff_of_true hok ⟨id, rfl, hd⟩, fun u hu _ => ?_, fun e he => ?_⟩
    · cases hu
      exact hw
    · rw [hok] at he
      cases he
  · obtain ⟨e, he⟩ := value_destroy_of_ne hd
    rw [he]
    refine .of_error e fun u hu => ?_
    cases hu
    exact hd

theorem disposal_remove (h : Reachable k) (n : String) :
    k.Disposal (k.lookup n) (k.remove n).value := by
  cases hl : k.lookup n with
  | some id =>
    rw [value_remove hl]
    exact disposal_destroy h id
  | none =>
    have hr : (k.remove n).value = (.error .notFound, k) := by
      rw [remove, hl]
      rfl
    rw [hr]
    exact .of_error _ fun id hid => nomatch hid

/-- **Names and tasks agree.** In every reachable kernel each name stands for a live task, and each
task made with a name is what the name stands for. A taken name is refused with its holder, and
nothing changes; otherwise a task is made under a number that was free. A task is dropped, by its
number or by any of its names, exactly if it is live and dormant: then it is gone with all its
names, and nothing else has changed. A refusal changes nothing at all. -/
theorem names_and_tasks_agree (h : Reachable k) :
    (∀ n id, k.lookup n = some id → id ∈ k.live) ∧
    (∀ t ∈ k.scheduler.tasks, ∀ n, t.name = some n → k.lookup n = some t.id) ∧
    (∀ n holder, k.lookup n = some holder →
      (k.create (some n)).value = (.error (.duplicate holder), k)) ∧
    (∀ name, name.bind k.lookup = none → k.HasRoom → ∃ id, id ∉ k.live ∧
      (k.create name).value.1 = .ok id ∧ k.Joined name id (k.create name).value.2) ∧
    (∀ id, k.Disposal (some id) (k.destroy id).value) ∧
    ∀ n, k.Disposal (k.lookup n) (k.remove n).value := by
  refine ⟨fun n id hl => ?_, fun t ht n hn => ?_, fun n holder => value_create_of_taken,
    fun name hn hroom => ?_, disposal_destroy h, disposal_remove h⟩
  · exact h.named.bound _ (Registry.mem_of_lookup hl)
  · exact h.answering t.id t ((h.partitioned.find?_eq_some_iff _ _).mpr ⟨ht, rfl⟩) n hn
  · have hfree := task?_fresh h hroom
    refine ⟨k.fresh, fresh_notMem_live h hroom, ?_, joined_create hfree hn⟩
    rw [value_create hn]

/-- Two tasks, one of them with two names: it is dropped by the second one, and both are free. -/
theorem names_and_tasks_agree_alias : ∃ k : Kernel, Reachable k ∧
    k.registry.names = [("a", ⟨1⟩), ("b", ⟨2⟩), ("z", ⟨1⟩)] ∧
    (k.create (some "z")).value.1 = .error (.duplicate ⟨1⟩) ∧
    (k.remove "z").value.2.lookup "a" = none ∧
    (k.remove "z").value.2.lookup "b" = some ⟨2⟩ ∧
    (k.remove "z").value.2.task? ⟨2⟩ = k.task? ⟨2⟩ := by
  let k₂ := (((new { Config.default with heapSize := 32 }).create (some "a")).value.2.create
    (some "b")).value.2
  let k : Kernel := { k₂ with registry := ⟨[("a", ⟨1⟩), ("b", ⟨2⟩), ("z", ⟨1⟩)]⟩ }
  have h₂ : Reachable k₂ := (Reachable.create (.new _) (some "a") (by decide +kernel)).create
    (some "b") (by decide +kernel)
  have halias : k₂.register "z" ⟨1⟩ = .ok k := by decide +kernel
  have h : Reachable k := h₂.register halias
  have hz : k.lookup "z" = some ⟨1⟩ := by decide +kernel
  obtain ⟨-, -, htaken, -, -, hremove⟩ := names_and_tasks_agree h
  have hok := (hremove "z").ok_iff.mpr ⟨⟨1⟩, hz, by decide +kernel⟩
  have hwithout := (hremove "z").dropped ⟨1⟩ hz hok
  refine ⟨k, h, rfl, ?_, ?_, ?_, hwithout.task ⟨2⟩⟩
  · rw [htaken "z" ⟨1⟩ hz]
  · rw [hwithout.lookup, show k.lookup "a" = some ⟨1⟩ by decide +kernel]
    decide
  · rw [hwithout.lookup, show k.lookup "b" = some ⟨2⟩ by decide +kernel]
    decide

end Kernel

end Coop
