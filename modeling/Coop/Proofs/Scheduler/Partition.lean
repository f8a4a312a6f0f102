import Coop.Proofs.Scheduler.History
import Coop.Proofs.Scheduler.Numbers
import Coop.Scheduler.Stat

/-!
# The four buckets

The phase of a task is kept twice, in the task and as the bucket its number is in. The two agree in
every state that calls on the scheduler lead to.

* **`Partitioned`**: the invariant; a number is in the bucket of its task's phase, once, and in no
  other;
* `Partitioned.put`, `Partitioned.moveTo`: replacing a task within its phase, and moving it;
* `Partitioned.spawn`, `Partitioned.remove`, `Partitioned.launch`, `Partitioned.resume`,
  `Partitioned.runTick`: the calls, from these two;
* `Partitioned.perm`: the four buckets together are the live numbers;
* **`bucket_partition`**: the partition in every reachable state.
-/

namespace Coop

/-! ## Counting in buckets -/

namespace Buckets

theorem count_unlink (b : Buckets) (p q : Phase) (id u : TaskId) :
    ((b.unlink p id).get q).count u =
      (b.get q).count u - if q = p ∧ id = u then 1 else 0 := by
  unfold unlink
  by_cases hq : q = p
  · subst hq
    rw [get_set_self, List.count_erase]
    simp
  · rw [get_set_of_ne b hq]
    simp [hq]

end Buckets

namespace Scheduler

theorem count_enqueue (s : Scheduler) (priority : UInt8) (ready : List TaskId) (id u : TaskId) :
    (s.enqueue priority ready id).count u = ready.count u + if id = u then 1 else 0 := by
  have hsplit := congrArg (List.count u) (List.takeWhile_append_dropWhile
    (p := fun o => !s.runsAfter priority o) (l := ready))
  rw [List.count_append] at hsplit
  simp only [enqueue, List.count_append, List.count_cons, beq_iff_eq]
  omega

/-! ## The invariant -/

/-- **The invariant of a scheduler.** -/
structure Partitioned (s : Scheduler) : Prop where
  /-- The tasks are in order of their numbers, which are all different. -/
  ascending : s.tasks.Pairwise fun t u => t.id.number < u.id.number
  inRange : ∀ t ∈ s.tasks, InRange t.id.number
  next : InRange s.nextId
  /-- A number is in the bucket of its task's phase, once, and in no other. -/
  listed : ∀ id p, (s.buckets.get p).count id = if s.phase? id = some p then 1 else 0

variable {s : Scheduler}

theorem phase?_put (t : Task) (id : TaskId) : (s.put t).phase? id =
    if t.id = id then (s.phase? id).map fun _ => t.phase else s.phase? id := by
  unfold phase?
  rw [find?_put]
  split_ifs
  · cases s.find? id <;> rfl
  · rfl

theorem phase?_moveTo (id : TaskId) (p : Phase) (u : TaskId) :
    (s.moveTo id p).phase? u = if id = u then (s.phase? u).map fun _ => p else s.phase? u := by
  unfold phase?
  rw [find?_moveTo]
  split_ifs
  · cases s.find? u <;> rfl
  · rfl

theorem moveTo_of_find?_eq_none {id : TaskId} (h : s.find? id = none) (p : Phase) :
    s.moveTo id p = s := by
  rw [moveTo, h]

namespace Partitioned

theorem of_ids {s' : Scheduler} (hs : s.Partitioned)
    (hids : s'.tasks.map Task.id = s.tasks.map Task.id) (hnext : s'.nextId = s.nextId)
    (hl : ∀ id p, (s'.buckets.get p).count id = if s'.phase? id = some p then 1 else 0) :
    s'.Partitioned where
  ascending := by
    have h : (s.tasks.map Task.id).Pairwise fun a b => a.number < b.number :=
      List.pairwise_map.mpr hs.ascending
    rw [← hids, List.pairwise_map] at h
    exact h
  inRange t ht := by
    have hm : t.id ∈ s.tasks.map Task.id := hids ▸ List.mem_map_of_mem ht
    obtain ⟨u, hu, hid⟩ := List.mem_map.mp hm
    exact hid ▸ hs.inRange u hu
  next := hnext ▸ hs.next
  listed := hl

theorem put (hs : s.Partitioned) {id : TaskId} {t u : Task} (h : s.find? id = some u)
    (hid : t.id = u.id) (hp : t.phase = u.phase) : (s.put t).Partitioned := by
  obtain rfl := id_of_find? h
  refine hs.of_ids (ids_put s t) rfl fun v p => ?_
  have hv : (s.put t).phase? v = s.phase? v := by
    rw [phase?_put]
    split_ifs with htv
    · rw [← htv, hid, phase?, h, Option.map_some, Option.map_some, hp]
    · rfl
  rw [buckets_put, hv, hs.listed]

theorem modify (hs : s.Partitioned) (f : Task → Task) (hid : ∀ t, (f t).id = t.id)
    (hp : ∀ t, (f t).phase = t.phase) (id : TaskId) : (s.modify id f).Partitioned := by
  unfold Scheduler.modify
  cases h : s.find? id with
  | none => exact hs
  | some t => exact hs.put h (hid t) (hp t)

/-- What moving a task does to the buckets: its number leaves the old one and enters the new one. -/
theorem count_moveTo (hs : s.Partitioned) {id : TaskId} {t : Task} (h : s.find? id = some t)
    (p q : Phase) (u : TaskId) : ((s.moveTo id p).buckets.get q).count u =
      if id = u then (if p = q then 1 else 0) else (s.buckets.get q).count u := by
  have hphase : s.phase? id = some t.phase := by rw [phase?, h]; rfl
  -- once unlinked, the number is in no bucket at all
  have hold : ((s.buckets.unlink t.phase id).get q).count u =
      if id = u then 0 else (s.buckets.get q).count u := by
    rw [Buckets.count_unlink]
    by_cases hu : id = u
    · subst hu
      rw [hs.listed, hphase]
      by_cases hq : q = t.phase
      · simp [hq]
      · simp [hq, Ne.symm hq]
    · simp [hu]
  rw [moveTo, h]
  dsimp only
  by_cases hq : q = p
  · subst hq
    rw [Buckets.get_set_self]
    cases q with
    | ready =>
      rw [count_enqueue]
      change (((s.buckets.unlink t.phase id).get .ready).count u + _) = _
      rw [hold, if_pos rfl]
      by_cases hu : id = u
      · rw [if_pos hu, if_pos hu, if_pos hu]
      · rw [if_neg hu, if_neg hu, if_neg hu, Nat.add_zero]
    | dormant | waiting | suspended =>
      rw [List.count_append, hold, List.count_singleton, if_pos rfl]
      by_cases hu : id = u
      · simp [hu]
      · simp [hu]
  · rw [Buckets.get_set_of_ne _ hq, hold, if_neg (Ne.symm hq)]

theorem moveTo (hs : s.Partitioned) (id : TaskId) (p : Phase) : (s.moveTo id p).Partitioned := by
  cases h : s.find? id with
  | none => rwa [moveTo_of_find?_eq_none h]
  | some t =>
    refine hs.of_ids (ids_moveTo s id p) (nextId_moveTo s id p) fun u q => ?_
    rw [hs.count_moveTo h, phase?_moveTo]
    by_cases hu : id = u
    · subst hu
      simp [phase?, h]
    · rw [if_neg hu, if_neg hu]
      exact hs.listed u q

/-! ## Calls -/

theorem new (tickMs timeslice : Nat) : (Scheduler.new tickMs timeslice).Partitioned where
  ascending := List.Pairwise.nil
  inRange t ht := by cases ht
  next := ⟨Nat.one_pos, show 1 < numberBound by decide⟩
  listed id p := by cases p <;> rfl

theorem pairwise_insertTask {t : Task} {tasks : List Task}
    (h : tasks.Pairwise fun t u => t.id.number < u.id.number) (ht : ∀ u ∈ tasks, u.id ≠ t.id) :
    (insertTask t tasks).Pairwise fun t u => t.id.number < u.id.number := by
  induction tasks with
  | nil => exact List.pairwise_singleton _ _
  | cons v vs ih =>
    obtain ⟨hv, hvs⟩ := List.pairwise_cons.mp h
    have hne : v.id.number ≠ t.id.number := fun he =>
      ht v List.mem_cons_self (congrArg TaskId.mk he)
    by_cases hlt : v.id.number < t.id.number
    · have hcons : insertTask t (v :: vs) = v :: insertTask t vs := by simp [insertTask, hlt]
      rw [hcons, List.pairwise_cons]
      refine ⟨fun u hu => ?_, ih hvs fun u hu => ht u (List.mem_cons_of_mem _ hu)⟩
      rw [insertTask, List.mem_append, List.mem_cons] at hu
      rcases hu with hu | rfl | hu
      · exact hv u ((List.takeWhile_sublist _).subset hu)
      · exact hlt
      · exact hv u ((List.dropWhile_sublist _).subset hu)
    · have hcons : insertTask t (v :: vs) = t :: v :: vs := by simp [insertTask, hlt]
      have htv : t.id.number < v.id.number := by omega
      rw [hcons, List.pairwise_cons]
      refine ⟨fun u hu => ?_, h⟩
      rcases List.mem_cons.mp hu with rfl | hu
      · exact htv
      · exact Nat.lt_trans htv (hv u hu)

theorem spawn (hs : s.Partitioned) (hroom : s.tasks.length + 1 < numberBound)
    (name : Option String) (heapSize : Nat) (priority : UInt8) :
    (s.spawn name heapSize priority).value.2.Partitioned := by
  have hfree := find?_freshFrom hroom hs.next
  have hphase (u : TaskId) := congrArg (Option.map Task.phase)
    (find?_spawn s name heapSize priority hfree u)
  set id : TaskId := ⟨s.freshFrom s.tasks.length s.nextId⟩ with hid
  have hrange : InRange id.number := freshFrom_inRange s _ hs.next
  refine ⟨pairwise_insertTask hs.ascending ((find?_eq_none_iff s id).mp hfree), fun u hu => ?_,
    inRange_nextNumber hrange, fun u q => ?_⟩
  · rcases List.mem_append.mp hu with hu | hu
    · exact hs.inRange u ((List.takeWhile_sublist _).subset hu)
    · rcases List.mem_cons.mp hu with rfl | hu
      · exact hrange
      · exact hs.inRange u ((List.dropWhile_sublist _).subset hu)
  · rw [phase?, hphase]
    change ((s.buckets.set .dormant (s.buckets.dormant ++ [id])).get q).count u = _
    have hold := hs.listed u q
    by_cases hu : id = u
    · subst hu
      rw [phase?, hfree] at hold
      cases q <;> simp_all [Buckets.get, Buckets.set, Task.new]
    · cases q <;> simp_all [Buckets.get, Buckets.set, phase?]

theorem remove (hs : s.Partitioned) (id : TaskId) : (s.remove id).value.Partitioned := by
  have hfind (u : TaskId) := find?_remove s id u
  unfold Scheduler.remove at hfind ⊢
  cases h : s.find? id with
  | none => exact hs
  | some t =>
    simp only [h] at hfind ⊢
    refine ⟨hs.ascending.filter _, fun u hu => hs.inRange u (List.mem_of_mem_filter hu), hs.next,
      fun u q => ?_⟩
    rw [phase?, hfind]
    change ((s.buckets.unlink t.phase id).get q).count u = _
    rw [Buckets.count_unlink, hs.listed]
    by_cases hu : id = u
    · subst hu
      by_cases hq : q = t.phase
      · simp [phase?, h, hq]
      · simp [phase?, h, hq, Ne.symm hq]
    · simp [phase?, hu]

theorem launch (hs : s.Partitioned) (id : TaskId) : (s.launch id).value.2.Partitioned := by
  cases h : s.find? id with
  | none =>
    unfold Scheduler.launch
    rwa [h]
  | some t =>
    have hput := hs.put h t.id_launch t.phase_launch
    rw [value_launch s h]
    split_ifs
    · exact hput.moveTo id .ready
    · exact hput

theorem resume (hs : s.Partitioned) (id : TaskId) : (s.resume id).2.Partitioned := by
  unfold Scheduler.resume
  split_ifs
  · exact hs.moveTo id .ready
  · exact hs

end Partitioned

/-! ## A turn -/

theorem value_endTask (s : Scheduler) (id : TaskId) :
    (s.endTask id).value = (s.modify id fun t => t.finish none).moveTo id .dormant := by
  unfold endTask modify
  cases s.find? id <;> rfl

/-- The scheduler after the first two parts of a turn, when the dispatching begins. -/
def roundStart (s : Scheduler) : Scheduler :=
  { s with tick := s.tick + 1 }.endInterrupted.value.wakeDue

theorem value_runTick (s : Scheduler) : s.runTick.value = s.roundStart.dispatchReady.value := rfl

theorem value_endInterrupted (s : Scheduler) :
    s.endInterrupted.value = s.interrupted.foldl (fun s id => (s.endTask id).value) s :=
  Logged.value_foldlM _ _ _

theorem value_dispatchReady (s : Scheduler) : s.dispatchReady.value =
    s.buckets.ready.foldl (fun turn id => (turn.dispatch id).value) ⟨s, "", 0⟩ :=
  Logged.value_foldlM _ _ _

namespace Partitioned

theorem endTask (hs : s.Partitioned) (id : TaskId) : (s.endTask id).value.Partitioned := by
  rw [value_endTask]
  exact (hs.modify (fun t => t.finish none) (fun _ => rfl) (fun _ => rfl) id).moveTo id .dormant

theorem endInterrupted (hs : s.Partitioned) : s.endInterrupted.value.Partitioned := by
  rw [value_endInterrupted]
  exact List.foldlRecOn _ _ hs fun _ h id _ => h.endTask id

theorem wake (hs : s.Partitioned) (id : TaskId) : (s.wake id).Partitioned := by
  unfold Scheduler.wake
  cases h : s.find? id with
  | none => exact hs
  | some t =>
    have hput := hs.put (t := { t with waitReason := .nothing, suspend := false }) h rfl rfl
    exact hput.moveTo id _

theorem wakeDue (hs : s.Partitioned) : s.wakeDue.Partitioned :=
  List.foldlRecOn _ _ hs fun _ h id _ => h.wake id

theorem roundStart (hs : s.Partitioned) : s.roundStart.Partitioned :=
  (show Partitioned { s with tick := s.tick + 1 } from
    ⟨hs.ascending, hs.inRange, hs.next, hs.listed⟩).endInterrupted.wakeDue

theorem settle (hs : s.Partitioned) {id : TaskId} {t u : Task} (hf : s.find? id = some u)
    (hid : t.id = u.id) (hp : t.phase = u.phase) (h : Handback) :
    (s.settle t h).value.Partitioned := by
  cases h with
  | yield | sleep | suspend | done | fault =>
    change ((s.put _).moveTo _ _).Partitioned
    refine (hs.put hf ?_ ?_).moveTo _ _
    · exact hid
    · exact hp

theorem dispatch {turn : Turn} (hs : turn.scheduler.Partitioned) (id : TaskId) :
    (turn.dispatch id).value.scheduler.Partitioned := by
  unfold Turn.dispatch
  cases h : turn.scheduler.find? id with
  | none => exact hs
  | some t =>
    dsimp only
    split_ifs
    · change (turn.scheduler.settle _ _).value.Partitioned
      refine hs.settle h ?_ ?_ _
      · exact Task.id_step _
      · exact Task.phase_step _
    · exact hs

theorem runTick (hs : s.Partitioned) : s.runTick.value.scheduler.Partitioned := by
  rw [value_runTick, value_dispatchReady]
  exact List.foldlRecOn (motive := fun turn : Turn => turn.scheduler.Partitioned) _ _ hs.roundStart
    fun _ h id _ => h.dispatch id

/-- **Every call keeps the invariant.** -/
theorem apply (hs : s.Partitioned) {a : Action} (ha : a.Returns s) : (a.apply s).Partitioned := by
  cases a with
  | spawn name heapSize priority => exact hs.spawn ha name heapSize priority
  | remove id => exact hs.remove id
  | launch id => exact hs.launch id
  | resume id => exact hs.resume id
  | tick => exact hs.runTick
  | on id a => exact hs.modify a.apply (fun t => a.id_apply t) (fun t => a.phase_apply t) id

end Partitioned

theorem Reachable.partitioned (h : Reachable s) : s.Partitioned := by
  induction h with
  | new tickMs timeslice => exact .new tickMs timeslice
  | act _ ha ih => exact ih.apply ha

/-! ## What the invariant says -/

namespace Partitioned

theorem nodup (hs : s.Partitioned) : (s.tasks.map Task.id).Nodup := by
  refine List.pairwise_map.mpr (hs.ascending.imp fun {t u} htu hid => ?_)
  rw [hid] at htu
  exact Nat.lt_irrefl _ htu

theorem find?_eq_some_iff (hs : s.Partitioned) (id : TaskId) (t : Task) :
    s.find? id = some t ↔ t ∈ s.tasks ∧ t.id = id := by
  refine ⟨fun h => ⟨mem_of_find? h, id_of_find? h⟩, ?_⟩
  rintro ⟨ht, rfl⟩
  cases hf : s.find? t.id with
  | none => exact absurd rfl ((find?_eq_none_iff s t.id).mp hf t ht)
  | some u => rw [List.inj_on_of_nodup_map hs.nodup (mem_of_find? hf) ht (id_of_find? hf)]

theorem mem_bucket_iff (hs : s.Partitioned) (id : TaskId) (p : Phase) :
    id ∈ s.buckets.get p ↔ s.phase? id = some p := by
  rw [← List.count_pos_iff, hs.listed]
  split_ifs with h <;> simp [h]

theorem nodup_bucket (hs : s.Partitioned) (p : Phase) : (s.buckets.get p).Nodup := by
  rw [List.nodup_iff_count]
  intro id
  rw [hs.listed]
  split_ifs <;> omega

/-- The four buckets together are the live numbers. -/
theorem perm (hs : s.Partitioned) :
    (Phase.all.flatMap s.buckets.get).Perm (s.tasks.map Task.id) := by
  rw [List.perm_iff_count]
  intro id
  rw [hs.nodup.count]
  simp only [Phase.all, List.flatMap_cons, List.flatMap_nil, List.count_append, List.count_nil,
    hs.listed]
  cases hf : s.find? id with
  | none =>
    have hm : id ∉ s.tasks.map Task.id := fun hm => by
      obtain ⟨t, ht, hid⟩ := List.mem_map.mp hm
      exact (find?_eq_none_iff s id).mp hf t ht hid
    simp [phase?, hf, hm]
  | some t =>
    have hm : id ∈ s.tasks.map Task.id := List.mem_map.mpr ⟨t, mem_of_find? hf, id_of_find? hf⟩
    have hp : s.phase? id = some t.phase := by rw [phase?, hf]; rfl
    rw [hp, if_pos hm]
    cases t.phase <;> simp

theorem find?_isSome_of_mem (hs : s.Partitioned) {id : TaskId} {p : Phase}
    (h : id ∈ s.buckets.get p) : (s.find? id).isSome = true := by
  rw [hs.mem_bucket_iff, phase?_eq_some_iff] at h
  obtain ⟨t, ht, -⟩ := h
  rw [ht]
  rfl

theorem length_statOf (hs : s.Partitioned) (p : Phase) :
    (s.statOf p).length = (s.buckets.get p).length := by
  rw [statOf, List.length_map, List.filterMap_length_eq_length]
  exact fun id hid => hs.find?_isSome_of_mem hid

theorem total_stat (hs : s.Partitioned) : s.stat.total = s.tasks.length := by
  have hlen := hs.perm.length_eq
  rw [List.length_map, List.length_flatMap] at hlen
  rw [← hlen, Stat.total, List.length_flatMap]
  refine congrArg List.sum (List.map_congr_left fun p _ => ?_)
  rw [← hs.length_statOf p]
  cases p <;> rfl

theorem phase_of_mem_stat (hs : s.Partitioned) {p : Phase} {e : TaskStat}
    (he : e ∈ s.stat.bucket p) : e.phase = p := by
  have he : e ∈ s.statOf p := by cases p <;> exact he
  obtain ⟨t, ht, rfl⟩ := List.mem_map.mp he
  obtain ⟨id, hid, hf⟩ := List.mem_filterMap.mp ht
  obtain ⟨u, hu, hp⟩ := (phase?_eq_some_iff s id p).mp ((hs.mem_bucket_iff id p).mp hid)
  rw [hf] at hu
  cases hu
  exact hp

end Partitioned

/-- **The buckets partition the live tasks.** In every state that calls lead to, each live number is
in the four buckets exactly once, in the bucket of its task's phase; no other number is in a bucket;
each task is found under its own number; and a snapshot shows each task once, under its phase. -/
theorem bucket_partition (h : Reachable s) :
    (∀ t ∈ s.tasks, (Phase.all.flatMap s.buckets.get).count t.id = 1 ∧
      t.id ∈ s.buckets.get t.phase) ∧
    (∀ p, ∀ id ∈ s.buckets.get p, ∃ t ∈ s.tasks, t.id = id) ∧
    (∀ id t, s.find? id = some t ↔ t ∈ s.tasks ∧ t.id = id) ∧
    s.stat.total = s.tasks.length ∧
    ∀ p, ∀ e ∈ s.stat.bucket p, e.phase = p := by
  have hs := h.partitioned
  refine ⟨fun t ht => ⟨?_, ?_⟩, fun p id hid => ?_, hs.find?_eq_some_iff, hs.total_stat,
    fun p e he => hs.phase_of_mem_stat he⟩
  · rw [hs.perm.count_eq, hs.nodup.count, if_pos (List.mem_map_of_mem ht)]
  · rw [hs.mem_bucket_iff, phase?_eq_some_iff]
    exact ⟨t, (hs.find?_eq_some_iff _ _).mpr ⟨ht, rfl⟩, rfl⟩
  · obtain ⟨t, ht⟩ := Option.isSome_iff_exists.mp (hs.find?_isSome_of_mem hid)
    exact ⟨t, mem_of_find? ht, id_of_find? ht⟩

/-- Three tasks after one turn: one has yielded, one sleeps, one was never launched. -/
theorem bucket_partition_three : ∃ s : Scheduler, Reachable s ∧
    s.buckets = ⟨[⟨3⟩], [⟨1⟩], [⟨2⟩], []⟩ ∧ s.stat.total = s.tasks.length := by
  have h := Reachable.run (.new 10 5)
    [.spawn none 64 0, .on ⟨1⟩ (.mapImage (Image.build Instr.pass.encode)), .launch ⟨1⟩,
      .spawn none 64 0, .on ⟨2⟩ (.mapImage (Image.build (Instr.sleep 20).encode)), .launch ⟨2⟩,
      .spawn none 0 7, .tick] (by decide +kernel)
  exact ⟨_, h, by decide +kernel, (bucket_partition h).2.2.2.1⟩

end Scheduler

end Coop
