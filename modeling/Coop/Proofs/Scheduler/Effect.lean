import Coop.Proofs.Scheduler.Turn

/-!
# What a call does to one task

Seen from a live task, a call on the scheduler is a function of the task and of the clock.

* `Task.launched`, `Task.resumed`: the two calls that make a task ready;
* `Action.effect`, `Action.clockAfter`: what a call does to a live task, and to the clock;
* **`find?_apply_eq`**: every task after a call;
* `find?_apply`, `find?_apply_inv`: where a live task goes, and where a task came from.
-/

namespace Coop

/-- A task after it was launched: a refusal leaves it where it is. -/
def Task.launched (t : Task) : Task :=
  if t.launch.value.1 then { t.launch.value.2 with phase := .ready } else t.launch.value.2

theorem Task.launched_eq (t : Task) : t.launched =
    if t.phase = .dormant then
      match t.image? with
      | none => t
      | some image =>
        match Image.body image with
        | .ok _ => { t with
            fiber := some ⟨0⟩
            phase := .ready
            error := none
            started := true
            interrupt := false
            suspend := false
            waitReason := .nothing }
        | .error e => { t with error := some (.badImage e) }
    else t := by
  have hval := t.value_launch
  by_cases hp : t.phase = .dormant
  · rw [if_pos hp] at hval ⊢
    cases himage : t.image? with
    | none =>
      rw [himage] at hval
      rw [launched, hval]
      rfl
    | some image =>
      rw [himage] at hval
      dsimp only at hval ⊢
      cases hbody : Image.body image with
      | ok body | error e =>
        rw [hbody] at hval
        rw [launched, hval]
        rfl
  · rw [if_neg hp] at hval ⊢
    rw [launched, hval]
    rfl

theorem Task.launched_of_body {t : Task} {image body : ByteArray} (himage : t.image? = some image)
    (hbody : Image.body image = .ok body) (hp : t.phase = .dormant) : t.launch.value.1 = true ∧
    t.launched = { t with
      fiber := some ⟨0⟩
      phase := .ready
      error := none
      started := true
      interrupt := false
      suspend := false
      waitReason := .nothing } := by
  constructor
  · simp only [value_launch, if_pos hp, himage, hbody]
  · simp only [launched_eq, if_pos hp, himage, hbody]

/-- A task after it was resumed. -/
def Task.resumed (t : Task) : Task := if t.phase = .suspended then { t with phase := .ready } else t

namespace Scheduler

/-- What a call does to the live task with number `u`, when the clock shows `c`. -/
def Action.effect (c : Clock) (u : TaskId) (t : Task) : Action → Task
  | .spawn _ _ _ | .remove _ => t
  | .launch id => if id = u then t.launched else t
  | .resume id => if id = u then t.resumed else t
  | .tick => t.turn c.next
  | .on id a => if id = u then a.apply t else t

/-- The clock after a call. -/
def Action.clockAfter (c : Clock) : Action → Clock
  | .tick => c.next
  | _ => c

variable {s : Scheduler}

theorem clock_apply (s : Scheduler) (a : Action) : (a.apply s).clock = a.clockAfter s.clock := by
  cases a with
  | spawn name heapSize priority => rfl
  | remove id =>
    change (s.remove id).value.clock = s.clock
    unfold remove
    cases s.find? id <;> rfl
  | launch id =>
    change (s.launch id).value.2.clock = s.clock
    cases h : s.find? id with
    | none =>
      unfold launch
      rw [h]
      rfl
    | some t =>
      rw [value_launch s h]
      split_ifs
      · exact clock_moveTo _ _ _
      · rfl
  | resume id =>
    change (s.resume id).2.clock = s.clock
    unfold resume
    split_ifs
    · exact clock_moveTo _ _ _
    · rfl
  | tick => exact clock_runTick s
  | on id a => exact clock_modify s id a.apply

/-! ## Call by call -/

theorem find?_launch (s : Scheduler) (id u : TaskId) : (s.launch id).value.2.find? u =
    if id = u then (s.find? u).map Task.launched else s.find? u := by
  cases h : s.find? id with
  | none =>
    unfold launch
    rw [h]
    exact find?_eq_ite (fun t ht => by simp [h] at ht) u
  | some t =>
    have hid : t.launch.value.2.id = id := (Task.id_launch t).trans (id_of_find? h)
    rw [value_launch s h]
    by_cases hl : t.launch.value.1 = true
    · rw [if_pos hl, find?_put_moveTo s hid]
      refine ite_find?_congr h ?_ u
      rw [Task.launched, if_pos hl]
    · rw [if_neg hl, find?_put, hid]
      refine ite_find?_congr h ?_ u
      rw [Task.launched, if_neg hl]

theorem find?_resume (s : Scheduler) (id u : TaskId) : (s.resume id).2.find? u =
    if id = u then (s.find? u).map Task.resumed else s.find? u := by
  have hphase := phase?_eq_some_iff s id .suspended
  unfold resume
  by_cases hp : s.phase? id = some .suspended
  · obtain ⟨t, ht, htp⟩ := hphase.mp hp
    rw [if_pos hp, find?_moveTo]
    refine ite_find?_congr ht ?_ u
    rw [Task.resumed, if_pos htp]
  · rw [if_neg hp]
    refine find?_eq_ite (fun t ht => ?_) u
    have htp : t.phase ≠ .suspended := fun htp => hp (hphase.mpr ⟨t, ht, htp⟩)
    rw [Task.resumed, if_neg htp]

/-! ## Any call -/

/-- The task with number `u` after a call. -/
def Action.found (s : Scheduler) (u : TaskId) : Action → Option Task
  | .spawn name heapSize priority =>
    if ⟨s.freshFrom s.tasks.length s.nextId⟩ = u then some (Task.new u name heapSize priority)
    else s.find? u
  | .remove id => if id = u then none else s.find? u
  | a => (s.find? u).map (a.effect s.clock u)

/-- **Looking up a task after a call.** -/
theorem find?_apply_eq (hs : s.Partitioned) {a : Action} (ha : a.Returns s) (u : TaskId) :
    (a.apply s).find? u = a.found s u := by
  -- a call on another task maps the identity over the task that is looked up
  have hother (f : Task → Task) (id : TaskId) :
      (if id = u then (s.find? u).map f else s.find? u) =
        (s.find? u).map fun t => if id = u then f t else t := by
    split_ifs
    · rfl
    · exact Option.map_id'.symm
  cases a with
  | spawn name heapSize priority =>
    exact find?_spawn s name heapSize priority (find?_freshFrom ha hs.next) u
  | remove id => exact find?_remove s id u
  | launch id => exact (find?_launch s id u).trans (hother _ id)
  | resume id => exact (find?_resume s id u).trans (hother _ id)
  | tick => exact find?_runTick hs u
  | on id a => exact (find?_modify s a.apply (fun t => a.id_apply t) id u).trans (hother _ id)

/-- A call has its effect on every live task, unless it removes the task. -/
theorem find?_apply (hs : s.Partitioned) {a : Action} (ha : a.Returns s) {u : TaskId}
    (hne : a ≠ .remove u) {t : Task} (h : s.find? u = some t) :
    (a.apply s).find? u = some (a.effect s.clock u t) := by
  rw [find?_apply_eq hs ha u]
  cases a with
  | spawn name heapSize priority =>
    have hfree : (⟨s.freshFrom s.tasks.length s.nextId⟩ : TaskId) ≠ u := by
      rintro rfl
      rw [find?_freshFrom ha hs.next] at h
      cases h
    exact (if_neg hfree).trans h
  | remove id =>
    have hid : id ≠ u := fun e => hne (congrArg Action.remove e)
    exact (if_neg hid).trans h
  | launch | resume | tick | on => exact congrArg (Option.map _) h

/-- A task that is there after a call was there before it, or is new. -/
theorem find?_apply_inv (hs : s.Partitioned) {a : Action} (ha : a.Returns s) {u : TaskId}
    {t' : Task} (h : (a.apply s).find? u = some t') :
    (∃ t, s.find? u = some t ∧ t' = a.effect s.clock u t) ∨
      ∃ name heapSize priority, a = .spawn name heapSize priority ∧
        t' = Task.new u name heapSize priority := by
  rw [find?_apply_eq hs ha u] at h
  cases a with
  | spawn name heapSize priority =>
    rw [Action.found] at h
    split_ifs at h
    · exact .inr ⟨name, heapSize, priority, rfl, (Option.some.inj h).symm⟩
    · exact .inl ⟨t', h, rfl⟩
  | remove id =>
    rw [Action.found] at h
    split_ifs at h
    exact .inl ⟨t', h, rfl⟩
  | launch | resume | tick | on =>
    obtain ⟨t, ht, rfl⟩ := Option.map_eq_some_iff.mp h
    exact .inl ⟨t, ht, rfl⟩

end Scheduler

end Coop
