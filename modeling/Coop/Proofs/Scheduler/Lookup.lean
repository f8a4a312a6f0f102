import Coop.Scheduler.Tick
import Mathlib.Tactic.Set
import Mathlib.Tactic.SplitIfs

/-!
# Looking up tasks

What the operations on the task table do to `Scheduler.find?`. Each of them changes at most one
task, so a loop over distinct numbers changes each of its tasks once.

* `find?_eq_ite`, `ite_find?_congr`: no change at all, and the same change twice;
* `find?_put`, `find?_modify`, `find?_moveTo`, `find?_put_moveTo`: replacing a task, changing it in
  place, and moving it;
* `find?_spawn`, `find?_remove`: one task more, and one task less;
* `ids_put`, `ids_moveTo`: the numbers in the table stay what they are;
* **`lookup_foldl`**: a loop that changes every task of a list in the same way.
-/

namespace Coop

namespace Scheduler

variable (s : Scheduler)

/-- Changes a task in place, if it is live. -/
def modify (id : TaskId) (f : Task → Task) : Scheduler :=
  match s.find? id with
  | none => s
  | some t => s.put (f t)

/-! ## One task -/

variable {s} in
theorem id_of_find? {id : TaskId} {t : Task} (h : s.find? id = some t) : t.id = id := by
  have := List.find?_some h
  simpa using this

variable {s} in
theorem mem_of_find? {id : TaskId} {t : Task} (h : s.find? id = some t) : t ∈ s.tasks :=
  List.mem_of_find?_eq_some h

theorem find?_eq_none_iff (id : TaskId) : s.find? id = none ↔ ∀ t ∈ s.tasks, t.id ≠ id := by
  simp [find?]

theorem phase?_eq_some_iff (id : TaskId) (p : Phase) :
    s.phase? id = some p ↔ ∃ t, s.find? id = some t ∧ t.phase = p := by
  simp [phase?]

theorem put_of_find?_eq_none {t : Task} (h : s.find? t.id = none) : s.put t = s := by
  rw [find?_eq_none_iff] at h
  have hm : s.tasks.map (fun u => if u.id = t.id then t else u) = s.tasks := by
    conv => rhs; rw [← List.map_id s.tasks]
    refine List.map_congr_left fun u hu => ?_
    rw [if_neg (h u hu), id]
  rw [put, hm]

theorem find?_put (t : Task) (id : TaskId) :
    (s.put t).find? id = if t.id = id then (s.find? id).map fun _ => t else s.find? id := by
  split_ifs with h
  · subst h
    cases hf : s.find? t.id with
    | none => rw [put_of_find?_eq_none s hf, hf]; rfl
    | some u => rw [find?_put_self t hf]; rfl
  · exact find?_put_of_ne s t h

section Change

variable {s}
variable {id : TaskId} {f g : Task → Task}

theorem find?_eq_ite (h : ∀ t, s.find? id = some t → f t = t) (u : TaskId) :
    s.find? u = if id = u then (s.find? u).map f else s.find? u := by
  split_ifs with hu
  · subst hu
    cases ht : s.find? id with
    | none => rfl
    | some t => rw [Option.map_some, h t ht]
  · rfl

theorem ite_find?_congr {t : Task} (h : s.find? id = some t) (hfg : f t = g t) (u : TaskId) :
    (if id = u then (s.find? u).map f else s.find? u) =
      if id = u then (s.find? u).map g else s.find? u := by
  split_ifs with hu
  · subst hu
    rw [h, Option.map_some, Option.map_some, hfg]
  · rfl

end Change

theorem find?_modify (f : Task → Task) (hf : ∀ t, (f t).id = t.id) (id u : TaskId) :
    (s.modify id f).find? u = if id = u then (s.find? u).map f else s.find? u := by
  unfold modify
  cases h : s.find? id with
  | none => exact find?_eq_ite (fun t ht => by simp [h] at ht) u
  | some t =>
    have ht : (f t).id = id := (hf t).trans (id_of_find? h)
    simp only [find?_put, ht]
    refine ite_find?_congr h ?_ u
    rfl

theorem find?_moveTo (id : TaskId) (p : Phase) (u : TaskId) :
    (s.moveTo id p).find? u =
      if id = u then (s.find? u).map fun t => { t with phase := p } else s.find? u := by
  have hm : (s.moveTo id p).find? u = (s.modify id fun t => { t with phase := p }).find? u := by
    unfold moveTo modify
    cases s.find? id <;> rfl
  rw [hm]
  exact find?_modify s (fun t => { t with phase := p }) (fun _ => rfl) id u

theorem find?_put_moveTo {t : Task} {id : TaskId} (ht : t.id = id) (p : Phase) (u : TaskId) :
    ((s.put t).moveTo id p).find? u =
      if id = u then (s.find? u).map fun _ => { t with phase := p } else s.find? u := by
  subst ht
  rw [find?_moveTo, find?_put]
  split_ifs
  · rw [Option.map_map]; rfl
  · rfl

@[simp] theorem ids_put (t : Task) : (s.put t).tasks.map Task.id = s.tasks.map Task.id := by
  rw [put, List.map_map]
  refine List.map_congr_left fun u _ => ?_
  rw [Function.comp_apply]
  split_ifs with h
  · exact h.symm
  · rfl

@[simp] theorem ids_moveTo (id : TaskId) (p : Phase) :
    (s.moveTo id p).tasks.map Task.id = s.tasks.map Task.id := by
  unfold moveTo
  cases s.find? id with
  | none => rfl
  | some t => exact ids_put s _

@[simp] theorem nextId_moveTo (id : TaskId) (p : Phase) : (s.moveTo id p).nextId = s.nextId := by
  unfold moveTo
  cases s.find? id <;> rfl

/-! ## One task more, one task less -/

theorem find?_spawn (name : Option String) (heapSize : Nat) (priority : UInt8)
    (h : s.find? ⟨s.freshFrom s.tasks.length s.nextId⟩ = none) (u : TaskId) :
    (s.spawn name heapSize priority).value.2.find? u =
      if ⟨s.freshFrom s.tasks.length s.nextId⟩ = u then some (Task.new u name heapSize priority)
      else s.find? u := by
  set t := Task.new ⟨s.freshFrom s.tasks.length s.nextId⟩ name heapSize priority with ht
  change (insertTask t s.tasks).find? (fun v => v.id == u) = _
  have hnew : ∀ v ∈ s.tasks, v.id ≠ t.id := (find?_eq_none_iff s t.id).mp h
  split_ifs with hu
  · subst hu
    have hn : (s.tasks.takeWhile fun v => v.id.number < t.id.number).find? (fun v => v.id == t.id) =
        none := by
      rw [List.find?_eq_none]
      intro v hv
      have := hnew v ((List.takeWhile_sublist _).subset hv)
      simpa using this
    change (insertTask t s.tasks).find? (fun v => v.id == t.id) = some t
    rw [insertTask, List.find?_append, hn, List.find?_cons_of_pos (by simp), Option.none_or]
  · have htu : ¬ (t.id == u) = true := fun hb => hu (eq_of_beq hb)
    rw [insertTask, List.find?_append, List.find?_cons_of_neg (p := fun v : Task => v.id == u) htu,
      ← List.find?_append, List.takeWhile_append_dropWhile]
    rfl

theorem find?_remove (id u : TaskId) :
    (s.remove id).value.find? u = if id = u then none else s.find? u := by
  unfold remove
  cases h : s.find? id with
  | none =>
    split_ifs with hu
    · exact hu ▸ h
    · rfl
  | some t =>
    change (s.tasks.filter fun v => v.id ≠ id).find? (fun v => v.id == u) = _
    rw [List.find?_filter]
    split_ifs with hu
    · subst hu
      rw [List.find?_eq_none]
      intro v _
      simp
    · refine congrArg s.tasks.find? (funext fun v => ?_)
      by_cases hv : v.id = u
      · subst hv
        simp [Ne.symm hu]
      · simp [hv]

/-! ## Loops -/

/-- **A loop over distinct numbers changes each of its tasks once.** The loop may carry more than
the scheduler, and an invariant `I` of it may be used. -/
theorem lookup_foldl {σ : Type} (view : σ → TaskId → Option Task) (f : σ → TaskId → σ)
    (I : σ → Prop) (g : Task → Task) (hI : ∀ x id, I x → I (f x id))
    (hf : ∀ x id u, I x → view (f x id) u = if id = u then (view x u).map g else view x u)
    (u : TaskId) : ∀ {ids : List TaskId} (_ : ids.Nodup) {x : σ} (_ : I x),
      view (ids.foldl f x) u = if u ∈ ids then (view x u).map g else view x u
  | [], _, x, _ => by simp
  | id :: ids, hn, x, hx => by
    obtain ⟨hid, hn⟩ := List.nodup_cons.mp hn
    rw [List.foldl_cons, lookup_foldl view f I g hI hf u hn (hI x id hx), hf x id u hx]
    by_cases h : id = u
    · subst h
      simp [hid]
    · simp [h, Ne.symm h]

end Scheduler

end Coop
