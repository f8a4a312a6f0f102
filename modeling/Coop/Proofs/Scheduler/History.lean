import Coop.Proofs.Scheduler.Lookup

/-!
# Histories of a scheduler

What a client can do with a scheduler, call by call, and the states that come of it.

* `Task.Action`: the calls that reach a single task through its number;
* `Scheduler.Action`, `Action.apply`: the calls on the scheduler;
* `Action.Returns`, `Returning`: calls that come back;
* `run`: a whole history;
* `ReachableBy`, `Reachable`, `Supervised`: the states after any history, after one that keeps to a
  condition, and after one that exchanges the image of a task only while the task is dormant.
-/

namespace Coop

/-- A call on one task. -/
inductive Task.Action where
  | compile (source : String)
  | loadImage (bytes : ByteArray)
  | mapImage (bytes : ByteArray)
  | setPriority (priority : UInt8)
  | interrupt
  | suspend
  deriving DecidableEq

/-- The task after a call. -/
def Task.Action.apply : Task.Action → Task → Task
  | compile source, t => (t.compile source).value.2
  | loadImage bytes, t => (t.loadImage bytes).2
  | mapImage bytes, t => t.mapImage bytes
  | setPriority priority, t => t.setPriority priority
  | interrupt, t => t.requestInterrupt.value.2
  | suspend, t => t.requestSuspend.2

namespace Scheduler

/-- A call on a scheduler. -/
inductive Action where
  | spawn (name : Option String) (heapSize : Nat) (priority : UInt8)
  | remove (id : TaskId)
  | launch (id : TaskId)
  | resume (id : TaskId)
  | tick
  | on (id : TaskId) (a : Task.Action)
  deriving DecidableEq

namespace Action

/-- The scheduler after a call. -/
def apply (s : Scheduler) : Action → Scheduler
  | spawn name heapSize priority => (s.spawn name heapSize priority).value.2
  | remove id => (s.remove id).value
  | launch id => (s.launch id).value.2
  | resume id => (s.resume id).2
  | tick => s.runTick.value.scheduler
  | on id a => s.modify id a.apply

/-- The call comes back. Only a search for a free number may go on for ever: when all are taken. -/
def Returns (s : Scheduler) : Action → Prop
  | spawn _ _ _ => s.tasks.length + 1 < numberBound
  | _ => True

instance (s : Scheduler) : (a : Action) → Decidable (a.Returns s)
  | spawn _ _ _ => inferInstanceAs (Decidable (_ < _))
  | remove _ | launch _ | resume _ | tick | on _ _ => .isTrue trivial

/-- The call leaves the image of a running task alone. -/
def KeepsImages (s : Scheduler) : Action → Prop
  | on id (.loadImage _) => ∀ t, s.find? id = some t → t.phase = .dormant
  | on id (.mapImage _) => ∀ t, s.find? id = some t → t.phase = .dormant
  | _ => True

theorem keepsImages_of_dormant {s : Scheduler} {id : TaskId} {t : Task} (h : s.find? id = some t)
    (hp : t.phase = .dormant) (a : Task.Action) : (on id a).KeepsImages s := by
  have hd : ∀ u, s.find? id = some u → u.phase = .dormant := by
    intro u hu
    rw [h] at hu
    cases hu
    exact hp
  cases a with
  | loadImage | mapImage => exact hd
  | compile | setPriority | interrupt | suspend => trivial

end Action

/-- The scheduler after a history of calls. -/
def run (s : Scheduler) (as : List Action) : Scheduler := as.foldl Action.apply s

/-- Every call of a history comes back. -/
def Returning : Scheduler → List Action → Prop
  | _, [] => True
  | s, a :: as => a.Returns s ∧ Returning (a.apply s) as

instance decidableReturning : (s : Scheduler) → (as : List Action) → Decidable (s.Returning as)
  | _, [] => .isTrue trivial
  | s, a :: as => @instDecidableAnd _ _ _ (decidableReturning (a.apply s) as)

/-- The states that a history of calls leads to, if each call meets the condition. -/
inductive ReachableBy (ok : Scheduler → Action → Prop) : Scheduler → Prop
  | new (tickMs timeslice : Nat) : ReachableBy ok (Scheduler.new tickMs timeslice)
  | act {s : Scheduler} {a : Action} (h : ReachableBy ok s) (ha : ok s a) :
    ReachableBy ok (a.apply s)

/-- The states that any history of calls leads to. -/
abbrev Reachable : Scheduler → Prop := ReachableBy fun s a => a.Returns s

/-- The states that a history leads to in which no running task loses its image. -/
abbrev Supervised : Scheduler → Prop := ReachableBy fun s a => a.Returns s ∧ a.KeepsImages s

theorem Supervised.reachable {s : Scheduler} (h : Supervised s) : Reachable s := by
  induction h with
  | new tickMs timeslice => exact .new tickMs timeslice
  | act _ ha ih => exact .act ih ha.1

theorem Reachable.run {s : Scheduler} (h : Reachable s) (as : List Action) (ha : s.Returning as) :
    Reachable (s.run as) := by
  induction as generalizing s with
  | nil => exact h
  | cons a as ih => exact ih (.act h ha.1) ha.2

end Scheduler

/-! ## What a call leaves as it is -/

namespace Task

variable (t : Task)

theorem value_compile (source : String) : (t.compile source).value =
    if t.phase = .dormant then
      match Coop.compile source with
      | .error e => (false, { t.dropImage with compileError := some e })
      | .ok image =>
        match t.arena.clear.storeImage image with
        | .error e => (false, { t.dropImage with compileError := some ⟨0, .doesNotFit e⟩ })
        | .ok arena => (true, { t.dropImage with arena := arena, code := .pinned })
    else (false, t) := by
  unfold compile
  by_cases hp : t.phase = .dormant
  · rw [if_neg (fun h => h hp), if_pos hp]
    cases hc : Coop.compile source with
    | error e => rfl
    | ok image =>
      -- the second time there is nothing left to drop
      have hd : t.dropImage.dropImage.arena = t.arena.clear := rfl
      simp only [loadImage, hd]
      cases t.arena.clear.storeImage image <;> rfl
  · rw [if_pos hp, if_neg hp]
    rfl

theorem value_launch : t.launch.value =
    if t.phase = .dormant then
      match t.image? with
      | none => (false, t)
      | some image =>
        match Image.body image with
        | .ok _ => (true, { t with
            fiber := some ⟨0⟩
            error := none
            started := true
            interrupt := false
            suspend := false
            waitReason := .nothing })
        | .error e => (false, { t with error := some (.badImage e) })
    else (false, t) := by
  unfold launch
  by_cases hp : t.phase = .dormant
  · rw [if_neg (fun h => h hp), if_pos hp]
    cases t.image? with
    | none => rfl
    | some image =>
      dsimp only
      cases Image.body image <;> rfl
  · rw [if_pos hp, if_neg hp]
    rfl

@[simp] theorem id_compile (source : String) : (t.compile source).value.2.id = t.id := by
  rw [value_compile]
  repeat' split
  all_goals rfl

@[simp] theorem phase_compile (source : String) : (t.compile source).value.2.phase = t.phase := by
  rw [value_compile]
  repeat' split
  all_goals rfl

@[simp] theorem id_requestInterrupt : t.requestInterrupt.value.2.id = t.id := by
  unfold requestInterrupt
  split <;> rfl

@[simp] theorem phase_requestInterrupt : t.requestInterrupt.value.2.phase = t.phase := by
  unfold requestInterrupt
  split <;> rfl

@[simp] theorem id_requestSuspend : t.requestSuspend.2.id = t.id := by
  unfold requestSuspend
  split <;> rfl

@[simp] theorem phase_requestSuspend : t.requestSuspend.2.phase = t.phase := by
  unfold requestSuspend
  split <;> rfl

@[simp] theorem Action.id_apply (a : Task.Action) : (a.apply t).id = t.id := by
  cases a <;> simp [Action.apply]

@[simp] theorem Action.phase_apply (a : Task.Action) : (a.apply t).phase = t.phase := by
  cases a <;> simp [Action.apply]

@[simp] theorem id_launch : t.launch.value.2.id = t.id := by
  rw [value_launch]
  repeat' split
  all_goals rfl

@[simp] theorem phase_launch : t.launch.value.2.phase = t.phase := by
  rw [value_launch]
  repeat' split
  all_goals rfl

end Task

theorem Scheduler.value_launch (s : Scheduler) {id : TaskId} {t : Task} (h : s.find? id = some t) :
    (s.launch id).value.2 =
      if t.launch.value.1 then (s.put t.launch.value.2).moveTo id .ready
      else s.put t.launch.value.2 := by
  unfold launch
  rw [h]
  dsimp only [Logged.value_bind]
  by_cases hl : t.launch.value.1 = true
  · rw [if_pos hl, if_pos hl]
    rfl
  · rw [if_neg hl, if_neg hl]
    rfl

end Coop
