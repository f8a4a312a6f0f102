import Coop.Task

/-!
# The scheduler

Every live task is in one of four buckets, one for each phase. The ready bucket is kept in order of
priority, first come first served among equals; the others are in order of arrival.

* `Buckets`, `Scheduler`;
* `Scheduler.find?`, `Scheduler.put`: the task with a number, with `find?_put_self` and
  `find?_put_of_ne`;
* `Scheduler.moveTo`: the one way a task changes its phase;
* `Scheduler.nextNumber`, `Scheduler.freshFrom`: the numbers of new tasks;
* `Scheduler.spawn`, `Scheduler.remove`, `Scheduler.launch`, `Scheduler.resume`.
-/

namespace Coop

/-- The task numbers of each phase, in order. -/
structure Buckets where
  dormant : List TaskId
  ready : List TaskId
  waiting : List TaskId
  suspended : List TaskId
  deriving DecidableEq

namespace Buckets

/-- No tasks at all. -/
def empty : Buckets := ⟨[], [], [], []⟩

/-- The bucket of a phase. -/
def get (b : Buckets) : Phase → List TaskId
  | .dormant => b.dormant
  | .ready => b.ready
  | .waiting => b.waiting
  | .suspended => b.suspended

/-- Replaces the bucket of a phase. -/
def set (b : Buckets) (p : Phase) (ids : List TaskId) : Buckets :=
  match p with
  | .dormant => { b with dormant := ids }
  | .ready => { b with ready := ids }
  | .waiting => { b with waiting := ids }
  | .suspended => { b with suspended := ids }

/-- Takes a task out of the bucket of a phase. -/
def unlink (b : Buckets) (p : Phase) (id : TaskId) : Buckets := b.set p ((b.get p).erase id)

@[simp] theorem get_set_self (b : Buckets) (p : Phase) (ids : List TaskId) :
    (b.set p ids).get p = ids := by
  cases p <;> rfl

theorem get_set_of_ne (b : Buckets) {p q : Phase} (h : q ≠ p) (ids : List TaskId) :
    (b.set p ids).get q = b.get q := by
  cases p <;> cases q <;> first | rfl | exact absurd rfl h

end Buckets

/-- The scheduler: the live tasks in order of their numbers, the buckets, and the clock. -/
structure Scheduler where
  tasks : List Task
  buckets : Buckets
  tick : Nat
  nextId : Nat
  tickMs : Nat
  timeslice : Nat
  deriving DecidableEq

namespace Scheduler

/-- A scheduler without tasks. A tick lasts at least a millisecond, a timeslice at least an
instruction. -/
def new (tickMs timeslice : Nat) : Scheduler where
  tasks := []
  buckets := .empty
  tick := 0
  nextId := 1
  tickMs := max tickMs 1
  timeslice := max timeslice 1

/-- The task with a number. -/
def find? (s : Scheduler) (id : TaskId) : Option Task := s.tasks.find? (fun t => t.id == id)

/-- Replaces the task with the same number. -/
def put (s : Scheduler) (t : Task) : Scheduler :=
  { s with tasks := s.tasks.map (fun u => if u.id = t.id then t else u) }

/-- The phase of a task. -/
def phase? (s : Scheduler) (id : TaskId) : Option Phase := (s.find? id).map Task.phase

/-- How many tasks are in a phase. -/
def count (s : Scheduler) (p : Phase) : Nat := (s.buckets.get p).length

/-- Whether there is nothing a turn could advance. -/
def isIdle (s : Scheduler) : Bool := s.buckets.ready.isEmpty && s.buckets.waiting.isEmpty

/-- The earliest tick at which a sleeper is due. -/
def wakeupTick? (s : Scheduler) : Option Nat :=
  ((s.buckets.waiting.filterMap s.find?).map Task.wakeupTick).min?

section Put

variable (s : Scheduler) (t : Task)

@[simp] theorem tick_put : (s.put t).tick = s.tick := rfl

@[simp] theorem buckets_put : (s.put t).buckets = s.buckets := rfl

theorem find?_put_of_ne {id : TaskId} (h : t.id ≠ id) : (s.put t).find? id = s.find? id := by
  unfold find? put
  dsimp only
  induction s.tasks with
  | nil => rfl
  | cons u us ih =>
    rw [List.map_cons, List.find?_cons, List.find?_cons, ih]
    by_cases hu : u.id = t.id
    · rw [if_pos hu, beq_false_of_ne h, beq_false_of_ne (hu ▸ h)]
    · rw [if_neg hu]

variable {s}

theorem find?_put_self {u : Task} (h : s.find? t.id = some u) : (s.put t).find? t.id = some t := by
  unfold find? at h ⊢
  unfold put
  dsimp only
  revert h
  induction s.tasks with
  | nil => exact fun h => nomatch h
  | cons v vs ih =>
    intro h
    rw [List.find?_cons] at h
    rw [List.map_cons, List.find?_cons]
    by_cases hv : v.id = t.id
    · rw [if_pos hv, beq_self_eq_true]
    · rw [beq_false_of_ne hv] at h
      rw [if_neg hv, beq_false_of_ne hv]
      exact ih h

end Put

/-! ## Moving between phases -/

/-- Whether a task comes behind the given priority. -/
def runsAfter (s : Scheduler) (priority : UInt8) (id : TaskId) : Bool :=
  match s.find? id with
  | some t => priority < t.priority
  | none => false

/-- The ready bucket with a task put in behind every task that does not run after it. -/
def enqueue (s : Scheduler) (priority : UInt8) (ready : List TaskId) (id : TaskId) : List TaskId :=
  ready.takeWhile (fun o => !s.runsAfter priority o) ++
    id :: ready.dropWhile (fun o => !s.runsAfter priority o)

/-- Moves a task to a phase. -/
def moveTo (s : Scheduler) (id : TaskId) (p : Phase) : Scheduler :=
  match s.find? id with
  | none => s
  | some t =>
    let buckets := s.buckets.unlink t.phase id
    let ids := match p with
      | .ready => s.enqueue t.priority buckets.ready id
      | p => buckets.get p ++ [id]
    { s.put { t with phase := p } with buckets := buckets.set p ids }

/-! ## Creation, destruction, launch -/

/-- One more than the largest number a task can have. -/
def numberBound : Nat := 0x100000000

/-- The number tried after a number; zero is left out when the count wraps around. -/
def nextNumber (n : Nat) : Nat := max 1 ((n + 1) % numberBound)

/-- The first of the next `tries + 1` numbers that no live task has. The last one is taken as it is.
-/
def freshFrom (s : Scheduler) : Nat → Nat → Nat
  | 0, n => n
  | tries + 1, n => if (s.find? ⟨n⟩).isSome then s.freshFrom tries (nextNumber n) else n

/-- The tasks with one more put in at the place of its number. -/
def insertTask (t : Task) (tasks : List Task) : List Task :=
  tasks.takeWhile (fun u => u.id.number < t.id.number) ++
    t :: tasks.dropWhile (fun u => u.id.number < t.id.number)

/-- Makes a dormant task. A number is passed over for as long as a live task has it, at most once
for each live task. -/
def spawn (s : Scheduler) (name : Option String) (heapSize : Nat) (priority : UInt8) :
    Logged (TaskId × Scheduler) := do
  let id : TaskId := ⟨s.freshFrom s.tasks.length s.nextId⟩
  Logged.info s!"task {id.label} created ({heapSize} byte heap)"
  return (id, { s with
    tasks := insertTask (Task.new id name heapSize priority) s.tasks
    buckets := s.buckets.set .dormant (s.buckets.dormant ++ [id])
    nextId := nextNumber id.number })

/-- Drops a task. -/
def remove (s : Scheduler) (id : TaskId) : Logged Scheduler := do
  match s.find? id with
  | none => return s
  | some t =>
    Logged.info s!"task {id.label} destroyed"
    return { s with
      tasks := s.tasks.filter (fun u => u.id ≠ id)
      buckets := s.buckets.unlink t.phase id }

/-- Starts a dormant task's image. -/
def launch (s : Scheduler) (id : TaskId) : Logged (Bool × Scheduler) := do
  match s.find? id with
  | none => return (false, s)
  | some t =>
    let (launched, t) ← t.launch
    let s := s.put t
    if launched then
      Logged.info s!"task {id.label} launched"
      return (true, s.moveTo id .ready)
    else
      return (false, s)

/-- Makes a suspended task ready again. -/
def resume (s : Scheduler) (id : TaskId) : Bool × Scheduler :=
  if s.phase? id = some .suspended then (true, s.moveTo id .ready) else (false, s)

end Scheduler

end Coop
