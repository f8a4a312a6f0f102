import Coop.Scheduler

/-!
# One turn of the scheduler

A tick first ends every running task with a pending interrupt, then wakes every sleeper that is due,
and then gives each task that is ready at that point one timeslice, in the order of the ready
bucket.

* `Scheduler.endInterrupted`, `Scheduler.wakeDue`: the first two parts;
* `Scheduler.settle`: where a task goes after it handed control back;
* `Turn`, `Turn.dispatch`: the third part, task by task;
* `Scheduler.runTick`: the whole turn.
-/

namespace Coop

/-- A turn in progress: the scheduler, the text written so far, the tasks dispatched so far. -/
structure Turn where
  scheduler : Scheduler
  output : String
  dispatched : Nat

namespace Scheduler

/-! ## Interrupts and sleepers -/

/-- The running tasks with a pending interrupt. -/
def interrupted (s : Scheduler) : List TaskId :=
  (s.tasks.filter (fun t => t.phase ≠ .dormant && t.interrupt)).map Task.id

/-- Ends a task because of an interrupt. -/
def endTask (s : Scheduler) (id : TaskId) : Logged Scheduler := do
  let s := match s.find? id with
    | some t => s.put (t.finish none)
    | none => s
  Logged.info s!"task {id.label} interrupted"
  return s.moveTo id .dormant

/-- Ends every running task with a pending interrupt. -/
def endInterrupted (s : Scheduler) : Logged Scheduler := s.interrupted.foldlM endTask s

/-- The sleepers whose time has come. -/
def due (s : Scheduler) : List TaskId :=
  s.buckets.waiting.filter (fun id =>
    match s.find? id with
    | some t => t.wakeupTick ≤ s.tick
    | none => false)

/-- Wakes a sleeper: it becomes ready, or suspended if that was asked for. -/
def wake (s : Scheduler) (id : TaskId) : Scheduler :=
  match s.find? id with
  | none => s
  | some t =>
    (s.put { t with waitReason := .nothing, suspend := false }).moveTo id
      (if t.suspend then .suspended else .ready)

/-- Wakes every sleeper whose time has come. -/
def wakeDue (s : Scheduler) : Scheduler := s.due.foldl wake s

/-! ## Dispatching -/

/-- How many ticks a pause lasts: rounded up, and at least one. -/
def sleepTicks (s : Scheduler) (ms : Nat) : Nat := max 1 ((ms + s.tickMs - 1) / s.tickMs)

/-- Moves a task to where it belongs after it handed control back. -/
def settle (s : Scheduler) (t : Task) : Handback → Logged Scheduler
  | .yield =>
    return (s.put { t with suspend := false }).moveTo t.id
      (if t.suspend then .suspended else .ready)
  | .sleep ms =>
    return (s.put { t with
      wakeupTick := s.tick + s.sleepTicks ms
      waitReason := .sleep }).moveTo t.id .waiting
  | .suspend => return (s.put { t with suspend := false }).moveTo t.id .suspended
  | .done => do
    Logged.info s!"task {t.id.label} finished"
    return (s.put (t.finish none)).moveTo t.id .dormant
  | .fault e => do
    Logged.error s!"task {t.id.label} died: {e.text}"
    return (s.put (t.finish (some e))).moveTo t.id .dormant

end Scheduler

namespace Turn

/-- Gives one task its timeslice, if it is still ready. -/
def dispatch (turn : Turn) (id : TaskId) : Logged Turn :=
  match turn.scheduler.find? id with
  | none => return turn
  | some t =>
    if t.phase = .ready then do
      let d := { t with timeslice := turn.scheduler.timeslice }.step
      let scheduler ← turn.scheduler.settle d.task d.handback
      return ⟨scheduler, turn.output ++ d.output, turn.dispatched + 1⟩
    else return turn

/-- What is logged of a turn. -/
def summary (turn : Turn) : String :=
  let s := turn.scheduler
  s!"tick {s.tick}: {turn.dispatched} dispatched, " ++
    s!"{s.count .ready} ready, {s.count .waiting} waiting"

end Turn

namespace Scheduler

/-- Gives every ready task its timeslice. -/
def dispatchReady (s : Scheduler) : Logged Turn :=
  s.buckets.ready.foldlM Turn.dispatch ⟨s, "", 0⟩

/-- One turn of the scheduler. -/
def runTick (s : Scheduler) : Logged Turn := do
  let s ← { s with tick := s.tick + 1 }.endInterrupted
  let turn ← s.wakeDue.dispatchReady
  Logged.debug turn.summary
  return turn

end Scheduler

end Coop
