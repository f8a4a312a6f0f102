import Coop.Config
import Coop.Registry
import Coop.Scheduler.Tick
import Coop.Scheduler.Stat

/-!
# The kernel

The scheduler, the names of its tasks and the settings both were made with. A task that is created
under a name is bound to it, and a task that is destroyed loses all its names.

* `Kernel`, `Kernel.new`;
* `Kernel.create`, `Kernel.register`, `Kernel.remove`, `Kernel.destroy`;
* `Kernel.compile`, `Kernel.execute`, `Kernel.interrupt`, `Kernel.suspend`, `Kernel.resume`;
* `Kernel.tick`.
-/

namespace Coop

/-- The kernel. -/
structure Kernel where
  config : Config
  scheduler : Scheduler
  registry : Registry
  deriving DecidableEq

namespace Kernel

/-- A kernel without tasks. -/
def new (config : Config) : Kernel :=
  ⟨config, Scheduler.new config.quantumMs config.timeslice, .empty⟩

/-! ## Looking things up -/

/-- The task with a number. -/
def task? (k : Kernel) (id : TaskId) : Option Task := k.scheduler.find? id

/-- The phase of a task. -/
def phase? (k : Kernel) (id : TaskId) : Option Phase := k.scheduler.phase? id

/-- The last uncaught failure of a task. -/
def error? (k : Kernel) (id : TaskId) : Option Fault := (k.task? id).bind Task.error

/-- The task a name stands for. -/
def lookup (k : Kernel) (name : String) : Option TaskId := k.registry.lookup name

/-- Whether there is nothing a turn could advance. -/
def isIdle (k : Kernel) : Bool := k.scheduler.isIdle

/-- The current snapshot. -/
def stat (k : Kernel) : Stat := k.scheduler.stat

/-- Replaces the task with the same number. -/
def put (k : Kernel) (t : Task) : Kernel := { k with scheduler := k.scheduler.put t }

/-! ## Creation and destruction -/

/-- Makes a dormant task without an image, bound to the name if one is given. A taken name is
refused before anything is made. -/
def create (k : Kernel) (name : Option String) :
    Logged (Except Registry.Error TaskId × Kernel) := do
  match name.bind k.lookup with
  | some holder => return (.error (.duplicate holder), k)
  | none =>
    let (id, scheduler) ← k.scheduler.spawn name k.config.heapSize k.config.priority
    let k := { k with scheduler := scheduler }
    match name with
    | none => return (.ok id, k)
    | some name =>
      match k.registry.register name id with
      | .error e => return (.error e, k)
      | .ok registry => return (.ok id, { k with registry := registry })

/-- Gives a live task a further name. -/
def register (k : Kernel) (name : String) (id : TaskId) : Except Registry.Error Kernel :=
  match k.task? id with
  | none => .error .notFound
  | some _ => (k.registry.register name id).map (fun registry => { k with registry := registry })

/-- Drops a dormant task and all its names. -/
def destroy (k : Kernel) (id : TaskId) : Logged (Except Registry.Error Unit × Kernel) := do
  match k.phase? id with
  | none => return (.error .notFound, k)
  | some .dormant =>
    let scheduler ← k.scheduler.remove id
    return (.ok (), { k with scheduler := scheduler, registry := k.registry.unbind id })
  | some _ => return (.error (.busy id), k)

/-- Drops the dormant task a name stands for, and all its names. -/
def remove (k : Kernel) (name : String) : Logged (Except Registry.Error Unit × Kernel) := do
  match k.lookup name with
  | none => return (.error .notFound, k)
  | some id =>
    let (result, k) ← k.destroy id
    match result with
    | .error e => return (.error e, k)
    | .ok () =>
      Logged.info s!"task {id.label} ({name}) removed"
      return (.ok (), k)

/-! ## Running tasks -/

/-- Compiles a script into a dormant task. -/
def compile (k : Kernel) (id : TaskId) (source : String) : Logged (Bool × Kernel) := do
  match k.task? id with
  | none => return (false, k)
  | some t =>
    let (ok, t) ← t.compile source
    return (ok, k.put t)

/-- Why the last compile of a task failed. -/
def compileError (k : Kernel) (id : TaskId) : CompileError :=
  ((k.task? id).bind Task.compileError).getD ⟨0, .unknown⟩

/-- Starts the image of a dormant task. -/
def execute (k : Kernel) (id : TaskId) : Logged (Bool × Kernel) := do
  let (ok, scheduler) ← k.scheduler.launch id
  return (ok, { k with scheduler := scheduler })

/-- Why a task could not be started or ended badly. -/
def failure (k : Kernel) (id : TaskId) : Fault := (k.error? id).getD (.badImage .nothingToRun)

/-- Asks a running task to stop. -/
def interrupt (k : Kernel) (id : TaskId) : Logged (Bool × Kernel) := do
  match k.task? id with
  | none => return (false, k)
  | some t =>
    let (ok, t) ← t.requestInterrupt
    return (ok, k.put t)

/-- Asks a running task to park. -/
def suspend (k : Kernel) (id : TaskId) : Bool × Kernel :=
  match k.task? id with
  | none => (false, k)
  | some t => (t.requestSuspend.1, k.put t.requestSuspend.2)

/-- Makes a suspended task ready again. -/
def resume (k : Kernel) (id : TaskId) : Bool × Kernel :=
  let (ok, scheduler) := k.scheduler.resume id
  (ok, { k with scheduler := scheduler })

/-- The result of a turn: the kernel after it, the text written, the number of tasks dispatched. -/
structure Ticked where
  kernel : Kernel
  output : String
  dispatched : Nat

/-- One turn of the scheduler. -/
def tick (k : Kernel) : Logged Ticked := do
  let turn ← k.scheduler.runTick
  return ⟨{ k with scheduler := turn.scheduler }, turn.output, turn.dispatched⟩

end Kernel

end Coop
