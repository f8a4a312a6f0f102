import Coop.Fiber
import Coop.Journal
import Coop.Script.Program

/-!
# Tasks

A task is an isolated place to compile and run one program: a private heap, the current image, the
program in progress and the requests made of it from outside. Requests are only recorded here; the
scheduler honours them and alone moves a task from one phase to another.

* `TaskId`, `Phase`, `WaitReason`, `Code`, `Task`;
* `Task.compile`, `Task.loadImage`, `Task.mapImage`, `Task.dropImage`: putting a program in;
* `Task.launch`, `Task.step`, `Task.finish`: running it;
* `Task.requestInterrupt`, `Task.requestSuspend`, `Task.setPriority`.
-/

namespace Coop

/-- The number of a task. -/
structure TaskId where
  number : Nat
  deriving DecidableEq, Repr

/-- A task number as shown to people. -/
def TaskId.label (id : TaskId) : String := "#" ++ toString id.number

/-- Where a task stands with the scheduler. -/
inductive Phase where
  | dormant
  | ready
  | waiting
  | suspended
  deriving DecidableEq, Repr

namespace Phase

/-- All phases, in the order of dumps. -/
def all : List Phase := [dormant, ready, waiting, suspended]

/-- The place of a phase in that order. -/
def index : Phase → Nat
  | dormant => 0
  | ready => 1
  | waiting => 2
  | suspended => 3

/-- The status code of a phase. -/
def code : Phase → Nat
  | dormant => 0x00
  | ready => 0x02
  | waiting => 0x04
  | suspended => 0x08

/-- The name of a phase. -/
def name : Phase → String
  | dormant => "DORMANT"
  | ready => "READY"
  | waiting => "WAITING"
  | suspended => "SUSPENDED"

end Phase

/-- What a waiting task waits for. -/
inductive WaitReason where
  | nothing
  | sleep
  deriving DecidableEq, Repr

/-- The name of a reason. -/
def WaitReason.name : WaitReason → String
  | .nothing => "-"
  | .sleep => "sleep"

/-- Where the image of a task is: nowhere, at the base of its heap, or in memory the volume lends.
-/
inductive Code where
  | absent
  | pinned
  | mapped (bytes : ByteArray)
  deriving DecidableEq

/-- A program in progress: the place of its next instruction. -/
structure Fiber where
  pc : Nat
  deriving DecidableEq, Repr

/-- A task. -/
structure Task where
  id : TaskId
  name : Option String
  arena : Arena
  code : Code
  fiber : Option Fiber
  phase : Phase
  /-- The last uncaught failure; cleared by the next successful launch. -/
  error : Option Fault
  /-- Why the last compile failed, if it did. -/
  compileError : Option CompileError
  /-- Whether the current image was ever launched. -/
  started : Bool
  /-- An interrupt was asked for and not honoured yet. -/
  interrupt : Bool
  /-- How many interrupts were ever asked for. -/
  interrupts : Nat
  /-- A suspension was asked for and not honoured yet. -/
  suspend : Bool
  priority : UInt8
  /-- What was left of the timeslice when the task last handed control back. -/
  timeslice : Nat
  wakeupTick : Nat
  waitReason : WaitReason
  deriving DecidableEq

/-- The result of one turn of a task. -/
structure Dispatch where
  handback : Handback
  task : Task
  output : String

/-- The largest count of interrupt requests that is kept. -/
def interruptLimit : Nat := 0xffffffff

namespace Task

/-- A dormant task without an image. -/
def new (id : TaskId) (name : Option String) (heapSize : Nat) (priority : UInt8) : Task where
  id := id
  name := name
  arena := Arena.new heapSize
  code := .absent
  fiber := none
  phase := .dormant
  error := none
  compileError := none
  started := false
  interrupt := false
  interrupts := 0
  suspend := false
  priority := priority
  timeslice := 0
  wakeupTick := 0
  waitReason := .nothing

/-- Whether the task has an image. -/
def hasImage (t : Task) : Bool := t.code ≠ .absent

/-- Whether the image is in memory the volume lends. -/
def isMapped (t : Task) : Bool :=
  match t.code with
  | .mapped _ => true
  | _ => false

/-- The image of the task. -/
def image? (t : Task) : Option ByteArray :=
  match t.code with
  | .absent => none
  | .pinned => some t.arena.image
  | .mapped bytes => some bytes

/-! ## Putting a program in -/

/-- Forgets the image and everything known about it. -/
def dropImage (t : Task) : Task :=
  { t with arena := t.arena.clear, code := .absent, compileError := none, started := false }

/-- Copies an image to the base of the heap. The old image is gone even if the new one does not fit.
-/
def loadImage (t : Task) (bytes : ByteArray) : Except Exhausted Unit × Task :=
  let t := t.dropImage
  match t.arena.storeImage bytes with
  | .error e => (.error e, t)
  | .ok arena => (.ok (), { t with arena := arena, code := .pinned })

/-- Takes an image where it is. -/
def mapImage (t : Task) (bytes : ByteArray) : Task := { t.dropImage with code := .mapped bytes }

/-- Compiles a script into the task. The old image is gone even if the script is refused. -/
def compile (t : Task) (source : String) : Logged (Bool × Task) := do
  if t.phase ≠ .dormant then
    Logged.warn s!"task {t.id.label}: compile refused while {t.phase.name}"
    return (false, t)
  let t := t.dropImage
  match Coop.compile source with
  | .error e =>
    Logged.warn s!"task {t.id.label}: compile failed: {e.text}"
    return (false, { t with compileError := some e })
  | .ok image =>
    match t.loadImage image with
    | (.error e, t) =>
      Logged.warn s!"task {t.id.label}: compiled image does not fit: {e.message}"
      return (false, { t with compileError := some ⟨0, .doesNotFit e⟩ })
    | (.ok (), t) => return (true, t)

/-! ## Requests -/

/-- Records an interrupt request; refused if nothing is running. -/
def requestInterrupt (t : Task) : Logged (Bool × Task) := do
  if t.phase = .dormant then
    return (false, t)
  Logged.info s!"task {t.id.label}: interrupt requested"
  return (true, { t with interrupt := true, interrupts := min (t.interrupts + 1) interruptLimit })

/-- Records a request to park at the next yield; refused if nothing is running. -/
def requestSuspend (t : Task) : Bool × Task :=
  if t.phase = .dormant then (false, t) else (true, { t with suspend := true })

/-- Changes the priority; the place in the ready bucket stays as it is. -/
def setPriority (t : Task) (priority : UInt8) : Task := { t with priority := priority }

/-! ## Running -/

/-- Starts the image from its first instruction. The phase is left to the scheduler. -/
def launch (t : Task) : Logged (Bool × Task) := do
  if t.phase ≠ .dormant then
    return (false, t)
  match t.image? with
  | none => return (false, t)
  | some image =>
    match Image.body image with
    | .ok _ =>
      return (true, { t with
        fiber := some ⟨0⟩
        error := none
        started := true
        interrupt := false
        suspend := false
        waitReason := .nothing })
    | .error e =>
      Logged.warn s!"task {t.id.label}: image rejected: {(Fault.badImage e).text}"
      return (false, { t with error := some (.badImage e) })

/-- One turn: runs until control is handed back or the timeslice is spent. -/
def step (t : Task) : Dispatch :=
  match t.fiber, t.image? with
  | some fiber, some image =>
    let slice := runImage image t.timeslice ⟨fiber.pc, t.arena, ""⟩
    { handback := slice.handback
      task := { t with
        fiber := some ⟨slice.machine.pc⟩
        arena := slice.machine.arena
        timeslice := slice.budget }
      output := slice.machine.output }
  | _, _ => ⟨.done, t, ""⟩

/-- Back to rest: the program in progress and its objects are dropped. -/
def finish (t : Task) (error : Option Fault) : Task :=
  { t with
    fiber := none
    arena := t.arena.release
    interrupt := false
    suspend := false
    waitReason := .nothing
    timeslice := 0
    error := error.or t.error }

section Fields

variable (t : Task)

@[simp] theorem id_dropImage : t.dropImage.id = t.id := rfl

@[simp] theorem phase_dropImage : t.dropImage.phase = t.phase := rfl

@[simp] theorem id_mapImage (bytes : ByteArray) : (t.mapImage bytes).id = t.id := rfl

@[simp] theorem phase_mapImage (bytes : ByteArray) : (t.mapImage bytes).phase = t.phase := rfl

@[simp] theorem id_loadImage (bytes : ByteArray) : (t.loadImage bytes).2.id = t.id := by
  unfold loadImage
  dsimp only
  split <;> rfl

@[simp] theorem phase_loadImage (bytes : ByteArray) : (t.loadImage bytes).2.phase = t.phase := by
  unfold loadImage
  dsimp only
  split <;> rfl

@[simp] theorem id_setPriority (priority : UInt8) : (t.setPriority priority).id = t.id := rfl

@[simp] theorem phase_setPriority (priority : UInt8) :
    (t.setPriority priority).phase = t.phase := rfl

@[simp] theorem id_step : t.step.task.id = t.id := by
  unfold step
  split <;> rfl

@[simp] theorem phase_step : t.step.task.phase = t.phase := by
  unfold step
  split <;> rfl

@[simp] theorem id_finish (e : Option Fault) : (t.finish e).id = t.id := rfl

@[simp] theorem phase_finish (e : Option Fault) : (t.finish e).phase = t.phase := rfl

end Fields

end Task

end Coop
