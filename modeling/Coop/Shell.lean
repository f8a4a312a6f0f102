import Coop.Run

/-!
# The shell

What a prompt calls into: named background tasks, one task for the lines typed in, and files run to
their end. Failures of programs are printed on the console and returned.

A task made for a file that is not dormant when the run ends goes on a list of orphans; it is
destroyed as soon as it is dormant, unless it was given a name meanwhile.

* `ShellError`, `Shell`, `Answered`;
* `Shell.spawn`, `Shell.start`, `Shell.suspend`, `Shell.resume`, `Shell.kill`, `Shell.remove`;
* `Shell.evaluate`: runs a line typed in;
* `Shell.runFile`, `Shell.reap`, `Shell.poll`.
-/

namespace Coop

/-- Why the shell refused. -/
inductive ShellError where
  | noSuchTask (name : String)
  | registry (e : Registry.Error)
  | compile (e : CompileError)
  | load (e : LoadError)
  /-- The image was rejected at launch. -/
  | exec (e : Fault)
  /-- The request made no sense in the task's phase. -/
  | wrongPhase (p : Phase)
  deriving DecidableEq, Repr

/-- The wording of a refusal. -/
def ShellError.message : ShellError → String
  | .noSuchTask name => "no task named " ++ name
  | .registry e => e.message
  | .compile e => e.text
  | .load e => e.message
  | .exec e => e.text
  | .wrongPhase p => "task is " ++ p.name

/-- The shell: the kernel, the volume files come from, the task for lines typed in, and the orphans.
-/
structure Shell (V : Type) where
  kernel : Kernel
  volume : V
  evaluator : Option TaskId
  orphans : List TaskId

/-- A blocking call that was answered, or ran out of patience without a result. -/
structure Answered (V ι C : Type) where
  result : Option (Except ShellError RunOutcome)
  shell : Shell V
  host : Host ι C

namespace Shell

variable {V ι C : Type}

/-- A shell without tasks. -/
def new (config : Config) (volume : V) : Shell V := ⟨Kernel.new config, volume, none, []⟩

/-- The task a name stands for. -/
def task (s : Shell V) (name : String) : Option TaskId := s.kernel.lookup name

/-- The text of the current snapshot. -/
def stat (s : Shell V) : String := s.kernel.stat.render

/-! ## Background tasks -/

/-- Takes back a task that could not be set up, and reports why it could not. -/
def retract (s : Shell V) (name : String) (why : ShellError) :
    Logged (Except ShellError TaskId × Shell V) := do
  let (removed, kernel) ← s.kernel.remove name
  let s := { s with kernel := kernel }
  match removed with
  | .error e => return (.error (.registry e), s)
  | .ok () => return (.error why, s)

/-- Launches a task that was set up. -/
def launch (s : Shell V) (id : TaskId) (announcement : String) :
    Logged (Except ShellError TaskId × Shell V) := do
  let (launched, kernel) ← s.kernel.execute id
  let s := { s with kernel := kernel }
  if launched then
    Logged.info announcement
    return (.ok id, s)
  else
    return (.error (.exec (kernel.failure id)), s)

/-- Starts a script as a new background task. -/
def spawn (s : Shell V) (name source : String) : Logged (Except ShellError TaskId × Shell V) := do
  let (created, kernel) ← s.kernel.create (some name)
  let s := { s with kernel := kernel }
  match created with
  | .error e => return (.error (.registry e), s)
  | .ok id =>
    let (compiled, kernel) ← s.kernel.compile id source
    let s := { s with kernel := kernel }
    if compiled then s.launch id s!"spawned {name} as task {id.label}"
    else s.retract name (.compile (kernel.compileError id))

/-- Starts a file as a new background task. -/
def start [Volume V] (s : Shell V) (name path : String) :
    Logged (Except ShellError TaskId × Shell V) := do
  let (created, kernel) ← s.kernel.create (some name)
  let s := { s with kernel := kernel }
  match created with
  | .error e => return (.error (.registry e), s)
  | .ok id =>
    let (loaded, kernel, volume) ← s.kernel.load s.volume id path
    let s := { s with kernel := kernel, volume := volume }
    match loaded with
    | .error e => s.retract name (.load e)
    | .ok _ => s.launch id s!"started {name} from {path} as task {id.label}"

/-- Asks a task to park. -/
def suspend (s : Shell V) (name : String) : Except ShellError Unit × Shell V :=
  match s.task name with
  | none => (.error (.noSuchTask name), s)
  | some id =>
    let (ok, kernel) := s.kernel.suspend id
    (if ok then .ok () else .error (.wrongPhase .dormant), { s with kernel := kernel })

/-- Makes a suspended task ready again. -/
def resume (s : Shell V) (name : String) : Except ShellError Unit × Shell V :=
  match s.task name with
  | none => (.error (.noSuchTask name), s)
  | some id =>
    let (ok, kernel) := s.kernel.resume id
    (if ok then .ok () else .error (.wrongPhase ((kernel.phase? id).getD .dormant)),
      { s with kernel := kernel })

/-- Asks a task to stop. -/
def kill (s : Shell V) (name : String) : Logged (Except ShellError Unit × Shell V) := do
  match s.task name with
  | none => return (.error (.noSuchTask name), s)
  | some id =>
    let (ok, kernel) ← s.kernel.interrupt id
    return (if ok then .ok () else .error (.wrongPhase .dormant), { s with kernel := kernel })

/-- Drops a dormant task. -/
def remove (s : Shell V) (name : String) : Logged (Except ShellError Unit × Shell V) := do
  let (removed, kernel) ← s.kernel.remove name
  let s := { s with kernel := kernel }
  match removed with
  | .ok () => return (.ok (), s)
  | .error .notFound => return (.error (.noSuchTask name), s)
  | .error e => return (.error (.registry e), s)

/-! ## Orphans -/

/-- Destroys the dormant ones of a list of orphans and gives those still to be watched. A task with
a name is nobody's orphan any more. -/
def reapFrom (k : Kernel) : List TaskId → Logged (List TaskId × Kernel)
  | [] => return ([], k)
  | id :: rest =>
    if k.registry.isNamed id then reapFrom k rest
    else
      match k.phase? id with
      | none => reapFrom k rest
      | some .dormant => do
        let (_, k) ← k.destroy id
        Logged.info s!"task {id.label} reaped"
        reapFrom k rest
      | some _ => do
        let (kept, k) ← reapFrom k rest
        return (id :: kept, k)

/-- Destroys the dormant orphans. -/
def reap (s : Shell V) : Logged (Shell V) := do
  let (orphans, kernel) ← reapFrom s.kernel s.orphans
  return { s with kernel := kernel, orphans := orphans }

/-- Takes on an orphan. -/
def orphan (s : Shell V) (id : TaskId) : Logged (Shell V) :=
  { s with orphans := s.orphans ++ [id] }.reap

/-! ## Blocking calls -/

/-- Prints the failure of a program. -/
def report (h : Host ι C) : RunOutcome → Host ι C
  | .failed _ e => h.writeLine e.text
  | _ => h

/-- The task for lines typed in, made if there is none. -/
def ensureEvaluator (s : Shell V) : Logged (Except ShellError TaskId × Shell V) := do
  match s.evaluator.filter (fun id => (s.kernel.task? id).isSome) with
  | some id => return (.ok id, s)
  | none =>
    let (created, kernel) ← s.kernel.create none
    let s := { s with kernel := kernel }
    match created with
    | .error e => return (.error (.registry e), s)
    | .ok id => return (.ok id, { s with evaluator := some id })

/-- Compiles and runs a line in a task, up to its end or a Ctrl-C. -/
def evaluateIn [Receiver ι] (patience : Nat) (s : Shell V) (id : TaskId) (h : Host ι C)
    (source : String) : Answered V ι C :=
  let ((compiled, kernel), h) := h.absorb (s.kernel.compile id source)
  if !compiled then
    let e := kernel.compileError id
    ⟨some (.error (.compile e)), { s with kernel := kernel }, h.writeLine e.text⟩
  else
    let ((launched, kernel), h) := h.absorb (kernel.execute id)
    if !launched then
      let outcome := RunOutcome.failed id (kernel.failure id)
      ⟨some (.ok outcome), { s with kernel := kernel }, report h outcome⟩
    else
      let (outcome, kernel, h) := kernel.join patience id .untilSignal h
      let s := { s with kernel := kernel }
      match outcome with
      | none => ⟨none, s, h⟩
      | some outcome => ⟨some (.ok outcome), s, report h outcome⟩

/-- Runs a line typed in. -/
def evaluate [Receiver ι] (patience : Nat) (s : Shell V) (h : Host ι C) (source : String) :
    Answered V ι C :=
  let ((found, s), h) := h.absorb s.ensureEvaluator
  match found with
  | .error e => ⟨some (.error e), s, h⟩
  | .ok id =>
    match (s.kernel.phase? id).filter (fun p => p ≠ .dormant) with
    | some p => ⟨some (.error (.wrongPhase p)), s, h⟩
    | none => s.evaluateIn patience id h source

/-- Disposes of the task of a run that ended. After a Ctrl-C the task stops within one more turn. -/
def dispose (s : Shell V) (h : Host ι C) : RunOutcome → Shell V × Host ι C
  | .completed id | .failed id _ =>
    let ((_, kernel), h) := h.absorb (s.kernel.destroy id)
    ({ s with kernel := kernel }, h)
  | .interrupted id =>
    let (t, h) := h.absorb s.kernel.tick
    (h.write t.output).absorb ({ s with kernel := t.kernel }.orphan id)
  | .timedOut id | .launched id => h.absorb (s.orphan id)

/-- Runs a file up to its end or a Ctrl-C. -/
def runFile [Volume V] [Receiver ι] (patience : Nat) (s : Shell V) (h : Host ι C) (path : String) :
    Answered V ι C :=
  let ran := s.kernel.run patience s.volume h path ⟨none, true, .untilSignal⟩
  let s := { s with kernel := ran.kernel, volume := ran.volume }
  match ran.result with
  | none => ⟨none, s, ran.host⟩
  | some (.error e) => ⟨some (.error (.load e)), s, ran.host.writeLine e.message⟩
  | some (.ok outcome) =>
    let (s, h) := s.dispose (report ran.host outcome) outcome
    ⟨some (.ok outcome), s, h⟩

/-- One background turn at the prompt: the watchdog, a batch of events and, unless the kernel is
idle, a turn of the scheduler. Gives the number of tasks dispatched. -/
def poll (s : Shell V) (h : Host ι C) : Nat × Shell V × Host ι C :=
  let h := (h.feed.pump eventsPerQuantum).2
  if s.kernel.isIdle then (0, s, h)
  else
    let (t, h) := h.absorb s.kernel.tick
    let (s, h) := (h.write t.output).absorb { s with kernel := t.kernel }.reap
    (t.dispatched, s, h)

end Shell

end Coop
