import Coop.Load
import Coop.Wait

/-!
# Running files

A file is loaded into a task, launched, and joined if that is asked for. The failure of a program is
an outcome of the run; only a file that cannot be loaded is an error. A task made for the run is
destroyed again if loading fails.

* `RunOutcome`, `RunOptions`, `Ran`;
* `Kernel.outcome`: what the end of a wait says about the program;
* `Kernel.run`.
-/

namespace Coop

/-- How a run ended. -/
inductive RunOutcome where
  /-- Started and not joined. -/
  | launched (id : TaskId)
  | completed (id : TaskId)
  /-- Ended by an uncaught failure, or never started. -/
  | failed (id : TaskId) (cause : Fault)
  | interrupted (id : TaskId)
  | timedOut (id : TaskId)
  deriving DecidableEq, Repr

/-- The task of a run. -/
def RunOutcome.task : RunOutcome → TaskId
  | .launched id | .completed id | .failed id _ | .interrupted id | .timedOut id => id

/-- How to run a file: in which dormant task, or else in a fresh one; whether to wait for its end,
and how. -/
structure RunOptions where
  task : Option TaskId
  join : Bool
  wait : WaitOptions
  deriving DecidableEq, Repr

/-- A run that ended, or ran out of patience without a result. -/
structure Ran (V ι C : Type) where
  result : Option (Except LoadError RunOutcome)
  kernel : Kernel
  volume : V
  host : Host ι C

namespace Kernel

/-- What the end of a wait says about a program. -/
def outcome (k : Kernel) (id : TaskId) : WaitOutcome → RunOutcome
  | .completed =>
    match k.error? id with
    | some e => .failed id e
    | none => .completed id
  | .interrupted => .interrupted id
  | .timedOut => .timedOut id

section Run

variable {V ι C : Type} [Volume V] [Receiver ι]

/-- Waits for a launched task and reports on it. -/
def join (patience : Nat) (k : Kernel) (id : TaskId) (opts : WaitOptions) (h : Host ι C) :
    Option RunOutcome × Kernel × Host ι C :=
  let w := k.wait patience id opts h
  (w.outcome.map (w.kernel.outcome id), w.kernel, w.host)

/-- Loads a file into a task, launches it, and joins it if that is asked for. -/
def runIn (patience : Nat) (k : Kernel) (vol : V) (h : Host ι C) (name : String) (id : TaskId)
    (fresh : Bool) (opts : RunOptions) : Ran V ι C :=
  let ((loaded, k, vol), h) := h.absorb (k.load vol id name)
  match loaded with
  | .error e =>
    let h := h.note .warn s!"run {name}: {e.message}"
    if fresh then
      let ((_, k), h) := h.absorb (k.destroy id)
      ⟨some (.error e), k, vol, h⟩
    else ⟨some (.error e), k, vol, h⟩
  | .ok _ =>
    let ((launched, k), h) := h.absorb (k.execute id)
    if !launched then ⟨some (.ok (.failed id (k.failure id))), k, vol, h⟩
    else if !opts.join then ⟨some (.ok (.launched id)), k, vol, h⟩
    else
      let (outcome, k, h) := k.join patience id opts.wait h
      ⟨outcome.map .ok, k, vol, h⟩

/-- Runs a file in the task asked for, or in a fresh one. -/
def run (patience : Nat) (k : Kernel) (vol : V) (h : Host ι C) (name : String)
    (opts : RunOptions) : Ran V ι C :=
  match opts.task with
  | some id => k.runIn patience vol h name id false opts
  | none =>
    let ((created, k), h) := h.absorb (k.create none)
    match created with
    | .error e => ⟨some (.error (.registry e)), k, vol, h⟩
    | .ok id => k.runIn patience vol h name id true opts

end Run

end Kernel

end Coop
