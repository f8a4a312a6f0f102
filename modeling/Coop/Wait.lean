import Coop.Host
import Coop.Kernel

/-!
# Waiting for a task

A supervisor blocks until a task is dormant. Every pass looks for a Ctrl-C if asked to, runs one
turn of the scheduler, feeds the watchdog, hands over a batch of events and sleeps one quantum. A
time limit is checked after the sleep.

The number of sleeps that come to an end is bounded by the argument `patience`, since a wait need
not end by itself: the sleep after that never returns, and the wait has no outcome.

* `WaitOutcome`, `WaitOptions`, `Waited`;
* `Host.seesInterrupt`: looks for a Ctrl-C;
* `Kernel.pass`: the work of one pass;
* `Kernel.wait`.
-/

namespace Coop

/-- The byte that interrupts a wait. -/
def ctrlC : UInt8 := 0x03

/-- The most events handed over in one pass. -/
def eventsPerQuantum : Nat := 8

/-- The largest time a wait counts, in milliseconds. -/
def elapsedLimit : Nat := 0xffffffff

/-- How a wait ended. -/
inductive WaitOutcome where
  | completed
  /-- A Ctrl-C was seen and the task was asked to stop. -/
  | interrupted
  /-- The limit passed; the task goes on. -/
  | timedOut
  deriving DecidableEq, Repr

/-- Whether a wait saw the task end. -/
def WaitOutcome.isCompleted : WaitOutcome → Bool
  | .completed => true
  | _ => false

/-- How to wait: whether to look for Ctrl-C, and for how many milliseconds at most. -/
structure WaitOptions where
  signal : Bool
  timeout : Option Nat
  deriving DecidableEq, Repr

/-- Waits for the end or a Ctrl-C, without limit. -/
def WaitOptions.untilSignal : WaitOptions := ⟨true, none⟩

/-- A wait that ended, or ran out of patience without an outcome. -/
structure Waited (ι C : Type) where
  outcome : Option WaitOutcome
  kernel : Kernel
  host : Host ι C

section Wait

variable {ι C : Type}

/-- Looks for a Ctrl-C, if asked to. Other input is dropped, and a read error only logged. -/
def Host.seesInterrupt [Receiver ι] (h : Host ι C) (signal : Bool) : Bool × Host ι C :=
  if signal then
    match h.read with
    | (.byte b, h) => (b == ctrlC, h)
    | (.nothing, h) => (false, h)
    | (.failed detail, h) => (false, h.note .debug s!"console read: {detail}")
  else (false, h)

namespace Kernel

/-- Whether there is nothing left to wait for: the task is dormant or does not exist. -/
def atRest (k : Kernel) (id : TaskId) : Bool :=
  match k.phase? id with
  | none => true
  | some p => p == .dormant

/-- The work of one pass: a turn, the watchdog, a batch of events, a sleep. -/
def pass (k : Kernel) (h : Host ι C) : Kernel × Host ι C :=
  let (t, h) := h.absorb k.tick
  let h := ((h.write t.output).feed.pump eventsPerQuantum).2
  (t.kernel, h.sleep k.config.quantumMs)

/-- Answers a Ctrl-C: the task is asked to stop, and the watchdog is switched off. -/
def abandon (k : Kernel) (id : TaskId) (h : Host ι C) : Kernel × Host ι C :=
  let ((_, k), h) := (h.write "^C\n").absorb (k.interrupt id)
  (k, h.disableWatchdog.2.note .info s!"wait on task {id.label}: interrupted")

/-- The passes of a wait; `elapsed` is the time slept so far. -/
def waitFrom [Receiver ι] (id : TaskId) (opts : WaitOptions) (patience elapsed : Nat) (k : Kernel)
    (h : Host ι C) : Waited ι C :=
  if k.atRest id then ⟨some .completed, k, h⟩
  else
    match h.seesInterrupt opts.signal with
    | (true, h) =>
      let (k, h) := k.abandon id h
      ⟨some .interrupted, k, h⟩
    | (false, h) =>
      let (k, h) := k.pass h
      match patience with
      | 0 => ⟨none, k, h⟩
      | patience + 1 =>
        match opts.timeout with
        | none => waitFrom id opts patience elapsed k h
        | some limit =>
          let elapsed := min (elapsed + k.config.quantumMs) elapsedLimit
          if limit < elapsed then
            ⟨some .timedOut, k,
              h.note .warn s!"wait on task {id.label}: timed out after {elapsed} ms"⟩
          else waitFrom id opts patience elapsed k h

/-- Blocks until a task is dormant, a Ctrl-C arrives or the time limit passes. -/
def wait [Receiver ι] (patience : Nat) (k : Kernel) (id : TaskId) (opts : WaitOptions)
    (h : Host ι C) : Waited ι C :=
  waitFrom id opts patience 0 k h

theorem wait_of_atRest [Receiver ι] (patience : Nat) {k : Kernel} {id : TaskId}
    (hr : k.atRest id = true) (opts : WaitOptions) (h : Host ι C) :
    k.wait patience id opts h = ⟨some .completed, k, h⟩ := by
  simp only [wait]
  unfold waitFrom
  simp [hr]

end Kernel

end Wait

end Coop
