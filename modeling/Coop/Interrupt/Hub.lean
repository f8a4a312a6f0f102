import Coop.Interrupt.Backend
import Coop.Journal

/-!
# The interrupt hub

The hub holds the backends and the handlers registered for their events. A handler answers an event
with a `Reaction`: it may raise further events, learns whether each was queued, may log, and ends
with the new value of the capture it was registered with and possibly a failure.

* `Reaction`, `Handler`, `Registration`, `Hub`;
* `Hub.attach`, `Hub.register`, `Hub.unregister`, `Hub.setEnabled`, `Hub.sample`;
* `Hub.pending`, `Hub.dropped`: what the lines hold and lost.
-/

namespace Coop

/-- What a handler does about an event. -/
inductive Reaction (C : Type) where
  /-- It is done: its capture is now this, and this went wrong. -/
  | finish (capture : C) (failure : Option String)
  /-- It raises an event and goes on, knowing whether that was queued. -/
  | raise (line : LineId) (channel : UInt8) (kind : EventKind) (next : Bool → Reaction C)
  /-- It logs a message and goes on. -/
  | log (entry : Entry) (next : Reaction C)

/-- A handler: its reaction to an event, given its capture. -/
abbrev Handler (C : Type) := Event → C → Reaction C

/-- A registered handler. -/
structure Registration (C : Type) where
  source : Source
  mask : EventMask
  enabled : Bool
  capture : C
  handler : Handler C

/-- How a handler is registered: its capture, the threshold a converter channel needs, and whether
it starts out enabled. -/
structure IrqOptions (C : Type) where
  enabled : Bool
  threshold : Option Nat
  capture : C

/-- The hub. -/
structure Hub (C : Type) where
  backends : List Backend
  handlers : List (IrqId × Registration C)
  /-- Handlers that failed. -/
  faults : UInt32
  /-- Events whose registration was gone or disabled. -/
  discarded : UInt32
  /-- The backend to look at next. -/
  cursor : Nat

namespace Hub

variable {C : Type}

/-- A hub without backends. -/
def empty : Hub C := ⟨[], [], 0, 0, 0⟩

/-! ## Looking things up -/

/-- The registration with a number. -/
def find? (h : Hub C) (id : IrqId) : Option (Registration C) := h.handlers.lookup id

/-- The backend of a kind of peripheral. -/
def backend? (h : Hub C) (kind : Peripheral) : Option Backend :=
  h.backends.find? (fun b => b.kind == kind)

/-- Replaces the backend of the same kind. -/
def putBackend (h : Hub C) (b : Backend) : Hub C :=
  { h with backends := h.backends.map (fun o => if o.kind = b.kind then b else o) }

/-- Replaces the registration with a number. -/
def putHandler (h : Hub C) (id : IrqId) (r : Registration C) : Hub C :=
  { h with handlers := h.handlers.map (fun e => if e.1 = id then (id, r) else e) }

/-- The events waiting on the lines of the backends. -/
def pending (h : Hub C) (lines : Lines) : Nat :=
  h.backends.foldl (fun n b => n + (lines.get b.line).queue.length) 0

/-- The events lost on the lines of the backends. -/
def dropped (h : Hub C) (lines : Lines) : UInt32 :=
  h.backends.foldl (fun n b => n + (lines.get b.line).dropped) 0

/-! ## Backends and registrations -/

/-- Installs a backend in place of any earlier one of its kind. -/
def attach (h : Hub C) (b : Backend) : Logged (Hub C) := do
  Logged.info s!"irq: {b.kind.name} backend attached"
  return { h with backends := h.backends.filter (fun o => o.kind ≠ b.kind) ++ [b] }

/-- Registers a handler for the events of a source. -/
def register (h : Hub C) (lines : Lines) (source : Source) (mask : EventMask)
    (options : IrqOptions C) (handler : Handler C) :
    Logged (Except IrqError IrqId × Hub C × Lines) := do
  match h.backend? source.kind with
  | none => return (.error (.unsupported source.kind), h, lines)
  | some b =>
    let (result, b, lines) := b.register lines source.channel mask options.threshold
    let h := h.putBackend b
    match result with
    | .error e => return (.error e, h, lines)
    | .ok raw =>
      let id : IrqId := ⟨source.kind, raw⟩
      let r : Registration C := ⟨source, mask, options.enabled, options.capture, handler⟩
      Logged.info s!"irq: {id.label} registered for {source.label}"
      let others := h.handlers.filter (fun e => e.1 ≠ id)
      return (.ok id, { h with handlers := others ++ [(id, r)] }, lines)

/-- Removes a handler; tells whether its channel was still armed. -/
def unregister (h : Hub C) (lines : Lines) (id : IrqId) :
    Logged (Except IrqError Bool × Hub C × Lines) := do
  match h.find? id with
  | none => return (.error (.notRegistered id), h, lines)
  | some _ =>
    let h := { h with handlers := h.handlers.filter (fun e => e.1 ≠ id) }
    Logged.info s!"irq: {id.label} unregistered"
    match h.backend? id.kind with
    | none => return (.ok false, h, lines)
    | some b =>
      let (active, b, lines) := b.unregister lines id.raw
      return (.ok active, h.putBackend b, lines)

/-- Enables or disables a handler; tells how it was before. -/
def setEnabled (h : Hub C) (id : IrqId) (enabled : Bool) : Except IrqError Bool × Hub C :=
  match h.find? id with
  | none => (.error (.notRegistered id), h)
  | some r => (.ok r.enabled, h.putHandler id { r with enabled := enabled })

/-- Takes in a reading of a converter channel; tells whether an edge was queued. -/
def sample (h : Hub C) (lines : Lines) (channel : UInt8) (mv : Nat) : Bool × Hub C × Lines :=
  match h.backend? .adc with
  | none => (false, h, lines)
  | some b =>
    let (queued, b, lines) := b.sample lines channel mv
    (queued, h.putBackend b, lines)

end Hub

end Coop
