import Coop.Interrupt.Hub

/-!
# Delivering events

Queued events are handed to their handlers outside interrupt context, at most a given number at a
time, taking one event from each backend in turn and the oldest of each backend first.

* `Reaction.perform`: what a handler's reaction does;
* `Hub.poll`: the next event in turn;
* `Delivery`: the record of one handler call;
* `Drain.deliver`, `Drain.run`, `Hub.process`: handing over one event, and a batch.
-/

namespace Coop

variable {C : Type}

/-! ## Reactions -/

/-- The effects of a reaction: the capture and failure it ended with, for each event it raised
whether that was queued, the lines after it, and what it logged. -/
structure Performed (C : Type) where
  capture : C
  failure : Option String
  raised : List Bool
  lines : Lines
  log : List Entry

/-- Carries out a reaction. -/
def Reaction.perform : Reaction C → Lines → Performed C
  | .finish capture failure, lines => ⟨capture, failure, [], lines, []⟩
  | .raise line channel kind next, lines =>
    let (queued, lines) := lines.raise line channel kind
    let p := (next queued).perform lines
    { p with raised := queued :: p.raised }
  | .log entry next, lines =>
    let p := next.perform lines
    { p with log := entry :: p.log }

/-! ## The next event -/

namespace Hub

/-- Looks at up to `n` backends from the cursor on for a queued event. -/
def pollFrom : Nat → Hub C → Lines → Option (IrqId × EventKind) × Hub C × Lines
  | 0, h, lines => (none, h, lines)
  | n + 1, h, lines =>
    let place := h.cursor % h.backends.length
    let h := { h with cursor := (place + 1) % h.backends.length }
    match h.backends[place]? with
    | none => (none, h, lines)
    | some b =>
      match (lines.get b.line).take? with
      | none => pollFrom n h lines
      | some ((raw, kind), rest) => (some (⟨b.kind, raw⟩, kind), h, lines.set b.line rest)

/-- The next event in turn, if any line of a backend has one. -/
def poll (h : Hub C) (lines : Lines) : Option (IrqId × EventKind) × Hub C × Lines :=
  pollFrom h.backends.length h lines

end Hub

/-! ## Batches -/

/-- The record of one handler call: what the handler was told, the capture it left, for each event
it raised whether that was queued, and its failure. -/
structure Delivery (C : Type) where
  event : Event
  capture : C
  raised : List Bool
  failure : Option String

/-- A batch in progress. -/
structure Drain (C : Type) where
  hub : Hub C
  lines : Lines
  deliveries : Array (Delivery C)
  log : Array Entry

namespace Drain

/-- Hands one event to its handler, or counts it as discarded. -/
def deliver (d : Drain C) (id : IrqId) (kind : EventKind) : Drain C :=
  match d.hub.find? id with
  | none =>
    { d with
      hub := { d.hub with discarded := d.hub.discarded + 1 }
      log := d.log.push ⟨.debug, s!"irq: {id.label} gone, event dropped"⟩ }
  | some r =>
    if r.enabled then
      let event : Event := ⟨id, r.source, kind⟩
      let p := (r.handler event r.capture).perform d.lines
      let hub := d.hub.putHandler id { r with capture := p.capture }
      let log := d.log ++ p.log.toArray
      let (hub, log) := match p.failure with
        | none => (hub, log)
        | some message =>
          ({ hub with faults := hub.faults + 1 },
            log.push ⟨.error, s!"irq: handler for {id.label} failed: {message}"⟩)
      { hub := hub
        lines := p.lines
        deliveries := d.deliveries.push ⟨event, p.capture, p.raised, p.failure⟩
        log := log }
    else { d with hub := { d.hub with discarded := d.hub.discarded + 1 } }

/-- Hands over at most `max` events. -/
def run : Nat → Drain C → Drain C
  | 0, d => d
  | max + 1, d =>
    match d.hub.poll d.lines with
    | (none, hub, lines) => { d with hub := hub, lines := lines }
    | (some (id, kind), hub, lines) =>
      run max ({ d with hub := hub, lines := lines }.deliver id kind)

end Drain

/-- The result of a batch: the hub and the lines after it, and the handler calls made, in order. -/
structure Processed (C : Type) where
  hub : Hub C
  lines : Lines
  deliveries : List (Delivery C)

namespace Hub

/-- Hands over at most `max` events; stops as soon as every queue is empty. -/
def process (h : Hub C) (lines : Lines) (max : Nat) : Logged (Processed C) :=
  let d := Drain.run max ⟨h, lines, #[], #[]⟩
  ⟨⟨d.hub, d.lines, d.deliveries.toList⟩, d.log.toList⟩

end Hub

end Coop
