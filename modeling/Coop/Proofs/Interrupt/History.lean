import Coop.Interrupt.Process

/-!
# Runs of an interrupt hub

A hub and its lines, and all that can be done with them, in any order. The main loop may be
interrupted wherever it looks for an event, so that looking for one event is a call of its own here,
next to handing over a batch. A run leaves a trace of incidents.

* `Station`, `Incident`: a hub with its lines, and what can be told of a run;
* `Reaction.raises`, `Station.handed`, `Station.batch`: what happens while events are handed over;
* `Call`, `Call.after`, `Call.incidents`: one call;
* `Station.run`, `Station.trace`: a run;
* `queued_raises`, **`calls_batch`**: the trace of a batch tells the handler calls it reports.
-/

namespace Coop

/-- A hub and the lines of its board. -/
structure Station (C : Type) where
  hub : Hub C
  lines : Lines

/-- Something that happened in a run. -/
inductive Incident where
  | attached (kind : Peripheral) (line : LineId)
  | registered (id : IrqId) (source : Source) (mask : EventMask)
  /-- A number was drawn for a channel that turned out to be taken. -/
  | wasted (source : Source)
  /-- An event was raised, with what its channel was armed for and whether it was queued. -/
  | raised (line : LineId) (channel : UInt8) (kind : EventKind) (armed : Option Armed)
    (queued : Bool)
  /-- A handler was called. -/
  | called (event : Event)
  /-- A queued event came to nobody. -/
  | discarded (id : IrqId) (kind : EventKind)
  deriving DecidableEq

/-- Raising an event on a line, as an incident. -/
def Lines.incident (lines : Lines) (line : LineId) (channel : UInt8) (kind : EventKind) :
    Incident :=
  .raised line channel kind ((lines.get line).armedAt channel) (lines.raise line channel kind).1

variable {C : Type}

/-- The events a reaction raises. -/
def Reaction.raises : Reaction C → Lines → List Incident
  | .finish _ _, _ => []
  | .raise line channel kind next, lines =>
    lines.incident line channel kind ::
      (next (lines.raise line channel kind).1).raises (lines.raise line channel kind).2
  | .log _ next, lines => next.raises lines

/-- The hub and the lines of a batch in progress. -/
def Drain.station (d : Drain C) : Station C := ⟨d.hub, d.lines⟩

namespace Station

/-- A board with `n` lines and nothing attached. -/
def start (n : Nat) : Station C := ⟨.empty, .new n⟩

/-- Hands over an event that was taken from its queue. -/
def hand (st : Station C) (id : IrqId) (kind : EventKind) : Station C :=
  (Drain.deliver ⟨st.hub, st.lines, #[], #[]⟩ id kind).station

/-- What happens when an event is handed over. -/
def handed (st : Station C) (id : IrqId) (kind : EventKind) : List Incident :=
  match st.hub.find? id with
  | none => [.discarded id kind]
  | some r =>
    if r.enabled then
      .called ⟨id, r.source, kind⟩ :: (r.handler ⟨id, r.source, kind⟩ r.capture).raises st.lines
    else [.discarded id kind]

/-- What happens while at most `max` events are handed over. -/
def batch : (max : Nat) → Station C → List Incident
  | 0, _ => []
  | max + 1, st =>
    match st.hub.poll st.lines with
    | (none, _, _) => []
    | (some (id, kind), hub, lines) =>
      handed ⟨hub, lines⟩ id kind ++ batch max (hand ⟨hub, lines⟩ id kind)

end Station

/-! ## Calls -/

/-- What can be done with a hub and its lines. -/
inductive Call (C : Type) where
  | attachGpio (line : LineId)
  | attachAdc (line : LineId)
  | register (source : Source) (mask : EventMask) (options : IrqOptions C) (handler : Handler C)
  | unregister (id : IrqId)
  | setEnabled (id : IrqId) (enabled : Bool)
  | sample (channel : UInt8) (mv : Nat)
  | process (max : Nat)
  /-- One look at the backend in turn, as a batch takes many. -/
  | look
  | raise (line : LineId) (channel : UInt8) (kind : EventKind)
  | disarmAll (line : LineId)

/-- What comes of a reading of a converter channel. -/
def Backend.sampled (b : Backend) (lines : Lines) (channel : UInt8) (mv : Nat) : List Incident :=
  match b with
  | gpio _ _ => []
  | adc l _ watches =>
    match (watches[channel.toNat]?).join with
    | none => []
    | some w =>
      match (w.sample mv).1 with
      | none => []
      | some kind => [lines.incident l channel kind]

namespace Call

/-- The station after a call. -/
def after (st : Station C) : Call C → Station C
  | attachGpio line => { st with hub := (st.hub.attach (.newGpio line)).value }
  | attachAdc line => { st with hub := (st.hub.attach (.newAdc line)).value }
  | register source mask options handler =>
    let r := (st.hub.register st.lines source mask options handler).value
    ⟨r.2.1, r.2.2⟩
  | unregister id =>
    let r := (st.hub.unregister st.lines id).value
    ⟨r.2.1, r.2.2⟩
  | setEnabled id enabled => { st with hub := (st.hub.setEnabled id enabled).2 }
  | sample channel mv =>
    let r := st.hub.sample st.lines channel mv
    ⟨r.2.1, r.2.2⟩
  | process max =>
    let p := (st.hub.process st.lines max).value
    ⟨p.hub, p.lines⟩
  | look =>
    match Hub.pollFrom 1 st.hub st.lines with
    | (none, hub, lines) => ⟨hub, lines⟩
    | (some (id, kind), hub, lines) => Station.hand ⟨hub, lines⟩ id kind
  | raise line channel kind => { st with lines := (st.lines.raise line channel kind).2 }
  | disarmAll line => { st with lines := st.lines.set line (st.lines.get line).disarmAll }

/-- What happens in a call. -/
def incidents (st : Station C) : Call C → List Incident
  | attachGpio line => [.attached .gpio line]
  | attachAdc line => [.attached .adc line]
  | register source mask options handler =>
    match (st.hub.register st.lines source mask options handler).value.1 with
    | .ok id => [.registered id source mask]
    | .error (.channelBusy _) => [.wasted source]
    | .error _ => []
  | sample channel mv =>
    match st.hub.backend? .adc with
    | none => []
    | some b => b.sampled st.lines channel mv
  | process max => st.batch max
  | look =>
    match Hub.pollFrom 1 st.hub st.lines with
    | (none, _, _) => []
    | (some (id, kind), hub, lines) => Station.handed ⟨hub, lines⟩ id kind
  | raise line channel kind => [st.lines.incident line channel kind]
  | unregister _ | setEnabled _ _ | disarmAll _ => []

end Call

namespace Station

/-- The station after some calls. -/
def run (st : Station C) (cs : List (Call C)) : Station C := cs.foldl Call.after st

/-- What happens in some calls. -/
def trace : Station C → List (Call C) → List Incident
  | _, [] => []
  | st, c :: cs => c.incidents st ++ trace (c.after st) cs

theorem run_append (st : Station C) (cs ds : List (Call C)) :
    st.run (cs ++ ds) = (st.run cs).run ds := List.foldl_append

theorem trace_append (st : Station C) (cs ds : List (Call C)) :
    st.trace (cs ++ ds) = st.trace cs ++ (st.run cs).trace ds := by
  induction cs generalizing st with
  | nil => rfl
  | cons c cs ih =>
    rw [List.cons_append, trace, ih, trace, List.append_assoc]
    rfl

end Station

/-! ## Batches -/

/-- Whether an event was queued, if one was raised. -/
def Incident.queued? : Incident → Option Bool
  | raised _ _ _ _ queued => some queued
  | _ => none

/-- The event a handler was called with, if one was. -/
def Incident.call? : Incident → Option Event
  | called event => some event
  | _ => none

theorem Reaction.queued_raises (r : Reaction C) (lines : Lines) :
    (r.raises lines).filterMap Incident.queued? = (r.perform lines).raised := by
  induction r generalizing lines with
  | finish => rfl
  | raise line channel kind next ih =>
    rw [raises, List.filterMap_cons, ih]
    rfl
  | log entry next ih => exact ih lines

theorem Reaction.calls_raises (r : Reaction C) (lines : Lines) :
    (r.raises lines).filterMap Incident.call? = [] := by
  induction r generalizing lines with
  | finish => rfl
  | raise line channel kind next ih =>
    rw [raises, List.filterMap_cons, ih]
    rfl
  | log entry next ih => exact ih lines

namespace Drain

variable (d : Drain C) (id : IrqId) (kind : EventKind)

theorem station_deliver : (d.deliver id kind).station = d.station.hand id kind := by
  obtain ⟨hub, lines, deliveries, log⟩ := d
  unfold Station.hand deliver station
  dsimp only
  cases hub.find? id with
  | none => rfl
  | some r =>
    dsimp only
    cases r.enabled with
    | false => rfl
    | true =>
      simp only [if_true]
      cases ((r.handler ⟨id, r.source, kind⟩ r.capture).perform lines).failure <;> rfl

theorem calls_deliver : (d.deliver id kind).deliveries.toList.map Delivery.event =
    d.deliveries.toList.map Delivery.event ++
      (d.station.handed id kind).filterMap Incident.call? := by
  unfold deliver Station.handed station
  dsimp only
  cases d.hub.find? id with
  | none => simp [Incident.call?]
  | some r =>
    dsimp only
    cases r.enabled with
    | false => simp [Incident.call?]
    | true => simp [Incident.call?, Reaction.calls_raises]

end Drain

/-- **The handler calls of a batch are the ones in its trace**, in the same order. -/
theorem Station.calls_batch (st : Station C) (max : Nat) :
    (st.batch max).filterMap Incident.call? =
      (st.hub.process st.lines max).value.deliveries.map Delivery.event := by
  suffices h : ∀ d : Drain C, (Drain.run max d).deliveries.toList.map Delivery.event =
      d.deliveries.toList.map Delivery.event ++
        (d.station.batch max).filterMap Incident.call? by
    exact (h ⟨st.hub, st.lines, #[], #[]⟩).symm
  intro d
  induction max generalizing d with
  | zero => simp [Drain.run, batch]
  | succ max ih =>
    obtain ⟨hub, lines, deliveries, log⟩ := d
    unfold Drain.run batch Drain.station
    dsimp only
    obtain ⟨found, hub, lines⟩ := hub.poll lines
    cases found with
    | none => simp
    | some e =>
      obtain ⟨id, kind⟩ := e
      dsimp only
      rw [ih, Drain.calls_deliver, Drain.station_deliver, List.append_assoc,
        ← List.filterMap_append]
      rfl

end Coop
