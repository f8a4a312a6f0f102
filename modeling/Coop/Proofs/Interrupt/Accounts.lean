import Coop.Proofs.Interrupt.Draining
import Coop.Proofs.Interrupt.Lines
import Coop.Proofs.Interrupt.Trace
import Coop.Proofs.Interrupt.Wiring
import Coop.Proofs.Machine.Guarded

/-!
# The accounts of a batch

Every event that a batch takes from a queue is the oldest there and becomes one handler call or is
counted as discarded. What is in a queue after the batch is what was there before it, less what was
taken, with what the handlers raised behind it.

* `queue_perform`, `Handover.queue_before`, `Handover.queue_after`: the queues, when one event is
  handed over;
* `Handover.raised_calls`: what the handlers are told about the events they raise;
* `Handover.isDiscarded`, `Handover.discarded_after`, `Handover.faults_after`: the counts;
* `Registration.afterCalls`, `Handover.find?_after`: the registrations and their captures;
* `Station.look`, `Handover.look_before`: the looks;
* **`Drains.queues`**, `Drains.discarded`, `Drains.faults`, `Drains.registrations`, `Drains.looks`:
  the same for a batch;
* `Hub.guardedProcess`, **`Drains.guardedRun_eq`**: a batch that tests its count.
-/

namespace Coop

variable {C : Type}

/-! ## Queues -/

theorem Lines.queue_raise (ls : Lines) (i : LineId) (channel : UInt8) (kind : EventKind)
    (line : LineId) : ((ls.raise i channel kind).2.get line).queue =
      (ls.get line).queue ++ ((ls.incident i channel kind).sent? line).toList := by
  have hincident : ls.incident i channel kind = .raised i channel kind
      ((ls.get i).armedAt channel) ((ls.get i).raise channel kind).1 := rfl
  rw [get_raise, hincident]
  cases hq : ((ls.get i).raise channel kind).1 with
  | false =>
    have hnone : Incident.sent? line (.raised i channel kind ((ls.get i).armedAt channel) false) =
        none := by simp [Incident.sent?]
    rw [hnone, Option.toList_none, List.append_nil]
    split_ifs with hl
    · rw [SignalLine.queue_raise_of_false hq, hl]
    · rfl
  | true =>
    obtain ⟨a, ha, -, hqueue⟩ := SignalLine.queue_raise_of_true hq
    rw [ha, Incident.sent?]
    split_ifs with hl
    · rw [hqueue, hl]
      rfl
    · exact (List.append_nil _).symm

theorem Reaction.queue_perform (r : Reaction C) (lines : Lines) (line : LineId) :
    ((r.perform lines).lines.get line).queue =
      (lines.get line).queue ++ Trace.sent line (r.raises lines) := by
  induction r generalizing lines with
  | finish => exact (List.append_nil _).symm
  | raise i channel kind next ih =>
    have hsent : Trace.sent line ((raise i channel kind next).raises lines) =
        ((lines.incident i channel kind).sent? line).toList ++
          Trace.sent line ((next (lines.raise i channel kind).1).raises
            (lines.raise i channel kind).2) :=
      filterMap_cons_append _ _ _
    rw [hsent, ← List.append_assoc, ← lines.queue_raise]
    exact ih _ _
  | log entry next ih => exact ih lines

namespace Handover

variable (e : Handover C)

/-- The event, if it is taken from this line. -/
def takenFrom? (line : LineId) (e : Handover C) : Option (UInt16 × EventKind) :=
  if e.backend.line = line then some (e.raw, e.kind) else none

theorem queue_before (line : LineId) : (e.before.lines.get line).queue =
    (e.takenFrom? line).toList ++ (e.lines.get line).queue := by
  have hlines : e.lines = e.before.lines.set e.backend.line
      { e.before.lines.get e.backend.line with
        queue := (e.before.lines.get e.backend.line).queue.tail } := by
    rw [e.oldest]
    rfl
  rw [hlines, Lines.get_update _ _ (f := fun l => { l with queue := l.queue.tail }) rfl, takenFrom?]
  split_ifs with hl
  · rw [← hl, e.oldest]
    rfl
  · rfl

theorem queue_after (line : LineId) : (e.after.lines.get line).queue =
    (e.lines.get line).queue ++ Trace.sent line e.raises := by
  unfold after raises
  cases e.taker? with
  | none => exact (List.append_nil _).symm
  | some r => exact (e.reaction r).queue_perform e.lines line

/-- The handlers are told of every event they raise whether it was queued. -/
theorem raised_calls (es : List (Handover C)) : (es.filterMap call?).flatMap Delivery.raised =
    (es.flatMap raises).filterMap Incident.queued? := by
  induction es with
  | nil => rfl
  | cons e es ih =>
    have hone : e.call?.toList.flatMap Delivery.raised = e.raises.filterMap Incident.queued? := by
      unfold call? raises
      cases e.taker? with
      | none => rfl
      | some r =>
        rw [Reaction.queued_raises]
        exact List.append_nil _
    rw [filterMap_cons_append, List.flatMap_append, ih, hone, List.flatMap_cons,
      List.filterMap_append]

/-! ## Counts and captures -/

theorem backends_after : e.after.hub.backends = e.before.hub.backends := by
  unfold after
  cases e.taker? <;> rfl

/-- Whether the event is discarded: no handler is registered for it and enabled. -/
def isDiscarded (e : Handover C) : Bool := e.taker?.isNone

theorem length_calls (es : List (Handover C)) :
    (es.filterMap call?).length + es.countP isDiscarded = es.length := by
  have hcalled (e : Handover C) : e.call?.isSome = !e.isDiscarded := by
    unfold call? isDiscarded
    cases e.taker? <;> rfl
  rw [List.length_filterMap_eq_countP, List.length_eq_countP_add_countP isDiscarded, Nat.add_comm]
  simp only [hcalled, decide_not, Bool.decide_eq_true]

theorem discarded_after : e.after.hub.discarded =
    e.before.hub.discarded + .ofNat (if e.isDiscarded then 1 else 0) := by
  unfold after isDiscarded
  cases e.taker? with
  | none => rfl
  | some r => exact (UInt32.add_zero _).symm

end Handover

/-- Whether the handler failed. -/
def Delivery.failed (d : Delivery C) : Bool := d.failure.isSome

theorem Handover.faults_after (e : Handover C) : e.after.hub.faults =
    e.before.hub.faults + .ofNat (e.call?.toList.countP Delivery.failed) := by
  unfold after call?
  cases e.taker? with
  | none => exact (UInt32.add_zero _).symm
  | some r =>
    simp only [Option.map_some, Option.toList_some, List.countP_singleton, Delivery.failed]
    by_cases hf : (e.performed r).failure.isSome = true <;> simp [hf]

/-- The registration with a number after some calls: its capture is what the last call for the
number left. -/
def Registration.afterCalls (id : IrqId) (calls : List (Delivery C)) (r : Registration C) :
    Registration C :=
  { r with
    capture := calls.foldl (fun capture d => if d.event.id = id then d.capture else capture)
      r.capture }

theorem Registration.afterCalls_append (id : IrqId) (calls calls' : List (Delivery C))
    (r : Registration C) :
    r.afterCalls id (calls ++ calls') = (r.afterCalls id calls).afterCalls id calls' := by
  rw [afterCalls, List.foldl_append]
  rfl

theorem Hub.find?_putHandler (h : Hub C) (id id' : IrqId) (r : Registration C) :
    (h.putHandler id r).find? id' = if id' = id then (h.find? id).map fun _ => r else h.find? id' :=
  lookup_put r id'

/-- Handing over an event leaves every registration as it is, but for the capture of the one whose
handler is called. -/
theorem Handover.find?_after (e : Handover C) (id : IrqId) : e.after.hub.find? id =
    (e.before.hub.find? id).map (Registration.afterCalls id e.call?.toList) := by
  unfold after call?
  cases htaker : e.taker? with
  | none => exact Option.map_id'.symm
  | some r =>
    obtain ⟨hr, -⟩ := taker?_eq_some.mp htaker
    refine (e.before.hub.advance.find?_putHandler e.id id _).trans ?_
    rw [Hub.find?_advance, Hub.find?_advance]
    split_ifs with hid
    · rw [hid, hr]
      simp [Registration.afterCalls]
    · cases e.before.hub.find? id <;> simp [Registration.afterCalls, Ne.symm hid]

/-! ## Looks -/

/-- The station after one look, and after the event it finds has been handed over. -/
def Station.look (st : Station C) : Station C := Call.after st .look

theorem Station.look_of_idle {h : Hub C} {lines : Lines} (hidle : h.Idle lines) :
    look ⟨h, lines⟩ = ⟨h.advance, lines⟩ := by
  unfold look Call.after
  rw [Hub.pollFrom_one_of_idle hidle]

theorem Handover.look_before (e : Handover C) : e.before.look = e.after := by
  unfold Station.look Call.after
  rw [Hub.pollFrom_handover]
  dsimp only
  rw [Station.hand, e.deliver_eq]
  rfl

theorem Station.look_iterate_of_idle {st : Station C} {i : Nat}
    (hidle : ∀ j < i, (Hub.advance^[j] st.hub).Idle st.lines) :
    look^[i] st = ⟨Hub.advance^[i] st.hub, st.lines⟩ := by
  induction i with
  | zero => rfl
  | succ i ih =>
    rw [Function.iterate_succ_apply', ih fun j hj => hidle j (Nat.lt_succ_of_lt hj),
      look_of_idle (hidle i (Nat.lt_succ_self i)), Function.iterate_succ_apply']

/-! ## Batches -/

theorem Station.Finds.before_eq {st : Station C} {i : Nat} {e : Handover C} (hf : st.Finds i e) :
    ∃ cursor, e.before = ⟨{ st.hub with cursor := cursor }, st.lines⟩ := by
  obtain ⟨cursor, hcursor, -⟩ := st.hub.advance_iterate i
  exact ⟨cursor, by rw [hf.before, hcursor]⟩

namespace Drains

variable {max k : Nat} {st st' : Station C} {e : Handover C} {es es' : List (Handover C)}

theorem length_le (h : Drains max st k es st') : es.length ≤ max := by
  induction h with
  | full st => exact Nat.le_refl 0
  | idle he => exact Nat.zero_le _
  | event hf hrest ih => exact Nat.succ_le_succ ih

theorem empty_of_lt (h : Drains max st k es st') (hlt : es.length < max) :
    st'.hub.Empty st'.lines := by
  induction h with
  | full st => cases hlt
  | idle he => exact he.wrapped
  | event hf hrest ih => exact ih (Nat.lt_of_succ_lt_succ hlt)

theorem backends (h : Drains max st k es st') : st'.hub.backends = st.hub.backends := by
  induction h with
  | full st => rfl
  | idle he => rfl
  | @event _ _ _ _ _ e _ hf hrest ih =>
    obtain ⟨cursor, hbefore⟩ := hf.before_eq
    rw [ih, e.backends_after, hbefore]

theorem split (h : Drains max st k (es ++ e :: es') st') :
    ∃ l st₁ i, Drains es.length st l es st₁ ∧ st₁.Finds i e := by
  induction es generalizing max st k with
  | nil =>
    cases h with
    | event hf hrest => exact ⟨0, st, _, .full st, hf⟩
  | cons f es ih =>
    cases h with
    | event hf hrest =>
      obtain ⟨l, st₁, i, hfirst, hlast⟩ := ih hrest
      exact ⟨_, st₁, i, .event hf hfirst, hlast⟩

theorem mem_backends (h : Drains max st k es st') (he : e ∈ es) :
    e.backend ∈ st.hub.backends := by
  obtain ⟨es, es', rfl⟩ := List.append_of_mem he
  obtain ⟨l, st₁, i, hfirst, hf⟩ := h.split
  obtain ⟨cursor, hbefore⟩ := hf.before_eq
  have hmem := Hub.mem_of_turn? e.inTurn
  rw [hbefore] at hmem
  rw [← hfirst.backends]
  exact hmem

theorem looks (h : Drains max st k es st') : Station.look^[k] st = st' := by
  induction h with
  | full st => rfl
  | @idle _ st he =>
    rw [Station.look_iterate_of_idle fun j _ => (he.advance_iterate j).idle, Hub.advance_round]
  | @event _ i k st st' e es hf hrest ih =>
    rw [Nat.add_comm, Function.iterate_add_apply, Function.iterate_succ_apply',
      Station.look_iterate_of_idle hf.idle, ← hf.before, e.look_before, ih]

/-- A batch takes at most a round of looks for each event, and a round to see that there is no more.
-/
theorem looks_le (h : Drains max st k es st') : k ≤ st.hub.backends.length * (es.length + 1) := by
  induction h with
  | full st => exact Nat.zero_le _
  | idle he => exact Nat.le_of_eq (Nat.mul_one _).symm
  | @event _ i k st st' e es hf hrest ih =>
    obtain ⟨cursor, hbefore⟩ := hf.before_eq
    have hwithin := hf.within
    rw [e.backends_after, hbefore] at ih
    rw [List.length_cons, Nat.mul_succ]
    dsimp only at ih
    omega

theorem discarded (h : Drains max st k es st') : st'.hub.discarded =
    st.hub.discarded + .ofNat (es.countP Handover.isDiscarded) := by
  induction h with
  | full st => exact (UInt32.add_zero _).symm
  | idle he => exact (UInt32.add_zero _).symm
  | @event _ _ _ _ _ e es hf hrest ih =>
    obtain ⟨cursor, hbefore⟩ := hf.before_eq
    rw [ih, e.discarded_after, hbefore, List.countP_cons, Nat.add_comm, UInt32.ofNat_add,
      UInt32.add_assoc]

theorem faults (h : Drains max st k es st') : st'.hub.faults =
    st.hub.faults + .ofNat ((es.filterMap Handover.call?).countP Delivery.failed) := by
  induction h with
  | full st => exact (UInt32.add_zero _).symm
  | idle he => exact (UInt32.add_zero _).symm
  | @event _ _ _ _ _ e es hf hrest ih =>
    obtain ⟨cursor, hbefore⟩ := hf.before_eq
    rw [ih, e.faults_after, hbefore, filterMap_cons_append, List.countP_append, UInt32.ofNat_add,
      UInt32.add_assoc]

theorem registrations (h : Drains max st k es st') (id : IrqId) : st'.hub.find? id =
    (st.hub.find? id).map (Registration.afterCalls id (es.filterMap Handover.call?)) := by
  induction h with
  | full st => exact Option.map_id'.symm
  | idle he => exact Option.map_id'.symm
  | @event _ _ _ st _ e es hf hrest ih =>
    obtain ⟨cursor, hbefore⟩ := hf.before_eq
    have hfind : e.before.hub.find? id = st.hub.find? id := by rw [hbefore]; rfl
    rw [ih, e.find?_after, hfind, Option.map_map, filterMap_cons_append]
    refine congrArg (Option.map · (st.hub.find? id)) (funext fun r => ?_)
    exact (r.afterCalls_append id _ _).symm

/-- When an event is handed over, the registrations are as the calls before it left them. -/
theorem registrations_before (h : Drains max st k (es ++ e :: es') st') (id : IrqId) :
    e.before.hub.find? id =
      (st.hub.find? id).map (Registration.afterCalls id (es.filterMap Handover.call?)) := by
  obtain ⟨l, st₁, i, hfirst, hf⟩ := h.split
  obtain ⟨cursor, hbefore⟩ := hf.before_eq
  rw [← hfirst.registrations, hbefore]
  rfl

/-- What was in a queue and what the handlers added to it is what the batch took from it, in this
order, and what is left. -/
theorem queues (h : Drains max st k es st') (line : LineId) :
    es.filterMap (Handover.takenFrom? line) ++ (st'.lines.get line).queue =
      (st.lines.get line).queue ++ Trace.sent line (es.flatMap Handover.raises) := by
  induction h with
  | full st => exact (List.append_nil _).symm
  | idle he => exact (List.append_nil _).symm
  | @event _ _ _ st st' e es hf hrest ih =>
    obtain ⟨cursor, hbefore⟩ := hf.before_eq
    have hlines : e.before.lines = st.lines := by rw [hbefore]
    have hsent : Trace.sent line ((e :: es).flatMap Handover.raises) =
        Trace.sent line e.raises ++ Trace.sent line (es.flatMap Handover.raises) := by
      rw [List.flatMap_cons, Trace.sent, List.filterMap_append]
      rfl
    calc
      (e :: es).filterMap (Handover.takenFrom? line) ++ (st'.lines.get line).queue =
          (e.takenFrom? line).toList ++
            (es.filterMap (Handover.takenFrom? line) ++ (st'.lines.get line).queue) := by
        rw [filterMap_cons_append, List.append_assoc]
      _ = (e.takenFrom? line).toList ++ (e.lines.get line).queue ++
            (Trace.sent line e.raises ++ Trace.sent line (es.flatMap Handover.raises)) := by
        rw [ih, e.queue_after, List.append_assoc, List.append_assoc]
      _ = (st.lines.get line).queue ++ Trace.sent line ((e :: es).flatMap Handover.raises) := by
        rw [← e.queue_before, hlines, hsent]

end Drains

/-! ## A count that is tested -/

namespace Drain

/-- Hands over one event, with a test that the count of discarded events does not go above the
largest number of 32 bits. All other counts of a batch are bounded by it or meant to wrap around. -/
def guardedDeliver (d : Drain C) (id : IrqId) (kind : EventKind) : Checked (Drain C) :=
  match (d.hub.find? id).filter (·.enabled) with
  | some _ => .ok (d.deliver id kind)
  | none => do
    let count ← Guarded.add (UInt32.size - 1) d.hub.discarded.toNat 1
    let d := d.deliver id kind
    return { d with hub := { d.hub with discarded := .ofNat count } }

/-- Hands over at most `max` events, with this test for each of them. -/
def guardedRun : Nat → Drain C → Checked (Drain C)
  | 0, d => .ok d
  | max + 1, d =>
    match d.hub.poll d.lines with
    | (none, hub, lines) => .ok { d with hub := hub, lines := lines }
    | (some (id, kind), hub, lines) => do
      guardedRun max (← { d with hub := hub, lines := lines }.guardedDeliver id kind)

end Drain

/-- Hands over at most `max` events as `process` does, with the count tested. -/
def Hub.guardedProcess (h : Hub C) (lines : Lines) (max : Nat) : Checked (Logged (Processed C)) :=
  do
    let d ← Drain.guardedRun max ⟨h, lines, #[], #[]⟩
    return ⟨⟨d.hub, d.lines, d.deliveries.toList⟩, d.log.toList⟩

theorem Handover.guardedDeliver_eq (e : Handover C) (deliveries : Array (Delivery C))
    (log : Array Entry) :
    Drain.guardedDeliver ⟨e.before.hub.advance, e.lines, deliveries, log⟩ e.id e.kind =
      if e.before.hub.discarded.toNat + (if e.isDiscarded then 1 else 0) < UInt32.size then
        .ok (Drain.deliver ⟨e.before.hub.advance, e.lines, deliveries, log⟩ e.id e.kind)
      else .error .overflow := by
  have hafter := e.discarded_after
  have htaker : (e.before.hub.advance.find? e.id).filter (·.enabled) = e.taker? := rfl
  rw [deliver_eq, Drain.guardedDeliver, htaker, deliver_eq]
  unfold isDiscarded at hafter ⊢
  cases ht : e.taker? with
  | some r => exact (if_pos (UInt32.toNat_lt _)).symm
  | none =>
    rw [ht] at hafter
    simp only [Hub.discarded_advance, Option.isNone_none, if_true] at hafter ⊢
    rw [Guarded.add_below (by decide)]
    split_ifs
    · have hcount : UInt32.ofNat (e.before.hub.discarded.toNat + 1) = e.after.hub.discarded := by
        rw [hafter, UInt32.ofNat_add, UInt32.ofNat_toNat]
      rw [Guarded.ok_bind, hcount]
      rfl
    · rfl

namespace Drains

variable {max k : Nat} {st st' : Station C} {es : List (Handover C)}

/-- **A batch that tests its count comes to the same** if the count does not go above the largest
number, and to an overflow otherwise. -/
theorem guardedRun_eq (h : Drains max st k es st') (deliveries : Array (Delivery C))
    (log : Array Entry) : Drain.guardedRun max ⟨st.hub, st.lines, deliveries, log⟩ =
      if st.hub.discarded.toNat + es.countP Handover.isDiscarded < UInt32.size then
        .ok (Drain.run max ⟨st.hub, st.lines, deliveries, log⟩)
      else .error .overflow := by
  induction h generalizing deliveries log with
  | full st => exact (if_pos (UInt32.toNat_lt _)).symm
  | @idle max st he =>
    rw [Drain.run_of_empty _ _ _ he, Drain.guardedRun, Hub.poll_of_empty he]
    exact (if_pos (UInt32.toNat_lt _)).symm
  | @event max i k st st' e es hf hrest ih =>
    obtain ⟨cursor, hbefore⟩ := hf.before_eq
    have hdiscarded : e.before.hub.discarded = st.hub.discarded := by rw [hbefore]
    have hafter := e.discarded_after
    rw [Drain.run_of_finds _ _ _ hf, Drain.guardedRun, Hub.poll_of_finds hf, List.countP_cons]
    dsimp only
    rw [e.guardedDeliver_eq, hdiscarded]
    rw [hdiscarded] at hafter
    generalize (if e.isDiscarded then 1 else 0) = n at hafter ⊢
    by_cases hfit : st.hub.discarded.toNat + n < UInt32.size
    · have hcount := Guarded.toNat_sum32 hfit
      rw [← hafter] at hcount
      rw [if_pos hfit, Guarded.ok_bind, e.deliver_eq, ih, hcount, Nat.add_assoc, Nat.add_comm n]
    · rw [if_neg hfit, if_neg (by omega)]
      rfl

theorem guardedProcess_eq (h : Drains max st k es st') : st.hub.guardedProcess st.lines max =
    if st.hub.discarded.toNat + es.countP Handover.isDiscarded < UInt32.size then
      .ok (st.hub.process st.lines max)
    else .error .overflow := by
  rw [Hub.guardedProcess, h.guardedRun_eq]
  split_ifs <;> rfl

end Drains

end Coop
