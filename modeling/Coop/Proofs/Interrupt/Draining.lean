import Coop.Proofs.Interrupt.Polling

/-!
# Batches, event by event

A batch hands over one event after the other. What comes of an event depends on the registration it
was queued for: with a handler that is registered and enabled it is one call, otherwise it is
discarded.

* `Handover.taker?`, `Handover.call?`, `Handover.after`: what comes of an event that is found;
* **`deliver_eq`**: it is handed over as described;
* **`Drains`**: the events a batch hands over, one by one, and how many looks that takes;
* `exists_drains`, `Drains.run_eq`, `Drains.process_eq`: every batch is such a sequence;
* **`process_add`**: two batches in a row are one.
-/

namespace Coop

variable {C : Type}

/-! ## Handing over one event -/

namespace Handover

variable (e : Handover C)

/-- The registration the event comes to: the one with its number, if it is enabled. -/
def taker? : Option (Registration C) := (e.before.hub.find? e.id).filter (·.enabled)

/-- What the handler of a registration does about the event. -/
def reaction (r : Registration C) : Reaction C := r.handler ⟨e.id, r.source, e.kind⟩ r.capture

/-- What that comes to. -/
def performed (r : Registration C) : Performed C := (e.reaction r).perform e.lines

/-- The handler call that is made. -/
def call? : Option (Delivery C) := e.taker?.map fun r =>
  ⟨⟨e.id, r.source, e.kind⟩, (e.performed r).capture, (e.performed r).raised,
    (e.performed r).failure⟩

/-- The events that the handler raises. -/
def raises : List Incident :=
  match e.taker? with
  | none => []
  | some r => (e.reaction r).raises e.lines

/-- What is logged, a failure apart: that there is no registration, or what the handler logs. -/
def messages : List Entry :=
  match e.before.hub.find? e.id with
  | none => [⟨.debug, s!"irq: {e.id.label} gone, event dropped"⟩]
  | some r => if r.enabled then (e.performed r).log else []

/-- What is logged about a failure. -/
def report : List Entry :=
  ((e.call?.bind Delivery.failure).map fun message =>
    ⟨.error, s!"irq: handler for {e.id.label} failed: {message}"⟩).toList

/-- The station when the event has been handed over: it is counted as discarded, or the handler has
been called, its capture is what it left, and a failure is counted. -/
def after : Station C :=
  match e.taker? with
  | none => ⟨{ e.before.hub.advance with discarded := e.before.hub.discarded + 1 }, e.lines⟩
  | some r =>
    ⟨{ e.before.hub.advance.putHandler e.id { r with capture := (e.performed r).capture } with
        faults := e.before.hub.faults + if (e.performed r).failure.isSome then 1 else 0 },
      (e.performed r).lines⟩

variable {e} {r : Registration C}

theorem taker?_eq_some : e.taker? = some r ↔ e.before.hub.find? e.id = some r ∧ r.enabled = true :=
  Option.filter_eq_some_iff

theorem taker?_of_disabled (hr : e.before.hub.find? e.id = some r) (hoff : r.enabled = false) :
    e.taker? = none := by
  rw [taker?, hr, Option.filter_some, hoff]
  rfl

/-- **An event is handed over as described**, whatever was handed over before. -/
theorem deliver_eq (e : Handover C) (deliveries : Array (Delivery C)) (log : Array Entry) :
    Drain.deliver ⟨e.before.hub.advance, e.lines, deliveries, log⟩ e.id e.kind =
      ⟨e.after.hub, e.after.lines, deliveries ++ e.call?.toList.toArray,
        log ++ (e.messages ++ e.report).toArray⟩ := by
  unfold Drain.deliver
  cases hr : e.before.hub.find? e.id with
  | none =>
    have htaker : e.taker? = none := by rw [taker?, hr, Option.filter_none]
    simp [hr, htaker, after, call?, messages, report]
  | some r =>
    cases hon : r.enabled with
    | false =>
      have htaker := taker?_of_disabled hr hon
      simp [hr, hon, htaker, after, call?, messages, report]
    | true =>
      have htaker := taker?_eq_some.mpr ⟨hr, hon⟩
      have hperformed : (r.handler ⟨e.id, r.source, e.kind⟩ r.capture).perform e.lines =
          e.performed r := rfl
      cases hf : (e.performed r).failure with
      | none =>
        simp [hr, hon, htaker, after, call?, messages, report, hperformed, hf, Hub.putHandler]
      | some message =>
        simp [hr, hon, htaker, after, call?, messages, report, hperformed, hf, Hub.putHandler]

end Handover

/-! ## Batches -/

/-- A batch of at most `max` events from a station: how many looks it takes, the events that are
handed over, and the station after it. -/
inductive Drains : Nat → Station C → Nat → List (Handover C) → Station C → Prop
  /-- There have been enough events. -/
  | full (st : Station C) : Drains 0 st 0 [] st
  /-- A whole round finds nothing. -/
  | idle {max : Nat} {st : Station C} (he : st.hub.Empty st.lines) :
    Drains (max + 1) st st.hub.backends.length [] ⟨st.hub.wrapped, st.lines⟩
  /-- An event is found and handed over. -/
  | event {max i k : Nat} {st st' : Station C} {e : Handover C} {es : List (Handover C)}
    (hf : st.Finds i e) (hrest : Drains max e.after k es st') :
    Drains (max + 1) st (i + 1 + k) (e :: es) st'

theorem filterMap_cons_append {α β : Type} (f : α → Option β) (a : α) (as : List α) :
    (a :: as).filterMap f = (f a).toList ++ as.filterMap f := by
  cases h : f a <;> simp [h]

theorem exists_drains (max : Nat) (st : Station C) : ∃ k es st', Drains max st k es st' := by
  induction max generalizing st with
  | zero => exact ⟨0, [], st, .full st⟩
  | succ max ih =>
    rcases st.hub.empty_or_finds st.lines with he | ⟨i, e, hf⟩
    · exact ⟨_, _, _, .idle he⟩
    · obtain ⟨k, es, st', hrest⟩ := ih e.after
      exact ⟨_, _, _, .event hf hrest⟩

namespace Drains

variable {max k : Nat} {st st' : Station C} {es : List (Handover C)}

/-- The handler calls and the log of a batch are those of its events, in order. -/
theorem run_eq (h : Drains max st k es st') (deliveries : Array (Delivery C)) (log : Array Entry) :
    Drain.run max ⟨st.hub, st.lines, deliveries, log⟩ =
      ⟨st'.hub, st'.lines, deliveries ++ (es.filterMap Handover.call?).toArray,
        log ++ (es.flatMap fun e => e.messages ++ e.report).toArray⟩ := by
  induction h generalizing deliveries log with
  | full st => simp [Drain.run]
  | idle he =>
    rw [Drain.run_of_empty _ _ _ he]
    simp
  | @event max i k st st' e es hf hrest ih =>
    rw [Drain.run_of_finds _ _ _ hf, Handover.deliver_eq, ih, filterMap_cons_append,
      List.flatMap_cons]
    simp only [← List.append_toArray, Array.append_assoc]

theorem process_eq (h : Drains max st k es st') : st.hub.process st.lines max =
    ⟨⟨st'.hub, st'.lines, es.filterMap Handover.call?⟩,
      es.flatMap fun e => e.messages ++ e.report⟩ := by
  rw [Hub.process, h.run_eq]
  simp

end Drains

/-- **The size of a batch does not matter.** Handing over at most `a` events and then at most `b`
comes to the same as handing over at most `a + b` at once: the same hub with the same captures, the
same lines, the same handler calls in the same order, the same log, and as many calls as in the two
batches together. -/
theorem process_add (h : Hub C) (lines : Lines) (a b : Nat) :
    let p := h.process lines a
    let q := p.value.hub.process p.value.lines b
    let whole := h.process lines (a + b)
    whole.value.hub = q.value.hub ∧ whole.value.lines = q.value.lines ∧
      whole.value.deliveries = p.value.deliveries ++ q.value.deliveries ∧
      whole.log = p.log ++ q.log ∧
      whole.value.deliveries.length = p.value.deliveries.length + q.value.deliveries.length := by
  obtain ⟨k, es, st, hfirst⟩ := exists_drains a ⟨h, lines⟩
  obtain ⟨l, fs, st', hsecond⟩ := exists_drains b st
  have hwhole : h.process lines (a + b) =
      ⟨⟨st'.hub, st'.lines, es.filterMap Handover.call? ++ fs.filterMap Handover.call?⟩,
        (es ++ fs).flatMap fun e => e.messages ++ e.report⟩ := by
    rw [Hub.process, Drain.run_add, hfirst.run_eq, hsecond.run_eq]
    simp
  have hp := hfirst.process_eq
  dsimp only at hp ⊢
  rw [hwhole, hp]
  dsimp only
  rw [hsecond.process_eq]
  exact ⟨rfl, rfl, rfl, List.flatMap_append, List.length_append⟩

end Coop
