import Coop.Proofs.Interrupt.Accounts
import Coop.Proofs.Interrupt.Excuses
import Mathlib.Algebra.BigOperators.Group.List.Basic
import Mathlib.Algebra.Ring.Nat

/-!
# No event is lost or repeated

A batch takes events from the queues and its handlers add some. Every event that is taken has one
fate, and the queues together hold what they held before, less what was taken and with what was
added.

* `Hub.accepted`, `Drains.pending_balance`: the events on the lines of all backends together;
* `Balance`, **`process_balance`**: the account of a batch.
-/

namespace Coop

variable {C : Type}

/-! ## All lines together -/

theorem countP_or_of_disjoint {α : Type} {p q : α → Bool} (h : ∀ x, p x = true → q x = false)
    (xs : List α) : xs.countP (fun x => p x || q x) = xs.countP p + xs.countP q := by
  induction xs with
  | nil => rfl
  | cons x xs ih =>
    rw [List.countP_cons, List.countP_cons, List.countP_cons, ih]
    cases hp : p x with
    | false =>
      simp only [Bool.false_or, Bool.false_eq_true, if_false]
      omega
    | true =>
      simp only [h x hp, Bool.or_false, Bool.false_eq_true, if_true, if_false]
      omega

/-- What is counted line by line is counted once, if it belongs to one line. -/
theorem sum_length_filterMap {α β : Type} (f : LineId → α → Option β) {lines : List LineId}
    (hlines : lines.Nodup)
    (hone : ∀ x l l', (f l x).isSome = true → (f l' x).isSome = true → l = l') (xs : List α) :
    (lines.map fun l => (xs.filterMap (f l)).length).sum =
      xs.countP fun x => lines.any fun l => (f l x).isSome := by
  induction lines with
  | nil => simp
  | cons l lines ih =>
    obtain ⟨hl, hlines⟩ := List.nodup_cons.mp hlines
    have hdisjoint (x : α) (hx : (f l x).isSome = true) :
        (lines.any fun l' => (f l' x).isSome) = false := by
      rw [List.any_eq_false]
      intro l' hl' hx'
      exact hl (hone x l l' hx hx' ▸ hl')
    simp only [List.map_cons, List.sum_cons, List.any_cons, ih hlines]
    rw [countP_or_of_disjoint hdisjoint, List.length_filterMap_eq_countP]

namespace Hub

/-- The events in a trace that were queued on a line of a backend. -/
def accepted (h : Hub C) (tr : Trace) : Nat :=
  tr.countP fun x => h.backends.any fun b => (x.sent? b.line).isSome

theorem pending_eq_sum (h : Hub C) (lines : Lines) : h.pending lines =
    ((h.backends.map Backend.line).map fun l => (lines.get l).queue.length).sum := by
  rw [pending, List.map_map, List.sum_eq_foldl, List.foldl_map]
  rfl

end Hub

theorem Handover.line_of_takenFrom? (e : Handover C) (l l' : LineId)
    (h : (e.takenFrom? l).isSome = true) (h' : (e.takenFrom? l').isSome = true) : l = l' := by
  unfold takenFrom? at h h'
  split_ifs at h h' with hl hl'
  · exact hl.symm.trans hl'
  all_goals simp at h h'

theorem Incident.line_of_sent? (x : Incident) (l l' : LineId) (h : (x.sent? l).isSome = true)
    (h' : (x.sent? l').isSome = true) : l = l' := by
  obtain ⟨⟨raw, kind⟩, hv⟩ := Option.isSome_iff_exists.mp h
  obtain ⟨⟨raw', kind'⟩, hv'⟩ := Option.isSome_iff_exists.mp h'
  obtain ⟨_, _, rfl⟩ := sent?_eq_some hv
  obtain ⟨_, _, hsame⟩ := sent?_eq_some hv'
  cases hsame
  rfl

/-- **What was pending and what was added is what was taken and what is pending.** -/
theorem Drains.pending_balance {max k : Nat} {st st' : Station C} {es : List (Handover C)}
    (h : Drains max st k es st') (hlines : (st.hub.backends.map Backend.line).Nodup) :
    st'.hub.pending st'.lines + es.length =
      st.hub.pending st.lines + st.hub.accepted (es.flatMap Handover.raises) := by
  have htaken : ((st.hub.backends.map Backend.line).map fun l =>
      (es.filterMap (Handover.takenFrom? l)).length).sum = es.length := by
    rw [sum_length_filterMap Handover.takenFrom? hlines Handover.line_of_takenFrom?,
      List.countP_eq_length]
    intro e he
    rw [List.any_map, List.any_eq_true]
    exact ⟨e.backend, h.mem_backends he, by simp [Handover.takenFrom?]⟩
  have hsent : ((st.hub.backends.map Backend.line).map fun l =>
      (Trace.sent l (es.flatMap Handover.raises)).length).sum =
        st.hub.accepted (es.flatMap Handover.raises) := by
    refine (sum_length_filterMap Incident.sent? hlines Incident.line_of_sent? _).trans ?_
    simp only [List.any_map]
    rfl
  have hline (l : LineId) : (es.filterMap (Handover.takenFrom? l)).length +
      (st'.lines.get l).queue.length = (st.lines.get l).queue.length +
        (Trace.sent l (es.flatMap Handover.raises)).length := by
    rw [← List.length_append, h.queues, List.length_append]
  rw [Hub.pending_eq_sum, Hub.pending_eq_sum, h.backends, ← hsent, Nat.add_comm, ← htaken,
    ← List.sum_map_add, ← List.sum_map_add]
  simp only [hline]

/-! ## The account -/

/-- The account of a batch of at most `max` events that takes `k` looks and takes the events `es`
from the queues. -/
structure Balance (st : Station C) (max k : Nat) (es : List (Handover C))
    (result : Logged (Processed C)) : Prop where
  /-- The batch is over after `k` looks, at most a round for each event and one round to see that
  there is no more. -/
  looks : Station.look^[k] st = ⟨result.value.hub, result.value.lines⟩ ∧
    k ≤ st.hub.backends.length * (es.length + 1)
  /-- The events are found and handed over one after the other, and they are at most `max`. -/
  drained : Drains max st k es ⟨result.value.hub, result.value.lines⟩ ∧ es.length ≤ max
  /-- Every event is a handler call or discarded, and the discarded ones are counted, by a number of
  32 bits that wraps around. -/
  fates : es.length = result.value.deliveries.length + es.countP Handover.isDiscarded ∧
    result.value.hub.discarded = st.hub.discarded + .ofNat (es.countP Handover.isDiscarded)
  /-- If that count is tested, the batch comes to the same as long as it stays below `2 ^ 32`, and
  is cut short by an overflow otherwise. -/
  guarded : st.hub.guardedProcess st.lines max =
    if st.hub.discarded.toNat + es.countP Handover.isDiscarded < UInt32.size then .ok result
    else .error .overflow
  /-- The handlers that are called are those of the events that find one registered and enabled. -/
  calls : result.value.deliveries = es.filterMap Handover.call?
  /-- Whenever an event is handed over, every registration is what it was before the batch, with the
  capture that the last call left. -/
  captures : ∀ front e behind, es = front ++ e :: behind → ∀ id, e.before.hub.find? id =
    (st.hub.find? id).map (Registration.afterCalls id (front.filterMap Handover.call?))
  /-- The same holds after the batch. -/
  registrations : ∀ id, result.value.hub.find? id =
    (st.hub.find? id).map (Registration.afterCalls id result.value.deliveries)
  /-- Every failure is counted once. -/
  faults : result.value.hub.faults =
    st.hub.faults + .ofNat (result.value.deliveries.countP Delivery.failed)
  /-- Every event leaves its messages in the log, and a report if the handler failed. -/
  log : result.log = es.flatMap fun e => e.messages ++ e.report
  /-- If the handlers did not fail, all would be the same but for the failures. -/
  excused : (st.hub.excused st.hub.faults).process st.lines max =
    ⟨⟨result.value.hub.excused st.hub.faults, result.value.lines,
      result.value.deliveries.map Delivery.excused⟩, es.flatMap Handover.messages⟩
  /-- The handlers learn of every event they raise whether it was queued. -/
  raised : result.value.deliveries.flatMap Delivery.raised =
    (es.flatMap Handover.raises).filterMap Incident.queued?
  /-- What was in a queue and what was added to it is what was taken from it, and what is left. -/
  queues : ∀ line, es.filterMap (Handover.takenFrom? line) ++
    (result.value.lines.get line).queue =
      (st.lines.get line).queue ++ Trace.sent line (es.flatMap Handover.raises)
  /-- The same for the number of events on all lines. -/
  pending : result.value.hub.pending result.value.lines + es.length =
    st.hub.pending st.lines + st.hub.accepted (es.flatMap Handover.raises)
  /-- A batch that stops early leaves nothing behind. -/
  empty : es.length < max → ∀ b ∈ result.value.hub.backends,
    (result.value.lines.get b.line).queue = []

/-- **A batch loses and repeats nothing**, whatever is in the queues and whatever the handlers do,
if the backends are on lines of their own. It ends; it takes at most `max` events, each the oldest
of its queue; each event is one call of the handler that is registered for it and enabled, with the
capture of that moment, or it is discarded; discarded events and failures are counted, and failures
make no other difference; what is pending is what was pending and what the handlers added, less what
was taken; and if it takes less than `max` events, it leaves every queue empty. -/
theorem process_balance (st : Station C) (max : Nat)
    (hlines : (st.hub.backends.map Backend.line).Nodup) :
    ∃ k es, Balance st max k es (st.hub.process st.lines max) := by
  obtain ⟨k, es, st', h⟩ := exists_drains max st
  refine ⟨k, es, ?_⟩
  rw [h.process_eq]
  exact {
    looks := ⟨h.looks, h.looks_le⟩
    drained := ⟨h, h.length_le⟩
    fates := ⟨(Handover.length_calls es).symm, h.discarded⟩
    guarded := h.process_eq ▸ h.guardedProcess_eq
    calls := rfl
    captures := by
      rintro front e behind rfl id
      exact h.registrations_before id
    registrations := h.registrations
    faults := h.faults
    log := rfl
    excused := h.process_excused st.hub.faults
    raised := Handover.raised_calls es
    queues := h.queues
    pending := h.pending_balance hlines
    empty := h.empty_of_lt }

/-- A handler that raises an event for the converter and fails, and an event whose handler is
disabled: three events are taken, two of which were there before. -/
theorem process_balance_relay : ∃ st : Station Nat,
    (st.hub.backends.map Backend.line).Nodup ∧ st.hub.pending st.lines = 2 ∧
    ∃ k es, Balance st 8 k es (st.hub.process st.lines 8) ∧ es.length = 3 ∧
      st.hub.accepted (es.flatMap Handover.raises) = 1 ∧
      (st.hub.process st.lines 8).value.deliveries.map Delivery.failed = [true, false] ∧
      (st.hub.process st.lines 8).value.hub.faults = 1 ∧
      (st.hub.process st.lines 8).value.hub.discarded = 1 := by
  let relay : Handler Nat := fun _ c => .raise 1 2 .rising fun _ => .finish (c + 1) (some "late")
  let quiet : Handler Nat := fun _ c => .finish (c + 1) none
  let st : Station Nat := (Station.start 2).run [.attachGpio 0, .attachAdc 1,
    .register ⟨.gpio, 3⟩ .edges ⟨true, none, 0⟩ relay,
    .register ⟨.gpio, 4⟩ .all ⟨false, none, 0⟩ quiet,
    .register ⟨.adc, 2⟩ .edges ⟨true, some 500, 0⟩ quiet,
    .raise 0 3 .rising, .raise 0 4 .low]
  have hlines : (st.hub.backends.map Backend.line).Nodup := by decide +kernel
  have hpending : st.hub.pending st.lines = 2 := by decide +kernel
  have hafter : (st.hub.process st.lines 8).value.hub.pending
      (st.hub.process st.lines 8).value.lines = 0 := by decide +kernel
  have hfailed : (st.hub.process st.lines 8).value.deliveries.map Delivery.failed =
      [true, false] := by decide +kernel
  have hdiscarded : (st.hub.process st.lines 8).value.hub.discarded = 1 := by decide +kernel
  have hnone : st.hub.discarded = 0 := by decide +kernel
  have hcalls : (st.hub.process st.lines 8).value.deliveries.length = 2 := by
    rw [← List.length_map, hfailed]
    rfl
  obtain ⟨k, es, hbalance⟩ := process_balance st 8 hlines
  obtain ⟨hfates, hcount⟩ := hbalance.fates
  have hbooks := hbalance.pending
  have hlost : es.countP Handover.isDiscarded = 1 := by
    have hmost := hbalance.drained.2
    have hone := congrArg UInt32.toNat hcount
    rw [hdiscarded, hnone, UInt32.zero_add, UInt32.toNat_ofNat'] at hone
    exact (Nat.mod_eq_of_lt (by omega)).symm.trans hone.symm
  refine ⟨st, hlines, hpending, k, es, hbalance, ?_, ?_, hfailed, by decide +kernel, hdiscarded⟩
  · omega
  · omega

end Coop
