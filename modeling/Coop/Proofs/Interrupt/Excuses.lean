import Coop.Proofs.Interrupt.Draining

/-!
# Failures make no difference

A handler that fails has done all it does before it fails. If every failure were a success, the same
events would be handed over in the same order to the same effect; only the failures would not be
counted and not be logged.

* `Reaction.excused`, `Hub.excused`: success in the place of every failure;
* `Handover.after_excused`, **`Drains.excused`**, `Drains.process_excused`: one event, and a batch.
-/

namespace Coop

variable {C : Type}

/-! ## Handlers that do not fail -/

/-- The reaction with success in the place of a failure. -/
def Reaction.excused : Reaction C → Reaction C
  | .finish capture _ => .finish capture none
  | .raise line channel kind next => .raise line channel kind fun queued => (next queued).excused
  | .log entry next => .log entry next.excused

theorem Reaction.perform_excused (r : Reaction C) (lines : Lines) :
    r.excused.perform lines = { r.perform lines with failure := none } := by
  induction r generalizing lines with
  | finish => rfl
  | raise line channel kind next ih =>
    simp only [excused, perform, ih]
  | log entry next ih => simp only [excused, perform, ih]

/-- The registration with a handler that does not fail. -/
def Registration.excused (r : Registration C) : Registration C :=
  { r with handler := fun event capture => (r.handler event capture).excused }

/-- The record of a call that did not fail. -/
def Delivery.excused (d : Delivery C) : Delivery C := { d with failure := none }

/-- The hub with handlers that do not fail, and this many failures counted. -/
def Hub.excused (h : Hub C) (faults : UInt32) : Hub C :=
  { h with handlers := h.handlers.map fun x => (x.1, x.2.excused), faults := faults }

/-- The station with handlers that do not fail, and this many failures counted. -/
def Station.excused (st : Station C) (faults : UInt32) : Station C :=
  ⟨st.hub.excused faults, st.lines⟩

namespace Hub

variable (h : Hub C) (faults : UInt32)

theorem find?_excused (id : IrqId) :
    (h.excused faults).find? id = (h.find? id).map Registration.excused := by
  unfold find? excused
  induction h.handlers with
  | nil => rfl
  | cons x handlers ih =>
    rw [List.map_cons, List.lookup_cons, List.lookup_cons, ih]
    cases id == x.1 <;> rfl

theorem putHandler_excused (id : IrqId) (r : Registration C) :
    (h.excused faults).putHandler id r.excused = (h.putHandler id r).excused faults := by
  unfold putHandler excused
  simp only [List.map_map, Hub.mk.injEq, and_true, true_and]
  refine List.map_congr_left fun x _ => ?_
  simp only [Function.comp_apply]
  split <;> rfl

theorem advance_iterate_excused (i : Nat) :
    advance^[i] (h.excused faults) = (advance^[i] h).excused faults :=
  (Function.Semiconj.iterate_right (f := fun h : Hub C => h.excused faults) (fun _ => rfl) i h).symm

end Hub

/-! ## One event -/

namespace Handover

variable (e : Handover C) (faults : UInt32)

/-- The same event, handed over to a handler that does not fail. -/
def excused : Handover C := { e with
  before := e.before.excused faults
  inTurn := e.inTurn
  oldest := e.oldest }

theorem find?_excused : (e.excused faults).before.hub.find? (e.excused faults).id =
    (e.before.hub.find? e.id).map Registration.excused := e.before.hub.find?_excused faults e.id

theorem taker?_excused : (e.excused faults).taker? = e.taker?.map Registration.excused := by
  rw [taker?, find?_excused, Option.filter_map]
  rfl

theorem performed_excused (r : Registration C) : (e.excused faults).performed r.excused =
    { e.performed r with failure := none } :=
  (e.reaction r).perform_excused e.lines

theorem call?_excused : (e.excused faults).call? = e.call?.map Delivery.excused := by
  rw [call?, call?, taker?_excused, Option.map_map, Option.map_map]
  refine congrArg (Option.map · e.taker?) (funext fun r => ?_)
  simp only [Function.comp_apply, performed_excused]
  rfl

theorem messages_excused : (e.excused faults).messages = e.messages := by
  unfold messages
  rw [find?_excused]
  cases e.before.hub.find? e.id with
  | none => rfl
  | some r =>
    simp only [Option.map_some, performed_excused]
    rfl

theorem report_excused : (e.excused faults).report = [] := by
  rw [report, call?_excused]
  cases e.call? <;> rfl

theorem after_excused : (e.excused faults).after = e.after.excused faults := by
  unfold after
  rw [taker?_excused]
  cases e.taker? with
  | none => rfl
  | some r =>
    simp only [Option.map_some, performed_excused]
    let left : Registration C := { r with capture := (e.performed r).capture }
    refine congrArg (Station.mk · (e.performed r).lines) ?_
    change { (e.before.hub.advance.excused faults).putHandler e.id left.excused with
      faults := faults + 0 } = _
    rw [Hub.putHandler_excused, UInt32.add_zero]
    rfl

end Handover

/-! ## Batches -/

theorem Station.Finds.excused {st : Station C} {i : Nat} {e : Handover C} (hf : st.Finds i e)
    (faults : UInt32) : (st.excused faults).Finds i (e.excused faults) where
  within := hf.within
  idle j hj := by
    have hidle := hf.idle j hj
    rw [Station.excused, Hub.advance_iterate_excused]
    exact hidle
  before := by
    rw [Station.excused, Hub.advance_iterate_excused]
    exact congrArg (Station.excused · faults) hf.before

namespace Drains

variable {max k : Nat} {st st' : Station C} {es : List (Handover C)}

/-- **If no handler failed, the same events would be handed over**, with the same effects. -/
theorem excused (h : Drains max st k es st') (faults : UInt32) :
    Drains max (st.excused faults) k (es.map fun e => e.excused faults) (st'.excused faults) := by
  induction h with
  | full st => exact .full _
  | idle he => exact .idle he
  | event hf hrest ih =>
    rw [← Handover.after_excused] at ih
    exact .event (hf.excused faults) ih

theorem process_excused (h : Drains max st k es st') (faults : UInt32) :
    (st.hub.excused faults).process st.lines max =
      ⟨⟨st'.hub.excused faults, st'.lines, (es.filterMap Handover.call?).map Delivery.excused⟩,
        es.flatMap Handover.messages⟩ := by
  have hprocess := (h.excused faults).process_eq
  simp only [List.filterMap_map, List.flatMap_map, Function.comp_def, Handover.call?_excused,
    Handover.messages_excused, Handover.report_excused, List.append_nil] at hprocess
  rw [List.map_filterMap]
  exact hprocess

end Drains

end Coop
