import Coop.Proofs.Interrupt.Wiring

/-!
# Calls change the wiring step by step

* `Backend.register_outcomes`, `Backend.port_unregister`, `Backend.sample_cases`: what is done to a
  backend and its line;
* `value_register_of_ok`, `value_unregister` and so on: what is done to the hub;
* `chain_attach`, `chain_register`, `chain_unregister`, `chain_setEnabled`, `chain_sample`;
* **`Call.chain`**, `Station.chain_run`: every call and every run is a chain of elementary changes.
-/

namespace Coop

open Wiring

variable {C : Type}

/-! ## Backends -/

theorem SignalLine.arm_error {l : SignalLine} {channel : UInt8} {raw : UInt16} {mask : EventMask}
    {e : IrqError} (hc : channel.toNat < lineChannels) (h : l.arm channel raw mask = .error e) :
    e = .channelBusy channel := by
  unfold arm at h
  rw [if_pos hc] at h
  cases ha : l.armedAt channel with
  | none =>
    rw [ha] at h
    cases h
  | some a =>
    rw [ha] at h
    cases h
    rfl

namespace Backend

/-- The backend with its count at a number. -/
def counting (next : UInt16) : Backend → Backend
  | gpio l _ => gpio l next
  | adc l _ watches => adc l next watches

/-- The backend with a channel watched, if it is the converter's. -/
def watching (channel : UInt8) (w : Watch) : Backend → Backend
  | gpio l next => gpio l next
  | adc l next watches => adc l next (watches.setIfInBounds channel.toNat (some w))

@[simp] theorem port_counting (b : Backend) (next : UInt16) :
    (b.counting next).port = ⟨b.port.kind, b.port.line, next⟩ := by cases b <;> rfl

@[simp] theorem port_watching (b : Backend) (channel : UInt8) (w : Watch) :
    (b.watching channel w).port = b.port := by cases b <;> rfl

/-- **What registering does to a backend and its line**: nothing, or a number is drawn in vain, or a
channel is armed under it, and watched if it is the converter's. -/
theorem register_outcomes (b : Backend) (lines : Lines) (channel : UInt8) (mask : EventMask)
    (threshold : Option Nat) :
    (∃ e, (∀ c, e ≠ .channelBusy c) ∧
      b.register lines channel mask threshold = (.error e, b, lines)) ∨
    ∃ raw next, freshRaw (lines.get b.line) rawTries b.port.next = (raw, next) ∧
      (b.register lines channel mask threshold =
          (.error (.channelBusy channel), b.counting next, lines) ∨
        ∃ line mv, (lines.get b.line).arm channel raw mask = .ok line ∧
          (b.kind = .adc → threshold = some mv) ∧
          b.register lines channel mask threshold =
            (.ok raw, (b.counting next).watching channel ⟨raw, mv, none⟩,
              lines.set b.line line)) := by
  cases b with
  | gpio l next =>
    unfold register
    dsimp only
    split_ifs with hrange hempty
    · exact .inl ⟨_, by simp, rfl⟩
    · exact .inl ⟨_, by simp, rfl⟩
    · have hc : channel.toNat < lineChannels := Nat.lt_of_not_le hrange
      refine .inr ⟨_, _, rfl, ?_⟩
      cases harm : (lines.get l).arm channel (freshRaw (lines.get l) rawTries next).1 mask with
      | error e =>
        obtain rfl := SignalLine.arm_error hc harm
        exact .inl rfl
      | ok line => exact .inr ⟨line, 0, harm, nofun, rfl⟩
  | adc l next watches =>
    unfold register
    dsimp only
    split_ifs with hrange hempty
    · exact .inl ⟨_, by simp, rfl⟩
    · exact .inl ⟨_, by simp, rfl⟩
    · have hc : channel.toNat < lineChannels :=
        Nat.lt_trans (Nat.lt_of_not_le hrange) (by decide)
      cases threshold with
      | none => exact .inl ⟨_, by simp, rfl⟩
      | some mv =>
        refine .inr ⟨_, _, rfl, ?_⟩
        dsimp only
        cases harm : (lines.get l).arm channel (freshRaw (lines.get l) rawTries next).1 mask with
        | error e =>
          obtain rfl := SignalLine.arm_error hc harm
          exact .inl rfl
        | ok line => exact .inr ⟨line, mv, harm, fun _ => rfl, rfl⟩

theorem register_cases (b : Backend) (lines : Lines) (channel : UInt8) (mask : EventMask)
    (threshold : Option Nat) :
    (∃ e, (∀ c, e ≠ .channelBusy c) ∧
      b.register lines channel mask threshold = (.error e, b, lines)) ∨
    ∃ b' raw next, freshRaw (lines.get b.port.line) rawTries b.port.next = (raw, next) ∧
      b'.port = ⟨b.port.kind, b.port.line, next⟩ ∧
      (b.register lines channel mask threshold = (.error (.channelBusy channel), b', lines) ∨
        ∃ line, (lines.get b.port.line).arm channel raw mask = .ok line ∧
          b.register lines channel mask threshold = (.ok raw, b', lines.set b.port.line line)) := by
  rw [b.line_port]
  rcases b.register_outcomes lines channel mask threshold with
    hrefused | ⟨raw, next, hfresh, hbusy | ⟨line, mv, harm, -, hok⟩⟩
  · exact .inl hrefused
  · exact .inr ⟨_, raw, next, hfresh, by rw [port_counting, b.line_port], .inl hbusy⟩
  · exact .inr ⟨_, raw, next, hfresh, by rw [port_watching, port_counting, b.line_port],
      .inr ⟨line, harm, hok⟩⟩

end Backend

theorem Backend.port_unregister (b : Backend) (lines : Lines) (raw : UInt16) :
    (b.unregister lines raw).2.1.port = b.port ∧
      (b.unregister lines raw).2.2 = lines.set b.line ((lines.get b.line).disarm raw) := by
  cases b <;> exact ⟨rfl, rfl⟩

/-- A reading changes no port, and it raises at most one event. -/
theorem Backend.sample_cases (b : Backend) (lines : Lines) (channel : UInt8) (mv : Nat) :
    (b.sample lines channel mv).2.1.port = b.port ∧
      ((b.sampled lines channel mv = [] ∧ (b.sample lines channel mv).2.2 = lines) ∨
        ∃ line kind, b.sampled lines channel mv = [lines.incident line channel kind] ∧
          (b.sample lines channel mv).2.2 = (lines.raise line channel kind).2) := by
  cases b with
  | gpio l next => exact ⟨rfl, .inl ⟨rfl, rfl⟩⟩
  | adc l next watches =>
    unfold sample sampled
    dsimp only
    cases (watches[channel.toNat]?).join with
    | none => exact ⟨rfl, .inl ⟨rfl, rfl⟩⟩
    | some w =>
      dsimp only
      cases (w.sample mv).1 with
      | none => exact ⟨rfl, .inl ⟨rfl, rfl⟩⟩
      | some kind => exact ⟨rfl, .inr ⟨l, kind, rfl, rfl⟩⟩

/-! ## The hub -/

namespace Hub

variable {h : Hub C} {lines lines' : Lines} {source : Source} {mask : EventMask}
  {options : IrqOptions C} {handler : Handler C} {b b' : Backend}

theorem value_register_of_none (hb : h.backend? source.kind = none) :
    (h.register lines source mask options handler).value =
      (.error (.unsupported source.kind), h, lines) := by
  unfold register
  rw [hb]
  rfl

theorem value_register_of_error (hb : h.backend? source.kind = some b) {e : IrqError}
    (hreg : b.register lines source.channel mask options.threshold = (.error e, b', lines')) :
    (h.register lines source mask options handler).value =
      (.error e, h.putBackend b', lines') := by
  unfold register
  simp only [hb, hreg]
  rfl

theorem value_register_of_ok (hb : h.backend? source.kind = some b) {raw : UInt16}
    (hreg : b.register lines source.channel mask options.threshold = (.ok raw, b', lines')) :
    (h.register lines source mask options handler).value =
      (.ok ⟨source.kind, raw⟩, (h.putBackend b').insert ⟨source.kind, raw⟩
        ⟨source, mask, options.enabled, options.capture, handler⟩, lines') := by
  unfold register
  simp only [hb, hreg]
  rfl

theorem value_unregister_of_lost {id : IrqId} {r : Registration C} (hr : h.find? id = some r)
    (hb : h.backend? id.kind = none) :
    (h.unregister lines id).value = (.ok false, h.remove id, lines) := by
  have hb' : (h.remove id).backend? id.kind = none := hb
  unfold remove at hb' ⊢
  unfold unregister
  simp only [hr, hb', Logged.value_bind]
  rfl

theorem value_unregister {id : IrqId} {r : Registration C} (hr : h.find? id = some r)
    (hb : h.backend? id.kind = some b) : (h.unregister lines id).value =
      (.ok (b.unregister lines id.raw).1, (h.remove id).putBackend (b.unregister lines id.raw).2.1,
        (b.unregister lines id.raw).2.2) := by
  have hb' : (h.remove id).backend? id.kind = some b := hb
  unfold remove at hb' ⊢
  unfold unregister
  simp only [hr, hb', Logged.value_bind]
  rfl

end Hub

/-! ## Stations -/

namespace Station

variable (st : Station C)

theorem wiring_put (h : Hub C) (b : Backend) (lines : Lines) :
    Station.wiring ⟨h.putBackend b, lines⟩ = { Station.wiring ⟨h, lines⟩ with
      ports := (Station.wiring ⟨h, lines⟩).putPort b.port } := by
  rw [wiring, Hub.ports_putBackend, Wiring.putPort, Backend.kind_port]
  rfl

theorem wiring_insert (h : Hub C) (id : IrqId) (r : Registration C) (lines : Lines) :
    Station.wiring ⟨h.insert id r, lines⟩ = { Station.wiring ⟨h, lines⟩ with
      known := Function.update (Station.wiring ⟨h, lines⟩).known id (some (r.source, r.mask)) } :=
  congrArg (Wiring.mk _ · _) (h.known_insert id r)

theorem wiring_remove (h : Hub C) (id : IrqId) (lines : Lines) :
    Station.wiring ⟨h.remove id, lines⟩ = { Station.wiring ⟨h, lines⟩ with
      known := (Station.wiring ⟨h, lines⟩).without id } :=
  congrArg (Wiring.mk _ · _) (h.known_remove id)

theorem chain_attach (b : Backend) (hb : b.port.next = 1) :
    Chain st.wiring [.attached b.kind b.line]
      (Station.wiring ⟨(st.hub.attach b).value, st.lines⟩) := by
  have hports : (st.hub.attach b).value.ports =
      st.hub.ports.filter (fun p => p.kind ≠ b.kind) ++ [⟨b.kind, b.line, 1⟩] := by
    have hport : b.port = ⟨b.kind, b.line, 1⟩ := by
      rw [← hb, ← b.kind_port, ← b.line_port]
    change List.map Backend.port (st.hub.backends.filter (fun o => o.kind ≠ b.kind) ++ [b]) = _
    rw [List.map_append, List.map_singleton, hport, Hub.ports, List.filter_map]
    simp only [Function.comp_def, Backend.kind_port]
  have hwiring : Station.wiring ⟨(st.hub.attach b).value, st.lines⟩ = { st.wiring with
      ports := st.wiring.ports.filter (fun p => p.kind ≠ b.kind) ++ [⟨b.kind, b.line, 1⟩] } :=
    congrArg (Wiring.mk · _ _) hports
  rw [hwiring]
  exact .one (.attach b.kind b.line)

theorem chain_register (source : Source) (mask : EventMask) (options : IrqOptions C)
    (handler : Handler C) :
    Chain st.wiring (Call.incidents st (.register source mask options handler))
      (Call.after st (.register source mask options handler)).wiring := by
  unfold Call.incidents Call.after
  dsimp only
  cases hb : st.hub.backend? source.kind with
  | none =>
    rw [Hub.value_register_of_none hb]
    exact .nil _
  | some b =>
    obtain ⟨hp, hk⟩ := Hub.mem_ports_of_backend? hb
    rcases b.register_cases st.lines source.channel mask options.threshold with
      ⟨e, hbusy, hreg⟩ | ⟨b', raw, next, hfresh, hport, hreg | ⟨line, harm, hreg⟩⟩
    · rw [Hub.value_register_of_error hb hreg]
      dsimp only
      rw [wiring_put]
      cases e with
      | channelBusy c => exact absurd rfl (hbusy c)
      | _ => exact .one (.touch hp)
    · rw [Hub.value_register_of_error hb hreg]
      dsimp only
      rw [wiring_put, hport]
      exact .one (.waste hp hk.symm hfresh)
    · rw [Hub.value_register_of_ok hb hreg]
      dsimp only
      rw [wiring_insert, wiring_put, hport, ← hk]
      exact .one (Step.register (w := st.wiring) hp hk.symm hfresh harm)

theorem chain_unregister (id : IrqId) :
    Chain st.wiring [] (Call.after st (.unregister id)).wiring := by
  unfold Call.after
  dsimp only
  cases hr : st.hub.find? id with
  | none =>
    rw [Hub.unregister, hr]
    exact .nil _
  | some r =>
    cases hb : st.hub.backend? id.kind with
    | none =>
      rw [Hub.value_unregister_of_lost hr hb]
      dsimp only
      rw [wiring_remove]
      refine .one (.forget fun p hp => ?_)
      obtain ⟨b, hmem, rfl⟩ := List.mem_map.mp hp
      rw [Backend.kind_port]
      exact fun hk => List.find?_eq_none.mp hb b hmem (beq_iff_eq.mpr hk)
    | some b =>
      obtain ⟨hp, hk⟩ := Hub.mem_ports_of_backend? hb
      obtain ⟨hport, hlines⟩ := b.port_unregister st.lines id.raw
      rw [Hub.value_unregister hr hb]
      dsimp only
      rw [wiring_put, wiring_remove, hport, hlines, ← b.line_port]
      exact .cons (.unregister hp hk) (.one (.touch hp))

theorem chain_setEnabled (id : IrqId) (enabled : Bool) :
    Chain st.wiring [] (Call.after st (.setEnabled id enabled)).wiring := by
  unfold Call.after Hub.setEnabled
  dsimp only
  cases hr : st.hub.find? id with
  | none => exact .nil _
  | some r =>
    have hknown := Hub.known_putHandler hr { r with enabled := enabled } rfl rfl
    have hsame : Station.wiring ⟨st.hub.putHandler id { r with enabled := enabled }, st.lines⟩ =
        st.wiring := congrArg (Wiring.mk _ · _) hknown
    dsimp only
    rw [hsame]
    exact .nil _

theorem chain_sample (channel : UInt8) (mv : Nat) :
    Chain st.wiring (Call.incidents st (.sample channel mv))
      (Call.after st (.sample channel mv)).wiring := by
  unfold Call.incidents Call.after Hub.sample
  dsimp only
  cases hb : st.hub.backend? .adc with
  | none => exact .nil _
  | some b =>
    obtain ⟨hp, -⟩ := Hub.mem_ports_of_backend? hb
    obtain ⟨hport, ⟨hnone, hlines⟩ | ⟨line, kind, hone, hlines⟩⟩ :=
      b.sample_cases st.lines channel mv
    · dsimp only
      rw [hnone, hlines, wiring_put, hport]
      exact .one (.touch hp)
    · dsimp only
      rw [hone, hlines, wiring_put, hport]
      exact .cons (.touch hp) (.one (.raise line channel kind))

end Station

/-- **Every call is a chain of elementary changes.** -/
theorem Call.chain (st : Station C) (c : Call C) :
    Chain st.wiring (c.incidents st) (c.after st).wiring := by
  cases c with
  | attachGpio line => exact st.chain_attach (.newGpio line) rfl
  | attachAdc line => exact st.chain_attach (.newAdc line) rfl
  | register source mask options handler => exact st.chain_register source mask options handler
  | unregister id => exact st.chain_unregister id
  | setEnabled id enabled => exact st.chain_setEnabled id enabled
  | sample channel mv => exact st.chain_sample channel mv
  | process max => exact Station.chain_drain max ⟨st.hub, st.lines, #[], #[]⟩
  | look =>
    unfold incidents after
    dsimp only
    rcases Station.chain_poll 1 st with ⟨hub, hpoll, hsame⟩ | ⟨id, kind, hub, lines, hpoll, hchain⟩
    · rw [hpoll]
      dsimp only
      rw [hsame]
      exact .nil _
    · rw [hpoll]
      exact hchain
  | raise line channel kind => exact .one (.raise line channel kind)
  | disarmAll line => exact .one (.disarmAll line)

theorem Station.chain_run (st : Station C) (cs : List (Call C)) :
    Chain st.wiring (st.trace cs) (st.run cs).wiring := by
  induction cs generalizing st with
  | nil => exact .nil _
  | cons c cs ih => exact (c.chain st).trans (ih (c.after st))

end Coop
