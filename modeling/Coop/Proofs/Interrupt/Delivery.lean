import Coop.Proofs.Interrupt.Calls
import Coop.Proofs.Interrupt.Invariant

/-!
# No stray handler calls

In an orderly run every handler call goes back to an event of its own, and what is armed on a line
belongs to a registration of the hub.

* `Station.wired_run`: the agreement of trace and wiring, for runs;
* `Station.armed_belongs`: armed channels and registrations;
* **`no_stray_calls`**: calls, events and channels.
-/

namespace Coop

open Trace Wiring

variable {C : Type} {n : Nat}

namespace Station

theorem wired_start (n : Nat) : Wired n [] (start n : Station C).wiring := by
  have hnone (id : IrqId) : (start n : Station C).wiring.known id = none := rfl
  refine ⟨fun j x hj => by simp at hj, ?_, ⟨?_, ?_⟩, ⟨?_, ?_, ?_⟩, ⟨?_, ?_⟩, ⟨?_, ?_, ?_⟩⟩
  · exact Array.size_replicate
  · intro kind line hm
    cases hm
  · intro kind line hm
    cases hm
  · intro p hp
    cases hp
  · intro kind _
    rfl
  · intro id s m hm
    cases hm
  · intro id s m hk
    rw [hnone] at hk
    cases hk
  · intro line channel a ha
    rw [show (start n : Station C).wiring.lines = Lines.new n from rfl,
      Lines.get_new, SignalLine.armedAt_new] at ha
    cases ha
  · intro kind line hm
    cases hm
  · intro line _
    exact ⟨rfl, congrArg SignalLine.queue (Lines.get_new n line)⟩
  · intro kind _
    rfl

theorem wired_run {cs : List (Call C)} (h : Orderly n ((start n).trace cs)) :
    Wired n ((start n).trace cs) ((start n).run cs).wiring :=
  (wired_start n).chain ((start n).chain_run cs) h

/-- A channel that is armed belongs to a registration for it, with the same mask. -/
theorem armed_belongs {tr : Trace} {st : Station C} (h : Wired n tr st.wiring) {line : LineId}
    {channel : UInt8} {a : Armed} (ha : (st.lines.get line).armedAt channel = some a) :
    ∃ kind b r, st.hub.backend? kind = some b ∧ b.line = line ∧
      st.hub.find? ⟨kind, a.raw⟩ = some r ∧ r.source = ⟨kind, channel⟩ ∧ r.mask = a.mask := by
  obtain ⟨kind, hw, hknown⟩ := h.arms.armed line channel a ha
  obtain ⟨r, hr, hfor⟩ := Option.map_eq_some_iff.mp hknown
  obtain ⟨p, hp, hwire⟩ := List.mem_map.mp hw
  obtain ⟨b, hb, rfl⟩ := List.mem_map.mp hp
  have hkind : b.kind = kind := by
    rw [← b.kind_port]
    exact congrArg Prod.fst hwire
  have hsome : (st.hub.backend? kind).isSome = true := by
    rw [Hub.backend?, List.find?_isSome]
    exact ⟨b, hb, beq_iff_eq.mpr hkind⟩
  obtain ⟨b', hb'⟩ := Option.isSome_iff_exists.mp hsome
  obtain ⟨hport, hkind⟩ := Hub.mem_ports_of_backend? hb'
  have hline : b'.line = line := by
    rw [← b'.line_port]
    exact (h.apart (Wired.mem_wires hport) hw).mp hkind
  exact ⟨kind, b', r, hb', hline, hr, congrArg Prod.fst hfor, congrArg Prod.snd hfor⟩

end Station

open Station

/-- **No event is misdelivered, duplicated or invented.** In every run in which each peripheral is
attached at most once, on a line of its own, and no backend runs out of numbers: every handler call
goes back to an event that was raised and queued earlier, on the channel of the registration and
with a kind in its mask, while the channel was armed for it; no two calls go back to the same event;
the calls for one peripheral, and so those for one registration, come in the order of the events;
and every channel that is armed in the end belongs to a registration for this channel with the same
mask. -/
theorem no_stray_calls {cs : List (Call C)} (h : Orderly n ((start n).trace cs)) :
    (∃ cause : Nat → Nat,
      (∀ j e, ((start n).trace cs)[j]? = some (.called e) →
        Caused ((start n).trace cs) (cause j) j e) ∧
      ∀ j₁ j₂ e₁ e₂, j₁ < j₂ → ((start n).trace cs)[j₁]? = some (.called e₁) →
        ((start n).trace cs)[j₂]? = some (.called e₂) →
        cause j₁ ≠ cause j₂ ∧ (e₁.id.kind = e₂.id.kind → cause j₁ < cause j₂)) ∧
    ∀ line channel a, (((start n).run cs).lines.get line).armedAt channel = some a →
      ∃ kind b r, ((start n).run cs).hub.backend? kind = some b ∧ b.line = line ∧
        ((start n).run cs).hub.find? ⟨kind, a.raw⟩ = some r ∧ r.source = ⟨kind, channel⟩ ∧
        r.mask = a.mask := by
  have hwired := wired_run h
  exact ⟨hwired.sound.exists_cause, fun line channel a ha => armed_belongs hwired ha⟩

/-- A handler that raises an event for another one, and an event that comes too late. -/
theorem no_stray_calls_relay : ∃ (cs : List (Call Unit)) (cause : Nat → Nat),
    (start 2).trace cs = [.attached .gpio 0, .attached .adc 1,
      .registered ⟨.gpio, 1⟩ ⟨.gpio, 3⟩ .edges, .registered ⟨.gpio, 2⟩ ⟨.gpio, 4⟩ .all,
      .raised 0 3 .rising (some ⟨1, .edges⟩) true, .called ⟨⟨.gpio, 1⟩, ⟨.gpio, 3⟩, .rising⟩,
      .raised 0 4 .low (some ⟨2, .all⟩) true, .called ⟨⟨.gpio, 2⟩, ⟨.gpio, 4⟩, .low⟩,
      .raised 0 3 .rising none false] ∧
    Caused ((start 2).trace cs) (cause 5) 5 ⟨⟨.gpio, 1⟩, ⟨.gpio, 3⟩, .rising⟩ ∧
    Caused ((start 2).trace cs) (cause 7) 7 ⟨⟨.gpio, 2⟩, ⟨.gpio, 4⟩, .low⟩ ∧
    cause 5 < cause 7 := by
  let relay : Handler Unit := fun _ c => .raise 0 4 .low fun _ => .finish c none
  let quiet : Handler Unit := fun _ c => .finish c none
  let cs : List (Call Unit) := [.attachGpio 0, .attachAdc 1,
    .register ⟨.gpio, 3⟩ .edges ⟨true, none, ()⟩ relay,
    .register ⟨.gpio, 4⟩ .all ⟨true, none, ()⟩ quiet, .raise 0 3 .rising, .process 8,
    .unregister ⟨.gpio, 1⟩, .raise 0 3 .rising, .look]
  have htr : (start 2).trace cs = [.attached .gpio 0, .attached .adc 1,
      .registered ⟨.gpio, 1⟩ ⟨.gpio, 3⟩ .edges, .registered ⟨.gpio, 2⟩ ⟨.gpio, 4⟩ .all,
      .raised 0 3 .rising (some ⟨1, .edges⟩) true, .called ⟨⟨.gpio, 1⟩, ⟨.gpio, 3⟩, .rising⟩,
      .raised 0 4 .low (some ⟨2, .all⟩) true, .called ⟨⟨.gpio, 2⟩, ⟨.gpio, 4⟩, .low⟩,
      .raised 0 3 .rising none false] := by decide +kernel
  have horderly : Orderly 2 ((start 2).trace cs) := by
    rw [htr]
    exact ⟨by decide +kernel, by decide +kernel, fun kind => by cases kind <;> decide +kernel⟩
  obtain ⟨⟨cause, hcaused, horder⟩, -⟩ := no_stray_calls horderly
  have h5 : ((start 2).trace cs)[5]? = some (.called ⟨⟨.gpio, 1⟩, ⟨.gpio, 3⟩, .rising⟩) := by
    rw [htr]
    rfl
  have h7 : ((start 2).trace cs)[7]? = some (.called ⟨⟨.gpio, 2⟩, ⟨.gpio, 4⟩, .low⟩) := by
    rw [htr]
    rfl
  exact ⟨cs, cause, htr, hcaused 5 _ h5, hcaused 7 _ h7, (horder 5 7 _ _ (by decide) h5 h7).2 rfl⟩

end Coop
