import Coop.Proofs.Interrupt.Registration
import Coop.Proofs.Interrupt.Watches
import Mathlib.Data.List.Induction

/-!
# Requests that are refused, and what unregistering removes

A request about registrations that is refused changes nothing, but that a number may have been drawn
for a channel that is taken. What is unregistered is in up to three places, the handlers of the hub,
the armed channels of the line and the watches of the converter; it is found in each of them by its
number, and as long as numbers are not given twice, nothing else is.

* `Hub.uncounted`, `register_refused`: a hub but for the numbers to draw, and refusals;
* `watch_registered`: every watch goes back to a registration for its channel;
* `armed_own`, `watch_own`: what is armed or watched under the number of a registration is its own;
* `Removed`, **`refused_or_removed`**: refusals and removals.
-/

namespace Coop

open Trace Wiring

variable {C : Type}

/-! ## Refusals -/

/-- The hub, but for the numbers that its backends draw next. -/
def Hub.uncounted (h : Hub C) : Hub C := { h with backends := h.backends.map (Backend.counting 0) }

namespace Hub

variable {h : Hub C} {b : Backend} {lines : Lines} {source : Source} {mask : EventMask}
  {options : IrqOptions C} {handler : Handler C}

theorem Single.uncounted_putBackend (hs : h.Single) (hb : b ∈ h.backends) (next : UInt16) :
    (h.putBackend (b.counting next)).uncounted = h.uncounted := by
  have hkind : (b.counting next).kind = b.kind := by cases b <;> rfl
  have htwice : (b.counting next).counting 0 = b.counting 0 := by cases b <;> rfl
  exact congrArg (fun backends => { h with backends := backends })
    (hs.map_putBackend hb hkind htwice)

/-- **A registration that is refused changes nothing**; only for a channel that is taken, a number
has been drawn. -/
theorem Single.register_refused (hs : h.Single) {e : IrqError}
    (he : (h.register lines source mask options handler).value.1 = .error e) :
    (h.register lines source mask options handler).value.2.2 = lines ∧
      (h.register lines source mask options handler).value.2.1.uncounted = h.uncounted ∧
      (e ≠ .channelBusy source.channel →
        (h.register lines source mask options handler).value.2.1 = h) := by
  cases hb : h.backend? source.kind with
  | none =>
    rw [value_register_of_none hb]
    exact ⟨rfl, rfl, fun _ => rfl⟩
  | some b =>
    have hmem := (backend?_eq_some hb).1
    rcases b.register_outcomes lines source.channel mask options.threshold with
      ⟨e', -, hreg⟩ | ⟨raw, next, -, hreg | ⟨line, mv, -, -, hreg⟩⟩
    · rw [value_register_of_error hb hreg, hs.putBackend_self hmem]
      exact ⟨rfl, rfl, fun _ => rfl⟩
    · rw [value_register_of_error hb hreg] at he ⊢
      refine ⟨rfl, hs.uncounted_putBackend hmem next, fun hne => absurd ?_ hne⟩
      exact (Except.error.inj he).symm
    · rw [value_register_of_ok hb hreg] at he
      cases he

theorem unregister_unknown {id : IrqId} (hid : h.find? id = none) (lines : Lines) :
    h.unregister lines id = ⟨(.error (.notRegistered id), h, lines), []⟩ := by
  unfold unregister
  rw [hid]
  rfl

theorem setEnabled_unknown {id : IrqId} (hid : h.find? id = none) (enabled : Bool) :
    h.setEnabled id enabled = (.error (.notRegistered id), h) := by
  unfold setEnabled
  rw [hid]

end Hub

/-! ## What belongs to a registration -/

namespace Station

variable {n : Nat} {tr : Trace} {st : Station C} {id : IrqId} {r : Registration C} {b : Backend}

theorem watch_registered (n : Nat) (cs : List (Call C)) {channel : UInt8} {w : Watch}
    (hw : ((start n).run cs).hub.watch? channel = some w) :
    ∃ mask, .registered ⟨.adc, w.raw⟩ ⟨.adc, channel⟩ mask ∈ (start n : Station C).trace cs := by
  induction cs using List.reverseRecOn generalizing w with
  | nil => cases hw
  | append_singleton cs c ih =>
    have hold {w' : Watch} (hw' : ((start n).run cs).hub.watch? channel = some w')
        (hraw : w'.raw = w.raw) : ∃ mask,
          .registered ⟨.adc, w.raw⟩ ⟨.adc, channel⟩ mask ∈ (start n).trace (cs ++ [c]) := by
      obtain ⟨mask, hmask⟩ := ih hw'
      rw [trace_append]
      exact ⟨mask, List.mem_append_left _ (hraw ▸ hmask)⟩
    rw [run_append] at hw
    change (c.after _).hub.watch? channel = some w at hw
    rw [Call.watch?_after] at hw
    unfold Call.watchAfter? at hw
    cases c with
    | attachAdc line => cases hw
    | register source mask options handler =>
      dsimp only at hw
      split at hw
      · rename_i id hok
        split_ifs at hw with hsource
        · obtain ⟨mv, -, rfl⟩ := Option.map_eq_some_iff.mp hw
          obtain ⟨_, _, _, _, hid, _⟩ := Hub.register_ok hok
          refine ⟨mask, ?_⟩
          rw [trace_append]
          refine List.mem_append_right _ (List.mem_append_left _ ?_)
          have hkind : (⟨.adc, id.raw⟩ : IrqId) = id := by rw [hid, hsource]
          unfold Call.incidents
          dsimp only
          rw [hok, hkind, ← hsource]
          exact List.mem_singleton_self _
        · exact hold hw rfl
      · exact hold hw rfl
    | unregister id =>
      dsimp only at hw
      split_ifs at hw
      exact hold hw rfl
    | sample c mv =>
      dsimp only at hw
      split_ifs at hw
      · obtain ⟨w', hw', rfl⟩ := Option.map_eq_some_iff.mp hw
        exact hold hw' rfl
      · exact hold hw rfl
    | attachGpio | setEnabled | process | look | raise | disarmAll => exact hold hw rfl

theorem registered_of_find? (h : Wired n tr st.wiring) (hr : st.hub.find? id = some r) :
    .registered id r.source r.mask ∈ tr := by
  refine h.arms.registered id r.source r.mask ?_
  change st.hub.known id = _
  rw [Hub.known, hr]
  rfl

theorem exists_backend (h : Wired n tr st.wiring) (hr : st.hub.find? id = some r) :
    ∃ b, st.hub.backend? id.kind = some b := by
  cases hb : st.hub.backend? id.kind with
  | some b => exact ⟨b, rfl⟩
  | none =>
    exfalso
    have hnone : drawn id.kind tr = 0 := by
      refine h.numbers.idle id.kind fun p hp => ?_
      obtain ⟨b, hmem, rfl⟩ := List.mem_map.mp hp
      rw [Backend.kind_port]
      exact fun hk => List.find?_eq_none.mp hb b hmem (beq_iff_eq.mpr hk)
    have hpos : 0 < drawn id.kind tr := by
      refine List.countP_pos_iff.mpr ⟨_, registered_of_find? h hr, ?_⟩
      simp [Incident.draws]
    omega

theorem armed_own (h : Wired n tr st.wiring) (hr : st.hub.find? id = some r)
    (hb : st.hub.backend? id.kind = some b) {channel : UInt8} {a : Armed}
    (ha : (st.lines.get b.line).armedAt channel = some a) (hraw : a.raw = id.raw) :
    channel = r.source.channel ∧ a = ⟨id.raw, r.mask⟩ := by
  obtain ⟨kind, b', r', hb', hline, hr', hsource, hmask⟩ := armed_belongs h ha
  obtain ⟨hp, hk⟩ := Hub.mem_ports_of_backend? hb
  obtain ⟨hp', hk'⟩ := Hub.mem_ports_of_backend? hb'
  have hkind : kind = id.kind := by
    rw [← hk, ← hk']
    refine (h.apart (Wired.mem_wires hp') (Wired.mem_wires hp)).mpr ?_
    rw [Backend.line_port, Backend.line_port, hline]
  have hid : (⟨kind, a.raw⟩ : IrqId) = id := by rw [hkind, hraw]
  rw [hid, hr] at hr'
  obtain rfl := Option.some.inj hr'
  refine ⟨by rw [hsource], ?_⟩
  rw [← hraw, hmask]

theorem watch_own {cs : List (Call C)} (h : Orderly n ((start n).trace cs))
    (hr : ((start n).run cs).hub.find? id = some r) (hk : id.kind = .adc) {channel : UInt8}
    (hw : Watch.holds id.raw (((start n).run cs).hub.watch? channel) = true) :
    channel = r.source.channel := by
  have hwired := wired_run h
  cases hwatch : ((start n).run cs).hub.watch? channel with
  | none =>
    rw [hwatch] at hw
    cases hw
  | some w =>
    rw [hwatch] at hw
    have hraw : w.raw = id.raw := eq_of_beq hw
    obtain ⟨mask, hmask⟩ := watch_registered n cs hwatch
    have hid : (⟨.adc, w.raw⟩ : IrqId) = id := by rw [hraw, ← hk]
    rw [hid] at hmask
    -- the number was given once, and so to one channel
    obtain ⟨i, hi⟩ := List.mem_iff_getElem?.mp hmask
    obtain ⟨j, hj⟩ := List.mem_iff_getElem?.mp (registered_of_find? hwired hr)
    obtain rfl := hwired.sound.registered_unique hi hj
    rw [hi] at hj
    injection Option.some.inj hj with _ hsource _
    rw [← hsource]

end Station

/-! ## Removals -/

/-- A registration is removed, and nothing else. -/
structure Removed (st : Station C) (id : IrqId) (r : Registration C) (b : Backend) : Prop where
  /-- The answer tells whether the registration still had its channel. -/
  answer : ∃ held, (st.hub.unregister st.lines id).value.1 = .ok held ∧
    (held = true ↔ st.Holds id r.source.channel r.mask)
  registrations : ∀ other, (st.hub.unregister st.lines id).value.2.1.find? other =
    if other = id then none else st.hub.find? other
  oneLess : (st.hub.unregister st.lines id).value.2.1.handlers.length + 1 = st.hub.handlers.length
  /-- Its channel is disarmed, if it still had it, and no other. -/
  armed : ∀ line channel, ((st.hub.unregister st.lines id).value.2.2.get line).armedAt channel =
    if line = b.line ∧ channel = r.source.channel ∧
        (st.lines.get line).armedAt channel = some ⟨id.raw, r.mask⟩ then none
    else (st.lines.get line).armedAt channel
  /-- Its channel is not watched for it any more, and no other watch is concerned. -/
  watches : ∀ channel, (st.hub.unregister st.lines id).value.2.1.watch? channel =
    if id.kind = .adc ∧ channel = r.source.channel ∧
        Watch.holds id.raw (st.hub.watch? channel) = true then none
    else st.hub.watch? channel
  queues : ∀ line,
    ((st.hub.unregister st.lines id).value.2.2.get line).queue = (st.lines.get line).queue ∧
      ((st.hub.unregister st.lines id).value.2.2.get line).dropped = (st.lines.get line).dropped
  ports : (st.hub.unregister st.lines id).value.2.1.ports = st.hub.ports
  counts : (st.hub.unregister st.lines id).value.2.1.faults = st.hub.faults ∧
    (st.hub.unregister st.lines id).value.2.1.discarded = st.hub.discarded ∧
    (st.hub.unregister st.lines id).value.2.1.cursor = st.hub.cursor

theorem Hub.find?_remove (h : Hub C) (id other : IrqId) :
    (h.remove id).find? other = if other = id then none else h.find? other :=
  lookup_remove other

theorem Hub.Distinct.length_remove {h : Hub C} (hd : h.Distinct) {id : IrqId} {r : Registration C}
    (hr : h.find? id = some r) : (h.remove id).handlers.length + 1 = h.handlers.length := by
  have hinsert := length_insert hd id r
  rw [hr, Option.isSome_some, if_pos rfl] at hinsert
  rw [← hinsert]
  change _ = ((h.remove id).handlers ++ [(id, r)]).length
  rw [List.length_append, List.length_singleton]

namespace Station

variable {n : Nat} {cs : List (Call C)} {id : IrqId} {r : Registration C}

theorem removed (h : Orderly n ((start n).trace cs))
    (hr : ((start n).run cs).hub.find? id = some r) {b : Backend}
    (hb : ((start n).run cs).hub.backend? id.kind = some b) :
    Removed ((start n).run cs) id r b := by
  have hwired := wired_run h
  have hs := single_run n cs
  have hd := distinct_run n cs
  generalize hst : (start n).run cs = st at hr hb hwired hs hd ⊢
  obtain ⟨hmem, -⟩ := Hub.backend?_eq_some hb
  obtain ⟨hport, hlines⟩ := b.port_unregister st.lines id.raw
  have hvalue : (st.hub.unregister st.lines id).value = _ := Hub.value_unregister hr hb
  have hown {channel : UInt8} {a : Armed} (ha : (st.lines.get b.line).armedAt channel = some a)
      (hraw : a.raw = id.raw) := armed_own hwired hr hb ha hraw
  refine ⟨⟨_, congrArg Prod.fst hvalue, ?_⟩, fun other => ?_, ?_, fun line channel => ?_,
    fun channel => ?_, fun line => ?_, ?_, ?_⟩
  · change (st.lines.get b.line).isArmed id.raw = true ↔ _
    rw [SignalLine.isArmed_iff]
    constructor
    · rintro ⟨c, a, ha, hraw⟩
      obtain ⟨rfl, rfl⟩ := hown ha hraw
      exact ⟨b, hb, ha⟩
    · rintro ⟨b', hb', ha⟩
      rw [hb] at hb'
      cases hb'
      exact ⟨_, _, ha, rfl⟩
  · rw [hvalue]
    exact st.hub.find?_remove id other
  · rw [hvalue]
    exact hd.length_remove hr
  · rw [hvalue, hlines, Lines.get_disarm]
    by_cases hline : b.line = line
    · subst hline
      rw [if_pos rfl, SignalLine.armedAt_disarm]
      cases ha : (st.lines.get b.line).armedAt channel with
      | none => simp [Armed.holds]
      | some a =>
        by_cases hraw : a.raw = id.raw
        · obtain ⟨rfl, rfl⟩ := hown ha hraw
          simp [Armed.holds]
        · have hne : a ≠ ⟨id.raw, r.mask⟩ := fun heq => hraw (by rw [heq])
          simp [Armed.holds, hraw, hne]
    · rw [if_neg hline, if_neg fun hc => hline hc.1.symm]
  · have hiff : (id.kind = .adc ∧ (some r).isSome = true ∧
        Watch.holds id.raw (st.hub.watch? channel) = true) ↔
          id.kind = .adc ∧ channel = r.source.channel ∧
            Watch.holds id.raw (st.hub.watch? channel) = true := by
      refine and_congr_right fun hk => and_congr_left fun hw => ?_
      subst hst
      exact iff_of_true rfl (watch_own h hr hk hw)
    rw [st.watch?_unregister channel id, hr]
    simp only [hiff]
  · have hdropped : ((st.lines.get b.line).disarm id.raw).dropped =
        (st.lines.get b.line).dropped := rfl
    rw [hvalue, hlines]
    exact ⟨Lines.apply_get_set SignalLine.queue (SignalLine.queue_disarm _ _) line,
      Lines.apply_get_set SignalLine.dropped hdropped line⟩
  · rw [hvalue]
    exact Hub.Single.ports_putBackend (h := st.hub.remove id) hs hmem hport
  · rw [hvalue]
    exact ⟨rfl, rfl, rfl⟩

end Station

open Station

/-- **Requests that are refused change nothing, and unregistering removes only what was
registered.** After every run: a registration that is refused leaves the hub and the lines as they
are, but that a number is drawn for a channel that is taken; a number that is not registered cannot
be unregistered, enabled or disabled, which is said and changes nothing; and if every peripheral was
attached once, on a line of its own, and no backend ran out of numbers, unregistering takes away the
registration, its channel if it still had it, which is told, and its watch, and leaves every other
registration, channel and watch alone. -/
theorem refused_or_removed (n : Nat) (cs : List (Call C)) {st : Station C}
    (hst : st = (start n).run cs) :
    (∀ source mask options handler e,
      (st.hub.register st.lines source mask options handler).value.1 = .error e →
        (st.hub.register st.lines source mask options handler).value.2.2 = st.lines ∧
        (st.hub.register st.lines source mask options handler).value.2.1.uncounted =
          st.hub.uncounted ∧
        (e ≠ .channelBusy source.channel →
          (st.hub.register st.lines source mask options handler).value.2.1 = st.hub)) ∧
    (∀ id, st.hub.find? id = none →
      st.hub.unregister st.lines id = ⟨(.error (.notRegistered id), st.hub, st.lines), []⟩ ∧
      ∀ enabled, st.hub.setEnabled id enabled = (.error (.notRegistered id), st.hub)) ∧
    (Orderly n ((start n).trace cs) → ∀ id r, st.hub.find? id = some r →
      ∃ b, st.hub.backend? id.kind = some b ∧ Removed st id r b) := by
  subst hst
  refine ⟨fun _ _ _ _ _ he => (single_run n cs).register_refused he, fun id hid => ⟨?_, ?_⟩,
    fun h id r hr => ?_⟩
  · exact Hub.unregister_unknown hid _
  · exact Hub.setEnabled_unknown hid
  · obtain ⟨b, hb⟩ := exists_backend (wired_run h) hr
    exact ⟨b, hb, removed h hr hb⟩

/-- A registration whose channel was disarmed and taken by another one: the channel is refused to a
third one, and unregistering the first leaves the channel and the watch to the second. -/
theorem refused_or_removed_late : ∃ (cs : List (Call Unit)) (st : Station Unit)
    (handler : Handler Unit), st = (start 2).run cs ∧
      (st.hub.register st.lines ⟨.adc, 2⟩ .edges ⟨true, some 500, ()⟩ handler).value.1 =
        .error (.channelBusy 2) ∧
      (st.hub.register st.lines ⟨.adc, 2⟩ .edges ⟨true, some 500, ()⟩
        handler).value.2.1.uncounted = st.hub.uncounted ∧
      (st.hub.unregister st.lines ⟨.adc, 1⟩).value.1 = .ok false ∧
      ((st.hub.unregister st.lines ⟨.adc, 1⟩).value.2.2.get 1).armedAt 2 = some ⟨2, .edges⟩ ∧
      (st.hub.unregister st.lines ⟨.adc, 1⟩).value.2.1.watch? 2 = some ⟨2, 1000, some false⟩ := by
  let quiet : Handler Unit := fun _ c => .finish c none
  let cs : List (Call Unit) := [.attachGpio 0, .attachAdc 1,
    .register ⟨.adc, 2⟩ .edges ⟨true, some 700, ()⟩ quiet, .disarmAll 1,
    .register ⟨.adc, 2⟩ .edges ⟨true, some 1000, ()⟩ quiet, .sample 2 400]
  have htr : (start 2).trace cs = [.attached .gpio 0, .attached .adc 1,
      .registered ⟨.adc, 1⟩ ⟨.adc, 2⟩ .edges, .registered ⟨.adc, 2⟩ ⟨.adc, 2⟩ .edges] := by
    decide +kernel
  have horderly : Orderly 2 ((start 2).trace cs) := by
    rw [htr]
    exact ⟨by decide +kernel, by decide +kernel, fun kind => by cases kind <;> decide +kernel⟩
  obtain ⟨hrefused, -, hremoved⟩ := refused_or_removed 2 cs rfl
  have hknown : (((start 2).run cs).hub.find? ⟨.adc, 1⟩).map (fun r => (r.source, r.mask)) =
      some (⟨.adc, 2⟩, .edges) := by decide +kernel
  have harmed : (((start 2).run cs).lines.get 1).armedAt 2 = some ⟨2, .edges⟩ := by decide +kernel
  have hwatch : ((start 2).run cs).hub.watch? 2 = some ⟨2, 1000, some false⟩ := by decide +kernel
  have hline : (((start 2).run cs).hub.backend? .adc).map Backend.line = some 1 := by
    decide +kernel
  obtain ⟨r, hr, hfor⟩ := Option.map_eq_some_iff.mp hknown
  obtain ⟨b, hb, hrem⟩ := hremoved horderly ⟨.adc, 1⟩ r hr
  have hbusy : (((start 2).run cs).hub.register ((start 2).run cs).lines ⟨.adc, 2⟩ .edges
      ⟨true, some 500, ()⟩ quiet).value.1 = .error (.channelBusy 2) := by decide +kernel
  refine ⟨cs, _, quiet, rfl, hbusy, (hrefused _ _ _ _ _ hbusy).2.1, ?_, ?_, ?_⟩
  · obtain ⟨held, hanswer, hiff⟩ := hrem.answer
    cases held with
    | false => exact hanswer
    | true =>
      obtain ⟨b', hb', hholds⟩ := hiff.mp rfl
      rw [hb', Option.map_some, Option.some.injEq] at hline
      rw [hline, congrArg (fun s => s.1.channel) hfor, harmed] at hholds
      cases hholds
  · rw [hrem.armed, if_neg, harmed]
    rintro ⟨-, -, hown⟩
    rw [harmed] at hown
    cases hown
  · rw [hrem.watches, if_neg, hwatch]
    rintro ⟨-, -, hown⟩
    rw [hwatch] at hown
    cases hown

end Coop
