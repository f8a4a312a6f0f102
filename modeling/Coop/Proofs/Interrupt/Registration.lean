import Coop.Proofs.Interrupt.Delivery
import Mathlib.Control.Monad.Basic
import Mathlib.Data.List.Nodup
import Mathlib.Logic.Function.Iterate

/-!
# The numbers of registrations

A backend looks for a number that is not armed on its line, and finds one. Whether the number is
free in the hub as well is another matter: a backend that took the place of another one starts
counting anew, and channels that were disarmed without the hub keep their registrations.

* `freshRaw_free`: a number that is drawn is not armed;
* `Hub.Distinct`, `Station.distinct_run`: no number is registered twice;
* **`number_of_register`**: what registering does, and when the number was free;
* `number_taken_over`: a number that was not.
-/

namespace Coop

open Trace

/-! ## Drawing a number -/

theorem toNat_nextRaw_iterate {m : UInt16} (h : m ≠ 0) (i : Nat) :
    (nextRaw^[i] m).toNat = (m.toNat - 1 + i) % numberLimit + 1 := by
  have hpos : 0 < m.toNat := Nat.pos_of_ne_zero fun h0 => h (UInt16.toNat_inj.mp h0)
  have hlt : m.toNat < 0x10000 := m.toNat_lt
  induction i with
  | zero =>
    rw [Function.iterate_zero_apply, Nat.add_zero, Nat.mod_eq_of_lt (by unfold numberLimit; omega)]
    omega
  | succ i ih =>
    have hbound := Nat.mod_lt (m.toNat - 1 + i) (show numberLimit > 0 by decide)
    have hmod : (m.toNat - 1 + (i + 1)) % numberLimit =
        ((m.toNat - 1 + i) % numberLimit + 1) % numberLimit := by
      rw [Nat.mod_add_mod, Nat.add_assoc]
    rw [Function.iterate_succ_apply', hmod]
    by_cases hlast : (m.toNat - 1 + i) % numberLimit + 1 = numberLimit
    · -- the last number is followed by the first
      have hmax : nextRaw^[i] m = 0xffff := UInt16.toNat_inj.mp (ih.trans hlast)
      rw [hmax, hlast]
      rfl
    · have hsmall : (m.toNat - 1 + i) % numberLimit + 1 < numberLimit := by omega
      rw [toNat_nextRaw (by omega), ih, Nat.mod_eq_of_lt hsmall]

/-- The search finds a free number, or every number it tried is armed. -/
theorem freshRaw_or (l : SignalLine) (tries : Nat) {m : UInt16} (h : m ≠ 0) :
    l.isArmed (freshRaw l tries m).1 = false ∨
      ∀ i ≤ tries, l.isArmed (nextRaw^[i] m) = true := by
  induction tries generalizing m with
  | zero =>
    cases ha : l.isArmed m with
    | false => exact .inl ha
    | true =>
      refine .inr fun i hi => ?_
      obtain rfl := Nat.le_zero.mp hi
      exact ha
  | succ tries ih =>
    unfold freshRaw
    split_ifs with hfree
    · exact .inl hfree.2
    · refine (ih (nextRaw_ne_zero m)).imp id fun hall i hi => ?_
      cases i with
      | zero => simpa [h] using hfree
      | succ i =>
        rw [Function.iterate_succ_apply]
        exact hall i (by omega)

theorem freshRaw_ne_zero (l : SignalLine) (tries : Nat) {m : UInt16} (h : m ≠ 0) :
    (freshRaw l tries m).1 ≠ 0 := by
  induction tries generalizing m with
  | zero => exact h
  | succ tries ih =>
    unfold freshRaw
    split_ifs
    · exact h
    · exact ih (nextRaw_ne_zero m)

/-- There are more numbers to try than channels to arm. -/
theorem isArmed_freshRaw (l : SignalLine) {tries : Nat} (ht : lineChannels ≤ tries)
    (hb : tries < numberLimit) {m : UInt16} (h : m ≠ 0) :
    l.isArmed (freshRaw l tries m).1 = false := by
  refine (freshRaw_or l tries h).resolve_right fun hall => ?_
  set tried := (List.range (tries + 1)).map fun i => nextRaw^[i] m with htried
  have hnodup : tried.Nodup := by
    refine List.nodup_range.map_on ?_
    intro i hi j hj hij
    rw [List.mem_range] at hi hj
    have he := congrArg UInt16.toNat hij
    rw [toNat_nextRaw_iterate h, toNat_nextRaw_iterate h] at he
    unfold numberLimit at he hb
    omega
  have hsub : tried ⊆ l.armed.toList.filterMap (Option.map Armed.raw) := by
    intro raw hraw
    obtain ⟨i, hi, rfl⟩ := List.mem_map.mp hraw
    rw [List.mem_range] at hi
    obtain ⟨c, a, ha, hraw⟩ := SignalLine.isArmed_iff.mp (hall i (by omega))
    have hslot : some a ∈ l.armed.toList :=
      Vector.mem_toList_iff.mpr (Vector.mem_of_getElem? (Option.join_eq_some_iff.mp ha))
    exact List.mem_filterMap.mpr ⟨some a, hslot, congrArg some hraw⟩
  have hlen := hnodup.length_le_of_subset hsub
  have hmost := List.length_filterMap_le (Option.map Armed.raw) l.armed.toList
  rw [Vector.length_toList] at hmost
  rw [htried, List.length_map, List.length_range] at hlen
  omega

/-- **A number that is drawn is not zero and not armed.** -/
theorem freshRaw_free (l : SignalLine) (m : UInt16) :
    (freshRaw l rawTries m).1 ≠ 0 ∧ l.isArmed (freshRaw l rawTries m).1 = false := by
  by_cases h : m = 0
  · -- zero is passed over
    have hskip : freshRaw l rawTries m = freshRaw l lineChannels (nextRaw m) :=
      if_neg fun hf => hf.1 h
    rw [hskip]
    exact ⟨freshRaw_ne_zero l _ (nextRaw_ne_zero m),
      isArmed_freshRaw l (Nat.le_refl _) (by decide) (nextRaw_ne_zero m)⟩
  · exact ⟨freshRaw_ne_zero l _ h, isArmed_freshRaw l (by decide) (by decide) h⟩

/-! ## Registered numbers -/

variable {C : Type}

namespace Hub

variable {h : Hub C} {id : IrqId}

/-- The numbers that are registered. -/
def numbers (h : Hub C) : List IrqId := h.handlers.map Prod.fst

/-- No number is registered twice. -/
def Distinct (h : Hub C) : Prop := h.numbers.Nodup

theorem numbers_putHandler (h : Hub C) (id : IrqId) (r : Registration C) :
    (h.putHandler id r).numbers = h.numbers := by
  unfold numbers putHandler
  rw [List.map_map]
  refine List.map_congr_left fun e _ => ?_
  rw [Function.comp_apply]
  split_ifs with he
  · exact he.symm
  · rfl

theorem numbers_remove (h : Hub C) (id : IrqId) :
    (h.remove id).numbers = h.numbers.filter (· ≠ id) := by
  unfold numbers remove
  rw [List.filter_map]
  rfl

theorem Distinct.remove (hd : h.Distinct) (id : IrqId) : (h.remove id).Distinct := by
  unfold Distinct
  rw [numbers_remove]
  exact hd.filter _

theorem Distinct.insert (hd : h.Distinct) (id : IrqId) (r : Registration C) :
    (h.insert id r).Distinct := by
  have hnumbers : (h.insert id r).numbers = (h.remove id).numbers ++ [id] := List.map_append
  unfold Distinct
  rw [hnumbers, List.nodup_append_comm]
  refine List.nodup_cons.mpr ⟨?_, hd.remove id⟩
  rw [numbers_remove]
  simp

theorem find?_isSome_iff : (h.find? id).isSome = true ↔ id ∈ h.numbers := by
  unfold find? numbers
  rw [List.lookup_isSome_iff, List.mem_map]
  constructor
  · rintro ⟨e, he, hid⟩
    exact ⟨e, he, (eq_of_beq hid).symm⟩
  · rintro ⟨e, he, rfl⟩
    exact ⟨e, he, beq_self_eq_true e.1⟩

theorem length_insert (hd : h.Distinct) (id : IrqId) (r : Registration C) :
    (h.insert id r).handlers.length =
      if (h.find? id).isSome then h.handlers.length else h.handlers.length + 1 := by
  have hremove : (h.remove id).numbers = h.numbers.erase id := by
    rw [numbers_remove, hd.erase_eq_filter]
    simp [bne, Bool.beq_eq_decide_eq]
  have hlength : (h.insert id r).handlers.length = (h.numbers.erase id).length + 1 := by
    rw [← hremove, numbers, List.length_map]
    exact List.length_append
  have hcount : h.numbers.length = h.handlers.length := List.length_map _
  rw [hlength, List.length_erase, hcount]
  by_cases hid : id ∈ h.numbers
  · have hpos := List.length_pos_of_mem hid
    rw [if_pos hid, if_pos (find?_isSome_iff.mpr hid)]
    omega
  · rw [if_neg hid, if_neg (fun hf => hid (find?_isSome_iff.mp hf))]

end Hub

theorem Drain.numbers_deliver (d : Drain C) (id : IrqId) (kind : EventKind) :
    (d.deliver id kind).hub.numbers = d.hub.numbers := by
  unfold deliver
  cases d.hub.find? id with
  | none => rfl
  | some r =>
    dsimp only
    split_ifs
    · dsimp only
      split
      · exact Hub.numbers_putHandler d.hub id _
      · exact Hub.numbers_putHandler d.hub id _
    · rfl

theorem Hub.numbers_pollFrom (m : Nat) (h : Hub C) (lines : Lines) :
    (pollFrom m h lines).2.1.numbers = h.numbers := by
  induction m generalizing h with
  | zero => rfl
  | succ m ih =>
    unfold pollFrom
    dsimp only
    split
    · rfl
    · split
      · exact ih _
      · rfl

theorem Drain.numbers_run (max : Nat) (d : Drain C) :
    (Drain.run max d).hub.numbers = d.hub.numbers := by
  induction max generalizing d with
  | zero => rfl
  | succ max ih =>
    have hpoll := Hub.numbers_pollFrom d.hub.backends.length d.hub d.lines
    unfold Drain.run Hub.poll
    split
    · rename_i hub lines hfound
      rw [hfound] at hpoll
      exact hpoll
    · rename_i id kind hub lines hfound
      rw [hfound] at hpoll
      rw [ih, numbers_deliver]
      exact hpoll

namespace Station

variable {st : Station C}

theorem distinct_register (hd : st.hub.Distinct) (source : Source) (mask : EventMask)
    (options : IrqOptions C) (handler : Handler C) :
    (Call.after st (.register source mask options handler)).hub.Distinct := by
  unfold Call.after
  dsimp only
  cases hb : st.hub.backend? source.kind with
  | none =>
    rw [Hub.value_register_of_none hb]
    exact hd
  | some b =>
    rcases hreg : b.register st.lines source.channel mask options.threshold with
      ⟨e | raw, b', lines⟩
    · rw [Hub.value_register_of_error hb hreg]
      exact hd
    · rw [Hub.value_register_of_ok hb hreg]
      exact Hub.Distinct.insert (h := st.hub.putBackend b') hd _ _

theorem distinct_unregister (hd : st.hub.Distinct) (id : IrqId) :
    (Call.after st (.unregister id)).hub.Distinct := by
  unfold Call.after
  dsimp only
  cases hr : st.hub.find? id with
  | none =>
    rw [Hub.unregister, hr]
    exact hd
  | some r =>
    cases hb : st.hub.backend? id.kind with
    | none =>
      rw [Hub.value_unregister_of_lost hr hb]
      exact hd.remove id
    | some b =>
      rw [Hub.value_unregister hr hb]
      exact hd.remove id

theorem distinct_after (hd : st.hub.Distinct) (c : Call C) : (c.after st).hub.Distinct := by
  cases c with
  | attachGpio | attachAdc | raise | disarmAll => exact hd
  | register source mask options handler => exact distinct_register hd source mask options handler
  | unregister id => exact distinct_unregister hd id
  | setEnabled id enabled =>
    unfold Call.after Hub.setEnabled
    dsimp only
    split
    · exact hd
    · unfold Hub.Distinct
      rwa [Hub.numbers_putHandler]
  | sample channel mv =>
    unfold Call.after Hub.sample
    dsimp only
    split <;> exact hd
  | process max =>
    unfold Hub.Distinct
    rw [show (Call.after st (.process max)).hub.numbers = st.hub.numbers from
      Drain.numbers_run max ⟨st.hub, st.lines, #[], #[]⟩]
    exact hd
  | look =>
    have hpoll := Hub.numbers_pollFrom 1 st.hub st.lines
    unfold Call.after Hub.Distinct
    dsimp only
    split
    · rename_i hub lines hfound
      rw [hfound] at hpoll
      exact hpoll ▸ hd
    · rename_i id kind hub lines hfound
      rw [hfound] at hpoll
      rw [hand, Drain.station, Drain.numbers_deliver]
      exact hpoll ▸ hd

/-- **No number is ever registered twice at a time.** -/
theorem distinct_run (n : Nat) (cs : List (Call C)) : ((start n).run cs).hub.Distinct := by
  suffices h : ∀ st : Station C, st.hub.Distinct → (st.run cs).hub.Distinct from
    h _ List.nodup_nil
  induction cs with
  | nil => exact fun st hd => hd
  | cons c cs ih => exact fun st hd => ih (c.after st) (distinct_after hd c)

end Station

/-! ## Registering -/

section Registering

variable {source : Source} {mask : EventMask} {options : IrqOptions C} {handler : Handler C}
  {id : IrqId}

theorem Hub.register_ok {h : Hub C} {lines : Lines}
    (hok : (h.register lines source mask options handler).value.1 = .ok id) :
    ∃ b b' lines', h.backend? source.kind = some b ∧
      id = ⟨source.kind, (freshRaw (lines.get b.line) rawTries b.port.next).1⟩ ∧
      (h.register lines source mask options handler).value.2 =
        ((h.putBackend b').insert id ⟨source, mask, options.enabled, options.capture, handler⟩,
          lines') := by
  cases hb : h.backend? source.kind with
  | none =>
    rw [value_register_of_none hb] at hok
    cases hok
  | some b =>
    rcases b.register_cases lines source.channel mask options.threshold with
      ⟨e, -, hreg⟩ | ⟨b', raw, next, hfresh, -, hreg | ⟨line, -, hreg⟩⟩
    · rw [value_register_of_error hb hreg] at hok
      cases hok
    · rw [value_register_of_error hb hreg] at hok
      cases hok
    · rw [value_register_of_ok hb hreg] at hok ⊢
      cases hok
      rw [b.line_port] at hfresh
      exact ⟨b, b', _, rfl, by rw [hfresh], rfl⟩

namespace Station

/-- In an orderly run the number is new, and so it is free. -/
theorem free_of_orderly {n : Nat} {cs : List (Call C)}
    (hok : (((start n).run cs).hub.register ((start n).run cs).lines source mask options
      handler).value.1 = .ok id)
    (h : Orderly n ((start n).trace (cs ++ [.register source mask options handler]))) :
    ((start n).run cs).hub.find? id = none := by
  have htrace : (start n).trace (cs ++ [.register source mask options handler]) =
      (start n).trace cs ++ [.registered id source mask] := by
    rw [trace_append, trace, Call.incidents, hok]
    rfl
  have hwired := wired_run h
  rw [htrace] at h hwired
  have hnew : ∀ s m, .registered id s m ∉ (start n).trace cs := by
    have hlast := hwired.sound ((start n).trace cs).length (.registered id source mask) (by simp)
    rwa [List.take_left] at hlast
  refine Option.eq_none_iff_forall_ne_some.mpr fun r hr => ?_
  have hknown : ((start n).run cs).wiring.known id = some (r.source, r.mask) :=
    Option.map_eq_some_iff.mpr ⟨r, hr, rfl⟩
  exact hnew _ _ ((wired_run h.front).arms.registered id _ _ hknown)

end Station

open Station

/-- **The number of a registration.** Whatever was done before, a handler is registered under a
number that is not zero and not armed on the line of its backend, and every other registration is
left alone. A number that was registered already is taken over, and then there is no handler more.
It was free if the registrations of its kind are all armed on that line, and in every orderly run.
-/
theorem number_of_register {n : Nat} (cs : List (Call C))
    (hok : (((start n).run cs).hub.register ((start n).run cs).lines source mask options
      handler).value.1 = .ok id) :
    let st := (start n).run cs
    let st' := Call.after st (.register source mask options handler)
    id.kind = source.kind ∧ id.raw ≠ 0 ∧
    st'.hub.find? id = some ⟨source, mask, options.enabled, options.capture, handler⟩ ∧
    (∀ other, other ≠ id → st'.hub.find? other = st.hub.find? other) ∧
    st'.hub.handlers.length =
      (if (st.hub.find? id).isSome then st.hub.handlers.length
        else st.hub.handlers.length + 1) ∧
    (∃ b, st.hub.backend? source.kind = some b ∧
      (st.lines.get b.line).isArmed id.raw = false ∧
      ((∀ raw, (st.hub.find? ⟨source.kind, raw⟩).isSome → (st.lines.get b.line).isArmed raw) →
        st.hub.find? id = none)) ∧
    (Orderly n ((start n).trace (cs ++ [.register source mask options handler])) →
      st.hub.find? id = none) := by
  intro st st'
  obtain ⟨b, b', lines, hb, hid, hreg⟩ := Hub.register_ok hok
  obtain ⟨hzero, hfree⟩ := freshRaw_free (st.lines.get b.line) b.port.next
  have hkind : id.kind = source.kind := by rw [hid]
  have hraw : id.raw = (freshRaw (st.lines.get b.line) rawTries b.port.next).1 := by rw [hid]
  have hhub : st'.hub = (st.hub.putBackend b').insert id
      ⟨source, mask, options.enabled, options.capture, handler⟩ := congrArg Prod.fst hreg
  rw [← hraw] at hzero hfree
  refine ⟨hkind, hzero, ?_, ?_, ?_, ⟨b, hb, hfree, ?_⟩, free_of_orderly hok⟩
  · rw [hhub, Hub.find?_insert, if_pos rfl]
  · intro other hne
    rw [hhub, Hub.find?_insert, if_neg hne]
    rfl
  · rw [hhub]
    exact Hub.length_insert (h := st.hub.putBackend b') (distinct_run n cs) id _
  · intro harmed
    cases hr : st.hub.find? id with
    | none => rfl
    | some r =>
      have := harmed id.raw (by rw [← hkind, hr]; rfl)
      rw [hfree] at this
      cases this

/-- The second of two pins. -/
theorem number_of_register_second : ∃ cs : List (Call Unit),
    (((start 1).run cs).hub.register ((start 1).run cs).lines ⟨.gpio, 4⟩ .edges ⟨true, none, ()⟩
      fun _ c => .finish c none).value.1 = .ok ⟨.gpio, 2⟩ ∧
    ((start 1).run cs).hub.find? ⟨.gpio, 2⟩ = none ∧
    (Call.after ((start 1).run cs) (.register ⟨.gpio, 4⟩ .edges ⟨true, none, ()⟩
      fun _ c => .finish c none)).hub.handlers.length = 2 := by
  let quiet : Handler Unit := fun _ c => .finish c none
  let cs : List (Call Unit) := [.attachGpio 0, .register ⟨.gpio, 3⟩ .edges ⟨true, none, ()⟩ quiet]
  have hok : (((start 1).run cs).hub.register ((start 1).run cs).lines ⟨.gpio, 4⟩ .edges
      ⟨true, none, ()⟩ quiet).value.1 = .ok ⟨.gpio, 2⟩ := by decide +kernel
  have horderly : Orderly 1 ((start 1).trace
      (cs ++ [.register ⟨.gpio, 4⟩ .edges ⟨true, none, ()⟩ quiet])) :=
    ⟨by decide +kernel, by decide +kernel, fun kind => by cases kind <;> decide +kernel⟩
  obtain ⟨-, -, -, -, hlength, -, hfree⟩ := number_of_register cs hok
  have hnone := hfree horderly
  rw [hnone] at hlength
  exact ⟨cs, hok, hnone, hlength⟩

/-- A backend on another line starts counting anew: the handler of pin 3 is lost to pin 4. -/
theorem number_taken_over : ∃ cs : List (Call Unit), ∃ handler : Handler Unit,
    let st := (start 2).run cs
    let st' := Call.after st (.register ⟨.gpio, 4⟩ (.only .rising) ⟨true, none, ()⟩ handler)
    (st.hub.register st.lines ⟨.gpio, 4⟩ (.only .rising) ⟨true, none, ()⟩ handler).value.1 =
      .ok ⟨.gpio, 1⟩ ∧
    (st.hub.find? ⟨.gpio, 1⟩).map Registration.source = some ⟨.gpio, 3⟩ ∧
    (st'.hub.find? ⟨.gpio, 1⟩).map Registration.source = some ⟨.gpio, 4⟩ ∧
    st.hub.handlers.length = 1 ∧ st'.hub.handlers.length = 1 := by
  let quiet : Handler Unit := fun _ c => .finish c none
  refine ⟨[.attachGpio 0, .register ⟨.gpio, 3⟩ (.only .rising) ⟨true, none, ()⟩ quiet,
    .attachGpio 1], quiet, ?_⟩
  decide +kernel

end Registering

end Coop
