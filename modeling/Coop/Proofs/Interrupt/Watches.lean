import Coop.Proofs.Interrupt.Backends

/-!
# The watches of the converter

Which channels of the converter are watched, for which registration and from which side of its
threshold, and what every call does to that. Only registering, unregistering and attaching concern a
watch, and readings of its own channel move it.

* `Backend.watch?`, `Hub.watch?`: the watch on a channel;
* `watch?_watching`, `watch?_unregister`, `watch?_sample`: what is done to a backend;
* `Call.watchAfter?`, **`Call.watch?_after`**: what a call does;
* `Station.Holds`: a registration that still has its channel.
-/

namespace Coop

variable {C : Type}

namespace Backend

variable {b : Backend}

/-- The watch on a channel, if the backend is the converter's. -/
def watch? (b : Backend) (channel : UInt8) : Option Watch :=
  match b with
  | gpio _ _ => none
  | adc _ _ watches => (watches[channel.toNat]?).join

@[simp] theorem watch?_counting (b : Backend) (next : UInt16) (channel : UInt8) :
    (b.counting next).watch? channel = b.watch? channel := by cases b <;> rfl

theorem watch?_watching (hk : b.kind = .adc) {channel : UInt8} (hc : channel.toNat < adcChannels)
    (w : Watch) (c : UInt8) :
    (b.watching channel w).watch? c = if c = channel then some w else b.watch? c := by
  cases b with
  | gpio => cases hk
  | adc l next watches =>
    unfold watching watch?
    dsimp only
    split_ifs with heq
    · rw [heq, Vector.getElem?_setIfInBounds_self_of_lt hc]
      rfl
    · have hne : channel.toNat ≠ c.toNat := fun he => heq (UInt8.toNat_inj.mp he.symm)
      rw [Vector.getElem?_setIfInBounds_ne hne]

theorem watch?_unregister (b : Backend) (lines : Lines) (raw : UInt16) (c : UInt8) :
    (b.unregister lines raw).2.1.watch? c =
      if Watch.holds raw (b.watch? c) then none else b.watch? c := by
  cases b with
  | gpio => rfl
  | adc l next watches =>
    change ((watches.map fun w => if Watch.holds raw w then none else w)[c.toNat]?).join =
      if Watch.holds raw (watches[c.toNat]?).join then none else (watches[c.toNat]?).join
    rw [Vector.getElem?_map]
    cases watches[c.toNat]? with
    | none => rfl
    | some slot => simp only [Option.map_some, Option.join_some]

/-- A reading moves the watch on its channel. -/
theorem watch?_sample (b : Backend) (lines : Lines) (channel : UInt8) (mv : Nat) (c : UInt8) :
    (b.sample lines channel mv).2.1.watch? c =
      if c = channel then (b.watch? c).map fun w => (w.sample mv).2 else b.watch? c := by
  cases b with
  | gpio =>
    split_ifs <;> rfl
  | adc l next watches =>
    cases hw : (watches[channel.toNat]?).join with
    | none =>
      have hsame : ((adc l next watches).sample lines channel mv).2.1 = adc l next watches := by
        unfold sample
        simp only [hw]
      rw [hsame]
      split_ifs with heq
      · rw [heq, watch?, hw]
        rfl
      · rfl
    | some w =>
      have hmoved : ((adc l next watches).sample lines channel mv).2.1 =
          adc l next (watches.setIfInBounds channel.toNat (some (w.sample mv).2)) := by
        unfold sample
        simp only [hw]
        cases (w.sample mv).1 <;> rfl
      rw [hmoved]
      unfold watch?
      dsimp only
      split_ifs with heq
      · have hlt : channel.toNat < adcChannels := by
          by_contra hge
          rw [Vector.getElem?_eq_none (Nat.le_of_not_lt hge)] at hw
          cases hw
        rw [heq, Vector.getElem?_setIfInBounds_self_of_lt hlt, hw]
        rfl
      · have hne : channel.toNat ≠ c.toNat := fun he => heq (UInt8.toNat_inj.mp he.symm)
        rw [Vector.getElem?_setIfInBounds_ne hne]

theorem lt_of_register_ok {lines : Lines} {channel : UInt8} {mask : EventMask}
    {threshold : Option Nat} {raw : UInt16} (hk : b.kind = .adc)
    (h : (b.register lines channel mask threshold).1 = .ok raw) : channel.toNat < adcChannels := by
  cases b with
  | gpio => cases hk
  | adc l next watches =>
    by_contra hge
    unfold register at h
    dsimp only at h
    rw [if_pos (Nat.le_of_not_lt hge)] at h
    cases h

end Backend

namespace Hub

/-- The watch on a channel of the converter. -/
def watch? (h : Hub C) (channel : UInt8) : Option Watch :=
  (h.backend? .adc).bind (Backend.watch? · channel)

theorem watch?_of_backend? {h : Hub C} {b : Backend} (hb : h.backend? .adc = some b)
    (channel : UInt8) : h.watch? channel = b.watch? channel := by
  rw [watch?, hb]
  rfl

theorem watch?_putBackend (h : Hub C) (b : Backend) (channel : UInt8) :
    (h.putBackend b).watch? channel =
      if b.kind = .adc then (h.backend? .adc).bind fun _ => b.watch? channel
      else h.watch? channel := by
  unfold watch?
  rw [backend?_putBackend]
  by_cases hk : b.kind = .adc
  · rw [if_pos hk.symm, if_pos hk, Option.bind_map]
    rfl
  · rw [if_neg (Ne.symm hk), if_neg hk]

theorem watch?_attach (h : Hub C) (b : Backend) (channel : UInt8) :
    (h.attach b).value.watch? channel =
      if b.kind = .adc then b.watch? channel else h.watch? channel := by
  have hfind : (h.attach b).value.backend? .adc =
      if b.kind = .adc then some b else h.backend? .adc := by
    change (h.backends.filter (fun o => o.kind ≠ b.kind) ++ [b]).find? _ = _
    rw [List.find?_append, List.find?_filter]
    split_ifs with hk
    · rw [List.find?_eq_none.mpr, Option.none_or, List.find?_singleton, if_pos (by simp [hk])]
      intro o _
      simp [hk]
    · rw [List.find?_singleton, if_neg (by simp [hk]), Option.or_none]
      refine congrArg (List.find? · h.backends) (funext fun o => ?_)
      by_cases ho : o.kind = .adc
      · simp [ho, Ne.symm hk]
      · simp [ho]
  unfold watch?
  rw [hfind]
  split_ifs <;> rfl

end Hub

/-! ## Calls -/

/-- The watch on a channel after a call. -/
def Call.watchAfter? (st : Station C) (channel : UInt8) : Call C → Option Watch
  | attachAdc _ => none
  | register source mask options handler =>
    match (st.hub.register st.lines source mask options handler).value.1 with
    | .ok id =>
      if source = ⟨.adc, channel⟩ then options.threshold.map fun mv => ⟨id.raw, mv, none⟩
      else st.hub.watch? channel
    | .error _ => st.hub.watch? channel
  | unregister id =>
    if id.kind = .adc ∧ (st.hub.find? id).isSome ∧ Watch.holds id.raw (st.hub.watch? channel) then
      none
    else st.hub.watch? channel
  | sample c mv =>
    if channel = c then (st.hub.watch? channel).map fun w => (w.sample mv).2
    else st.hub.watch? channel
  | _ => st.hub.watch? channel

namespace Station

variable (st : Station C) (channel : UInt8)

theorem watch?_register (source : Source) (mask : EventMask) (options : IrqOptions C)
    (handler : Handler C) :
    (st.hub.register st.lines source mask options handler).value.2.1.watch? channel =
      match (st.hub.register st.lines source mask options handler).value.1 with
      | .ok id =>
        if source = ⟨.adc, channel⟩ then options.threshold.map fun mv => ⟨id.raw, mv, none⟩
        else st.hub.watch? channel
      | .error _ => st.hub.watch? channel := by
  cases hb : st.hub.backend? source.kind with
  | none => rw [Hub.value_register_of_none hb]
  | some b =>
    have hk := (Hub.backend?_eq_some hb).2
    -- as long as the watches of the backend are the same, so are those of the hub
    have hsame {b' : Backend} (hk' : b'.kind = b.kind) (hw : b'.watch? channel = b.watch? channel) :
        (st.hub.putBackend b').watch? channel = st.hub.watch? channel := by
      rw [Hub.watch?_putBackend, hk', hk, hw]
      split_ifs with hadc
      · rw [← hadc, hb, Hub.watch?_of_backend? (hadc ▸ hb)]
        rfl
      · rfl
    have hcounting (next : UInt16) : (b.counting next).kind = b.kind := by cases b <;> rfl
    have hwatching (next : UInt16) (c : UInt8) (w : Watch) :
        ((b.counting next).watching c w).kind = b.kind := by cases b <;> rfl
    rcases b.register_outcomes st.lines source.channel mask options.threshold with
      ⟨e, -, hreg⟩ | ⟨raw, next, -, hreg | ⟨l, mv, -, hthreshold, hreg⟩⟩
    · rw [Hub.value_register_of_error hb hreg]
      exact hsame rfl rfl
    · rw [Hub.value_register_of_error hb hreg]
      exact hsame (hcounting next) (b.watch?_counting next channel)
    · rw [Hub.value_register_of_ok hb hreg]
      dsimp only
      change (st.hub.putBackend _).watch? channel = _
      by_cases hadc : b.kind = .adc
      · have hlt := Backend.lt_of_register_ok hadc (congrArg Prod.fst hreg)
        have hkind : (b.counting next).kind = .adc := (hcounting next).trans hadc
        have hb' : st.hub.backend? .adc = some b := by rw [← hadc, hk, hb]
        have hiff : source = ⟨.adc, channel⟩ ↔ channel = source.channel := by
          rw [← hadc, hk]
          constructor
          · intro h
            rw [h]
          · intro h
            rw [h]
        rw [Hub.watch?_putBackend, hwatching, if_pos hadc, hb', Option.bind_some,
          Backend.watch?_watching hkind hlt, Backend.watch?_counting, hthreshold hadc,
          Hub.watch?_of_backend? hb']
        simp only [hiff, Option.map_some]
      · have hne : source ≠ ⟨.adc, channel⟩ := by
          rintro rfl
          exact hadc hk
        rw [Hub.watch?_putBackend, hwatching, if_neg hadc, if_neg hne]

theorem watch?_unregister (id : IrqId) :
    (st.hub.unregister st.lines id).value.2.1.watch? channel =
      if id.kind = .adc ∧ (st.hub.find? id).isSome ∧ Watch.holds id.raw (st.hub.watch? channel) then
        none
      else st.hub.watch? channel := by
  cases hr : st.hub.find? id with
  | none =>
    rw [Hub.unregister, hr]
    simp
  | some r =>
    simp only [Option.isSome_some, true_and]
    cases hb : st.hub.backend? id.kind with
    | none =>
      rw [Hub.value_unregister_of_lost hr hb]
      have hsame : (st.hub.remove id).watch? channel = st.hub.watch? channel := rfl
      dsimp only
      rw [hsame]
      split_ifs with hc
      · rw [Hub.watch?, ← hc.1, hb]
        rfl
      · rfl
    | some b =>
      have hk := (Hub.backend?_eq_some hb).2
      have hkind : (b.unregister st.lines id.raw).2.1.kind = id.kind :=
        (b.unregister_same st.lines id.raw).1.trans hk
      rw [Hub.value_unregister hr hb]
      dsimp only
      rw [Hub.watch?_putBackend, hkind, b.watch?_unregister]
      by_cases hadc : id.kind = .adc
      · have hb' : st.hub.backend? .adc = some b := hadc ▸ hb
        have hremove : (st.hub.remove id).backend? .adc = some b := hb'
        rw [if_pos hadc, hremove, Option.bind_some, Hub.watch?_of_backend? hb']
        simp only [hadc, true_and]
      · rw [if_neg hadc, if_neg fun hc => hadc hc.1]
        rfl

theorem watch?_sample (c : UInt8) (mv : Nat) :
    (st.hub.sample st.lines c mv).2.1.watch? channel =
      if channel = c then (st.hub.watch? channel).map fun w => (w.sample mv).2
      else st.hub.watch? channel := by
  unfold Hub.sample
  cases hb : st.hub.backend? .adc with
  | none =>
    have hnone : st.hub.watch? channel = none := by
      rw [Hub.watch?, hb]
      rfl
    dsimp only
    rw [hnone]
    split_ifs <;> rfl
  | some b =>
    have hkind : (b.sample st.lines c mv).2.1.kind = .adc :=
      (b.sample_same st.lines c mv).1.trans (Hub.backend?_eq_some hb).2
    dsimp only
    rw [Hub.watch?_putBackend, if_pos hkind, hb, Option.bind_some, b.watch?_sample,
      Hub.watch?_of_backend? hb]

end Station

/-- **What a call does to the watch on a channel.** -/
theorem Call.watch?_after (st : Station C) (c : Call C) (channel : UInt8) :
    (c.after st).hub.watch? channel = c.watchAfter? st channel := by
  cases c with
  | attachGpio line => exact st.hub.watch?_attach (.newGpio line) channel
  | attachAdc line =>
    refine (st.hub.watch?_attach (.newAdc line) channel).trans ?_
    change ((Vector.replicate adcChannels (none : Option Watch))[channel.toNat]?).join = none
    rw [Vector.getElem?_replicate]
    split_ifs <;> rfl
  | register source mask options handler =>
    exact st.watch?_register channel source mask options handler
  | unregister id => exact st.watch?_unregister channel id
  | setEnabled id enabled =>
    change (st.hub.setEnabled id enabled).2.watch? channel = st.hub.watch? channel
    unfold Hub.setEnabled
    split <;> rfl
  | sample c mv => exact st.watch?_sample channel c mv
  | process max =>
    have hsame := st.backends_process max
    unfold Hub.watch? Hub.backend?
    rw [hsame]
    rfl
  | look =>
    have hsame : (Call.after st .look).hub.backends = st.hub.backends := st.backends_look
    unfold Hub.watch? Hub.backend?
    rw [hsame]
    rfl
  | raise line channel kind => rfl
  | disarmAll line => rfl

/-- A registration still has its channel: the line is armed for it there. -/
def Station.Holds (st : Station C) (id : IrqId) (channel : UInt8) (mask : EventMask) : Prop :=
  ∃ b, st.hub.backend? id.kind = some b ∧
    (st.lines.get b.line).armedAt channel = some ⟨id.raw, mask⟩

end Coop
