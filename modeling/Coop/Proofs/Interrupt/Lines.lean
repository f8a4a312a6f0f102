import Coop.Interrupt.Line
import Mathlib.Tactic.SplitIfs

/-!
# What is done to lines

What each operation on a line does to the channels that are armed and to the queue.

* `armedAt_arm`, `armedAt_disarm`, `armedAt_disarmAll`, `isArmed_iff`: the channels;
* `queue_raise_of_true`, `queue_raise_of_false`, `take?_eq_some`: the queue;
* `Lines.get_new`, `Lines.get_set`, `Lines.get_raise`: the lines of a board.
-/

namespace Coop

namespace SignalLine

variable {l l' : SignalLine} {channel : UInt8} {raw : UInt16} {mask : EventMask} {kind : EventKind}

@[simp] theorem armedAt_new (c : UInt8) : new.armedAt c = none := by
  unfold armedAt new
  rw [Vector.getElem?_replicate]
  split_ifs <;> rfl

theorem armedAt_arm (h : l.arm channel raw mask = .ok l') :
    l.armedAt channel = none ∧ l'.queue = l.queue ∧
      ∀ c, l'.armedAt c = if c = channel then some ⟨raw, mask⟩ else l.armedAt c := by
  unfold arm at h
  split_ifs at h with hlt
  cases ha : l.armedAt channel with
  | some a =>
    rw [ha] at h
    cases h
  | none =>
    rw [ha] at h
    cases h
    refine ⟨rfl, rfl, fun c => ?_⟩
    unfold armedAt
    dsimp only
    split_ifs with hc
    · rw [hc, Vector.getElem?_setIfInBounds_self_of_lt hlt]
      rfl
    · have hne : channel.toNat ≠ c.toNat := fun he => hc (UInt8.toNat_inj.mp he.symm)
      rw [Vector.getElem?_setIfInBounds_ne hne]

theorem armedAt_disarm (l : SignalLine) (raw : UInt16) (c : UInt8) :
    (l.disarm raw).armedAt c = if Armed.holds raw (l.armedAt c) then none else l.armedAt c := by
  unfold armedAt disarm
  rw [Vector.getElem?_map]
  cases l.armed[c.toNat]? with
  | none => rfl
  | some slot =>
    simp only [Option.map_some, Option.join_some]

@[simp] theorem armedAt_disarmAll (l : SignalLine) (c : UInt8) : l.disarmAll.armedAt c = none :=
  armedAt_new c

@[simp] theorem armedAt_raise (l : SignalLine) (channel : UInt8) (kind : EventKind) (c : UInt8) :
    (l.raise channel kind).2.armedAt c = l.armedAt c := by
  rw [armedAt, armed_raise, armedAt]

theorem isArmed_iff : l.isArmed raw = true ↔ ∃ c a, l.armedAt c = some a ∧ a.raw = raw := by
  unfold isArmed
  rw [Vector.any_eq_true]
  constructor
  · rintro ⟨i, hi, hholds⟩
    have hc : (UInt8.ofNat i).toNat = i := by
      rw [UInt8.toNat_ofNat', Nat.mod_eq_of_lt (Nat.lt_trans hi (by decide))]
    cases ha : l.armed[i] with
    | none =>
      rw [ha] at hholds
      cases hholds
    | some a =>
      rw [ha] at hholds
      refine ⟨.ofNat i, a, ?_, eq_of_beq hholds⟩
      rw [armedAt, hc, Vector.getElem?_eq_getElem hi, ha]
      rfl
  · rintro ⟨c, a, ha, rfl⟩
    unfold armedAt at ha
    cases hslot : l.armed[c.toNat]? with
    | none =>
      rw [hslot] at ha
      cases ha
    | some slot =>
      obtain ⟨hi, rfl⟩ := Vector.getElem?_eq_some_iff.mp hslot
      rw [hslot] at ha
      refine ⟨c.toNat, hi, ?_⟩
      rw [show l.armed[c.toNat] = some a from ha]
      exact beq_self_eq_true a.raw

theorem queue_raise_of_true (h : (l.raise channel kind).1 = true) :
    ∃ a, l.armedAt channel = some a ∧ a.mask.contains kind = true ∧
      (l.raise channel kind).2.queue = l.queue ++ [(a.raw, kind)] := by
  unfold raise at h ⊢
  cases ha : l.armedAt channel with
  | none =>
    rw [ha] at h
    cases h
  | some a =>
    rw [ha] at h
    dsimp only at h ⊢
    split_ifs at h ⊢ with hm hq
    exact ⟨a, rfl, hm, rfl⟩

theorem queue_raise_of_false (h : (l.raise channel kind).1 = false) :
    (l.raise channel kind).2.queue = l.queue := by
  unfold raise at h ⊢
  cases ha : l.armedAt channel with
  | none => rfl
  | some a =>
    rw [ha] at h
    dsimp only at h ⊢
    split_ifs at h ⊢ with hm hq
    · rfl
    · rfl

theorem take?_eq_some {e : UInt16 × EventKind} (h : l.take? = some (e, l')) :
    l.queue = e :: l'.queue ∧ ∀ c, l'.armedAt c = l.armedAt c := by
  unfold take? at h
  cases hq : l.queue with
  | nil =>
    rw [hq] at h
    cases h
  | cons e' rest =>
    rw [hq] at h
    cases h
    exact ⟨rfl, fun _ => rfl⟩

end SignalLine

namespace Lines

variable {ls : Lines} {i : LineId}

@[simp] theorem size_set (ls : Lines) (i : LineId) (l : SignalLine) :
    (ls.set i l).all.size = ls.all.size := by
  simp [set]

@[simp] theorem size_raise (ls : Lines) (i : LineId) (channel : UInt8) (kind : EventKind) :
    (ls.raise i channel kind).2.all.size = ls.all.size := size_set ls i _

@[simp] theorem get_new (n : Nat) (i : LineId) : (Lines.new n).get i = .new := by
  rw [get, new, Array.getD_eq_getD_getElem?, Array.getElem?_replicate]
  split_ifs <;> rfl

theorem get_set (h : i < ls.all.size) (l : SignalLine) (j : LineId) :
    (ls.set i l).get j = if i = j then l else ls.get j := by
  split_ifs with hij
  · rw [← hij, get_set_self h]
  · rw [get_set_of_ne ls hij]

theorem set_of_le (h : ls.all.size ≤ i) (l : SignalLine) : ls.set i l = ls := by
  rw [set, Array.setIfInBounds_eq_of_size_le h]

theorem apply_get_set {α : Type} (f : SignalLine → α) {l : SignalLine} (h : f l = f (ls.get i))
    (j : LineId) : f ((ls.set i l).get j) = f (ls.get j) := by
  rcases Nat.lt_or_ge i ls.all.size with hlt | hge
  · rw [get_set hlt]
    split_ifs with hij
    · rw [h, hij]
    · rfl
  · rw [set_of_le hge]

/-- Replacing a line, if what is done to it leaves a line with nothing armed alone: then it does not
matter whether the line is there. -/
theorem get_update (ls : Lines) (i : LineId) {f : SignalLine → SignalLine} (hf : f .new = .new)
    (j : LineId) :
    (ls.set i (f (ls.get i))).get j = if i = j then f (ls.get i) else ls.get j := by
  rcases Nat.lt_or_ge i ls.all.size with hlt | hge
  · exact get_set hlt _ j
  · have hget : ls.get i = .new := by
      rw [get, Array.getD_eq_getD_getElem?, Array.getElem?_eq_none hge, Option.getD_none]
    rw [set_of_le hge]
    split_ifs with hij
    · rw [← hij, hget, hf]
    · rfl

theorem get_raise (ls : Lines) (i : LineId) (channel : UInt8) (kind : EventKind) (j : LineId) :
    (ls.raise i channel kind).2.get j =
      if i = j then ((ls.get i).raise channel kind).2 else ls.get j := by
  refine get_update ls i (f := fun l => (l.raise channel kind).2) ?_ j
  rw [SignalLine.raise, SignalLine.armedAt_new]

theorem get_disarm (ls : Lines) (i : LineId) (raw : UInt16) (j : LineId) :
    (ls.set i ((ls.get i).disarm raw)).get j =
      if i = j then (ls.get i).disarm raw else ls.get j := by
  refine get_update ls i (f := fun l => l.disarm raw) ?_ j
  rw [SignalLine.disarm, SignalLine.new, Vector.map_replicate]
  rfl

theorem get_disarmAll (ls : Lines) (i j : LineId) :
    (ls.set i (ls.get i).disarmAll).get j = if i = j then (ls.get i).disarmAll else ls.get j :=
  get_update ls i (f := fun l => l.disarmAll) rfl j

end Lines

end Coop
