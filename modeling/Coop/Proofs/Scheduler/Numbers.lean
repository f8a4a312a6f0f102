import Coop.Proofs.Scheduler.Lookup
import Mathlib.Data.List.Nodup
import Mathlib.Logic.Function.Iterate

/-!
# The numbers of new tasks

Numbers are given out in a circle from `1` to `numberBound - 1`. The search for a free one passes
over the numbers of live tasks only, so it ends before the circle does, unless every number is
taken.

* `nextNumber_iterate`: the numbers tried, one after the other;
* `freshFrom_inRange`: every number given out is on the circle;
* **`find?_freshFrom`**: a number given out is free.
-/

namespace Coop

namespace Scheduler

/-- A number on the circle: not zero, and below the bound. -/
def InRange (n : Nat) : Prop := 0 < n ∧ n < numberBound

theorem nextNumber_eq {n : Nat} (h : InRange n) : nextNumber n = n % (numberBound - 1) + 1 := by
  obtain ⟨h0, hb⟩ := h
  unfold nextNumber
  unfold numberBound at *
  by_cases hl : n = 0x100000000 - 1
  · subst hl; rfl
  · rw [Nat.mod_eq_of_lt (by omega), Nat.mod_eq_of_lt (by omega)]
    omega

theorem inRange_nextNumber {n : Nat} (h : InRange n) : InRange (nextNumber n) := by
  have hm := Nat.mod_lt n (show numberBound - 1 > 0 by decide)
  rw [nextNumber_eq h]
  exact ⟨Nat.succ_pos _, by omega⟩

theorem nextNumber_iterate {n : Nat} (h : InRange n) (i : Nat) :
    nextNumber^[i] n = (n - 1 + i) % (numberBound - 1) + 1 := by
  have hb := h.2
  have h0 := h.1
  induction i with
  | zero =>
    rw [Function.iterate_zero_apply, Nat.add_zero, Nat.mod_eq_of_lt (by omega)]
    omega
  | succ i ih =>
    have hm := Nat.mod_lt (n - 1 + i) (show numberBound - 1 > 0 by decide)
    have hr : InRange ((n - 1 + i) % (numberBound - 1) + 1) := ⟨Nat.succ_pos _, by omega⟩
    rw [Function.iterate_succ_apply', ih, nextNumber_eq hr, Nat.mod_add_mod, Nat.add_assoc]

theorem freshFrom_inRange (s : Scheduler) (tries : Nat) {n : Nat} (h : InRange n) :
    InRange (s.freshFrom tries n) := by
  induction tries generalizing n with
  | zero => exact h
  | succ tries ih =>
    unfold freshFrom
    split_ifs
    · exact ih (inRange_nextNumber h)
    · exact h

/-- The search finds a free number, or every number it tried is taken. -/
theorem freshFrom_or (s : Scheduler) (tries n : Nat) :
    s.find? ⟨s.freshFrom tries n⟩ = none ∨
      ∀ i ≤ tries, (s.find? ⟨nextNumber^[i] n⟩).isSome = true := by
  induction tries generalizing n with
  | zero =>
    cases hf : s.find? ⟨n⟩ with
    | none => exact .inl hf
    | some t =>
      refine .inr fun i hi => ?_
      obtain rfl := Nat.le_zero.mp hi
      rw [Function.iterate_zero_apply, hf]
      rfl
  | succ tries ih =>
    unfold freshFrom
    split_ifs with hf
    · refine (ih (nextNumber n)).imp id fun hall i hi => ?_
      cases i with
      | zero => exact hf
      | succ i =>
        rw [Function.iterate_succ_apply]
        exact hall i (by omega)
    · exact .inl (by simpa using hf)

/-- **A number given out is free**, if there is a free one at all: with one try more than there are
live tasks, all different, they cannot all be taken. -/
theorem find?_freshFrom {s : Scheduler} (hroom : s.tasks.length + 1 < numberBound)
    (hn : InRange s.nextId) : s.find? ⟨s.freshFrom s.tasks.length s.nextId⟩ = none := by
  refine (freshFrom_or s s.tasks.length s.nextId).resolve_right fun hall => ?_
  set tried := (List.range (s.tasks.length + 1)).map fun i => TaskId.mk (nextNumber^[i] s.nextId)
    with htried
  have hnodup : tried.Nodup := by
    refine List.nodup_range.map_on ?_
    intro i hi j hj hij
    rw [List.mem_range] at hi hj
    have he := congrArg TaskId.number hij
    simp only [nextNumber_iterate hn] at he
    -- fewer tries than numbers on the circle, so none comes twice
    unfold numberBound at he hroom
    omega
  have hsub : tried ⊆ s.tasks.map Task.id := by
    intro id hid
    obtain ⟨i, hi, rfl⟩ := List.mem_map.mp hid
    rw [List.mem_range] at hi
    obtain ⟨t, ht⟩ := Option.isSome_iff_exists.mp (hall i (by omega))
    exact List.mem_map.mpr ⟨t, mem_of_find? ht, id_of_find? ht⟩
  have hlen := hnodup.length_le_of_subset hsub
  simp only [htried, List.length_map, List.length_range] at hlen
  omega

end Scheduler

end Coop
