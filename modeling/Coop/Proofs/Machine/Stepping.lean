import Coop.Proofs.Machine.Guarded

/-!
# Stepping through arbitrary bytes

An image comes from a file and may hold anything. Whatever it holds, a step of it stays inside the
bytes it is given, executes no more instructions than it may, and leaves the heap as it was.

* `Machine.peak_print`, `Machine.peak_execute`, `Machine.peak_run`: the high water mark never falls;
* `Machine.after`: the machine after some steps;
* `Machine.kept_after`: any number of steps leave the heap as it was;
* **`stepping_is_safe`**.
-/

namespace Coop

namespace Machine

variable {m : Machine} {image body : ByteArray}

theorem peak_print (text : ByteArray) : m.arena.peak ≤ (m.print text).machine.arena.peak := by
  rcases Nat.lt_or_ge m.arena.free (text.size + 1) with hlt | hle
  · rw [print_of_lt hlt]
    exact Nat.le_refl _
  · rw [print_of_le hle]
    exact Nat.le_max_left _ _

theorem peak_execute : m.arena.peak ≤ (m.execute body).machine.arena.peak := by
  unfold execute
  split
  case h_4 text _ => exact peak_print (m := { m with pc := m.pc + 3 + text.size }) text
  all_goals exact Nat.le_refl _

/-- The high water mark never falls. -/
theorem peak_run (budget : Nat) : m.arena.peak ≤ (m.run body budget).machine.arena.peak := by
  induction budget generalizing m with
  | zero => exact Nat.le_refl _
  | succ budget ih =>
    have hstep : m.arena.peak ≤ (m.execute body).machine.arena.peak := peak_execute
    rw [run_succ]
    cases hm : m.execute body with
    | next m' =>
      rw [hm] at hstep
      exact Nat.le_trans hstep ih
    | back hb m' =>
      rw [hm] at hstep
      exact hstep

theorem peak_runImage (image : ByteArray) (budget : Nat) :
    m.arena.peak ≤ (runImage image budget m).machine.arena.peak := by
  unfold runImage
  cases Image.body image with
  | error e => exact Nat.le_refl _
  | ok body => exact peak_run budget

/-- The machine after steps with the given budgets. -/
def after (image : ByteArray) (budgets : List Nat) (m : Machine) : Machine :=
  budgets.foldl (fun m budget => (runImage image budget m).machine) m

theorem kept_after (h : m.arena.Valid) (image : ByteArray) (budgets : List Nat) :
    m.arena.Kept (m.after image budgets).arena := by
  induction budgets generalizing m with
  | nil => exact .refl h
  | cons budget budgets ih =>
    have hstep := kept_runImage h image budget
    exact hstep.trans (ih hstep.valid)

end Machine

/-- **Stepping through arbitrary bytes is safe.** On a board whose words have at least 32 bits and
whose memory can be addressed by words, take any byte string for an image, a program at any place of
it, any heap within its bounds, and any number of steps with any budgets. The next step runs into no
trap, so that it neither leaves the bytes it is given nor overflows nor underflows; it executes at
most as many instructions as its budget; and however it ends, what is in use, the size of the heap
and the pinned image are unchanged, and the high water mark has not fallen and is inside the heap.
-/
theorem stepping_is_safe {image : ByteArray} {limit : Nat} {m : Machine}
    (hword : 0xffffffff ≤ limit) (himage : image.size ≤ limit) (hheap : m.arena.Valid)
    (hcapacity : m.arena.capacity ≤ limit) (budgets : List Nat) (budget : Nat) :
    let before := m.after image budgets
    let slice := runImage image budget before
    (∃ count ≤ budget, Guarded.step limit image budget before = .ok (slice, count)) ∧
    slice.machine.arena.used = before.arena.used ∧
    slice.machine.arena.capacity = before.arena.capacity ∧
    slice.machine.arena.image = before.arena.image ∧
    before.arena.peak ≤ slice.machine.arena.peak ∧
    slice.machine.arena.peak ≤ slice.machine.arena.capacity := by
  intro before slice
  have hbefore : m.arena.Kept before.arena := Machine.kept_after hheap image budgets
  have hslice : before.arena.Kept slice.machine.arena :=
    Machine.kept_runImage hbefore.valid image budget
  have hfits : before.arena.capacity ≤ limit := by
    rw [hbefore.capacity]
    exact hcapacity
  obtain ⟨count, hstep, hcount⟩ := Guarded.step_eq hword himage hbefore.valid hfits budget
  exact ⟨⟨count, hcount, hstep⟩, hslice.top, hslice.capacity, hslice.image,
    Machine.peak_runImage image budget, hslice.valid.peak_le⟩

/-- An image that prints a byte that is no text and then jumps out of everything. It is pinned on a
heap of 32 bytes and run on words of 32 bits: one step for the line, one for the jump. -/
theorem stepping_is_safe_wild : ∃ (image : ByteArray) (m : Machine),
    m.arena.Valid ∧ m.arena.image = image ∧ (m.after image [1]).output = "?\n" ∧
    (runImage image 5 (m.after image [1])).handback = .done ∧
    (runImage image 5 (m.after image [1])).machine.pc = 0xffffffff ∧
    (∃ count ≤ 5, Guarded.step 0xffffffff image 5 (m.after image [1]) =
      .ok (runImage image 5 (m.after image [1]), count)) ∧
    (runImage image 5 (m.after image [1])).machine.arena.image = image ∧
    (m.after image [1]).arena.peak = 23 := by
  let image := Image.build ⟨#[0x01, 0x00, 0x01, 0xff, 0x05, 0xff, 0xff, 0xff, 0xff]⟩
  let m : Machine := ⟨0, ⟨overwrite (zeros 32) 0 image, 21, 21, 21⟩, ""⟩
  have hheap : m.arena.Valid := ⟨by decide +kernel, by decide +kernel, by decide +kernel⟩
  have hsize : image.size ≤ 0xffffffff := by decide +kernel
  have hcapacity : m.arena.capacity ≤ 0xffffffff := by decide +kernel
  obtain ⟨hstep, -, -, himage, -, -⟩ :=
    stepping_is_safe (Nat.le_refl 0xffffffff) hsize hheap hcapacity [1] 5
  refine ⟨image, m, hheap, by decide +kernel, by decide +kernel, by decide +kernel,
    by decide +kernel, hstep, himage.trans ?_, by decide +kernel⟩
  decide +kernel

end Coop
