import Coop.Fiber
import Mathlib.Tactic.SplitIfs

/-!
# The heap while a program runs

A printed line lives on the heap while it is written and is gone again after. So no instruction
changes what is in use, and none touches the image below it.

* `Arena.Valid`: image, objects, high water mark and memory lie on top of each other;
* `Arena.Kept`: the same image and the same fill level in the same memory;
* `Move.machine`: the machine after an instruction;
* `Machine.kept_print`, `Machine.kept_execute`, **`Machine.kept_run`**: one line, one instruction,
  one slice.
-/

namespace Coop

namespace Arena

/-- An arena within its bounds. -/
structure Valid (a : Arena) : Prop where
  image_le : a.imageLen ≤ a.top
  top_le : a.top ≤ a.peak
  peak_le : a.peak ≤ a.capacity

variable {a b : Arena}

theorem size_image (h : a.Valid) : a.image.size = a.imageLen := by
  have := h.image_le
  have := h.top_le
  have := h.peak_le
  rw [image, ByteArray.size_extract]
  unfold capacity at *
  omega

theorem image_storeImage {bytes : ByteArray} (h : a.storeImage bytes = .ok b) :
    b.image = bytes := by
  unfold storeImage at h
  split_ifs at h
  cases h
  change (overwrite a.memory 0 bytes).extract 0 bytes.size = bytes
  rw [overwrite_eq, ByteArray.extract_same, ByteArray.empty_append,
    ByteArray.extract_append_eq_left rfl]

theorem level_storeImage {bytes : ByteArray} (h : a.storeImage bytes = .ok b) :
    b.top = b.imageLen := by
  unfold storeImage at h
  split_ifs at h
  cases h
  rfl

namespace Valid

theorem new (n : Nat) : (Arena.new n).Valid := ⟨Nat.le_refl 0, Nat.le_refl 0, Nat.zero_le _⟩

theorem clear (h : a.Valid) : a.clear.Valid :=
  ⟨Nat.le_refl 0, Nat.zero_le _, h.peak_le⟩

theorem release (h : a.Valid) : a.release.Valid :=
  ⟨Nat.le_refl _, Nat.le_trans h.image_le h.top_le, h.peak_le⟩

theorem storeImage (h : a.Valid) {bytes : ByteArray} (hb : a.storeImage bytes = .ok b) :
    b.Valid := by
  have hc := capacity_storeImage hb
  unfold Arena.storeImage at hb
  split_ifs at hb with hle
  cases hb
  refine ⟨Nat.le_refl _, Nat.le_max_right _ _, ?_⟩
  rw [hc]
  exact Nat.max_le.mpr ⟨h.peak_le, hle⟩

end Valid

/-! ## Keeping what is in use -/

/-- The memory may have been written to, but not below the fill level, which is the same. -/
structure Kept (a b : Arena) : Prop where
  valid : b.Valid
  capacity : b.capacity = a.capacity
  top : b.top = a.top
  imageLen : b.imageLen = a.imageLen
  image : b.image = a.image

namespace Kept

theorem refl (h : a.Valid) : Kept a a := ⟨h, rfl, rfl, rfl, rfl⟩

theorem trans {c : Arena} (h : Kept a b) (h' : Kept b c) : Kept a c where
  valid := h'.valid
  capacity := h'.capacity.trans h.capacity
  top := h'.top.trans h.top
  imageLen := h'.imageLen.trans h.imageLen
  image := h'.image.trans h.image

theorem free (h : Kept a b) : b.free = a.free := by
  rw [Arena.free, Arena.free, h.capacity, h.top]

end Kept

theorem extract_write_of_le {start level : Nat} {bytes : ByteArray} (hs : level ≤ start)
    (hc : start ≤ a.capacity) :
    (a.write start bytes).memory.extract 0 level = a.memory.extract 0 level := by
  have hsize : (a.memory.extract 0 start).size = start := by
    rw [ByteArray.size_extract]
    unfold capacity at hc
    omega
  change (overwrite a.memory start bytes).extract 0 level = a.memory.extract 0 level
  rw [overwrite_eq, ByteArray.append_assoc, ByteArray.extract_append, hsize,
    Nat.sub_eq_zero_of_le hs, Nat.zero_sub, ByteArray.extract_same, ByteArray.append_empty,
    ByteArray.extract_extract]
  simp [hs]

theorem image_write {start : Nat} {bytes : ByteArray} (hs : a.imageLen ≤ start)
    (hc : start ≤ a.capacity) : (a.write start bytes).image = a.image :=
  extract_write_of_le hs hc

/-- The arena after a line was written to it and dropped again. -/
def passed (a : Arena) (line : ByteArray) : Arena :=
  ({ a with top := a.top + line.size, peak := max a.peak (a.top + line.size) }.write a.top
    line).rewind a.mark

theorem kept_passed {line : ByteArray} (h : a.Valid) (hf : line.size ≤ a.free) :
    Kept a (a.passed line) := by
  have himage := h.image_le
  have htop := h.top_le
  have hpeak := h.peak_le
  have hfit : a.top + line.size ≤ a.capacity := by
    unfold free at hf
    omega
  have hcap : (a.passed line).capacity = a.capacity := size_overwrite hfit
  have hlevel : (a.passed line).top = a.top := by
    change max a.imageLen (min a.top (a.top + line.size)) = a.top
    omega
  refine ⟨⟨?_, ?_, ?_⟩, hcap, hlevel, rfl, ?_⟩
  · rw [hlevel]
    exact himage
  · rw [hlevel]
    exact Nat.le_trans htop (Nat.le_max_left _ _)
  · rw [hcap]
    exact Nat.max_le.mpr ⟨hpeak, hfit⟩
  · exact image_write (a := { a with top := _, peak := _ }) himage (Nat.le_trans htop hpeak)

end Arena

/-- The machine after an instruction. -/
def Move.machine : Move → Machine
  | .next m | .back _ m => m

namespace Machine

variable {m : Machine}

theorem print_of_le {text : ByteArray} (h : text.size + 1 ≤ m.arena.free) :
    m.print text = .next ⟨m.pc, m.arena.passed (text.push 0x0a),
      m.output ++ (String.fromUTF8? (text.push 0x0a)).getD "?\n"⟩ := by
  rw [print, Arena.alloc, if_pos h, Arena.passed, ByteArray.size_push]

theorem print_of_lt {text : ByteArray} (h : m.arena.free < text.size + 1) :
    m.print text = .back (.fault (.outOfMemory ⟨text.size + 1, m.arena.free⟩)) m := by
  rw [print, Arena.alloc, if_neg (Nat.not_le_of_lt h)]

theorem kept_print (h : m.arena.Valid) (text : ByteArray) :
    m.arena.Kept (m.print text).machine.arena := by
  rcases Nat.lt_or_ge m.arena.free (text.size + 1) with hlt | hle
  · rw [print_of_lt hlt]
    exact .refl h
  · rw [print_of_le hle]
    exact Arena.kept_passed h (by rwa [ByteArray.size_push])

/-- No instruction changes what is in use. -/
theorem kept_execute (h : m.arena.Valid) (body : ByteArray) :
    m.arena.Kept (m.execute body).machine.arena := by
  unfold execute
  split
  case h_4 text _ => exact kept_print (m := { m with pc := m.pc + 3 + text.size }) h text
  all_goals exact .refl h

/-- **No slice changes what is in use.** -/
theorem kept_run (h : m.arena.Valid) (body : ByteArray) (budget : Nat) :
    m.arena.Kept (m.run body budget).machine.arena := by
  induction budget generalizing m with
  | zero => exact .refl h
  | succ budget ih =>
    have hstep := kept_execute h body
    rw [run_succ]
    cases hm : m.execute body with
    | next m' =>
      rw [hm] at hstep
      exact hstep.trans (ih hstep.valid)
    | back hb m' =>
      rw [hm] at hstep
      exact hstep

theorem kept_runImage (h : m.arena.Valid) (image : ByteArray) (budget : Nat) :
    m.arena.Kept (runImage image budget m).machine.arena := by
  unfold runImage
  cases Image.body image with
  | error e => exact .refl h
  | ok body => exact kept_run h body budget

end Machine

end Coop
