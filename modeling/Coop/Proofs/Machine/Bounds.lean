import Coop.Proofs.Machine.Guarded
import Mathlib.Data.List.Induction
import Mathlib.Order.Bounds.Basic

/-!
# Arenas within their bounds

Images are pinned and dropped, objects are placed and dropped again, and a mark may be much older
than the objects it is used on. Whatever is done with an arena, the image, the objects, the high
water mark and the memory lie on top of each other, and no offset is ever taken the wrong way round.

* `Arena.Call`, `Arena.Call.perform`, `Arena.after`: what can be done with an arena;
* `Arena.Sound`, **`Arena.Call.sound`**: one call;
* `Arena.valid_after`, **`Arena.isGreatest_peak`**: any number of calls;
* `Guarded.storeImage`, `Guarded.perform`, `Guarded.perform_eq`: no call runs into a trap;
* **`Arena.stays_in_bounds`**.
-/

namespace Coop

namespace Arena

/-- What can be done with an arena. To take a mark is no call, since it changes nothing, and any
mark can be gone back to, whenever it was taken. -/
inductive Call where
  | store (bytes : ByteArray)
  /-- Places an object and writes into it; what has no room in the object is left out. -/
  | alloc (len : Nat) (fill : ByteArray)
  | rewind (mark : Mark)
  | release
  | clear

/-- Makes a call, unless there is no room for what it asks for. -/
def Call.perform (a : Arena) : Call → Except Exhausted Arena
  | store bytes => a.storeImage bytes
  | alloc len fill =>
    match a.alloc len with
    | .error e => .error e
    | .ok (start, b) => .ok (b.write start (fill.extract 0 len))
  | rewind mark => .ok (a.rewind mark)
  | release => .ok a.release
  | clear => .ok a.clear

/-- The arena after a call. -/
def Call.after (c : Call) (a : Arena) : Arena :=
  match c.perform a with
  | .ok b => b
  | .error _ => a

/-- The arena after some calls. -/
def after (a : Arena) (calls : List Call) : Arena := calls.foldl (fun a c => c.after a) a

/-- The arena with one more object. -/
def grown (a : Arena) (len : Nat) : Arena :=
  { a with top := a.top + len, peak := max a.peak (a.top + len) }

section Fields

variable (a : Arena) (len : Nat) (mark : Mark)

@[simp] theorem imageLen_grown : (a.grown len).imageLen = a.imageLen := rfl

@[simp] theorem top_grown : (a.grown len).top = a.top + len := rfl

@[simp] theorem peak_grown : (a.grown len).peak = max a.peak (a.top + len) := rfl

@[simp] theorem capacity_grown : (a.grown len).capacity = a.capacity := rfl

@[simp] theorem imageLen_rewind : (a.rewind mark).imageLen = a.imageLen := rfl

@[simp] theorem top_rewind : (a.rewind mark).top = max a.imageLen (min mark.level a.top) := rfl

@[simp] theorem peak_rewind : (a.rewind mark).peak = a.peak := rfl

theorem after_concat (calls : List Call) (c : Call) :
    a.after (calls ++ [c]) = c.after (a.after calls) := by
  simp [after]

end Fields

variable {a b : Arena}

theorem alloc_eq_ok_iff (h : a.Valid) {len start : Nat} :
    a.alloc len = .ok (start, b) ↔ a.top + len ≤ a.capacity ∧ start = a.top ∧ b = a.grown len := by
  have htop := Nat.le_trans h.top_le h.peak_le
  unfold alloc free
  split_ifs with hfree
  · have hfit : a.top + len ≤ a.capacity := by omega
    simp [hfit, grown, eq_comm]
  · have hfit : ¬ a.top + len ≤ a.capacity := by omega
    simp [hfit]

/-! ## One call -/

/-- What a call makes of an arena: it is within the same bounds, and its high water mark has gone up
to its fill level if that is higher. -/
structure Sound (a b : Arena) : Prop where
  valid : b.Valid
  capacity : b.capacity = a.capacity
  peak : b.peak = max a.peak b.top

namespace Sound

theorem refl (h : a.Valid) : Sound a a := ⟨h, rfl, (Nat.max_eq_left h.top_le).symm⟩

theorem storeImage (h : a.Valid) {bytes : ByteArray} (hb : a.storeImage bytes = .ok b) :
    Sound a b := by
  refine ⟨h.storeImage hb, capacity_storeImage hb, ?_⟩
  unfold Arena.storeImage at hb
  split_ifs at hb
  obtain rfl := Except.ok.inj hb
  rfl

theorem grown (h : a.Valid) {len : Nat} (hfit : a.top + len ≤ a.capacity) :
    Sound a (a.grown len) := by
  have himage := h.image_le
  have hpeak := h.peak_le
  refine ⟨⟨?_, ?_, ?_⟩, rfl, rfl⟩
  all_goals
    simp only [imageLen_grown, top_grown, peak_grown, capacity_grown]
    omega

theorem write (h : Sound a b) {start : Nat} {bytes : ByteArray}
    (hfit : start + bytes.size ≤ b.capacity) : Sound a (b.write start bytes) := by
  have hcap := capacity_write hfit
  refine ⟨⟨h.valid.image_le, h.valid.top_le, ?_⟩, hcap.trans h.capacity, h.peak⟩
  rw [hcap]
  exact h.valid.peak_le

theorem rewind (h : a.Valid) (mark : Mark) : Sound a (a.rewind mark) := by
  have himage := h.image_le
  have htop := h.top_le
  have hpeak := h.peak_le
  refine ⟨⟨?_, ?_, ?_⟩, rfl, ?_⟩
  all_goals
    simp only [imageLen_rewind, top_rewind, peak_rewind, capacity_rewind]
    omega

theorem release (h : a.Valid) : Sound a a.release :=
  ⟨h.release, rfl, (Nat.max_eq_left (Nat.le_trans h.image_le h.top_le)).symm⟩

theorem clear (h : a.Valid) : Sound a a.clear :=
  ⟨h.clear, rfl, (Nat.max_eq_left (Nat.zero_le _)).symm⟩

end Sound

theorem size_fill_le (fill : ByteArray) (len : Nat) : (fill.extract 0 len).size ≤ len := by
  rw [ByteArray.size_extract]
  omega

theorem Call.sound_of_ok (h : a.Valid) {c : Call} (hc : c.perform a = .ok b) : Sound a b := by
  cases c with
  | store bytes => exact .storeImage h hc
  | alloc len fill =>
    rw [perform] at hc
    cases halloc : a.alloc len with
    | error e => simp [halloc] at hc
    | ok object =>
      obtain ⟨start, b'⟩ := object
      obtain ⟨hfit, rfl, rfl⟩ := (alloc_eq_ok_iff h).mp halloc
      rw [halloc] at hc
      obtain rfl := Except.ok.inj hc
      have hfill := size_fill_le fill len
      exact (Sound.grown h hfit).write (by rw [capacity_grown]; omega)
  | rewind mark =>
    obtain rfl := Except.ok.inj hc
    exact .rewind h mark
  | release =>
    obtain rfl := Except.ok.inj hc
    exact .release h
  | clear =>
    obtain rfl := Except.ok.inj hc
    exact .clear h

/-- **What one call does.** -/
theorem Call.sound (h : a.Valid) (c : Call) : Sound a (c.after a) := by
  unfold Call.after
  cases hc : c.perform a with
  | error e => exact .refl h
  | ok b => exact c.sound_of_ok h hc

/-! ## Any number of calls -/

theorem valid_after (h : a.Valid) (calls : List Call) :
    (a.after calls).Valid ∧ (a.after calls).capacity = a.capacity := by
  induction calls using List.reverseRecOn with
  | nil => exact ⟨h, rfl⟩
  | append_singleton calls c ih =>
    have hc := c.sound ih.1
    rw [after_concat]
    exact ⟨hc.valid, hc.capacity.trans ih.2⟩

/-- **The high water mark is the highest fill level there ever was.** -/
theorem isGreatest_peak (n : Nat) (calls : List Call) :
    IsGreatest {level | ∃ front, front <+: calls ∧ ((new n).after front).used = level}
      ((new n).after calls).peak := by
  induction calls using List.reverseRecOn with
  | nil =>
    refine ⟨⟨[], List.prefix_refl [], rfl⟩, ?_⟩
    rintro level ⟨front, hfront, rfl⟩
    rw [List.prefix_nil.mp hfront]
    exact Nat.le_refl _
  | append_singleton calls c ih =>
    obtain ⟨⟨front, hfront, hlevel⟩, hbound⟩ := ih
    have hpeak := (c.sound (valid_after (.new n) calls).1).peak
    rw [← after_concat] at hpeak
    rw [hpeak]
    constructor
    · -- the level after the last call, or an earlier one
      rcases Nat.le_total ((new n).after calls).peak ((new n).after (calls ++ [c])).top with
        hle | hle
      · exact ⟨calls ++ [c], List.prefix_refl _, (Nat.max_eq_right hle).symm⟩
      · refine ⟨front, hfront.trans (List.prefix_append _ _), ?_⟩
        rw [Nat.max_eq_left hle, hlevel]
    · rintro level ⟨front', hfront', rfl⟩
      rcases List.prefix_concat_iff.mp hfront' with rfl | hfront'
      · exact Nat.le_max_right _ _
      · exact Nat.le_trans (hbound ⟨front', hfront', rfl⟩) (Nat.le_max_left _ _)

end Arena

/-! ## No call runs into a trap -/

namespace Guarded

/-- Pins an image, which must lie inside the memory. -/
def storeImage (a : Arena) (bytes : ByteArray) : Checked (Except Exhausted Arena) := do
  if a.capacity < bytes.size then
    return .error ⟨bytes.size, a.capacity⟩
  let _ ← range a.memory 0 bytes.size
  return .ok
    { memory := overwrite a.memory 0 bytes
      imageLen := bytes.size
      top := bytes.size
      peak := max a.peak bytes.size }

/-- Makes a call on an arena. -/
def perform (limit : Nat) (a : Arena) : Arena.Call → Checked (Except Exhausted Arena)
  | .store bytes => storeImage a bytes
  | .alloc len fill => do
    match ← alloc limit a len with
    | .error e => return .error e
    | .ok (start, b) => return .ok (← write b start len 0 (fill.extract 0 len))
  | .rewind mark => do
    let _ ← region a
    return .ok (← rewind a mark)
  | .release => return .ok a.release
  | .clear => return .ok a.clear

variable {a : Arena} {limit : Nat}

theorem storeImage_eq (a : Arena) (bytes : ByteArray) :
    storeImage a bytes = .ok (a.storeImage bytes) := by
  unfold storeImage Arena.storeImage
  rcases Nat.lt_or_ge a.capacity bytes.size with hlt | hle
  · rw [if_pos hlt, if_neg (Nat.not_le_of_lt hlt)]
    rfl
  · have hrange : range a.memory 0 bytes.size = .ok (a.memory.extract 0 bytes.size) := by
      rw [range, range?, if_pos ⟨Nat.zero_le _, hle⟩]
    rw [if_neg (Nat.not_lt_of_le hle), if_pos hle, hrange]
    rfl

/-- No call runs into a trap. -/
theorem perform_eq (h : a.Valid) (hc : a.capacity ≤ limit) (c : Arena.Call) :
    perform limit a c = .ok (c.perform a) := by
  have himage := h.image_le
  cases c with
  | store bytes => exact storeImage_eq a bytes
  | alloc len fill =>
    rw [perform, Arena.Call.perform, alloc_eq h hc, ok_bind]
    cases a.alloc len with
    | error e => rfl
    | ok object =>
      have hfill : 0 + (fill.extract 0 len).size ≤ len := by
        rw [Nat.zero_add]
        exact Arena.size_fill_le fill len
      dsimp only
      rw [write, if_pos hfill]
      rfl
  | rewind mark =>
    have hregion : region a = .ok (a.capacity - a.imageLen) :=
      sub_eq (Nat.le_trans himage (Nat.le_trans h.top_le h.peak_le))
    rw [perform, hregion, ok_bind, rewind_eq himage]
    rfl
  | release | clear => rfl

end Guarded

namespace Arena

/-- **An arena stays within its bounds.** On a board whose words can address the memory, take an
arena of any size and any sequence of calls. Then the image is part of what is in use, which is at
most the high water mark, which is at most the size of the arena; the high water mark is the highest
fill level there ever was, and no further call lowers it. No further call runs into a trap, so that
no difference is negative and no mark is sought between ends that are the wrong way round. There is
room for an object exactly if it is not larger than what is free, and a call that is refused changes
nothing. -/
theorem stays_in_bounds {n limit : Nat} (hn : n ≤ limit) (calls : List Call) :
    let a := (new n).after calls
    (a.image.size ≤ a.used ∧ a.used ≤ a.capacity ∧ a.used ≤ a.peak ∧ a.peak ≤ a.capacity ∧
      a.capacity = n) ∧
    IsGreatest {level | ∃ front, front <+: calls ∧ ((new n).after front).used = level} a.peak ∧
    (∀ c : Call, a.peak ≤ (c.after a).peak) ∧
    (∀ c : Call, Guarded.perform limit a c = .ok (c.perform a)) ∧
    Guarded.free a = .ok (n - a.used) ∧
    (∀ len, (∃ start b, a.alloc len = .ok (start, b)) ↔ len ≤ n - a.used) ∧
    ∀ (c : Call) e, c.perform a = .error e → c.after a = a := by
  intro a
  have hvalid : a.Valid := (valid_after (.new n) calls).1
  have hcap : a.capacity = n := by rw [(valid_after (.new n) calls).2, capacity_new]
  have htop : a.used ≤ a.peak := hvalid.top_le
  have hpeak : a.peak ≤ a.capacity := hvalid.peak_le
  have hused : a.used ≤ n := by omega
  refine ⟨⟨?_, Nat.le_trans htop hpeak, htop, hpeak, hcap⟩, isGreatest_peak n calls, fun c => ?_,
    fun c => Guarded.perform_eq hvalid (by rwa [hcap]) c, ?_, fun len => ?_, fun c e hc => ?_⟩
  · rw [size_image hvalid]
    exact hvalid.image_le
  · rw [(c.sound hvalid).peak]
    exact Nat.le_max_left _ _
  · rw [Guarded.free_eq hvalid, free, hcap, used]
  · constructor
    · rintro ⟨start, b, halloc⟩
      have hfit : a.used + len ≤ n := hcap ▸ ((alloc_eq_ok_iff hvalid).mp halloc).1
      omega
    · intro hlen
      have hfit : a.used + len ≤ a.capacity := by omega
      exact ⟨a.top, a.grown len, (alloc_eq_ok_iff hvalid).mpr ⟨hfit, rfl, rfl⟩⟩
  · rw [Call.after, hc]

/-- A mark that was taken above an image of two bytes and is gone back to above one of five; there
is no room for an object as large as the words of the board allow. -/
theorem stays_in_bounds_stale_mark :
    let calls := [.store ⟨#[1, 2]⟩, .alloc 4 ⟨#[7]⟩, .store ⟨#[1, 2, 3, 4, 5]⟩, .rewind ⟨2⟩]
    let a := (new 8).after calls
    let large := Call.alloc 0xffffffffffffffff .empty
    a.used = 5 ∧ a.image.size ≤ a.used ∧
    IsGreatest {level | ∃ front, front <+: calls ∧ ((new 8).after front).used = level} 6 ∧
    Guarded.perform 0xffffffffffffffff a large = .ok (.error ⟨0xffffffffffffffff, 3⟩) ∧
    large.after a = a := by
  intro calls a large
  have hlimit : 8 ≤ 0xffffffffffffffff := by decide
  have hpeak : a.peak = 6 := by decide +kernel
  have hlarge : large.perform a = .error ⟨0xffffffffffffffff, 3⟩ := by decide +kernel
  obtain ⟨⟨himage, -⟩, hgreatest, -, hguarded, -, -, hrefused⟩ := stays_in_bounds hlimit calls
  refine ⟨by decide +kernel, himage, hpeak ▸ hgreatest, ?_, hrefused large _ hlarge⟩
  rw [← hlarge]
  exact hguarded large

end Arena

end Coop
