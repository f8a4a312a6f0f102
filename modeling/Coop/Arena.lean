import Coop.Bytes

/-!
# Private heaps

An arena is a fixed stretch of memory owned by one task. An image may be pinned at its base; runtime
objects are placed above it, each on top of the last, and are dropped together by going back to a
mark. Memory starts out zeroed and is never cleared again.

* `Arena` with `capacity`, `used`, `peak`, `free`, `image`;
* `storeImage`, `alloc`, `mark`, `rewind`, `release`, `clear`;
* `read`, `write`: the bytes of a stretch;
* `Exhausted`: a request that does not fit, with its message.
-/

namespace Coop

/-- A request for more memory than is free. -/
structure Exhausted where
  requested : Nat
  free : Nat
  deriving DecidableEq, Repr

/-- The wording of a refused request. -/
def Exhausted.message (e : Exhausted) : String :=
  s!"heap exhausted ({e.requested} bytes requested, {e.free} free)"

/-- The memory of one task: an image of `imageLen` bytes at the base, runtime objects up to `top`.
-/
structure Arena where
  memory : ByteArray
  imageLen : Nat
  top : Nat
  peak : Nat
  deriving DecidableEq

/-- A fill level to go back to. -/
structure Mark where
  level : Nat
  deriving DecidableEq, Repr

namespace Arena

/-- An empty arena over zeroed memory. -/
def new (capacity : Nat) : Arena := ⟨zeros capacity, 0, 0, 0⟩

/-- The size of the memory. -/
def capacity (a : Arena) : Nat := a.memory.size

/-- The bytes in use, image included. -/
def used (a : Arena) : Nat := a.top

/-- The bytes above everything in use. -/
def free (a : Arena) : Nat := a.capacity - a.top

/-- The pinned image. -/
def image (a : Arena) : ByteArray := a.memory.extract 0 a.imageLen

/-- Replaces everything the arena held by a copy of `bytes`. -/
def storeImage (a : Arena) (bytes : ByteArray) : Except Exhausted Arena :=
  if bytes.size ≤ a.capacity then
    .ok { memory := overwrite a.memory 0 bytes
          imageLen := bytes.size
          top := bytes.size
          peak := max a.peak bytes.size }
  else .error ⟨bytes.size, a.capacity⟩

/-- Takes `len` bytes on top of what is in use; gives their offset and the arena after. -/
def alloc (a : Arena) (len : Nat) : Except Exhausted (Nat × Arena) :=
  if len ≤ a.free then
    .ok (a.top, { a with top := a.top + len, peak := max a.peak (a.top + len) })
  else .error ⟨len, a.free⟩

/-- The `len` bytes from `start` on. -/
def read (a : Arena) (start len : Nat) : ByteArray := a.memory.extract start (start + len)

/-- Replaces the bytes from `start` on. -/
def write (a : Arena) (start : Nat) (bytes : ByteArray) : Arena :=
  { a with memory := overwrite a.memory start bytes }

/-- The current fill level. -/
def mark (a : Arena) : Mark := ⟨a.top⟩

/-- Drops every object above a mark; never the image, and never upwards. -/
def rewind (a : Arena) (m : Mark) : Arena := { a with top := max a.imageLen (min m.level a.top) }

/-- Drops the runtime objects and keeps the image. -/
def release (a : Arena) : Arena := { a with top := a.imageLen }

/-- Drops everything, image included. -/
def clear (a : Arena) : Arena := { a with imageLen := 0, top := 0 }

section Sizes

variable (a : Arena)

@[simp] theorem capacity_new (n : Nat) : (new n).capacity = n := by simp [new, capacity]

@[simp] theorem capacity_rewind (m : Mark) : (a.rewind m).capacity = a.capacity := rfl

@[simp] theorem capacity_release : a.release.capacity = a.capacity := rfl

@[simp] theorem capacity_clear : a.clear.capacity = a.capacity := rfl

@[simp] theorem image_rewind (m : Mark) : (a.rewind m).image = a.image := rfl

@[simp] theorem image_release : a.release.image = a.image := rfl

@[simp] theorem image_clear : a.clear.image = ByteArray.empty := by simp [clear, image]

@[simp] theorem used_release : a.release.used = a.imageLen := rfl

variable {a}

theorem capacity_write {start : Nat} {bytes : ByteArray} (h : start + bytes.size ≤ a.capacity) :
    (a.write start bytes).capacity = a.capacity := size_overwrite h

theorem capacity_storeImage {b : Arena} {bytes : ByteArray} (h : a.storeImage bytes = .ok b) :
    b.capacity = a.capacity := by
  unfold storeImage at h
  split at h
  · cases h
    exact size_overwrite (by simpa [capacity] using ‹_›)
  · cases h

theorem alloc_eq_error_iff {len : Nat} {e : Exhausted} :
    a.alloc len = .error e ↔ a.free < len ∧ e = ⟨len, a.free⟩ := by
  unfold alloc
  split
  · simp; omega
  · simp [eq_comm]; omega

end Sizes

end Arena

end Coop
