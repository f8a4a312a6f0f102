import Coop.Proofs.Machine.Bounds
import Mathlib.Data.Set.Lattice
import Mathlib.Order.CompletePartialOrder
import Mathlib.Order.Interval.Set.Defs

/-!
# Objects on the heap

The image and the objects of an arena lie in one memory, and only the fill level says where the next
object goes. It moves up with every object and back to marks, which may be out of date: one that was
taken above objects that have gone since may point into the middle of a later object. That object is
dropped as a whole.

* `Spares`, `Call.Spares`, **`Call.spares`**, `spares_after`: what lies below a level is left alone;
* `Object`, `Ledger`: the objects that are still there, with the bytes that were left in them;
* `Ledger.Sound`, **`Ledger.sound_call`**, `Ledger.sound_run`: they are where they were, with these
  bytes, and no two of them share a byte;
* `Ledger.mem_run`: a mark protects the objects below it;
* **`objects_stay_apart`**.
-/

namespace Coop

namespace Arena

variable {a b c : Arena} {level : Nat}

/-! ## Below a level -/

/-- The second arena came about by work above a level: what lies below is the same, and the fill
level has not gone below it. -/
structure Spares (level : Nat) (a b : Arena) : Prop where
  valid : b.Valid
  capacity : b.capacity = a.capacity
  imageLen : b.imageLen = a.imageLen
  le_top : level ≤ b.top
  bytes : b.memory.extract 0 level = a.memory.extract 0 level

namespace Spares

theorem refl (h : a.Valid) (hl : level ≤ a.top) : Spares level a a := ⟨h, rfl, rfl, hl, rfl⟩

theorem trans (h : Spares level a b) (h' : Spares level b c) : Spares level a c where
  valid := h'.valid
  capacity := h'.capacity.trans h.capacity
  imageLen := h'.imageLen.trans h.imageLen
  le_top := h'.le_top
  bytes := h'.bytes.trans h.bytes

theorem mono (h : Spares level a b) {lower : Nat} (hle : lower ≤ level) : Spares lower a b := by
  have hcut (x : Arena) : x.memory.extract 0 lower =
      (x.memory.extract 0 level).extract 0 lower := by
    rw [ByteArray.extract_extract, Nat.zero_add, Nat.zero_add, Nat.min_eq_left hle]
  refine ⟨h.valid, h.capacity, h.imageLen, Nat.le_trans hle h.le_top, ?_⟩
  rw [hcut, h.bytes, ← hcut]

theorem read_eq (h : Spares level a b) {start len : Nat} (hle : start + len ≤ level) :
    b.read start len = a.read start len := by
  have hcut (x : Arena) : x.read start len =
      (x.memory.extract 0 level).extract start (start + len) := by
    rw [ByteArray.extract_extract, Nat.zero_add, Nat.zero_add, Nat.min_eq_left hle, read]
  rw [hcut, hcut, h.bytes]

theorem image_eq (h : Spares a.imageLen a b) : b.image = a.image := by
  rw [image, image, h.imageLen, h.bytes]

end Spares

/-- The call can do nothing to what lies below a level, on an arena with an image of the given
length. -/
def Call.Spares (imageLen level : Nat) : Call → Prop
  | alloc _ _ => True
  | rewind mark => level ≤ max imageLen mark.level
  | release => level ≤ imageLen
  | store _ | clear => False

theorem imageLen_write (a : Arena) (start : Nat) (bytes : ByteArray) :
    (a.write start bytes).imageLen = a.imageLen := rfl

/-- The arena with one more object that was written to. -/
def filled (a : Arena) (len : Nat) (fill : ByteArray) : Arena :=
  (a.grown len).write a.top (fill.extract 0 len)

theorem spares_filled (h : a.Valid) {len : Nat} (hfit : a.top + len ≤ a.capacity)
    (fill : ByteArray) : Arena.Spares a.top a (a.filled len fill) := by
  have hfill := size_fill_le fill len
  have htop : a.top ≤ (a.grown len).capacity := by
    rw [capacity_grown]
    omega
  have hroom : a.top + (fill.extract 0 len).size ≤ (a.grown len).capacity := by
    rw [capacity_grown]
    omega
  have hsound := (Sound.grown h hfit).write hroom
  exact {
    valid := hsound.valid
    capacity := hsound.capacity
    imageLen := imageLen_write _ _ _
    le_top := Nat.le_add_right a.top len
    bytes := extract_write_of_le (Nat.le_refl a.top) htop }

theorem alloc_eq_ite (h : a.Valid) (len : Nat) : a.alloc len =
    if a.top + len ≤ a.capacity then .ok (a.top, a.grown len) else .error ⟨len, a.free⟩ := by
  cases halloc : a.alloc len with
  | error e =>
    obtain ⟨hfree, rfl⟩ := alloc_eq_error_iff.mp halloc
    have hfull : ¬ a.top + len ≤ a.capacity := by
      unfold free at hfree
      omega
    rw [if_neg hfull]
  | ok object =>
    obtain ⟨hfit, hstart, hgrown⟩ := (alloc_eq_ok_iff h).mp halloc
    rw [if_pos hfit, ← hstart, ← hgrown]

theorem Call.after_alloc (h : a.Valid) (len : Nat) (fill : ByteArray) :
    (Call.alloc len fill).after a =
      if a.top + len ≤ a.capacity then a.filled len fill else a := by
  rw [Call.after, perform, alloc_eq_ite h]
  split_ifs
  · rw [filled]
  · rfl

/-- **What one call does to what lies below a level.** -/
theorem Call.spares (h : a.Valid) (hl : level ≤ a.top) {c : Call} (hc : c.Spares a.imageLen level) :
    Arena.Spares level a (c.after a) := by
  have hsound := c.sound h
  cases c with
  | store | clear => exact hc.elim
  | alloc len fill =>
    rw [after_alloc h]
    split_ifs with hfit
    · exact (spares_filled h hfit fill).mono hl
    · exact .refl h hl
  | rewind mark =>
    have hle : level ≤ max a.imageLen mark.level := hc
    refine ⟨hsound.valid, rfl, rfl, ?_, rfl⟩
    change level ≤ max a.imageLen (min mark.level a.top)
    omega
  | release => exact ⟨hsound.valid, rfl, rfl, hc, rfl⟩

theorem spares_after (h : a.Valid) (hl : level ≤ a.top) {calls : List Call}
    (hcalls : ∀ c ∈ calls, c.Spares a.imageLen level) :
    Arena.Spares level a (a.after calls) := by
  induction calls using List.reverseRecOn with
  | nil => exact .refl h hl
  | append_singleton calls c ih =>
    have hbefore := ih fun c hc => hcalls c (List.mem_append_left _ hc)
    have hc : c.Spares (a.after calls).imageLen level := by
      rw [hbefore.imageLen]
      exact hcalls c (List.mem_append_right _ List.mem_cons_self)
    rw [after_concat]
    exact hbefore.trans (c.spares hbefore.valid hbefore.le_top hc)

/-! ## Objects -/

/-- An object on the heap: where it starts, and the bytes that were left in it. -/
structure Object where
  start : Nat
  bytes : ByteArray
  deriving DecidableEq

namespace Object

/-- Where an object ends. -/
def stop (o : Object) : Nat := o.start + o.bytes.size

/-- The places an object takes up in the memory. -/
def places (o : Object) : Set Nat := Set.Ico o.start o.stop

/-- An object whose bytes are still those that were left in it. -/
def Intact (o : Object) (a : Arena) : Prop := a.read o.start o.bytes.size = o.bytes

end Object

theorem disjoint_Ico_of_le {i j k l : Nat} (h : l ≤ i) : Disjoint (Set.Ico i j) (Set.Ico k l) := by
  refine Set.disjoint_left.mpr fun x hx hx' => ?_
  exact Nat.not_lt_of_le (Nat.le_trans h hx.1) hx'.2

/-- What was written into a stretch is what is read from it. -/
theorem read_write {start len : Nat} {bytes : ByteArray} (hfit : start + len ≤ a.capacity)
    (hlen : bytes.size ≤ len) :
    (a.write start bytes).read start len = overwrite (a.read start len) 0 bytes := by
  have hcap : start + len ≤ a.memory.size := hfit
  have hfront : (a.memory.extract 0 start).size = start := by
    rw [ByteArray.size_extract]
    omega
  have hread : (a.read start len).size = len := by
    rw [read, ByteArray.size_extract]
    omega
  have hnone : (a.memory.extract 0 start).extract start (start + len) = ByteArray.empty := by
    rw [ByteArray.extract_eq_empty_iff, hfront]
    omega
  have hall : bytes.extract 0 len = bytes := by
    ext1
    simp [hlen]
  have hrest : start + bytes.size + (len - bytes.size) = start + len := by omega
  rw [overwrite_eq, hread, ByteArray.extract_same, ByteArray.empty_append, read, read, write,
    overwrite_eq, ByteArray.append_assoc, ByteArray.extract_append, hnone, ByteArray.empty_append,
    hfront, Nat.sub_self, Nat.add_sub_cancel_left, ByteArray.extract_append, hall,
    ByteArray.extract_extract, ByteArray.extract_extract, Nat.zero_sub, Nat.add_zero, hrest,
    Nat.min_eq_left hcap, Nat.min_self, Nat.zero_add]

/-- The object that was placed and written to: it holds what lay there, with some bytes written over
the front of it. -/
def placed (a : Arena) (len : Nat) (fill : ByteArray) : Object :=
  ⟨a.top, overwrite (a.read a.top len) 0 (fill.extract 0 len)⟩

theorem size_placed {len : Nat} (hfit : a.top + len ≤ a.capacity) (fill : ByteArray) :
    (a.placed len fill).bytes.size = len := by
  have hfill := size_fill_le fill len
  have hread : (a.read a.top len).size = len := by
    rw [read, ByteArray.size_extract]
    unfold capacity at hfit
    omega
  rw [placed, size_overwrite (by omega), hread]

theorem intact_placed {len : Nat} (hfit : a.top + len ≤ a.capacity) (fill : ByteArray) :
    (a.placed len fill).Intact (a.filled len fill) := by
  have hgrown : a.top + len ≤ (a.grown len).capacity := hfit
  rw [Object.Intact, size_placed hfit]
  exact read_write hgrown (size_fill_le fill len)

/-! ## Books of objects -/

/-- An arena and the objects in it that were not dropped since they were placed, the last one first.
-/
structure Ledger where
  arena : Arena
  objects : List Object

namespace Ledger

variable {l : Ledger}

/-- Makes a call and keeps the books. Going back to a mark drops the objects that reach above the
fill level it leads to. -/
def call (l : Ledger) : Call → Ledger
  | .alloc len fill =>
    match l.arena.alloc len with
    | .error _ => l
    | .ok (start, b) =>
      let bytes := fill.extract 0 len
      ⟨b.write start bytes, ⟨start, overwrite (l.arena.read start len) 0 bytes⟩ :: l.objects⟩
  | .rewind mark =>
    let b := l.arena.rewind mark
    ⟨b, l.objects.filter fun o => o.stop ≤ b.top⟩
  | .store bytes =>
    match l.arena.storeImage bytes with
    | .error _ => l
    | .ok b => ⟨b, []⟩
  | .release => ⟨l.arena.release, []⟩
  | .clear => ⟨l.arena.clear, []⟩

/-- Makes some calls. -/
def run (l : Ledger) (calls : List Call) : Ledger := calls.foldl call l

theorem run_concat (l : Ledger) (calls : List Call) (c : Call) :
    l.run (calls ++ [c]) = (l.run calls).call c := by
  simp [run]

theorem arena_call (l : Ledger) (c : Call) : (l.call c).arena = c.after l.arena := by
  unfold call Call.after
  cases c with
  | alloc len fill =>
    dsimp only [Call.perform]
    cases l.arena.alloc len <;> rfl
  | rewind mark => rfl
  | store bytes =>
    dsimp only [Call.perform]
    cases l.arena.storeImage bytes <;> rfl
  | release | clear => rfl

theorem arena_run (l : Ledger) (calls : List Call) : (l.run calls).arena = l.arena.after calls := by
  induction calls using List.reverseRecOn with
  | nil => rfl
  | append_singleton calls c ih => rw [run_concat, arena_call, ih, after_concat]

theorem call_alloc (h : l.arena.Valid) (len : Nat) (fill : ByteArray) :
    l.call (.alloc len fill) = if l.arena.top + len ≤ l.arena.capacity then
      ⟨l.arena.filled len fill, l.arena.placed len fill :: l.objects⟩ else l := by
  rw [call, alloc_eq_ite h]
  split_ifs
  · rw [filled, placed]
  · rfl

/-- The books are right. The objects lie between the image and the fill level, each one above those
placed before it, and none was written to since. -/
structure Sound (l : Ledger) : Prop where
  valid : l.arena.Valid
  above : ∀ o ∈ l.objects, l.arena.imageLen ≤ o.start
  below : ∀ o ∈ l.objects, o.stop ≤ l.arena.top
  stacked : l.objects.Pairwise fun o o' => o'.stop ≤ o.start
  intact : ∀ o ∈ l.objects, o.Intact l.arena

theorem Sound.nil (h : l.arena.Valid) (hl : l.objects = []) : Sound l := by
  refine ⟨h, ?_, ?_, ?_, ?_⟩ <;> simp [hl]

theorem Sound.alloc (h : l.Sound) (len : Nat) (fill : ByteArray) :
    (l.call (.alloc len fill)).Sound := by
  rw [call_alloc h.valid]
  split_ifs with hfit
  · have hspares := spares_filled h.valid hfit fill
    have hstop : (l.arena.placed len fill).stop = l.arena.top + len := by
      rw [Object.stop, size_placed hfit, placed]
    refine ⟨hspares.valid, ?_, ?_, List.pairwise_cons.mpr ⟨h.below, h.stacked⟩, ?_⟩
    · rw [hspares.imageLen]
      exact List.forall_mem_cons.mpr ⟨h.valid.image_le, h.above⟩
    · refine List.forall_mem_cons.mpr ⟨Nat.le_of_eq hstop, fun o ho => ?_⟩
      exact Nat.le_trans (h.below o ho) hspares.le_top
    · refine List.forall_mem_cons.mpr ⟨intact_placed hfit fill, fun o ho => ?_⟩
      exact (hspares.read_eq (h.below o ho)).trans (h.intact o ho)
  · exact h

theorem Sound.rewind (h : l.Sound) (mark : Mark) : (l.call (.rewind mark)).Sound := by
  have hof {o : Object} (ho : o ∈ (l.call (.rewind mark)).objects) :
      o ∈ l.objects ∧ o.stop ≤ (l.arena.rewind mark).top := by
    simpa [call] using ho
  exact {
    valid := (Arena.Sound.rewind h.valid mark).valid
    above := fun o ho => h.above o (hof ho).1
    below := fun o ho => (hof ho).2
    stacked := h.stacked.filter _
    intact := fun o ho => h.intact o (hof ho).1 }

/-- **The books stay right**, whatever is called. -/
theorem sound_call (h : l.Sound) (c : Call) : (l.call c).Sound := by
  have hvalid : (l.call c).arena.Valid := by
    rw [arena_call]
    exact (c.sound h.valid).valid
  cases c with
  | alloc len fill => exact h.alloc len fill
  | rewind mark => exact h.rewind mark
  | release | clear => exact .nil hvalid rfl
  | store bytes =>
    rw [call] at hvalid ⊢
    cases hstore : l.arena.storeImage bytes with
    | error e => exact h
    | ok b =>
      rw [hstore] at hvalid
      exact .nil hvalid rfl

theorem sound_run (h : l.Sound) (calls : List Call) : (l.run calls).Sound := by
  induction calls using List.reverseRecOn with
  | nil => exact h
  | append_singleton calls c ih =>
    rw [run_concat]
    exact sound_call ih c

theorem disjoint_places (h : l.Sound) :
    l.objects.Pairwise fun o o' => Disjoint o.places o'.places :=
  h.stacked.imp fun hle => disjoint_Ico_of_le hle

end Ledger

/-! ## Marks -/

/-- The call places an object, or goes back to a mark that is not below the given one. -/
def Call.Honours (m : Mark) : Call → Prop
  | alloc _ _ => True
  | rewind mark => m.level ≤ mark.level
  | store _ | release | clear => False

/-- The call places objects or drops them, and leaves the image alone. -/
def Call.OnHeap : Call → Prop
  | alloc _ _ | rewind _ | release => True
  | store _ | clear => False

theorem Call.Honours.spares {m : Mark} {c : Call} (h : c.Honours m) (n : Nat) :
    c.Spares n m.level := by
  cases c with
  | store | release | clear => exact h.elim
  | alloc => trivial
  | rewind mark => exact Nat.le_trans h (Nat.le_max_right n mark.level)

theorem Call.OnHeap.spares {c : Call} (h : c.OnHeap) (n : Nat) : c.Spares n n := by
  cases c with
  | store | clear => exact h.elim
  | alloc => trivial
  | rewind mark => exact Nat.le_max_left n mark.level
  | release => exact Nat.le_refl n

namespace Ledger

variable {l : Ledger} {m : Mark} {o : Object}

theorem mem_call (h : l.Sound) (hm : m.level ≤ l.arena.top) (ho : o ∈ l.objects)
    (hle : o.stop ≤ m.level) {c : Call} (hc : c.Honours m) : o ∈ (l.call c).objects := by
  cases c with
  | store | release | clear => exact hc.elim
  | alloc len fill =>
    rw [call_alloc h.valid]
    split_ifs
    · exact List.mem_cons_of_mem _ ho
    · exact ho
  | rewind mark =>
    have hmark : m.level ≤ mark.level := hc
    have hkept : o.stop ≤ (l.arena.rewind mark).top := by
      rw [top_rewind]
      omega
    exact List.mem_filter.mpr ⟨ho, decide_eq_true hkept⟩

/-- **A mark protects the objects below it.** -/
theorem mem_run (h : l.Sound) (hm : m.level ≤ l.arena.top) (ho : o ∈ l.objects)
    (hle : o.stop ≤ m.level) {calls : List Call} (hcalls : ∀ c ∈ calls, c.Honours m) :
    o ∈ (l.run calls).objects := by
  induction calls using List.reverseRecOn with
  | nil => exact ho
  | append_singleton calls c ih =>
    have hbefore : ∀ c ∈ calls, c.Honours m := fun c hc => hcalls c (List.mem_append_left _ hc)
    have hspares := spares_after h.valid hm fun c hc => (hbefore c hc).spares l.arena.imageLen
    rw [← arena_run] at hspares
    rw [run_concat]
    exact mem_call (sound_run h calls) hspares.le_top (ih hbefore) hle
      (hcalls c (List.mem_append_right _ List.mem_cons_self))

end Ledger

/-- **Objects stay apart.** Store an image in an arena of any size and any past, and then place
objects, write any bytes into each one as it is placed, and go back to any marks, also ones that are
out of date. Then the image is still the one that was stored. Every object that is still there lies
between the image and the end of the memory, holds the bytes that were left in it, and shares no
byte with another one; nor does the next object, wherever the fill level has got to. The objects
that are there when a mark is taken are still there, with the same bytes, after any more objects and
any returns to that mark or to later ones. -/
theorem objects_stay_apart (n : Nat) (before calls : List Call) {bytes : ByteArray}
    (hstore : ((new n).after before).storeImage bytes = .ok a) (hcalls : ∀ c ∈ calls, c.OnHeap) :
    let l := Ledger.run ⟨a, []⟩ calls
    l.arena = a.after calls ∧ l.arena.image = bytes ∧
    (∀ o ∈ l.objects, bytes.size ≤ o.start ∧ o.stop ≤ n ∧ o.Intact l.arena) ∧
    (l.objects.Pairwise fun o o' => Disjoint o.places o'.places) ∧
    (∀ len start b, l.arena.alloc len = .ok (start, b) →
      bytes.size ≤ start ∧ start + len ≤ n ∧
      ∀ o ∈ l.objects, Disjoint (Set.Ico start (start + len)) o.places) ∧
    ∀ later : List Call, (∀ c ∈ later, c.Honours l.arena.mark) →
      ∀ o ∈ l.objects, o ∈ (l.run later).objects ∧ o.Intact (l.run later).arena := by
  intro l
  have hpast := valid_after (.new n) before
  have ha : a.Valid := hpast.1.storeImage hstore
  have hl : l.Sound := Ledger.sound_run (.nil ha rfl) calls
  have harena : l.arena = a.after calls := Ledger.arena_run ⟨a, []⟩ calls
  have hspares : Spares a.imageLen a l.arena := by
    rw [harena]
    exact spares_after ha ha.image_le fun c hc => (hcalls c hc).spares a.imageLen
  have himage : a.image = bytes := image_storeImage hstore
  have hlen : l.arena.imageLen = bytes.size := by
    rw [hspares.imageLen, ← size_image ha, himage]
  have hcap : l.arena.capacity = n := by
    rw [hspares.capacity, capacity_storeImage hstore, hpast.2, capacity_new]
  have htop : l.arena.top ≤ n := by
    rw [← hcap]
    exact Nat.le_trans hl.valid.top_le hl.valid.peak_le
  refine ⟨harena, hspares.image_eq.trans himage, fun o ho => ?_, Ledger.disjoint_places hl,
    fun len start b halloc => ?_, fun later hlater o ho => ?_⟩
  · rw [← hlen]
    exact ⟨hl.above o ho, Nat.le_trans (hl.below o ho) htop, hl.intact o ho⟩
  · obtain ⟨hfit, rfl, -⟩ := (alloc_eq_ok_iff hl.valid).mp halloc
    rw [hcap] at hfit
    rw [← hlen]
    exact ⟨hl.valid.image_le, hfit, fun o ho => disjoint_Ico_of_le (hl.below o ho)⟩
  · have hkept := Ledger.mem_run hl (Nat.le_refl l.arena.top) ho (hl.below o ho) hlater
    exact ⟨hkept, (Ledger.sound_run hl later).intact o hkept⟩

/-- Above an image of three bytes, the mark `12` goes out of date and later cuts an object in two.
That object is dropped, the one below it is not, and the next one starts at the mark. -/
theorem objects_stay_apart_cut : ∃ a : Arena,
    ((new 16).after [.alloc 9 ⟨#[5, 5, 5, 5, 5, 5]⟩]).storeImage ⟨#[1, 2, 3]⟩ = .ok a ∧
    let l := Ledger.run ⟨a, []⟩ [.alloc 4 ⟨#[7, 8]⟩, .alloc 5 ⟨#[9]⟩, .rewind ⟨7⟩,
      .alloc 6 ⟨#[6, 6, 6, 6, 6, 6]⟩, .rewind ⟨12⟩]
    let o : Object := ⟨3, ⟨#[7, 8, 5, 0]⟩⟩
    l.objects = [o] ∧ l.arena.image = ⟨#[1, 2, 3]⟩ ∧ l.arena.mark = ⟨12⟩ ∧
    (∃ b, l.arena.alloc 4 = .ok (12, b)) ∧ Disjoint (Set.Ico 12 16) o.places ∧
    o.Intact (l.run [.alloc 4 ⟨#[4, 4, 4, 4]⟩, .rewind ⟨12⟩]).arena := by
  let a : Arena := ⟨⟨#[1, 2, 3, 5, 5, 5, 0, 0, 0, 0, 0, 0, 0, 0, 0, 0]⟩, 3, 3, 9⟩
  let calls : List Call := [.alloc 4 ⟨#[7, 8]⟩, .alloc 5 ⟨#[9]⟩, .rewind ⟨7⟩,
    .alloc 6 ⟨#[6, 6, 6, 6, 6, 6]⟩, .rewind ⟨12⟩]
  have hstore : ((new 16).after [.alloc 9 ⟨#[5, 5, 5, 5, 5, 5]⟩]).storeImage ⟨#[1, 2, 3]⟩ =
      .ok a := by decide +kernel
  have hcalls : ∀ c ∈ calls, c.OnHeap := by simp [calls, Call.OnHeap]
  obtain ⟨-, himage, -, -, hnext, hlater⟩ := objects_stay_apart 16 _ calls hstore hcalls
  refine ⟨a, hstore, ?_⟩
  intro l o
  have hobjects : l.objects = [o] := by decide +kernel
  have hmark : l.arena.mark = ⟨12⟩ := by decide +kernel
  have ho : o ∈ l.objects := by simp [hobjects]
  have hroom : l.arena.alloc 4 = .ok (12, l.arena.grown 4) := by decide +kernel
  have hhonours : ∀ c ∈ [Call.alloc 4 ⟨#[4, 4, 4, 4]⟩, .rewind ⟨12⟩], c.Honours l.arena.mark := by
    simp [hmark, Call.Honours]
  exact ⟨hobjects, himage, hmark, ⟨_, hroom⟩, (hnext 4 12 _ hroom).2.2 o ho,
    (hlater _ hhonours o ho).2⟩

end Arena

end Coop
