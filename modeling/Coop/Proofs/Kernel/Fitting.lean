import Coop.Proofs.Kernel.Running
import Coop.Proofs.Volume.Handles

/-!
# Images fit

Every task has the heap the settings ask for, and settings that were read from a text never allow a
load buffer larger than that. So an image that went through the load buffer fits the heap of every
task, as long as no read of the volume brings more than was asked for.

* `Task.capacity_turn`, `Task.capacity_effect`: nothing changes the size of a heap;
* `Sized`, `Step.sized`, **`Reachable.sized`**: the heaps of all tasks;
* `Volume.Moderate`: a volume that brings no more than was asked for;
* `Volume.Moderate.size_fill_le`, **`size_le_of_fetch`**: what goes through the load buffer;
* **`images_fit`**: images and heaps.
-/

namespace Coop

/-! ## The size of a heap -/

namespace Task

variable {t : Task}

theorem capacity_loadImage (t : Task) (bytes : ByteArray) :
    (t.loadImage bytes).2.arena.capacity = t.arena.capacity := by
  unfold loadImage
  dsimp only
  cases hs : t.dropImage.arena.storeImage bytes with
  | error e => rfl
  | ok arena => exact Arena.capacity_storeImage hs

theorem loadImage_of_le {bytes : ByteArray} (h : bytes.size ≤ t.arena.capacity) :
    (t.loadImage bytes).1 = .ok () := by
  obtain ⟨arena, hstore⟩ : ∃ arena, t.dropImage.arena.storeImage bytes = .ok arena :=
    ⟨_, if_pos h⟩
  unfold loadImage
  simp only [hstore]

theorem capacity_compile (t : Task) (source : String) :
    (t.compile source).value.2.arena.capacity = t.arena.capacity := by
  rw [value_compile]
  split_ifs
  · cases Coop.compile source with
    | error e => rfl
    | ok image =>
      cases hs : t.arena.clear.storeImage image with
      | error e => simp [hs, dropImage]
      | ok arena =>
        simp only [hs]
        exact Arena.capacity_storeImage hs
  · rfl

theorem capacity_apply (t : Task) (a : Action) : (a.apply t).arena.capacity = t.arena.capacity := by
  cases a with
  | compile source => exact t.capacity_compile source
  | loadImage bytes => exact t.capacity_loadImage bytes
  | mapImage bytes | setPriority priority => rfl
  | interrupt =>
    rw [Action.apply, requestInterrupt]
    split_ifs <;> rfl
  | suspend =>
    rw [Action.apply, requestSuspend]
    split_ifs <;> rfl

theorem capacity_launched (t : Task) : t.launched.arena.capacity = t.arena.capacity := by
  rw [launched_eq]
  repeat' split
  all_goals rfl

theorem capacity_settled (t : Task) (c : Clock) (hb : Handback) :
    (t.settled c hb).arena.capacity = t.arena.capacity := by
  cases hb <;> rfl

theorem capacity_step (h : t.arena.Valid) : t.step.task.arena.capacity = t.arena.capacity := by
  unfold step
  split
  next fiber image _ _ =>
    exact (Machine.kept_runImage (m := ⟨fiber.pc, t.arena, ""⟩) h image t.timeslice).capacity
  next => rfl

theorem capacity_turn (h : t.arena.Valid) (c : Clock) :
    (t.turn c).arena.capacity = t.arena.capacity := by
  have hcourse := t.course c
  generalize t.given? c = d, t.turn c = t' at hcourse
  cases hcourse with
  | ended | dormant | suspended | asleep | parked => rfl
  | @given d hi hp hd =>
    have harena : d.arena = t.arena := by rw [hd]
    rw [capacity_settled, capacity_step (harena ▸ h), harena]

theorem capacity_effect (h : t.arena.Valid) (c : Clock) (u : TaskId) (a : Scheduler.Action) :
    (a.effect c u t).arena.capacity = t.arena.capacity := by
  cases a with
  | spawn | remove => rfl
  | launch id =>
    rw [Scheduler.Action.effect]
    split_ifs
    · exact t.capacity_launched
    · rfl
  | resume id =>
    rw [Scheduler.Action.effect, resumed]
    split_ifs <;> rfl
  | tick => exact capacity_turn h c.next
  | on id a =>
    rw [Scheduler.Action.effect]
    split_ifs
    · exact t.capacity_apply a
    · rfl

end Task

namespace Kernel

variable {k k' : Kernel}

/-- Every task has the heap the settings ask for. -/
def Sized (k : Kernel) : Prop :=
  ∀ id t, k.task? id = some t → t.arena.capacity = k.config.heapSize

theorem Step.config (h : Step k k') : k'.config = k.config := by
  cases h with
  | create name hroom =>
    cases hn : name.bind k.lookup with
    | some holder =>
      unfold Kernel.create
      rw [hn]
      rfl
    | none => rw [value_create hn]
  | @register _ name id hk =>
    unfold Kernel.register at hk
    cases ht : k.task? id with
    | none => simp [ht] at hk
    | some t =>
      cases hr : k.registry.register name id with
      | error e => simp [ht, hr, Except.map] at hk
      | ok registry =>
        simp only [ht, hr, Except.map] at hk
        cases hk
        rfl
  | destroy id =>
    by_cases hd : k.phase? id = some .dormant
    · rw [value_destroy hd]
    · obtain ⟨e, he⟩ := value_destroy_of_ne hd
      rw [he]
  | execute | resume | tick | onTask => rfl

theorem Step.sized (hs : Step k k') (hsup : Scheduler.Supervised k.scheduler) (h : k.Sized) :
    k'.Sized := by
  intro u t' ht'
  rw [hs.config]
  rcases hs.action with hsame | ⟨a, hreturns, -, -, hspawn, happly⟩
  · exact h u t' (by rw [task?, ← hsame]; exact ht')
  · rw [task?, happly] at ht'
    rcases Scheduler.find?_apply_inv hsup.reachable.partitioned hreturns ht' with
      ⟨t, ht, rfl⟩ | ⟨name, heapSize, priority, ha, rfl⟩
    · have hheap := (hsup.coherent t (Scheduler.mem_of_find? ht)).heap
      rw [Task.capacity_effect hheap, h u t ht]
    · rw [← hspawn name heapSize priority ha]
      exact Arena.capacity_new heapSize

theorem Reachable.sized (h : Reachable k) : k.Sized := by
  obtain ⟨config, hs⟩ := h.steps
  have hkeep : Scheduler.Supervised k.scheduler ∧ k.Sized := by
    refine hs.keep (P := fun k => Scheduler.Supervised k.scheduler ∧ k.Sized) ?_
      ⟨.new _ _, fun u t ht => nomatch ht⟩
    rintro k k' hstep ⟨hsup, hsized⟩
    exact ⟨hstep.supervised hsup, hstep.sized hsup hsized⟩
  exact hkeep.2

end Kernel

/-! ## The load buffer -/

section Buffer

variable {V : Type} [Volume V] {P : V → Prop}

/-- In the states `P` of a volume, which opening and reading do not leave, no read brings more bytes
than were asked for. -/
structure Volume.Moderate (P : V → Prop) : Prop where
  openPath {vol : V} (hvol : P vol) (path : String) : P (openPath vol path).value.2
  brings {vol vol' : V} {handle : Handle} {offset len : Nat} {bytes : ByteArray} (hvol : P vol)
    (h : read vol handle offset len = (.ok bytes, vol')) : bytes.size ≤ len
  read {vol : V} (hvol : P vol) (handle : Handle) (offset len : Nat) :
    P (read vol handle offset len).2

namespace Volume.Moderate

variable (h : Volume.Moderate P) {vol vol' : V}
include h

theorem tried (hvol : P vol) (ht : Volume.Tried vol vol') : P vol' := by
  induction ht with
  | refl => exact hvol
  | @tail vol₁ vol₂ _ hs ih =>
    obtain ⟨path, e, ho⟩ := hs
    have hopen := h.openPath ih path
    rwa [ho] at hopen

/-- A buffer is never overfilled. -/
theorem size_fill_le (hvol : P vol) {handle : Handle} {size reads : Nat} {done bytes : ByteArray}
    (hdone : done.size ≤ size)
    (hfill : Volume.fill handle size reads vol done = (.ok bytes, vol')) : bytes.size ≤ size := by
  fun_induction Volume.fill handle size reads vol done with
  | case1 | case2 =>
    cases hfill
    exact hdone
  | case3 => cases hfill
  | case4 =>
    cases hfill
    exact hdone
  | case5 reads vol done hroom vol₁ more hr hsome ih =>
    have hmore := h.brings hvol hr
    have hvol₁ := h.read hvol handle done.size (size - done.size)
    rw [hr] at hvol₁
    refine ih hvol₁ ?_ hfill
    rw [ByteArray.size_append]
    omega

theorem size_le_of_readContents (hvol : P vol) {maxLoad : Nat} {handle : Handle} {path : String}
    {bytes : ByteArray} (hread : (readContents maxLoad vol handle path).value =
      (.ok ⟨.bufferedImage, bytes⟩, vol')) : bytes.size ≤ maxLoad := by
  unfold readContents at hread
  cases hm : Volume.mapped? vol handle with
  | some lent =>
    simp only [hm] at hread
    split_ifs at hread <;> cases hread
  | none =>
    simp only [hm] at hread
    unfold readBuffered at hread
    cases hs : Volume.size vol handle with
    | error e => simp [hs] at hread
    | ok size =>
      simp only [hs] at hread
      by_cases hlarge : maxLoad < size
      · rw [if_pos hlarge, Logged.value_bind] at hread
        cases hd : Volume.drain handle readChunk (Volume.extent vol handle + 1) vol .empty with
        | mk result vol₁ =>
          rw [hd] at hread
          cases result <;> cases hread
      · rw [if_neg hlarge] at hread
        cases hf : Volume.fill handle size size vol .empty with
        | mk result vol₁ =>
          rw [hf] at hread
          cases result with
          | error e => cases hread
          | ok filled =>
            have hle := h.size_fill_le hvol (Nat.zero_le size) hf
            dsimp only at hread
            split_ifs at hread <;> cases hread
            omega

/-- **What goes through the load buffer keeps to its size.** -/
theorem size_le_of_fetch (hvol : P vol) {config : Config} {name : String} {bytes : ByteArray}
    (hfetch : fetch config vol name = (.ok ⟨.bufferedImage, bytes⟩, vol')) :
    bytes.size ≤ config.maxLoad := by
  have hcourse := fetched config vol name
  rw [hfetch] at hcourse
  cases hcourse with
  | @opened handle path _ vol₀ vol₁ vol₂ htried hopen hread =>
    have hvol₁ := h.openPath (h.tried hvol htried) path
    rw [hopen] at hvol₁
    exact h.size_le_of_readContents hvol₁ hread

end Volume.Moderate

end Buffer

theorem MemoryVolume.moderate : Volume.Moderate fun _ : MemoryVolume => True where
  openPath _ _ := trivial
  read _ _ _ _ := trivial
  brings {v v' handle offset len bytes} _ h := by
    change v.read handle offset len = _ at h
    unfold read at h
    cases hb : v.behind? handle with
    | none => simp [hb] at h
    | some file =>
      simp only [hb] at h
      cases h
      rw [ByteArray.size_extract]
      omega

theorem FaultyVolume.moderate {V : Type} [Volume V] {P : V → Prop} (h : Volume.Moderate P) :
    Volume.Moderate fun v : FaultyVolume V => P v.inner where
  openPath {v} hv path := by
    rw [value_openPath]
    split_ifs
    · exact hv
    · exact h.openPath hv path
  read {v} hv handle offset len := by
    rw [read_eq]
    split_ifs
    · exact hv
    · exact h.read hv handle offset _
  brings {v v' handle offset len bytes} hv hr := by
    rw [read_eq] at hr
    split_ifs at hr
    · cases hr
    · cases hi : Volume.read v.inner handle offset (v.asked len) with
      | mk result inner =>
        rw [hi] at hr
        cases hr
        exact Nat.le_trans (h.brings hv hi) (v.asked_le len)

/-! ## Images and heaps -/

namespace Kernel

variable {k : Kernel} {V : Type} [Volume V] {P : V → Prop} {vol : V}

/-- **An image always fits.** In every kernel whose settings were read from a text, whatever was
done with it, and for every volume that brings no more than was asked for: an image that went
through the load buffer fits the heap of every task, and no load fails for want of memory. -/
theorem images_fit (h : Reachable k) {text : ByteArray} (hconfig : k.config = Config.parse text)
    (hmoderate : Volume.Moderate P) (hvol : P vol) (name : String) :
    (∀ bytes vol', fetch k.config vol name = (.ok ⟨.bufferedImage, bytes⟩, vol') →
      ∀ id t, k.task? id = some t → (∃ arena, t.arena.storeImage bytes = .ok arena) ∧
        (t.loadImage bytes).1 = .ok ()) ∧
    ∀ id e, (k.load vol id name).value.1 ≠ .error (.heapExhausted e) := by
  have hfit {bytes : ByteArray} {vol' : V}
      (hfetch : fetch k.config vol name = (.ok ⟨.bufferedImage, bytes⟩, vol')) {id : TaskId}
      {t : Task} (ht : k.task? id = some t) : bytes.size ≤ t.arena.capacity := by
    calc bytes.size ≤ k.config.maxLoad := hmoderate.size_le_of_fetch hvol hfetch
      _ ≤ k.config.heapSize := by
        rw [hconfig]
        exact Config.maxLoad_le_heapSize text
      _ = t.arena.capacity := (h.sized id t ht).symm
  refine ⟨fun bytes vol' hfetch id t ht => ⟨⟨_, if_pos (hfit hfetch ht)⟩, ?_⟩, ?_⟩
  · exact Task.loadImage_of_le (hfit hfetch ht)
  · intro id e hload
    obtain ⟨bytes, vol', t, hfetch, ht, he⟩ := load_heapExhausted hload
    rw [Task.loadImage_of_le (hfit hfetch ht)] at he
    cases he

/-- Settings that ask for a load buffer larger than the heap, and a volume that understates sizes.
-/
theorem images_fit_understated : ∃ (k : Kernel) (vol : FaultyVolume MemoryVolume), Reachable k ∧
    k.phase? ⟨1⟩ = some .dormant ∧ vol.faults.sizeDelta = -1000 ∧
    k.config.heapSize = 1024 ∧ k.config.maxLoad = 1024 ∧
    ∀ id e, (k.load vol id "/big").value.1 ≠ .error (.heapExhausted e) := by
  let text := "heap_size=4\nmax_load=5000".toByteArray
  let k := ((new (.parse text)).create none).value.2
  let inner := MemoryVolume.empty.addFile "/big" (Image.build (zeros 2000))
  let vol : FaultyVolume MemoryVolume := ⟨inner, { Faults.none with sizeDelta := -1000 }, 0⟩
  have hk : Reachable k := .create (.new _) none (by decide +kernel)
  have hconfig : k.config = Config.parse text := rfl
  have hnever : ∀ id e, (k.load vol id "/big").value.1 ≠ .error (.heapExhausted e) :=
    (images_fit hk hconfig (FaultyVolume.moderate MemoryVolume.moderate) trivial "/big").2
  exact ⟨k, vol, hk, by decide +kernel, rfl, by decide +kernel, by decide +kernel, hnever⟩

end Kernel

end Coop
