import Coop.Proofs.Kernel.History
import Coop.Proofs.Machine.Heap
import Coop.Proofs.Scheduler.Effect

/-!
# The life of a task

The fields of a task say the same thing several times over: a running task has a program in
progress, an image that passed its check, no failure and nothing left of an older life.

* **`Task.Coherent`**: the invariant;
* `Coherent.of_dormant`, `Coherent.of_running`: the two kinds of coherent tasks;
* `Coherent.turn`, `Coherent.launched`, `Coherent.resumed`, `Coherent.exchange`: what happens to a
  task, with `Coherent.effect` for any call;
* `Supervised.coherent`: every task of a scheduler, as long as no running task loses its image;
* **`lifecycle`**: every task of every reachable kernel.
-/

namespace Coop

namespace Task

/-- **The invariant of a task.** -/
structure Coherent (t : Task) : Prop where
  /-- Only a running task has a program in progress. -/
  fiber : t.fiber.isSome = true ↔ t.phase ≠ .dormant
  image : t.phase ≠ .dormant → ∃ image body, t.image? = some image ∧ Image.body image = .ok body
  started : t.phase ≠ .dormant → t.started = true
  error : t.phase ≠ .dormant → t.error = none
  waiting : t.waitReason = .sleep ↔ t.phase = .waiting
  /-- No request outlives the program it was made of. -/
  requests : t.phase = .dormant → t.interrupt = false ∧ t.suspend = false
  refused : t.compileError ≠ none → t.image? = none
  heap : t.arena.Valid
  /-- There are no objects on the heap between two turns. -/
  level : t.arena.top = t.arena.imageLen

namespace Coherent

variable {t : Task}

theorem compileError_eq_none (h : t.Coherent) (hp : t.phase ≠ .dormant) :
    t.compileError = none := by
  obtain ⟨image, _, himage, -⟩ := h.image hp
  by_contra hc
  rw [h.refused hc] at himage
  cases himage

theorem of_dormant (hp : t.phase = .dormant) (hfiber : t.fiber = none)
    (hwait : t.waitReason = .nothing) (hi : t.interrupt = false) (hs : t.suspend = false)
    (hrefused : t.compileError ≠ none → t.image? = none) (heap : t.arena.Valid)
    (level : t.arena.top = t.arena.imageLen) : t.Coherent where
  fiber := by simp [hfiber, hp]
  image h := absurd hp h
  started h := absurd hp h
  error h := absurd hp h
  waiting := by simp [hwait, hp]
  requests _ := ⟨hi, hs⟩
  refused := hrefused
  heap := heap
  level := level

theorem of_running {u : Task} (h : t.Coherent) (ht : t.phase ≠ .dormant) (hu : u.phase ≠ .dormant)
    (hfiber : u.fiber.isSome = true) (hcode : u.code = t.code) (hstarted : u.started = t.started)
    (herror : u.error = t.error) (hcompile : u.compileError = t.compileError)
    (hwait : u.waitReason = .sleep ↔ u.phase = .waiting) (harena : t.arena.Kept u.arena) :
    u.Coherent := by
  have himage : u.image? = t.image? := by
    rw [image?, image?, hcode, harena.image]
  refine ⟨iff_of_true hfiber hu, fun _ => ?_, fun _ => ?_, fun _ => ?_, hwait,
    fun hp => absurd hp hu, ?_, harena.valid, ?_⟩
  · rw [himage]
    exact h.image ht
  · rw [hstarted]
    exact h.started ht
  · rw [herror]
    exact h.error ht
  · rw [hcompile, himage]
    exact h.refused
  · rw [harena.top, harena.imageLen, h.level]

/-! ## Turns -/

theorem ended (h : t.Coherent) (e : Option Fault) :
    Coherent { t.finish e with phase := .dormant } :=
  of_dormant rfl rfl rfl rfl rfl h.refused h.heap.release rfl

theorem interrupted (h : t.Coherent) : t.interrupted.Coherent := by
  unfold Task.interrupted
  split_ifs
  · exact h.ended none
  · exact h

theorem woken (h : t.Coherent) (c : Clock) : (t.woken c).Coherent := by
  unfold Task.woken
  split_ifs with hw
  · have ht : t.phase ≠ .dormant := by simp [hw.1]
    refine h.of_running ht ?_ (h.fiber.mpr ht) rfl rfl rfl rfl ?_ (.refl h.heap)
    · change (if t.suspend then Phase.suspended else Phase.ready) ≠ _
      split_ifs <;> simp
    · change WaitReason.nothing = _ ↔ (if t.suspend then Phase.suspended else Phase.ready) = _
      split_ifs <;> simp
  · exact h

theorem slice (h : t.Coherent) (hp : t.phase = .ready) (c : Clock) :
    (t.slice c).task.Coherent ∧ (t.slice c).task.phase = .ready := by
  have ht : t.phase ≠ .dormant := by simp [hp]
  obtain ⟨image, body, himage, -⟩ := h.image ht
  obtain ⟨fiber, hfiber⟩ := Option.isSome_iff_exists.mp (h.fiber.mpr ht)
  have himage' : Task.image? { t with timeslice := c.timeslice } = some image := himage
  have hslice : (t.slice c).task =
      { t with
        fiber := some ⟨(runImage image c.timeslice ⟨fiber.pc, t.arena, ""⟩).machine.pc⟩
        arena := (runImage image c.timeslice ⟨fiber.pc, t.arena, ""⟩).machine.arena
        timeslice := (runImage image c.timeslice ⟨fiber.pc, t.arena, ""⟩).budget } := by
    rw [Task.slice, step, himage', hfiber]
  refine ⟨h.of_running ht ?_ ?_ ?_ ?_ ?_ ?_ ?_ ?_, ?_⟩
  all_goals rw [hslice]
  · exact ht
  · rfl
  · exact h.waiting
  · exact Machine.kept_runImage (m := ⟨fiber.pc, t.arena, ""⟩) h.heap image c.timeslice
  · exact hp

theorem settled (h : t.Coherent) (hp : t.phase = .ready) (c : Clock) (hb : Handback) :
    (t.settled c hb).Coherent := by
  have ht : t.phase ≠ .dormant := by simp [hp]
  have hw : t.waitReason ≠ .sleep := by simp [h.waiting, hp]
  have hfiber := h.fiber.mpr ht
  cases hb with
  | yield =>
    refine h.of_running ht ?_ hfiber rfl rfl rfl rfl ?_ (.refl h.heap)
    · change (if t.suspend then Phase.suspended else Phase.ready) ≠ _
      split_ifs <;> simp
    · change t.waitReason = _ ↔ (if t.suspend then Phase.suspended else Phase.ready) = _
      split_ifs <;> simp [hw]
  | sleep ms =>
    exact h.of_running ht (by simp [Task.settled]) hfiber rfl rfl rfl rfl (by simp [Task.settled])
      (.refl h.heap)
  | suspend =>
    exact h.of_running ht (by simp [Task.settled]) hfiber rfl rfl rfl rfl
      (by simp [Task.settled, hw]) (.refl h.heap)
  | done => exact h.ended none
  | fault e => exact h.ended (some e)

theorem turn (h : t.Coherent) (c : Clock) : (t.turn c).Coherent := by
  have hw := h.interrupted.woken c
  unfold Task.turn dispatched
  split_ifs with hp
  · obtain ⟨hs, hsp⟩ := hw.slice hp c
    exact hs.settled hsp c _
  · exact hw

/-! ## Calls -/

theorem new (id : TaskId) (name : Option String) (heapSize : Nat) (priority : UInt8) :
    (Task.new id name heapSize priority).Coherent :=
  of_dormant rfl rfl rfl rfl rfl (fun h => absurd rfl h) (.new heapSize) rfl

theorem launched (h : t.Coherent) : t.launched.Coherent := by
  rw [launched_eq]
  split_ifs with hp
  · cases himage : t.image? with
    | none => exact h
    | some image =>
      dsimp only
      cases hbody : Image.body image with
      | ok body =>
        exact ⟨by simp, fun _ => ⟨image, body, himage, hbody⟩, fun _ => rfl, fun _ => rfl, by simp,
          by simp, h.refused, h.heap, h.level⟩
      | error e =>
        exact ⟨h.fiber, h.image, h.started, fun hne => absurd hp hne, h.waiting, h.requests,
          h.refused, h.heap, h.level⟩
  · exact h

theorem resumed (h : t.Coherent) : t.resumed.Coherent := by
  unfold Task.resumed
  split_ifs with hp
  · have ht : t.phase ≠ .dormant := by simp [hp]
    have hw : t.waitReason ≠ .sleep := by simp [h.waiting, hp]
    exact h.of_running ht (by simp) (h.fiber.mpr ht) rfl rfl rfl rfl (by simp [hw]) (.refl h.heap)
  · exact h

theorem exchange (h : t.Coherent) (hp : t.phase = .dormant) {code : Code} {arena : Arena}
    {e : Option CompileError} (he : e ≠ none → code = .absent) (heap : arena.Valid)
    (level : arena.top = arena.imageLen) :
    Coherent { t.dropImage with arena := arena, code := code, compileError := e } := by
  have hfiber : t.fiber = none := by
    rw [← Option.not_isSome_iff_eq_none, h.fiber]
    exact fun hne => hne hp
  have hwait : t.waitReason = .nothing := by
    cases hw : t.waitReason with
    | nothing => rfl
    | sleep => simp [h.waiting.mp hw] at hp
  refine of_dormant hp hfiber hwait (h.requests hp).1 (h.requests hp).2 (fun hne => ?_) heap level
  rw [image?, he hne]

theorem dropImage (h : t.Coherent) (hp : t.phase = .dormant) : t.dropImage.Coherent :=
  h.exchange hp (fun hne => absurd rfl hne) h.heap.clear rfl

theorem compile (h : t.Coherent) (source : String) : (t.compile source).value.2.Coherent := by
  rw [value_compile]
  split_ifs with hp
  · cases Coop.compile source with
    | error e => exact h.exchange hp (fun _ => rfl) h.heap.clear rfl
    | ok image =>
      dsimp only
      cases hs : t.arena.clear.storeImage image with
      | error e => exact h.exchange hp (fun _ => rfl) h.heap.clear rfl
      | ok arena =>
        exact h.exchange hp (fun hne => absurd rfl hne) (h.heap.clear.storeImage hs)
          (Arena.level_storeImage hs)
  · exact h

theorem loadImage (h : t.Coherent) (hp : t.phase = .dormant) (bytes : ByteArray) :
    (t.loadImage bytes).2.Coherent := by
  unfold Task.loadImage
  dsimp only
  cases hs : t.dropImage.arena.storeImage bytes with
  | error e => exact h.dropImage hp
  | ok arena =>
    exact h.exchange hp (fun hne => absurd rfl hne) (h.heap.clear.storeImage hs)
      (Arena.level_storeImage hs)

theorem mapImage (h : t.Coherent) (hp : t.phase = .dormant) (bytes : ByteArray) :
    (t.mapImage bytes).Coherent :=
  h.exchange hp (fun hne => absurd rfl hne) h.heap.clear rfl

theorem requestInterrupt (h : t.Coherent) : t.requestInterrupt.value.2.Coherent := by
  unfold Task.requestInterrupt
  by_cases hp : t.phase = .dormant
  · rw [if_pos hp]
    exact h
  · rw [if_neg hp]
    exact h.of_running hp hp (h.fiber.mpr hp) rfl rfl rfl rfl h.waiting (.refl h.heap)

theorem requestSuspend (h : t.Coherent) : t.requestSuspend.2.Coherent := by
  unfold Task.requestSuspend
  by_cases hp : t.phase = .dormant
  · rw [if_pos hp]
    exact h
  · rw [if_neg hp]
    exact h.of_running hp hp (h.fiber.mpr hp) rfl rfl rfl rfl h.waiting (.refl h.heap)

theorem setPriority (h : t.Coherent) (priority : UInt8) : (t.setPriority priority).Coherent :=
  ⟨h.fiber, h.image, h.started, h.error, h.waiting, h.requests, h.refused, h.heap, h.level⟩

open Scheduler in
/-- **Every call keeps the invariant of every task**, if it leaves running tasks their images. -/
theorem effect {s : Scheduler} {u : TaskId} (h : t.Coherent) (hf : s.find? u = some t)
    {a : Scheduler.Action} (ha : a.KeepsImages s) : (a.effect s.clock u t).Coherent := by
  cases a with
  | spawn | remove => exact h
  | tick => exact h.turn _
  | launch id =>
    rw [Action.effect]
    split_ifs
    · exact h.launched
    · exact h
  | resume id =>
    rw [Action.effect]
    split_ifs
    · exact h.resumed
    · exact h
  | on id a =>
    rw [Action.effect]
    split_ifs with hid
    · subst hid
      cases a with
      | compile source => exact h.compile source
      | loadImage bytes => exact h.loadImage (ha t hf) bytes
      | mapImage bytes => exact h.mapImage (ha t hf) bytes
      | setPriority priority => exact h.setPriority priority
      | interrupt => exact h.requestInterrupt
      | suspend => exact h.requestSuspend
    · exact h

end Coherent

end Task

/-! ## Every task of a scheduler -/

theorem Scheduler.Supervised.coherent {s : Scheduler} (h : Supervised s) :
    ∀ t ∈ s.tasks, t.Coherent := by
  induction h with
  | new tickMs timeslice =>
    intro t ht
    cases ht
  | @act s a hs ha ih =>
    intro t ht
    have hpart := (Supervised.reachable hs).partitioned
    have hfind := ((hpart.apply ha.1).find?_eq_some_iff t.id t).mpr ⟨ht, rfl⟩
    rcases find?_apply_inv hpart ha.1 hfind with ⟨u, hu, heq⟩ | ⟨name, heapSize, priority, -, heq⟩
    · rw [heq]
      exact (ih u (mem_of_find? hu)).effect hu ha.2
    · rw [heq]
      exact .new _ name heapSize priority

namespace Kernel

/-- **The life of a task.** In every reachable kernel and for every live task: it has a program in
progress exactly if it is not dormant; then it has an image that passes its check, was started, and
has no failure and no refused script; it waits for a sleep to end exactly if it is waiting; no
request is pending if it is dormant; a refused script leaves no image behind; and nothing is on the
heap but the image. -/
theorem lifecycle {k : Kernel} (h : Reachable k) : ∀ t ∈ k.scheduler.tasks,
    (t.fiber.isSome = true ↔ t.phase ≠ .dormant) ∧
    (t.phase ≠ .dormant →
      (∃ image body, t.image? = some image ∧ Image.body image = .ok body) ∧
      t.started = true ∧ t.error = none ∧ t.compileError = none) ∧
    (t.waitReason = .sleep ↔ t.phase = .waiting) ∧
    (t.phase = .dormant → t.interrupt = false ∧ t.suspend = false) ∧
    (t.compileError ≠ none → t.image? = none) ∧
    t.arena.used = t.arena.image.size := by
  intro t ht
  have hc := h.supervised.coherent t ht
  refine ⟨hc.fiber, fun hp => ?_, hc.waiting, hc.requests, hc.refused, ?_⟩
  · exact ⟨hc.image hp, hc.started hp, hc.error hp, hc.compileError_eq_none hp⟩
  · rw [Arena.size_image hc.heap]
    exact hc.level

/-- A task that was compiled and executed, and went to sleep in its first turn. -/
theorem lifecycle_sleeper : ∃ k : Kernel, Reachable k ∧ ∃ t ∈ k.scheduler.tasks,
    t.phase = .waiting ∧ t.waitReason = .sleep ∧ t.arena.used = t.arena.image.size := by
  have hsleeper {k : Kernel} (h : Reachable k) (hw : ∃ t ∈ k.scheduler.tasks, t.phase = .waiting) :
      ∃ t ∈ k.scheduler.tasks,
        t.phase = .waiting ∧ t.waitReason = .sleep ∧ t.arena.used = t.arena.image.size := by
    obtain ⟨t, ht, hp⟩ := hw
    obtain ⟨-, -, hsleep, -, -, hused⟩ := lifecycle h t ht
    exact ⟨t, ht, hp, hsleep.mpr hp, hused⟩
  have h₁ := (Reachable.new { Config.default with heapSize := 32, timeslice := 2 }).create none
    (by decide +kernel)
  have h₂ := ((h₁.compile ⟨1⟩ "sleep_ms 20").execute ⟨1⟩).tick
  exact ⟨_, h₂, hsleeper h₂ (by decide +kernel)⟩

end Kernel

end Coop
