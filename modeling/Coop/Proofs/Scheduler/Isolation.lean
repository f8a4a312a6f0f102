import Coop.Proofs.Scheduler.Effect

/-!
# Isolation of tasks

A task is not reached by what the other tasks do. Two schedulers that agree on a task and on the
clock may differ in everything else, and still the task has the same future in both.

* `Action.concerns`: the calls that a task can notice;
* `AgreeOn`: two schedulers agree on a task;
* `story`: what becomes of a task in the course of a history, and what it writes;
* `solo`, `story_eq`: the same from the task alone;
* **`isolation`**: a turn, any other call, and whole histories.
-/

namespace Coop

namespace Scheduler

namespace Action

/-- The call is a turn, or is addressed to the task with number `u`. -/
def concerns (u : TaskId) : Action → Bool
  | spawn _ _ _ => false
  | tick => true
  | remove id | launch id | resume id | on id _ => id = u

/-- What the task with number `u` writes during a call. -/
def textOf (u : TaskId) (s : Scheduler) : Action → String
  | tick => s.textOf u
  | _ => ""

variable {u : TaskId} {a : Action}

theorem effect_of_not_concerns (h : a.concerns u = false) (c : Clock) (t : Task) :
    a.effect c u t = t := by
  cases a with
  | spawn | remove => rfl
  | tick => cases h
  | launch id | resume id | on id => exact if_neg (of_decide_eq_false h)

theorem clockAfter_of_not_concerns (h : a.concerns u = false) (c : Clock) : a.clockAfter c = c := by
  cases a with
  | tick => cases h
  | spawn | remove | launch | resume | on => rfl

theorem ne_remove_of_not_concerns (h : a.concerns u = false) : a ≠ .remove u := by
  rintro rfl
  exact of_decide_eq_false h rfl

end Action

/-- Two schedulers agree on a live task and on the clock. -/
structure AgreeOn (u : TaskId) (s₁ s₂ : Scheduler) : Prop where
  clock : s₁.clock = s₂.clock
  task : s₁.find? u = s₂.find? u
  live : (s₁.find? u).isSome = true

instance (u : TaskId) (s₁ s₂ : Scheduler) : Decidable (AgreeOn u s₁ s₂) :=
  decidable_of_iff (s₁.clock = s₂.clock ∧ s₁.find? u = s₂.find? u ∧ (s₁.find? u).isSome = true)
    ⟨fun ⟨hc, ht, hl⟩ => ⟨hc, ht, hl⟩, fun ⟨hc, ht, hl⟩ => ⟨hc, ht, hl⟩⟩

/-- What becomes of a task in the course of a history: for each call that concerns it, the task
after the call and what it wrote. The story ends when the task is removed. -/
def story (u : TaskId) : Scheduler → List Action → List (Option Task × String)
  | _, [] => []
  | s, a :: as =>
    if a = .remove u then [(none, "")]
    else if a.concerns u then ((a.apply s).find? u, a.textOf u s) :: story u (a.apply s) as
    else story u (a.apply s) as

/-- The story of a task that is alone with the clock. -/
def solo (u : TaskId) : Clock → Task → List Action → List (Option Task × String)
  | _, _, [] => []
  | c, t, a :: as =>
    if a = .remove u then [(none, "")]
    else
      let text := if a = .tick then t.turnText c.next else ""
      (some (a.effect c u t), text) :: solo u (a.clockAfter c) (a.effect c u t) as

variable {s : Scheduler} {u : TaskId}

theorem textOf_action (hs : s.Partitioned) {t : Task} (h : s.find? u = some t) (a : Action) :
    a.textOf u s = if a = .tick then t.turnText s.clock.next else "" := by
  cases a with
  | tick =>
    change s.textOf u = _
    rw [textOf_eq hs, h]
    rfl
  | spawn | remove | launch | resume | on => rfl

/-- **A task has the story it would have alone.** -/
theorem story_eq {as : List Action} {t : Task} (hs : s.Partitioned) (h : s.find? u = some t)
    (ha : s.Returning as) : s.story u as = solo u s.clock t (as.filter (Action.concerns u)) := by
  induction as generalizing s t with
  | nil => rfl
  | cons a as ih =>
    obtain ⟨ha, has⟩ := ha
    by_cases hr : a = .remove u
    · subst hr
      have hc : (Action.remove u).concerns u = true := decide_eq_true rfl
      rw [story, if_pos rfl, List.filter_cons_of_pos hc, solo, if_pos rfl]
    · have hfind := find?_apply hs ha hr h
      have hrest := ih (hs.apply ha) hfind has
      rw [clock_apply] at hrest
      rw [story, if_neg hr]
      by_cases hc : a.concerns u = true
      · rw [if_pos hc, List.filter_cons_of_pos hc, solo, if_neg hr, hfind,
          textOf_action hs h, hrest]
      · have hc' : a.concerns u = false := by simpa using hc
        rw [if_neg hc, List.filter_cons_of_neg hc, hrest, a.effect_of_not_concerns hc',
          a.clockAfter_of_not_concerns hc']

namespace AgreeOn

variable {s₁ s₂ : Scheduler}

theorem exists_task (h : AgreeOn u s₁ s₂) : ∃ t, s₁.find? u = some t ∧ s₂.find? u = some t := by
  obtain ⟨t, ht⟩ := Option.isSome_iff_exists.mp h.live
  exact ⟨t, ht, h.task ▸ ht⟩

theorem runTick (h : AgreeOn u s₁ s₂) (h₁ : s₁.Partitioned) (h₂ : s₂.Partitioned) :
    AgreeOn u s₁.runTick.value.scheduler s₂.runTick.value.scheduler := by
  refine ⟨?_, ?_, ?_⟩
  · rw [clock_runTick, clock_runTick, h.clock]
  · rw [find?_runTick h₁, find?_runTick h₂, h.task, h.clock]
  · rw [find?_runTick h₁, Option.isSome_map, h.live]

theorem textOf (h : AgreeOn u s₁ s₂) (h₁ : s₁.Partitioned) (h₂ : s₂.Partitioned) :
    s₁.textOf u = s₂.textOf u := by
  rw [textOf_eq h₁, textOf_eq h₂, h.task, h.clock]

theorem apply {t : Task} (hs : s.Partitioned) (h : s.find? u = some t) {a : Action}
    (ha : a.Returns s) (hc : a.concerns u = false) : AgreeOn u (a.apply s) s := by
  have hfind := find?_apply hs ha (a.ne_remove_of_not_concerns hc) h
  rw [a.effect_of_not_concerns hc] at hfind
  refine ⟨?_, hfind.trans h.symm, ?_⟩
  · rw [clock_apply, a.clockAfter_of_not_concerns hc]
  · rw [hfind, Option.isSome_some]

end AgreeOn

/-- **Isolation.** Take two reachable schedulers that agree on a live task and on the clock. After a
turn they agree on it again, and it wrote the same in both. A call that is addressed to another task
leaves it as it is. And in histories with the same turns and the same calls on the task, whatever
else happens in them, the same becomes of it. -/
theorem isolation {s₁ s₂ : Scheduler} (h₁ : Reachable s₁) (h₂ : Reachable s₂)
    (h : AgreeOn u s₁ s₂) :
    AgreeOn u s₁.runTick.value.scheduler s₂.runTick.value.scheduler ∧
    s₁.textOf u = s₂.textOf u ∧
    (∀ a : Action, a.concerns u = false → a.Returns s₁ → AgreeOn u (a.apply s₁) s₁) ∧
    ∀ as₁ as₂ : List Action, s₁.Returning as₁ → s₂.Returning as₂ →
      as₁.filter (Action.concerns u) = as₂.filter (Action.concerns u) →
      s₁.story u as₁ = s₂.story u as₂ := by
  have hs₁ := h₁.partitioned
  have hs₂ := h₂.partitioned
  obtain ⟨t, ht₁, ht₂⟩ := h.exists_task
  refine ⟨h.runTick hs₁ hs₂, h.textOf hs₁ hs₂, fun a hc ha => .apply hs₁ ht₁ ha hc, ?_⟩
  intro as₁ as₂ ha₁ ha₂ hf
  rw [story_eq hs₁ ht₁ ha₁, story_eq hs₂ ht₂ ha₂, h.clock, hf]

/-- The task with number 1 prints a line in every turn, alone and next to a sleeper that was
launched first. -/
theorem isolation_next_to_sleeper : ∃ s₁ s₂ : Scheduler, Reachable s₁ ∧ Reachable s₂ ∧
    AgreeOn ⟨1⟩ s₁ s₂ ∧ s₁.buckets.ready = [⟨1⟩] ∧ s₂.buckets.ready = [⟨2⟩, ⟨1⟩] ∧
    s₁.textOf ⟨1⟩ = "\n" ∧ s₁.textOf ⟨1⟩ = s₂.textOf ⟨1⟩ := by
  let image := Image.build ((Instr.puts .empty).encode ++ Instr.pass.encode)
  let as₁ : List Action := [.spawn none 64 0, .on ⟨1⟩ (.mapImage image), .launch ⟨1⟩]
  let as₂ : List Action := [.spawn none 64 0, .on ⟨1⟩ (.mapImage image), .spawn none 16 0,
    .on ⟨2⟩ (.mapImage (Image.build (Instr.sleep 20).encode)), .launch ⟨2⟩, .launch ⟨1⟩]
  have h₁ := Reachable.run (.new 10 5) as₁ (by decide +kernel)
  have h₂ := Reachable.run (.new 10 5) as₂ (by decide +kernel)
  have h : AgreeOn ⟨1⟩ ((new 10 5).run as₁) ((new 10 5).run as₂) := by decide +kernel
  exact ⟨_, _, h₁, h₂, h, by decide +kernel, by decide +kernel, by decide +kernel,
    (isolation h₁ h₂ h).2.1⟩

end Scheduler

end Coop
