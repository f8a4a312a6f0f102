import Coop.Proofs.Scheduler.Course

/-!
# Asking a task to park

A request to park is honoured when the task yields and when it wakes up, and it is kept while the
task sleeps. So a task that was asked to park gets control once more at most.

* `Scheduler.dispatchCount`: how often a task gets control in the course of a history;
* `Task.Held`, `Task.allowance`: a task that is parked or was asked to park, and how often it may
  still get control;
* **`Task.Held.turn`**, `Task.Held.effect`: one turn, and any call but a resumption;
* `Allows`, **`Allows.run`**: a history without a resumption, up to the end of the task;
* **`one_dispatch_before_parking`**.
-/

namespace Coop

/-! ## Counting dispatches -/

namespace Scheduler

variable {s : Scheduler} {u : TaskId}

/-- How often the task with number `u` gets control during a call. -/
def Action.dispatchCount (u : TaskId) (s : Scheduler) : Action → Nat
  | .tick => (s.dispatches.map Task.id).count u
  | _ => 0

/-- How often the task with number `u` gets control in the course of a history. -/
def dispatchCount (u : TaskId) : Scheduler → List Action → Nat
  | _, [] => 0
  | s, a :: as => a.dispatchCount u s + dispatchCount u (a.apply s) as

theorem Action.dispatchCount_of_ne_tick {a : Action} (h : a ≠ .tick) : a.dispatchCount u s = 0 := by
  cases a with
  | tick => exact absurd rfl h
  | spawn | remove | launch | resume | on => rfl

theorem dispatchCount_tick_of_find?_eq_none (hs : s.Partitioned) (h : s.find? u = none) :
    Action.tick.dispatchCount u s = 0 :=
  List.count_eq_zero.mpr (not_mem_ids_dispatches hs h)

theorem dispatchCount_tick (hs : s.Partitioned) {t : Task} (h : s.find? u = some t) :
    Action.tick.dispatchCount u s = if (t.given? s.clock.next).isSome then 1 else 0 := by
  have hn : (s.dispatches.map Task.id).Nodup := by
    rw [ids_dispatches hs]
    exact hs.roundStart.nodup_bucket .ready
  rw [Action.dispatchCount, hn.count]
  exact if_congr (mem_ids_dispatches_iff hs h) rfl rfl

end Scheduler

/-! ## Tasks that are held -/

namespace Task

variable {c : Clock} {t : Task} {u : TaskId}

/-- The task is parked, or runs and was asked to park. -/
structure Held (t : Task) : Prop where
  running : t.phase ≠ .dormant
  asked : t.phase = .suspended ∨ t.suspend = true

/-- How often a task that is held gets control at most before it is resumed or comes to its end. -/
def allowance (t : Task) : Nat := if t.phase = .ready then 1 else 0

theorem allowance_of_ne (h : t.phase ≠ .ready) : t.allowance = 0 := if_neg h

/-- **One turn of a task that is held.** It gets control only if it was ready, and it is not ready
afterwards: it came to its end, is parked, or sleeps and is still to be parked. -/
theorem Held.turn (h : t.Held) (c : Clock) :
    (if (t.given? c).isSome then 1 else 0) ≤ t.allowance ∧
    ((t.turn c).phase = .dormant ∨ (t.turn c).Held ∧ (t.turn c).allowance = 0) := by
  have hcourse := t.course c
  generalize t.given? c = d, t.turn c = t' at hcourse ⊢
  cases hcourse with
  | ended => exact ⟨Nat.zero_le _, .inl rfl⟩
  | dormant hp => exact absurd hp h.running
  | suspended hp | asleep hp =>
    exact ⟨Nat.zero_le _, .inr ⟨h, allowance_of_ne (by simp [hp])⟩⟩
  | parked _ _ _ hs =>
    have hp : t.awake.phase = .suspended := if_pos hs
    refine ⟨Nat.zero_le _, .inr ⟨⟨by simp [hp], .inl hp⟩, allowance_of_ne (by simp [hp])⟩⟩
  | @given d _ hp hd =>
    have hready : t.phase = .ready := by
      rcases hp with hp | ⟨hp, -, hs⟩
      · exact hp
      · rcases h.asked with ha | ha <;> simp_all
    have hasked : t.suspend = true := h.asked.resolve_left (by simp [hready])
    have hsuspend : d.step.task.suspend = true := by
      refine (congrArg Standing.suspend standing_step).trans ?_
      exact (congrArg Task.suspend hd).trans hasked
    refine ⟨by simp [allowance, hready], ?_⟩
    cases d.step.handback with
    | yield =>
      have hp : (d.step.task.settled c .yield).phase = .suspended := if_pos hsuspend
      exact .inr ⟨⟨by simp [hp], .inl hp⟩, allowance_of_ne (by simp [hp])⟩
    | sleep ms => exact .inr ⟨⟨nofun, .inr hsuspend⟩, allowance_of_ne nofun⟩
    | suspend => exact .inr ⟨⟨nofun, .inl rfl⟩, allowance_of_ne nofun⟩
    | done | fault => exact .inl rfl

/-- A call that is no turn does not free a task that is held, unless it resumes the task. -/
theorem Held.effect {a : Scheduler.Action} (h : t.Held) (ha : a ≠ .tick) (hr : a ≠ .resume u) :
    (a.effect c u t).Held ∧ (a.effect c u t).allowance = t.allowance := by
  have hst := standing_effect (c := c) (u := u) h.running ha
  have hphase : (a.effect c u t).phase = t.phase :=
    (congrArg Standing.phase hst).trans (a.phase_onStanding (.inr hr))
  refine ⟨⟨by rw [hphase]; exact h.running, ?_⟩, by rw [allowance, hphase, allowance]⟩
  rw [hphase]
  refine h.asked.imp_right fun hs => ?_
  by_cases hask : a = .on u .suspend
  · subst hask
    exact (congrArg Standing.suspend hst).trans (congrArg Standing.suspend (if_pos rfl))
  · exact ((congrArg Standing.suspend hst).trans (a.suspend_onStanding hask)).trans hs

end Task

/-! ## Histories -/

namespace Scheduler

variable {s : Scheduler} {u : TaskId} {t : Task}

/-- The task with number `u` is held and gets control `n` times at most, unless it came to its end.
-/
def Allows (u : TaskId) (n : Nat) (s : Scheduler) : Prop :=
  ∀ t, s.find? u = some t → t.phase = .dormant ∨ t.Held ∧ t.allowance ≤ n

theorem Allows.held {n : Nat} (h : s.Allows u n) (hd : s.phase? u ≠ some .dormant)
    (ht : s.find? u = some t) : t.Held ∧ t.allowance ≤ n :=
  (h t ht).resolve_left fun hp => hd ((phase?_eq_some_iff _ _ _).mpr ⟨t, ht, hp⟩)

/-- What one call uses up. -/
theorem Allows.dispatchCount_le {a : Action} {n : Nat} (h : s.Allows u n) (hs : s.Partitioned)
    (hd : s.phase? u ≠ some .dormant) :
    a.dispatchCount u s ≤ min n (if a = .tick then 1 else 0) := by
  by_cases htick : a = .tick
  · subst htick
    cases ht : s.find? u with
    | none =>
      rw [dispatchCount_tick_of_find?_eq_none hs ht]
      exact Nat.zero_le _
    | some t =>
      obtain ⟨hheld, hle⟩ := h.held hd ht
      rw [if_pos rfl, dispatchCount_tick hs ht]
      refine Nat.le_min.mpr ⟨Nat.le_trans (hheld.turn s.clock.next).1 hle, ?_⟩
      split_ifs <;> omega
  · rw [Action.dispatchCount_of_ne_tick htick]
    exact Nat.zero_le _

theorem Allows.apply {a : Action} {n : Nat} (h : s.Allows u n) (hs : s.Partitioned)
    (hd : s.phase? u ≠ some .dormant) (ha : a.Returns s) (hr : a ≠ .resume u) :
    (a.apply s).Allows u (n - if a = .tick then 1 else 0) := by
  intro t' ht'
  rcases find?_apply_inv hs ha ht' with ⟨t, ht, rfl⟩ | ⟨name, heapSize, priority, -, rfl⟩
  · obtain ⟨hheld, hle⟩ := h.held hd ht
    by_cases htick : a = .tick
    · subst htick
      refine (hheld.turn s.clock.next).2.imp_right fun ⟨hheld', hnone⟩ => ⟨hheld', ?_⟩
      exact Nat.le_trans (Nat.le_of_eq hnone) (Nat.zero_le _)
    · obtain ⟨hheld', hsame⟩ := hheld.effect (c := s.clock) htick hr
      rw [if_neg htick]
      exact .inr ⟨hheld', hsame ▸ hle⟩
  · exact .inl rfl

/-- **A task that is held gets control at most as often as it may**, up to its end and as long as it
is not resumed; and every turn uses up what it may. -/
theorem Allows.run {as : List Action} {n : Nat} (h : s.Allows u n) (hs : s.Partitioned)
    (ha : s.Returning as) (hr : .resume u ∉ as)
    (hd : ∀ i < as.length, (s.run (as.take i)).phase? u ≠ some .dormant) :
    s.dispatchCount u as ≤ n ∧ (s.run as).Allows u (n - as.count .tick) := by
  induction as generalizing s n with
  | nil => exact ⟨Nat.zero_le n, h⟩
  | cons a as ih =>
    obtain ⟨hreturns, ha⟩ := ha
    have hnow : s.phase? u ≠ some .dormant := hd 0 (Nat.succ_pos _)
    have hlater : ∀ i < as.length, ((a.apply s).run (as.take i)).phase? u ≠ some .dormant :=
      fun i hi => hd (i + 1) (Nat.succ_lt_succ hi)
    have hra : a ≠ .resume u := fun e => hr (e ▸ List.mem_cons_self)
    have hused := h.dispatchCount_le (a := a) hs hnow
    obtain ⟨hcount, hleft⟩ := ih (h.apply hs hnow hreturns hra) (hs.apply hreturns) ha
      (mt (List.mem_cons_of_mem a) hr) hlater
    have htick : n - (a :: as).count .tick =
        n - (if a = .tick then 1 else 0) - as.count .tick := by
      rw [List.count_cons, Nat.sub_sub, Nat.add_comm]
      simp
    refine ⟨?_, htick ▸ hleft⟩
    change a.dispatchCount u s + dispatchCount u (a.apply s) as ≤ n
    omega

/-- **A request to park costs at most one more dispatch.** Let a running task of a reachable
scheduler be asked to park, and let the history go on in any way, but without a resumption of the
task. Up to its end it gets control once at most, and not at all if it was not ready; and the
request is not lost: the task came to its end, is parked, or is still to be parked, and then it
sleeps, unless there was no turn yet. A suspended task does not get control at all. -/
theorem one_dispatch_before_parking (h : Reachable s) (ht : s.find? u = some t) :
    (t.requestSuspend.1 = true →
      let s₀ := (Action.on u .suspend).apply s
      ∀ as, s₀.Returning as → .resume u ∉ as →
        (∀ i < as.length, (s₀.run (as.take i)).phase? u ≠ some .dormant) →
        s₀.dispatchCount u as ≤ (if t.phase = .ready then 1 else 0) ∧
        ∀ t', (s₀.run as).find? u = some t' → t'.phase = .dormant ∨ t'.phase = .suspended ∨
          t'.suspend = true ∧ (t'.phase = .waiting ∨ t'.phase = .ready ∧ .tick ∉ as)) ∧
    (t.phase = .suspended →
      ∀ as, s.Returning as → .resume u ∉ as →
        (∀ i < as.length, (s.run (as.take i)).phase? u ≠ some .dormant) →
        s.dispatchCount u as = 0) := by
  have hs := h.partitioned
  constructor
  · intro hok s₀ as ha hr hd
    have hp : t.phase ≠ .dormant := by
      intro hp
      rw [Task.requestSuspend, if_pos hp] at hok
      cases hok
    have hfind : s₀.find? u = some { t with suspend := true } := by
      have hfind := find?_apply hs (a := .on u .suspend) trivial (by simp) ht
      rw [Action.effect, if_pos rfl, Task.Action.apply, Task.requestSuspend, if_neg hp] at hfind
      exact hfind
    have hallows : s₀.Allows u t.allowance := by
      intro t' ht'
      rw [hfind] at ht'
      cases ht'
      exact .inr ⟨⟨hp, .inr rfl⟩, Nat.le_refl _⟩
    obtain ⟨hcount, hend⟩ := hallows.run (hs.apply (a := .on u .suspend) trivial) ha hr hd
    refine ⟨hcount, fun t' ht' => (hend t' ht').imp_right ?_⟩
    rintro ⟨hheld, hle⟩
    cases hphase : t'.phase with
    | dormant => exact absurd hphase hheld.running
    | suspended => exact .inl rfl
    | waiting => exact .inr ⟨hheld.asked.resolve_left (by simp [hphase]), .inl rfl⟩
    | ready =>
      refine .inr ⟨hheld.asked.resolve_left (by simp [hphase]), .inr ⟨rfl, ?_⟩⟩
      -- a turn would have used up what the task may do
      have hone : t'.allowance = 1 := if_pos hphase
      have hmost : t.allowance ≤ 1 := by
        rw [Task.allowance]
        split_ifs <;> omega
      exact List.count_eq_zero.mp (by omega)
  · intro hp as ha hr hd
    have hallows : s.Allows u 0 := by
      intro t' ht'
      rw [ht] at ht'
      cases ht'
      have hnone : t.allowance = 0 := Task.allowance_of_ne (by simp [hp])
      exact .inr ⟨⟨by simp [hp], .inl hp⟩, Nat.le_of_eq hnone⟩
    exact Nat.le_zero.mp (hallows.run hs ha hr hd).1

/-- A task is asked to park before it gets control for the first time, and asks for a pause when it
does: it gets control once and is parked when it wakes up. Once it is parked it does not get control
any more. -/
theorem one_dispatch_before_parking_sleeper : ∃ s : Scheduler, Reachable s ∧
    s.phase? ⟨1⟩ = some .ready ∧
    let s₀ := (Action.on ⟨1⟩ .suspend).apply s
    [[], [.tick], [.tick, .tick, .tick]].map (fun as => (s₀.run as).phase? ⟨1⟩) =
      [some .ready, some .waiting, some .suspended] ∧
    s₀.dispatchCount ⟨1⟩ [.tick, .tick, .tick, .tick] = 1 ∧
    (s₀.run [.tick, .tick, .tick]).dispatchCount ⟨1⟩ [.tick, .launch ⟨1⟩, .tick] = 0 := by
  let as : List Action := [.spawn none 64 0,
    .on ⟨1⟩ (.mapImage (Image.build ((Instr.sleep 12).encode ++ Instr.pass.encode))), .launch ⟨1⟩]
  let s := (new 10 32).run as
  let s₀ := (Action.on ⟨1⟩ .suspend).apply s
  have h : Reachable s := .run (.new 10 32) as (by decide +kernel)
  have h₀ : Reachable (s₀.run [.tick, .tick, .tick]) :=
    .run (.act h (a := .on ⟨1⟩ .suspend) trivial) [.tick, .tick, .tick] (by decide +kernel)
  obtain ⟨t, ht, hp, hok⟩ : ∃ t, s.find? ⟨1⟩ = some t ∧ t.phase = .ready ∧
      t.requestSuspend.1 = true := by decide +kernel
  obtain ⟨t', ht', hp'⟩ : ∃ t', (s₀.run [.tick, .tick, .tick]).find? ⟨1⟩ = some t' ∧
      t'.phase = .suspended := by decide +kernel
  obtain ⟨hmost, -⟩ := (one_dispatch_before_parking h ht).1 hok [.tick, .tick, .tick, .tick]
    (by decide +kernel) (by decide +kernel) (by decide +kernel)
  rw [if_pos hp] at hmost
  have hleast : 1 ≤ s₀.dispatchCount ⟨1⟩ [.tick, .tick, .tick, .tick] := by decide +kernel
  refine ⟨s, h, (phase?_eq_some_iff _ _ _).mpr ⟨t, ht, hp⟩, by decide +kernel,
    Nat.le_antisymm hmost hleast, ?_⟩
  exact (one_dispatch_before_parking h₀ ht').2 hp' _ (by decide +kernel) (by decide +kernel)
    (by decide +kernel)

end Scheduler

end Coop
