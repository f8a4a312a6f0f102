import Coop.Proofs.Scheduler.Course
import Mathlib.Algebra.Order.Floor.Div

/-!
# Sleeping to the tick

A sleeper is woken in the tick it asked for, whatever else happens meanwhile, unless it is asked to
stop.

* `Instr.fits_of_decode`, `Task.pause_lt`: a program cannot ask for more than 32 bits of
  milliseconds;
* `Task.Dated`, `Reachable.dated`: the time a sleeper is due is ahead, and not too far;
* `wakeupTick?_eq_some_iff`: the earliest of these times;
* `Task.Asleep`: a sleeper that is due in a certain tick, with `Asleep.turn`, `Asleep.turn_of_due`
  and `Asleep.effect` for turns and calls;
* `Unbroken`, `asleep_run`: a stretch of history in which nobody asks the task to stop;
* **`sleep_is_exact`**.
-/

namespace Coop

/-! ## How long a program can ask to sleep -/

namespace Instr

theorem size_textAt? {body text : ByteArray} {i : Nat} (h : textAt? body i = some text) :
    text.size < 0x10000 := by
  unfold textAt? at h
  cases hlen : be16At? body i with
  | none => simp [hlen] at h
  | some len =>
    have hslice : slice? body (i + 2) len = some text := by simpa [hlen] using h
    unfold slice? at hslice
    split_ifs at hslice
    cases hslice
    have := be16At?_lt hlen
    rw [ByteArray.size_extract]
    omega

theorem fits_of_withOperand {α : Type} {pc : Nat} {o : Option α} {make : α → Instr} {i : Instr}
    (h : withOperand pc o make = .ok (some i)) (hfits : ∀ x, o = some x → (make x).Fits) :
    i.Fits := by
  cases o with
  | none => cases h
  | some x =>
    cases h
    exact hfits x rfl

theorem fits_of_decode {body : ByteArray} {pc : Nat} {i : Instr}
    (h : decode body pc = .ok (some i)) : i.Fits := by
  unfold decode at h
  cases hop : byteAt? body pc with
  | none => simp [hop] at h
  | some op =>
    simp only [hop] at h
    split_ifs at h
    · cases h; trivial
    · exact fits_of_withOperand h fun text ht => size_textAt? ht
    · exact fits_of_withOperand h fun n hn => be32At?_lt hn
    · cases h; trivial
    · cases h; trivial
    · exact fits_of_withOperand h fun n hn => be32At?_lt hn
    · exact fits_of_withOperand h fun text ht => size_textAt? ht

end Instr

namespace Machine

variable {body : ByteArray} {m m' : Machine} {ms : Nat}

theorem pause_of_execute (h : m.execute body = .back (.sleep ms) m') : ms < 0x100000000 := by
  unfold execute at h
  cases hdecode : Instr.decode body m.pc with
  | error e => simp [hdecode] at h
  | ok o =>
    cases o with
    | none => simp [hdecode] at h
    | some i =>
      simp only [hdecode] at h
      cases i with
      | sleep n =>
        have hfits := Instr.fits_of_decode hdecode
        cases h
        exact hfits
      | puts text =>
        dsimp only [print] at h
        split at h <;> cases h
      | stop | pass | suspend | jump | raise => cases h

theorem pause_of_run (budget : Nat) (h : (m.run body budget).handback = .sleep ms) :
    ms < 0x100000000 := by
  induction budget generalizing m with
  | zero => cases h
  | succ budget ih =>
    rw [run_succ] at h
    cases hm : m.execute body with
    | next m' =>
      rw [hm] at h
      exact ih h
    | back hb m' =>
      simp only [hm] at h
      rw [h] at hm
      exact pause_of_execute hm

end Machine

namespace Task

variable {c : Clock} {t d : Task} {due ms : Nat}

theorem pause_lt (h : t.step.handback = .sleep ms) : ms < 0x100000000 := by
  unfold step at h
  split at h
  · rename_i fiber image _ _
    dsimp only [runImage] at h
    cases hbody : Image.body image with
    | error e => simp [hbody] at h
    | ok body =>
      simp only [hbody] at h
      exact Machine.pause_of_run t.timeslice h
  · cases h

/-! ## When sleepers are due -/

/-- A sleeper is due after the tick the clock shows, but less than 2³² ticks later. -/
def Dated (c : Clock) (t : Task) : Prop :=
  t.phase = .waiting → c.tick < t.wakeupTick ∧ t.wakeupTick < c.tick + 2 ^ 32

theorem Dated.settled {hb : Handback} (hpause : ∀ ms, hb = .sleep ms → ms < 0x100000000) :
    (t.settled c hb).Dated c := by
  intro hp
  cases hb with
  | yield =>
    have hphase : (if t.suspend then Phase.suspended else Phase.ready) = .waiting := hp
    split_ifs at hphase
  | sleep ms =>
    have hms := hpause ms rfl
    have hle : ms ⌈/⌉ c.tickMs ≤ ms := by
      rcases Nat.eq_zero_or_pos c.tickMs with hz | hpos
      · rw [hz, ceilDiv_zero]
        exact Nat.zero_le ms
      · exact (ceilDiv_le_iff_le_mul hpos).mpr (Nat.le_mul_of_pos_left ms hpos)
    change c.tick < c.tick + max 1 (ms ⌈/⌉ c.tickMs) ∧
      c.tick + max 1 (ms ⌈/⌉ c.tickMs) < c.tick + 2 ^ 32
    omega
  | suspend | done | fault => cases hp

theorem Dated.turn (h : t.Dated c) : (t.turn c.next).Dated c.next := by
  have hcourse := t.course c.next
  generalize t.given? c.next = d, t.turn c.next = t' at hcourse ⊢
  cases hcourse with
  | ended => exact nofun
  | dormant hp | suspended hp => simp [Dated, hp]
  | asleep hp _ hw =>
    intro _
    have hlt := (h hp).2
    have htick : c.next.tick = c.tick + 1 := rfl
    omega
  | parked _ _ _ hs =>
    intro hp
    have hphase : t.awake.phase = .suspended := if_pos hs
    rw [hphase] at hp
    cases hp
  | given => exact .settled fun ms hms => pause_lt hms

theorem Dated.effect {u : TaskId} {a : Scheduler.Action} (h : t.Dated c) (ha : a ≠ .tick) :
    (a.effect c u t).Dated c := by
  intro hp
  have hwaiting : t.phase = .waiting := by
    rcases t.phase_effect (c := c) (u := u) ha with hsame | hready
    · rw [← hsame, hp]
    · rw [hready] at hp
      cases hp
  have hrunning : t.phase ≠ .dormant := by simp [hwaiting]
  have hsame : (a.effect c u t).wakeupTick = t.wakeupTick :=
    (congrArg Standing.wakeupTick (standing_effect hrunning ha)).trans a.wakeupTick_onStanding
  rw [hsame]
  exact h hwaiting

/-! ## Sleeping through -/

/-- The task sleeps until the tick `due`, and was not asked to stop. -/
structure Asleep (due : Nat) (t : Task) : Prop where
  phase : t.phase = .waiting
  interrupt : t.interrupt = false
  wakeupTick : t.wakeupTick = due

theorem Asleep.running (h : t.Asleep due) : t.phase ≠ .dormant := by simp [h.phase]

/-- Until its time has come, a sleeper is left alone. -/
theorem Asleep.turn (h : t.Asleep due) (hc : c.tick < due) :
    t.given? c = none ∧ t.turn c = t := by
  have hcourse := t.course c
  generalize t.given? c = d, t.turn c = t' at hcourse ⊢
  cases hcourse with
  | ended _ hi => simp [h.interrupt] at hi
  | dormant | suspended | asleep => exact ⟨rfl, rfl⟩
  | parked _ _ hw _ =>
    rw [h.wakeupTick] at hw
    omega
  | given _ hp =>
    rcases hp with hp | ⟨-, hw, -⟩
    · simp [h.phase] at hp
    · rw [h.wakeupTick] at hw
      omega

/-- When its time has come, a sleeper gets control, or is parked if that was asked of it. -/
theorem Asleep.turn_of_due (h : t.Asleep due) (hc : c.tick = due) :
    (t.suspend = false → (t.given? c).isSome = true) ∧
    (t.suspend = true → t.given? c = none ∧ (t.turn c).phase = .suspended) := by
  have hcourse := t.course c
  generalize t.given? c = d, t.turn c = t' at hcourse ⊢
  cases hcourse with
  | ended _ hi => simp [h.interrupt] at hi
  | dormant hp | suspended hp => simp [h.phase] at hp
  | asleep _ _ hw =>
    rw [h.wakeupTick] at hw
    omega
  | parked _ _ _ hs => exact ⟨fun hn => by simp [hs] at hn, fun _ => ⟨rfl, if_pos hs⟩⟩
  | given _ hp =>
    refine ⟨fun _ => rfl, fun hs => ?_⟩
    rcases hp with hp | ⟨-, -, hn⟩
    · simp [h.phase] at hp
    · simp [hs] at hn

theorem Asleep.effect {u : TaskId} {a : Scheduler.Action} (h : t.Asleep due) (ha : a ≠ .tick)
    (hi : a ≠ .on u .interrupt) : (a.effect c u t).Asleep due := by
  have hst := standing_effect (c := c) (u := u) h.running ha
  refine ⟨?_, ?_, ?_⟩
  · refine (congrArg Standing.phase hst).trans ?_
    rw [a.phase_onStanding (.inl (by simp [standing, h.phase]))]
    exact h.phase
  · refine (congrArg Standing.interrupt hst).trans ?_
    rw [a.interrupt_onStanding hi]
    exact h.interrupt
  · refine (congrArg Standing.wakeupTick hst).trans ?_
    rw [a.wakeupTick_onStanding]
    exact h.wakeupTick

/-- A task that asked for a pause sleeps for as many ticks as the pause takes, and for one at
least. -/
theorem asleep_settled (hi : d.interrupt = false) (h : d.step.handback = .sleep ms) :
    (d.step.task.settled c d.step.handback).Asleep (c.tick + max 1 (ms ⌈/⌉ c.tickMs)) := by
  rw [h]
  refine ⟨rfl, ?_, rfl⟩
  exact (congrArg Standing.interrupt standing_step).trans hi

end Task

namespace Scheduler

variable {s : Scheduler} {u : TaskId} {due : Nat}

theorem Reachable.dated (h : Reachable s) : ∀ t ∈ s.tasks, t.Dated s.clock := by
  induction h with
  | new tickMs timeslice =>
    intro t ht
    cases ht
  | @act s a hs ha ih =>
    intro t ht
    have hpart := Reachable.partitioned hs
    have hfind := ((hpart.apply ha).find?_eq_some_iff t.id t).mpr ⟨ht, rfl⟩
    rw [clock_apply]
    rcases find?_apply_inv hpart ha hfind with ⟨u, hu, heq⟩ | ⟨name, heapSize, priority, -, heq⟩
    · have hdated := ih u (mem_of_find? hu)
      rw [heq]
      by_cases htick : a = .tick
      · subst htick
        exact hdated.turn
      · have hclock : a.clockAfter s.clock = s.clock := by
          cases a with
          | tick => exact absurd rfl htick
          | spawn | remove | launch | resume | on => rfl
        rw [hclock]
        exact hdated.effect htick
    · rw [heq]
      exact nofun

theorem mem_sleepers_iff (hs : s.Partitioned) (t : Task) :
    t ∈ s.buckets.waiting.filterMap s.find? ↔ t ∈ s.tasks ∧ t.phase = .waiting := by
  have hbucket : t.id ∈ s.buckets.waiting ↔ s.phase? t.id = some .waiting :=
    hs.mem_bucket_iff t.id .waiting
  rw [List.mem_filterMap]
  constructor
  · rintro ⟨id, hid, ht⟩
    have : t.id = id := id_of_find? ht
    subst this
    obtain ⟨t', ht', hp⟩ := (phase?_eq_some_iff _ _ _).mp (hbucket.mp hid)
    rw [ht] at ht'
    cases ht'
    exact ⟨mem_of_find? ht, hp⟩
  · rintro ⟨ht, hp⟩
    have hfind := (hs.find?_eq_some_iff t.id t).mpr ⟨ht, rfl⟩
    exact ⟨t.id, hbucket.mpr ((phase?_eq_some_iff _ _ _).mpr ⟨t, hfind, hp⟩), hfind⟩

/-- The tick to look at sleepers again is the earliest one at which one of them is due. -/
theorem wakeupTick?_eq_some_iff (hs : s.Partitioned) (w : Nat) : s.wakeupTick? = some w ↔
    (∃ t ∈ s.tasks, t.phase = .waiting ∧ t.wakeupTick = w) ∧
    ∀ t ∈ s.tasks, t.phase = .waiting → w ≤ t.wakeupTick := by
  rw [wakeupTick?, List.min?_eq_some_iff]
  simp only [List.mem_map, mem_sleepers_iff hs]
  constructor
  · rintro ⟨⟨t, ⟨ht, hp⟩, hw⟩, hle⟩
    exact ⟨⟨t, ht, hp, hw⟩, fun t' ht' hp' => hle _ ⟨t', ⟨ht', hp'⟩, rfl⟩⟩
  · rintro ⟨⟨t, ht, hp, hw⟩, hle⟩
    refine ⟨⟨t, ⟨ht, hp⟩, hw⟩, ?_⟩
    rintro _ ⟨t', ⟨ht', hp'⟩, rfl⟩
    exact hle t' ht' hp'

/-! ## Histories -/

/-- A history in which nobody asks the task with number `u` to stop. As everywhere, a task is
removed only while it is dormant. -/
def Unbroken (u : TaskId) : Scheduler → List Action → Prop
  | _, [] => True
  | s, a :: as =>
    (a.Returns s ∧ a ≠ .on u .interrupt ∧ (a = .remove u → s.phase? u = some .dormant)) ∧
      Unbroken u (a.apply s) as

instance decidableUnbroken (u : TaskId) :
    (s : Scheduler) → (as : List Action) → Decidable (s.Unbroken u as)
  | _, [] => .isTrue trivial
  | s, a :: as => @instDecidableAnd _ _ _ (decidableUnbroken u (a.apply s) as)

theorem tick_le_apply (s : Scheduler) (a : Action) : s.tick ≤ (a.apply s).tick := by
  have hclock := congrArg Clock.tick (clock_apply s a)
  change (a.apply s).tick = _ at hclock
  rw [hclock]
  cases a with
  | tick => exact Nat.le_succ s.tick
  | spawn | remove | launch | resume | on => exact Nat.le_refl s.tick

theorem tick_le_run (s : Scheduler) (as : List Action) : s.tick ≤ (s.run as).tick := by
  induction as generalizing s with
  | nil => exact Nat.le_refl s.tick
  | cons a as ih => exact (tick_le_apply s a).trans (ih (a.apply s))

/-- **A sleeper sleeps until its time has come.** -/
theorem asleep_run {as : List Action} {t : Task} (hs : s.Partitioned) (h : s.find? u = some t)
    (ht : t.Asleep due) (ha : s.Unbroken u as) (hdue : (s.run as).tick < due) :
    (s.run as).Partitioned ∧ ∃ t', (s.run as).find? u = some t' ∧ t'.Asleep due := by
  induction as generalizing s t with
  | nil => exact ⟨hs, t, h, ht⟩
  | cons a as ih =>
    obtain ⟨⟨hreturns, hi, hremove⟩, ha⟩ := ha
    -- a sleeper is not dormant, so it is not removed
    have hne : a ≠ .remove u := by
      intro e
      have hp := hremove e
      rw [phase?, h, Option.map_some, ht.phase] at hp
      cases hp
    have hfind := find?_apply hs hreturns hne h
    refine ih (hs.apply hreturns) hfind ?_ ha hdue
    by_cases htick : a = .tick
    · subst htick
      have hlt : s.clock.next.tick < due := by
        have hle := tick_le_run (Action.tick.apply s) as
        have hnext : (Action.tick.apply s).tick = s.tick + 1 :=
          congrArg Clock.tick (clock_runTick s)
        change s.tick + 1 < due
        rw [hnext] at hle
        exact Nat.lt_of_le_of_lt hle hdue
      change (t.turn s.clock.next).Asleep due
      rw [(ht.turn hlt).2]
      exact ht
    · exact ht.effect htick hi

theorem interrupt_of_mem_dispatches (hs : s.Partitioned) {d : Task} (h : d ∈ s.dispatches) :
    d.interrupt = false := by
  obtain ⟨t, -, hgiven⟩ := (mem_dispatches_iff_given hs).mp h
  have hcourse := t.course s.clock.next
  rw [hgiven] at hcourse
  generalize t.turn s.clock.next = t' at hcourse
  cases hcourse with
  | given hi _ hd => exact (congrArg Task.interrupt hd).trans hi

/-- **Sleeping is exact.** In every reachable state, a sleeper is due after the current tick, and so
soon that no number overflows while the tick is below 2⁶⁴ - 2³²; and the tick at which sleepers are
looked at again is the earliest one at which one of them is due.

Let a task that gets control in a turn ask for a pause of `ms` milliseconds, and let nobody ask it
to stop. Then through every tick before the one it is due it is asleep and does not get control. In
exactly that tick it does, or is parked without getting control if it was asked to park by then. -/
theorem sleep_is_exact (h : Reachable s) :
    (∀ t ∈ s.tasks, t.phase = .waiting →
      s.tick < t.wakeupTick ∧ t.wakeupTick < s.tick + 2 ^ 32) ∧
    (∀ w, s.wakeupTick? = some w ↔
      (∃ t ∈ s.tasks, t.phase = .waiting ∧ t.wakeupTick = w) ∧
      ∀ t ∈ s.tasks, t.phase = .waiting → w ≤ t.wakeupTick) ∧
    ∀ d ∈ s.dispatches, ∀ ms, d.step.handback = .sleep ms →
      ∀ as, s.runTick.value.scheduler.Unbroken d.id as →
        let due := s.tick + 1 + max 1 (ms ⌈/⌉ s.tickMs)
        let s' := s.runTick.value.scheduler.run as
        s'.tick < due →
          ∃ t, s'.find? d.id = some t ∧ t.phase = .waiting ∧
          (s'.tick + 1 < due → d.id ∉ s'.dispatches.map Task.id) ∧
          (s'.tick + 1 = due → t.suspend = false → d.id ∈ s'.dispatches.map Task.id) ∧
          (s'.tick + 1 = due → t.suspend = true → d.id ∉ s'.dispatches.map Task.id ∧
            s'.runTick.value.scheduler.phase? d.id = some .suspended) := by
  have hs := h.partitioned
  refine ⟨fun t ht => h.dated t ht, wakeupTick?_eq_some_iff hs, ?_⟩
  intro d hd ms hms as ha due s' hdue
  have hi := interrupt_of_mem_dispatches hs hd
  obtain ⟨hs', t, ht, hasleep⟩ := asleep_run hs.runTick (find?_runTick_of_mem hs hd)
    (Task.asleep_settled hi hms) ha hdue
  have hgets := mem_ids_dispatches_iff hs' ht
  refine ⟨t, ht, hasleep.phase, fun hlt => ?_, fun heq hn => ?_, fun heq hsuspend => ?_⟩
  · rw [hgets, (hasleep.turn (c := s'.clock.next) hlt).1]
    exact nofun
  · rw [hgets]
    exact (hasleep.turn_of_due (c := s'.clock.next) heq).1 hn
  · obtain ⟨hnone, hparked⟩ := (hasleep.turn_of_due (c := s'.clock.next) heq).2 hsuspend
    refine ⟨?_, (phase?_eq_some_iff _ _ _).mpr ⟨_, ?_, hparked⟩⟩
    · rw [hgets, hnone]
      exact nofun
    · rw [find?_runTick hs', ht]
      rfl

/-- On a clock of five milliseconds, a task asked for a pause of twelve in the first tick: it gets
control again in the fourth, or is parked then if it was asked to. -/
theorem sleep_is_exact_twelve : ∃ s : Scheduler, Reachable s ∧ s.tick = 1 ∧
    s.wakeupTick? = some 4 ∧ ⟨1⟩ ∉ (s.run [.tick]).dispatches.map Task.id ∧
    ⟨1⟩ ∈ (s.run [.tick, .tick]).dispatches.map Task.id ∧
    ⟨1⟩ ∉ (s.run [.tick, .on ⟨1⟩ .suspend, .tick]).dispatches.map Task.id ∧
    (s.run [.tick, .on ⟨1⟩ .suspend, .tick]).runTick.value.scheduler.phase? ⟨1⟩ =
      some .suspended := by
  let as : List Action := [.spawn none 64 0,
    .on ⟨1⟩ (.mapImage (Image.build ((Instr.sleep 12).encode ++ Instr.pass.encode))), .launch ⟨1⟩]
  let s₀ := (new 5 32).run as
  have h : Reachable s₀ := .run (.new 5 32) as (by decide +kernel)
  obtain ⟨d, hd, hid, hms⟩ : ∃ d ∈ s₀.dispatches, d.id = ⟨1⟩ ∧ d.step.handback = .sleep 12 := by
    decide +kernel
  have hsleep := (sleep_is_exact h).2.2 d hd 12 hms
  rw [hid] at hsleep
  obtain ⟨-, -, -, hasleep, -, -⟩ := hsleep [.tick] (by decide +kernel) (by decide +kernel)
  obtain ⟨t, ht, -, -, hgiven, -⟩ :=
    hsleep [.tick, .tick] (by decide +kernel) (by decide +kernel)
  obtain ⟨t', ht', -, -, -, hparked⟩ :=
    hsleep [.tick, .on ⟨1⟩ .suspend, .tick] (by decide +kernel) (by decide +kernel)
  have hnot : some t.suspend = some false := (congrArg (Option.map Task.suspend) ht).symm.trans
    (by decide +kernel)
  have hasked : some t'.suspend = some true := (congrArg (Option.map Task.suspend) ht').symm.trans
    (by decide +kernel)
  exact ⟨s₀.runTick.value.scheduler, .act h (a := .tick) trivial, by decide +kernel,
    by decide +kernel, hasleep (by decide +kernel),
    hgiven (by decide +kernel) (Option.some.inj hnot),
    hparked (by decide +kernel) (Option.some.inj hasked)⟩

end Scheduler

end Coop
