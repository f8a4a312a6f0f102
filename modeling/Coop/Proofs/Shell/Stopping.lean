import Coop.Proofs.Shell.History
import Coop.Volume.Memory
import Mathlib.Control.Monad.Basic

/-!
# Stopping a task from the prompt

A request to stop is honoured by the next turn of the scheduler. A turn at the prompt is a turn of
the scheduler only while some task is ready or waiting: a suspended task that was asked to stop
stays as it is for as long as no other task has anything to do.

* `Kernel.Active`, `Kernel.isIdle_iff`: when a turn at the prompt is a turn of the scheduler;
* `remove_of_dormant`, `evaluate_of_dormant`: what a task that was stopped allows again;
* **`stopped_at_next_turn`**: a request to stop and the next turn at the prompt;
* `suspended_is_not_stopped`: a request that is not honoured.
-/

namespace Coop

namespace Kernel

variable {k : Kernel} {id : TaskId}

/-- Some task is ready or waiting. -/
def Active (k : Kernel) : Prop :=
  ∃ t ∈ k.scheduler.tasks, t.phase = .ready ∨ t.phase = .waiting

instance (k : Kernel) : Decidable k.Active :=
  inferInstanceAs (Decidable (∃ t ∈ k.scheduler.tasks, _))

theorem bucket_eq_nil_iff (h : Reachable k) (p : Phase) :
    k.scheduler.buckets.get p = [] ↔ ∀ t ∈ k.scheduler.tasks, t.phase ≠ p := by
  rw [List.eq_nil_iff_forall_not_mem]
  constructor
  · intro hempty t ht hp
    refine hempty t.id ((h.partitioned.mem_bucket_iff t.id p).mpr ?_)
    exact (Scheduler.phase?_eq_some_iff _ _ _).mpr
      ⟨t, (h.partitioned.find?_eq_some_iff t.id t).mpr ⟨ht, rfl⟩, hp⟩
  · intro hnone u hu
    obtain ⟨t, ht, hp⟩ := (Scheduler.phase?_eq_some_iff _ _ _).mp
      ((h.partitioned.mem_bucket_iff u p).mp hu)
    exact hnone t (Scheduler.mem_of_find? ht) hp

theorem isIdle_iff (h : Reachable k) : k.isIdle = true ↔ ¬ k.Active := by
  have hready := bucket_eq_nil_iff h .ready
  have hwaiting := bucket_eq_nil_iff h .waiting
  rw [isIdle, Scheduler.isIdle, Bool.and_eq_true, List.isEmpty_iff, List.isEmpty_iff]
  constructor
  · rintro ⟨hr, hw⟩ ⟨t, ht, hp | hp⟩
    · exact hready.mp hr t ht hp
    · exact hwaiting.mp hw t ht hp
  · intro hidle
    refine ⟨hready.mpr fun t ht hp => ?_, hwaiting.mpr fun t ht hp => ?_⟩
    · exact hidle ⟨t, ht, .inl hp⟩
    · exact hidle ⟨t, ht, .inr hp⟩

/-- Where nothing is ready or waiting, only a suspended task can have been asked to stop. -/
theorem Pending.suspended (h : Reachable k) (hp : k.Pending id) (hk : ¬ k.Active) :
    k.phase? id = some .suspended := by
  obtain ⟨t, ht, hi⟩ := hp
  have hne := Pending.phase_ne h ht hi
  have hm : t ∈ k.scheduler.tasks := Scheduler.mem_of_find? ht
  rw [phase?_of_task? ht]
  cases hphase : t.phase with
  | dormant => exact absurd hphase hne
  | ready => exact absurd ⟨t, hm, .inl hphase⟩ hk
  | waiting => exact absurd ⟨t, hm, .inr hphase⟩ hk
  | suspended => rfl

end Kernel

namespace Shell

variable {V ι C : Type} {s : Shell V} {id : TaskId} {name : String}

theorem remove_of_dormant (hl : s.task name = some id) (hd : s.kernel.phase? id = some .dormant) :
    (s.remove name).value.1 = .ok () := by
  have hv := Kernel.value_remove hl
  rw [Kernel.value_destroy hd] at hv
  unfold remove
  rw [Logged.value_bind, hv]
  rfl

section Lines

variable [Receiver ι] (patience : Nat) (host : Host ι C) (source : String)

theorem evaluateIn_ne_wrongPhase (s : Shell V) (id : TaskId) (p : Phase) :
    (s.evaluateIn patience id host source).result ≠ some (.error (.wrongPhase p)) := by
  unfold evaluateIn Host.absorb
  dsimp only
  split_ifs
  · nofun
  · nofun
  · split <;> nofun

theorem evaluate_of_dormant (he : s.evaluator = some id)
    (hd : s.kernel.phase? id = some .dormant) (p : Phase) :
    (s.evaluate patience host source).result ≠ some (.error (.wrongPhase p)) := by
  have hfound := ensureEvaluator_of_live he (Kernel.mem_live_of_phase? hd)
  simp only [evaluate, Host.absorb, hfound, hd]
  exact evaluateIn_ne_wrongPhase patience _ source s id p

end Lines

variable [Volume V]

/-- **A request to stop and the next turn at the prompt.** While some task is ready or waiting, a
task that was asked to stop is dormant after the next turn, whatever it was doing; so it can be
removed, and if it is the one for lines typed in, the next line is not refused. While none is, the
task is suspended, and the turn leaves everything as it was. -/
theorem stopped_at_next_turn (h : s.Exposed) (hp : s.kernel.Pending id) (host : Host ι C) :
    (s.kernel.Active →
      (s.poll host).2.1.kernel.phase? id = some .dormant ∧
      (∀ name, (s.poll host).2.1.task name = some id →
        ((s.poll host).2.1.remove name).value.1 = .ok ()) ∧
      ((s.poll host).2.1.evaluator = some id →
        ∀ {κ D : Type} [Receiver κ] (patience : Nat) (host' : Host κ D) (source : String)
          (p : Phase), ((s.poll host).2.1.evaluate patience host' source).result ≠
            some (.error (.wrongPhase p)))) ∧
    (¬ s.kernel.Active → s.kernel.phase? id = some .suspended ∧ (s.poll host).2.1 = s) := by
  have hk := h.sound.kernel
  have hpoll := poll_eq h.sound.orphans host
  constructor
  · intro hactive
    have hidle : ¬ s.kernel.isIdle = true := fun hi => (Kernel.isIdle_iff hk).mp hi hactive
    have hd : (s.poll host).2.1.kernel.phase? id = some .dormant := by
      rw [hpoll, if_neg hidle]
      exact Kernel.phase?_tick_of_pending hk hp
    refine ⟨hd, fun name hl => remove_of_dormant hl hd, fun he κ D _ patience host' source p => ?_⟩
    exact evaluate_of_dormant patience host' source he hd p
  · intro hnone
    rw [hpoll, if_pos ((Kernel.isIdle_iff hk).mpr hnone)]
    exact ⟨hp.suspended hk hnone, rfl⟩

/-- A suspended task is asked to stop while another one is ready. -/
theorem stopped_at_next_turn_suspended : ∃ (s : Shell MemoryVolume) (host : Host Silence Unit),
    s.Exposed ∧ s.kernel.phase? ⟨1⟩ = some .suspended ∧ s.kernel.phase? ⟨2⟩ = some .ready ∧
    s.kernel.Pending ⟨1⟩ ∧ (s.poll host).2.1.kernel.phase? ⟨1⟩ = some .dormant ∧
    ((s.poll host).2.1.remove "a").value.1 = .ok () := by
  let quiet : Host Silence Unit := Host.new {} (Lines.new 0) none none
  let s₀ : Shell MemoryVolume := new { Config.default with heapSize := 32 } .empty
  have h₀ : s₀.Exposed := .new _ _
  let s₁ := (s₀.spawn "a" "suspend").value.2
  have h₁ : s₁.Exposed := h₀.step (.spawn "a" "suspend" fun _ => by decide +kernel)
  let s₂ := (s₁.poll quiet).2.1
  have h₂ : s₂.Exposed := h₁.step (.poll quiet)
  let s₃ := (s₂.spawn "b" "pass").value.2
  have h₃ : s₃.Exposed := h₂.step (.spawn "b" "pass" fun _ => by decide +kernel)
  let s := (s₃.kill "a").value.2
  have h : s.Exposed := h₃.step (.kill "a")
  obtain ⟨hsuspended, hready, hp, hactive, hname⟩ : s.kernel.phase? ⟨1⟩ = some .suspended ∧
      s.kernel.phase? ⟨2⟩ = some .ready ∧ s.kernel.Pending ⟨1⟩ ∧ s.kernel.Active ∧
      (s.poll quiet).2.1.task "a" = some ⟨1⟩ := by decide +kernel
  obtain ⟨hd, hremove, -⟩ := (stopped_at_next_turn h hp quiet).1 hactive
  exact ⟨s, quiet, h, hsuspended, hready, hp, hd, hremove "a" hname⟩

/-- A task that suspended itself is alone and is asked to stop: the request is accepted, but the
next turn leaves the task suspended, and it cannot be removed. -/
theorem suspended_is_not_stopped : ∃ s : Shell MemoryVolume,
    s.Exposed ∧ (s.kill "a").value.1 = .ok () ∧
    ∀ host : Host Silence Unit,
      ((s.kill "a").value.2.poll host).2.1.kernel.phase? ⟨1⟩ = some .suspended ∧
      (((s.kill "a").value.2.poll host).2.1.remove "a").value.1 =
        .error (.registry (.busy ⟨1⟩)) := by
  let quiet : Host Silence Unit := Host.new {} (Lines.new 0) none none
  let s₀ : Shell MemoryVolume := new { Config.default with heapSize := 32 } .empty
  have h₀ : s₀.Exposed := .new _ _
  let s₁ := (s₀.spawn "a" "suspend").value.2
  have h₁ : s₁.Exposed := h₀.step (.spawn "a" "suspend" fun _ => by decide +kernel)
  let s := (s₁.poll quiet).2.1
  have h : s.Exposed := h₁.step (.poll quiet)
  have hkill : (s.kill "a").value.2.Exposed := h.step (.kill "a")
  obtain ⟨hok, hidle, hafter⟩ : (s.kill "a").value.1 = .ok () ∧
      (s.kill "a").value.2.kernel.isIdle = true ∧
      (s.kill "a").value.2.kernel.phase? ⟨1⟩ = some .suspended ∧
      ((s.kill "a").value.2.remove "a").value.1 = .error (.registry (.busy ⟨1⟩)) := by
    decide +kernel
  refine ⟨s, h, hok, fun host => ?_⟩
  rw [poll_eq hkill.sound.orphans, if_pos hidle]
  exact hafter

end Shell

end Coop
