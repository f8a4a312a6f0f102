import Coop.Proofs.Kernel.Accounts
import Coop.Volume.Memory

/-!
# The task of a wait that timed out

A wait does not look at its task again before it reports that the time is over. So the task may have
ended in the turn before that, and what went wrong with it stays unreported.

* `Task.Ends`, **`Task.Coherent.ends`**: how a turn can end a task;
* `Overdue`, `overdue_of_timedOut`: the task of a wait that timed out;
* `runIn_timedOut`: a run that reports a timeout;
* **`task_at_timeout`**: a task is dormant at a timeout only if the last turn ended it.
-/

namespace Coop

namespace Task

variable {c : Clock} {t : Task}

/-- How a turn can end a task, and what went wrong, if anything did. -/
inductive Ends (c : Clock) (t : Task) : Option Fault → Prop
  /-- It was asked to stop. -/
  | stopped (hi : t.interrupt = true) : Ends c t none
  | done {d : Task} (hd : t.given? c = some d) (hb : d.step.handback = .done) : Ends c t none
  | failed {d : Task} {e : Fault} (hd : t.given? c = some d) (hb : d.step.handback = .fault e) :
    Ends c t (some e)

theorem phase_settled_eq_dormant_iff (c : Clock) (t : Task) (hb : Handback) :
    (t.settled c hb).phase = .dormant ↔ hb = .done ∨ ∃ e, hb = .fault e := by
  cases hb with
  | yield =>
    simp only [settled]
    cases t.suspend <;> simp
  | sleep | suspend | done | fault => simp [settled]

theorem error_step (t : Task) : t.step.task.error = t.error := by
  unfold step
  split <;> rfl

theorem not_ends (hg : t.given? c = none) (hi : t.interrupt = false) (e : Option Fault) :
    ¬ t.Ends c e := by
  intro h
  cases h with
  | stopped hi' => simp [hi] at hi'
  | done hd | failed hd => simp [hg] at hd

/-- A running task is dormant after a turn if the turn ended it, and then it keeps what went wrong.
-/
theorem Coherent.ends (h : t.Coherent) (hp : t.phase ≠ .dormant) (c : Clock) :
    ((t.turn c).phase = .dormant ↔ ∃ e, t.Ends c e) ∧
      ∀ e, t.Ends c e → (t.turn c).error = e := by
  have hcourse := t.course c
  generalize hg : t.given? c = g, t.turn c = t' at hcourse
  cases hcourse with
  | ended _ hi =>
    refine ⟨iff_of_true rfl ⟨none, .stopped hi⟩, fun e he => ?_⟩
    cases he with
    | stopped => exact h.error hp
    | done hd | failed hd => simp [hg] at hd
  | dormant hd => exact absurd hd hp
  | suspended hs hi | asleep hs hi =>
    have hnot := not_ends hg hi
    exact ⟨iff_of_false hp (not_exists.mpr hnot), fun e he => absurd he (hnot e)⟩
  | parked hs hi hw hsuspend =>
    have hnot := not_ends hg hi
    have hphase : t.awake.phase = .suspended := if_pos hsuspend
    exact ⟨iff_of_false (by simp [hphase]) (not_exists.mpr hnot), fun e he => absurd he (hnot e)⟩
  | @given d hi _ hd =>
    have herror : d.step.task.error = none := by
      rw [error_step, hd]
      exact h.error hp
    have hends {e : Option Fault} (he : t.Ends c e) : (d.step.handback = .done ∧ e = none) ∨
        ∃ f, d.step.handback = .fault f ∧ e = some f := by
      cases he with
      | stopped hi' => simp [hi] at hi'
      | done hd' hb =>
        obtain rfl : d = _ := Option.some.inj (hg.symm.trans hd')
        exact .inl ⟨hb, rfl⟩
      | failed hd' hb =>
        obtain rfl : d = _ := Option.some.inj (hg.symm.trans hd')
        exact .inr ⟨_, hb, rfl⟩
    constructor
    · rw [phase_settled_eq_dormant_iff]
      constructor
      · rintro (hb | ⟨e, hb⟩)
        · exact ⟨none, .done hg hb⟩
        · exact ⟨some e, .failed hg hb⟩
      · rintro ⟨e, he⟩
        exact (hends he).imp And.left fun ⟨f, hb, _⟩ => ⟨f, hb⟩
    · intro e he
      rcases hends he with ⟨hb, rfl⟩ | ⟨f, hb, rfl⟩
      · rw [hb]
        exact herror
      · rw [hb]
        rfl

end Task

namespace Kernel

variable {ι C V : Type} [Receiver ι] [Volume V] {k : Kernel} {id : TaskId}

/-- The task of a wait that timed out in its pass number `n + 1`: it was running until the last
turn, and is dormant if that turn ended it. -/
structure Overdue (id : TaskId) (k : Kernel) (n : Nat) (t : Task) (k' : Kernel) : Prop where
  turns : k' = k.turns (n + 1)
  running : ∀ i ≤ n, (k.turns i).atRest id = false
  task : (k.turns n).task? id = some t
  dormant_iff : k'.phase? id = some .dormant ↔ ∃ e, t.Ends (k.turns n).scheduler.clock.next e
  /-- What went wrong is kept, but not reported. -/
  error : ∀ e, t.Ends (k.turns n).scheduler.clock.next e → k'.error? id = e

/-- A wait that times out does so right after a turn. -/
theorem overdue_of_timedOut (h : Reachable k) {patience : Nat} {opts : WaitOptions}
    {host : Host ι C} (ho : (k.wait patience id opts host).outcome = some .timedOut) :
    ∃ n t, Overdue id k n t (k.wait patience id opts host).kernel := by
  obtain ⟨n, -, hpast, hlate, haccounts⟩ := (wait_path patience k id opts host).accounts ho
  have hkernel : (k.wait patience id opts host).kernel = k.turns n := haccounts.kernel
  obtain ⟨n, rfl⟩ : ∃ m, n = m + 1 := by
    refine Nat.exists_eq_succ_of_ne_zero ?_
    rintro rfl
    refine hlate.mp rfl fun limit _ => ?_
    rw [counted_zero (Nat.zero_le _)]
    exact Nat.zero_le limit
  have hrunning (i : Nat) (hi : i ≤ n) : (k.turns i).atRest id = false :=
    fst_passes opts.signal i (k, host) ▸ (hpast i (Nat.lt_succ_of_le hi)).running
  obtain ⟨t, ht, hp⟩ := task?_of_not_atRest (hrunning n (Nat.le_refl n))
  obtain ⟨hdormant, herror⟩ :=
    ((h.turns n).coherent ht).ends hp (k.turns n).scheduler.clock.next
  have hturn := task?_tick (h.turns n) ht
  rw [← turns_succ, ← hkernel] at hturn
  refine ⟨n, t, hkernel, hrunning, ht, ?_, fun e he => ?_⟩
  · rw [phase?_of_task? hturn, Option.some.injEq, hdormant]
  · rw [error?, hturn]
    exact herror e he

theorem outcome_eq_timedOut {o : WaitOutcome} {u : TaskId} (h : k.outcome id o = .timedOut u) :
    o = .timedOut ∧ u = id := by
  cases o with
  | completed =>
    unfold outcome at h
    cases herror : k.error? id with
    | none => simp [herror] at h
    | some e => simp [herror] at h
  | interrupted => cases h
  | timedOut =>
    cases h
    exact ⟨rfl, rfl⟩

theorem runIn_timedOut (h : Reachable k) {patience : Nat} {vol : V} {host : Host ι C}
    {name : String} {fresh : Bool} {opts : RunOptions} {u : TaskId}
    (hr : (k.runIn patience vol host name id fresh opts).result = some (.ok (.timedOut u))) :
    u = id ∧ ∃ (k₁ : Kernel) (host₁ : Host ι C), Reachable k₁ ∧
      (k₁.wait patience id opts.wait host₁).outcome = some .timedOut ∧
      (k.runIn patience vol host name id fresh opts).kernel =
        (k₁.wait patience id opts.wait host₁).kernel := by
  have hload := h.load vol id name
  unfold runIn Host.absorb at hr ⊢
  dsimp only at hr ⊢
  generalize (k.load vol id name).value.1 = loaded at hr ⊢
  generalize (k.load vol id name).value.2.1 = k₁ at hload hr ⊢
  cases loaded with
  | error e =>
    cases fresh with
    | true | false => cases hr
  | ok route =>
    have hexec := hload.execute id
    dsimp only at hr ⊢
    cases hlaunched : (k₁.execute id).value.1 with
    | false =>
      simp only [hlaunched, Bool.not_false, if_true, Option.some.injEq, Except.ok.injEq,
        reduceCtorEq] at hr
    | true =>
      simp only [hlaunched, Bool.not_true, Bool.false_eq_true, if_false] at hr ⊢
      cases hjoin : opts.join with
      | false => simp [hjoin] at hr
      | true =>
        simp only [hjoin, Bool.not_true, Bool.false_eq_true, if_false, join, Option.map_map,
          Option.map_eq_some_iff, Function.comp_apply, Except.ok.injEq] at hr ⊢
        obtain ⟨o, ho, hreport⟩ := hr
        obtain ⟨rfl, rfl⟩ := outcome_eq_timedOut hreport
        exact ⟨rfl, _, _, hexec, ho, rfl⟩

/-- **A task ends behind a timeout only in the last turn.** The task of a wait that timed out was
running until the turn of the last pass, and so was the task of a run that reports a timeout. It is
dormant then exactly if that turn ended it: because it was asked to stop, because its program is
done, or because the program failed, and then the failure is kept. -/
theorem task_at_timeout (h : Reachable k) (patience : Nat) (host : Host ι C) :
    (∀ id opts, (k.wait patience id opts host).outcome = some .timedOut →
      ∃ n t, Overdue id k n t (k.wait patience id opts host).kernel) ∧
    ∀ (vol : V) (name : String) (opts : RunOptions),
      (opts.task = none → k.scheduler.tasks.length + 1 < Scheduler.numberBound) →
      ∀ id, (k.run patience vol host name opts).result = some (.ok (.timedOut id)) →
      ∃ k₁, Reachable k₁ ∧ ∃ n t, Overdue id k₁ n t (k.run patience vol host name opts).kernel := by
  refine ⟨fun id opts => overdue_of_timedOut h, fun vol name opts hroom id hr => ?_⟩
  unfold run Host.absorb at hr ⊢
  cases htask : opts.task with
  | some u =>
    rw [htask] at hr
    obtain ⟨rfl, k₁, host₁, hk₁, ho, hkernel⟩ := runIn_timedOut h hr
    exact ⟨k₁, hk₁, hkernel ▸ overdue_of_timedOut hk₁ ho⟩
  | none =>
    rw [htask] at hr
    dsimp only at hr ⊢
    cases hcreated : (k.create none).value.1 with
    | error e => simp [hcreated] at hr
    | ok u =>
      rw [hcreated] at hr
      obtain ⟨rfl, k₁, host₁, hk₁, ho, hkernel⟩ := runIn_timedOut (h.create none (hroom htask)) hr
      exact ⟨k₁, hk₁, hkernel ▸ overdue_of_timedOut hk₁ ho⟩

/-- A task that parked itself is still there when the time is over. -/
theorem task_at_timeout_parked : ∃ (k : Kernel) (h : Host Silence Unit), Reachable k ∧
    (k.wait 1 ⟨1⟩ ⟨false, some 0⟩ h).outcome = some .timedOut ∧
    (k.wait 1 ⟨1⟩ ⟨false, some 0⟩ h).kernel.phase? ⟨1⟩ = some .suspended ∧
    ∃ n t, Overdue ⟨1⟩ k n t (k.wait 1 ⟨1⟩ ⟨false, some 0⟩ h).kernel := by
  let vol := MemoryVolume.empty.addMapped "/lib/park" (Image.build Instr.suspend.encode)
  have hnew := (Reachable.new .default).create none (by decide +kernel)
  obtain ⟨k, h, hk, ho, hp⟩ : ∃ (k : Kernel) (h : Host Silence Unit), Reachable k ∧
      (k.wait 1 ⟨1⟩ ⟨false, some 0⟩ h).outcome = some .timedOut ∧
      (k.wait 1 ⟨1⟩ ⟨false, some 0⟩ h).kernel.phase? ⟨1⟩ = some .suspended :=
    ⟨_, .new ⟨⟩ (.new 0) none none, (hnew.load vol ⟨1⟩ "park").execute ⟨1⟩, by decide +kernel⟩
  exact ⟨k, h, hk, ho, hp, (task_at_timeout (V := MemoryVolume) hk 1 h).1 ⟨1⟩ _ ho⟩

/-- A program fails in the turn after which the time is over: the run reports a timeout, although
the task is dormant and its failure is known. -/
theorem failure_behind_timeout : ∃ (vol : MemoryVolume) (h : Host Silence Unit),
    let ran := (new .default).run 1 vol h "a" ⟨none, true, ⟨false, some 0⟩⟩
    ran.result = some (.ok (.timedOut ⟨1⟩)) ∧ ran.kernel.phase? ⟨1⟩ = some .dormant ∧
    ran.kernel.error? ⟨1⟩ = some (.raised "no") := by
  let image := Image.build (Instr.raise "no".toByteArray).encode
  exact ⟨MemoryVolume.empty.addMapped "/lib/a" image, .new ⟨⟩ (.new 0) none none,
    by decide +kernel⟩

end Kernel

end Coop
