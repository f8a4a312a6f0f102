import Coop.Proofs.Kernel.Accounts
import Coop.Volume.Memory

/-!
# Waiting with a time limit

A limit is compared with a count that stops at `elapsedLimit`. Every other limit is passed after a
known number of passes, and the largest one never.

* `counted_le_iff`, `WaitOptions.allows_iff`: the count against a limit;
* `outcome_eq_none_iff`: a wait that does not end;
* **`timeout_window`**: how long a wait with a limit sleeps;
* `waitFrom_of_largest`, `never_returns_iff`: the largest limit;
* **`timeout_returns`**: which limits make a wait end.
-/

namespace Coop

/-! ## The count -/

theorem counted_le_iff {limit : Nat} (hl : limit < elapsedLimit) (quantum n : Nat) :
    counted 0 quantum n ≤ limit ↔ n * quantum ≤ limit := by
  unfold counted
  omega

theorem WaitOptions.allows_iff {opts : WaitOptions} {limit : Nat} (ht : opts.timeout = some limit)
    (elapsed : Nat) : opts.Allows elapsed ↔ elapsed ≤ limit := by
  simp [Allows, ht]

namespace Kernel

variable {ι C : Type} [Receiver ι] {k : Kernel} {id : TaskId} {opts : WaitOptions} {limit : Nat}

/-! ## How long a wait sleeps -/

theorem outcome_eq_none_iff (patience : Nat) (h : Host ι C) :
    (k.wait patience id opts h).outcome = none ↔ ∀ i ≤ patience, GoesOn id opts 0 (k, h) i := by
  have hpath := wait_path patience k id opts h
  generalize k.wait patience id opts h = w at hpath
  cases hpath with
  | completed n hn hpast ht hr =>
    refine iff_of_false nofun fun hgoes => ?_
    rw [(hgoes n hn).running] at hr
    cases hr
  | interrupted n hn hpast ht hr hs =>
    refine iff_of_false nofun fun hgoes => ?_
    have hunseen := (hgoes n hn).unseen
    rw [hs] at hunseen
    cases hunseen
  | timedOut n hn hpast ht hlate =>
    refine iff_of_false nofun fun hgoes => ?_
    exact Nat.not_le_of_lt hlate ((hgoes n hn).inTime _ ht)
  | unfinished hpast => exact iff_of_true rfl fun i hi => hpast i (Nat.lt_succ_of_le hi)

/-- A wait with a limit has slept no longer than the limit before its last pass. -/
theorem GoesOn.mul_le {x : Kernel × Host ι C} {n : Nat} (hl : limit < elapsedLimit)
    (ht : opts.timeout = some limit) (h : GoesOn id opts 0 x n) :
    n * x.1.config.quantumMs ≤ limit :=
  (counted_le_iff hl _ n).mp ((WaitOptions.allows_iff ht _).mp h.inTime)

/-- **The window of a time limit.** A wait with a limit below the largest one that times out does so
after exactly as many passes as it takes to sleep longer than the limit, so that it slept at most a
quantum longer. A wait that sees the task end or a Ctrl-C slept no longer than the limit. -/
theorem timeout_window (hl : limit < elapsedLimit) (ht : opts.timeout = some limit)
    (patience : Nat) (id : TaskId) (h : Host ι C) :
    let q := k.config.quantumMs
    let w := k.wait patience id opts h
    (w.outcome = some .timedOut → w.kernel = k.turns (limit / q + 1) ∧
      w.host.delays = h.delays + (limit / q + 1) ∧
      h.slept + limit < w.host.slept ∧ w.host.slept ≤ h.slept + (limit + q)) ∧
    (w.outcome = some .completed ∨ w.outcome = some .interrupted →
      w.host.slept ≤ h.slept + limit) := by
  intro q w
  have hallows (n : Nat) : opts.Allows (counted 0 q n) ↔ n * q ≤ limit :=
    (WaitOptions.allows_iff ht _).trans (counted_le_iff hl q n)
  constructor
  · intro ho
    obtain ⟨n, -, hpast, hlate, haccounts⟩ := (wait_path patience k id opts h).accounts ho
    have hover : limit < n * q := Nat.lt_of_not_le fun hle => (hlate.mp rfl) ((hallows n).mpr hle)
    obtain ⟨m, rfl⟩ : ∃ m, n = m + 1 := by
      refine Nat.exists_eq_succ_of_ne_zero ?_
      rintro rfl
      omega
    have hunder : m * q ≤ limit := (hpast m (Nat.lt_succ_self m)).mul_le hl ht
    have hm : limit / q = m := Nat.div_eq_of_lt_le hunder hover
    have hslept : w.host.slept = h.slept + (m + 1) * q := haccounts.slept
    rw [Nat.succ_mul] at hover hslept
    refine ⟨?_, ?_, by omega, by omega⟩
    · rw [hm]
      exact haccounts.kernel
    · rw [hm]
      exact haccounts.delays
  · have hin {o : WaitOutcome} (hne : o ≠ .timedOut) (ho : w.outcome = some o) :
        w.host.slept ≤ h.slept + limit := by
      obtain ⟨n, -, -, hlate, haccounts⟩ := (wait_path patience k id opts h).accounts ho
      have hunder : n * q ≤ limit := (hallows n).mp (not_not.mp (mt hlate.mpr hne))
      rw [show w.host.slept = h.slept + n * q from haccounts.slept]
      exact Nat.add_le_add_left hunder _
    exact fun ho => ho.elim (hin nofun) (hin nofun)

/-- A task that parks itself is waited for in vain: a limit of twelve milliseconds takes three
passes of five. -/
theorem timeout_window_twelve : ∃ (k : Kernel) (h : Host Silence Unit),
    k.config.sanitize = k.config ∧ k.config.quantumMs = 5 ∧
    (k.wait 9 ⟨1⟩ ⟨false, some 12⟩ h).outcome = some .timedOut ∧
    (k.wait 9 ⟨1⟩ ⟨false, some 12⟩ h).kernel = k.turns 3 ∧
    (k.wait 9 ⟨1⟩ ⟨false, some 12⟩ h).host.delays = h.delays + 3 := by
  let vol := MemoryVolume.empty.addMapped "/lib/park" (Image.build Instr.suspend.encode)
  let k := ((((new Config.default).create none).value.2.load vol ⟨1⟩ "park").value.2.1.execute
    ⟨1⟩).value.2
  obtain ⟨k, h, hconfig, hq, ho⟩ : ∃ (k : Kernel) (h : Host Silence Unit),
      k.config.sanitize = k.config ∧ k.config.quantumMs = 5 ∧
      (k.wait 9 ⟨1⟩ ⟨false, some 12⟩ h).outcome = some .timedOut :=
    ⟨k, .new ⟨⟩ (.new 0) none none, by decide +kernel⟩
  have ht : WaitOptions.timeout ⟨false, some 12⟩ = some 12 := rfl
  obtain ⟨hkernel, hdelays, -⟩ := (timeout_window (by decide) ht 9 ⟨1⟩ h).1 ho
  rw [hq] at hkernel hdelays
  exact ⟨k, h, hconfig, hq, ho, hkernel, hdelays⟩

/-! ## Whether a wait ends -/

/-- No count exceeds the largest limit, so that it is none. -/
theorem waitFrom_of_largest (hl : elapsedLimit ≤ limit) (signal : Bool) (patience e e' : Nat)
    (k : Kernel) (h : Host ι C) : waitFrom id ⟨signal, some limit⟩ patience e k h =
      waitFrom id ⟨signal, none⟩ patience e' k h := by
  induction patience generalizing e e' k h with
  | zero =>
    unfold waitFrom
    rfl
  | succ patience ih =>
    have hin (count : Nat) : ¬ limit < min count elapsedLimit := by omega
    unfold waitFrom
    dsimp only
    split
    · rfl
    · split
      · rfl
      · rw [if_neg (hin _)]
        exact ih _ _ _ _

/-- A wait with the largest limit ends only for the task or for a Ctrl-C. -/
theorem never_returns_iff (hl : elapsedLimit ≤ limit) (ht : opts.timeout = some limit)
    (h : Host ι C) : (∀ patience, (k.wait patience id opts h).outcome = none) ↔
      (∀ n, (k.turns n).atRest id = false) ∧
      (opts.signal = true → ∀ n, .byte ctrlC ∉ Receiver.readings n h.input) := by
  constructor
  · intro hnone
    have hgoes (n : Nat) := (outcome_eq_none_iff n h).mp (hnone n) n (Nat.le_refl n)
    refine ⟨fun n => fst_passes opts.signal n (k, h) ▸ (hgoes n).running, fun hs n => ?_⟩
    have hread := ctrlC_notMem_readings (n := n) fun i _ => hgoes i
    rwa [if_pos hs] at hread
  · rintro ⟨hrunning, hunread⟩ patience
    refine (outcome_eq_none_iff patience h).mpr fun i _ => ⟨?_, ?_, ?_⟩
    · refine (WaitOptions.allows_iff ht _).mpr ?_
      exact Nat.le_trans (Nat.min_le_right _ _) hl
    · rw [fst_passes]
      exact hrunning i
    · refine (unseen_iff opts.signal i (k, h)).mpr fun hs hread => hunread hs (i + 1) ?_
      exact (Receiver.mem_readings_iff _ _ _).mpr ⟨i, Nat.lt_succ_self i, hread⟩

theorem task?_turns_of_suspended {t : Task} (h : Reachable k) (ht : k.task? id = some t)
    (hp : t.phase = .suspended) (hi : t.interrupt = false) (n : Nat) :
    (k.turns n).task? id = some t := by
  induction n generalizing k with
  | zero => exact ht
  | succ n ih =>
    have hsame : t.turn k.scheduler.clock.next = t := by
      have hwoken : t.interrupted.woken k.scheduler.clock.next = t := by
        rw [Task.interrupted_of_not (.inr hi), Task.woken_of_lt (by simp [hp])]
      exact (Task.turn_of_ne_ready hwoken (by simp [hp])).2
    exact ih h.tick ((task?_tick h ht).trans (congrArg some hsame))

theorem exists_parked : ∃ k : Kernel, Reachable k ∧ k.config = .default ∧
    ∃ t, k.task? ⟨1⟩ = some t ∧ t.phase = .suspended ∧ t.interrupt = false := by
  let vol := MemoryVolume.empty.addMapped "/lib/park" (Image.build Instr.suspend.encode)
  have hnew := (Reachable.new .default).create none (by decide +kernel)
  exact ⟨_, ((hnew.load vol ⟨1⟩ "park").execute ⟨1⟩).tick, by decide +kernel⟩

/-- **A wait with a time limit ends, unless the limit is the largest one.** Below the largest limit,
every wait ends after at most as many passes as it takes to sleep longer than the limit. With the
largest limit a wait is one without a limit: it never ends if the task never does and no Ctrl-C is
read. -/
theorem timeout_returns (hq : 0 < k.config.quantumMs) (ht : opts.timeout = some limit)
    (id : TaskId) (h : Host ι C) :
    let q := k.config.quantumMs
    (limit < elapsedLimit → ∀ patience, limit / q < patience →
      ∃ o, (k.wait patience id opts h).outcome = some o ∧
        (k.wait patience id opts h).host.delays ≤ h.delays + (limit / q + 1)) ∧
    (elapsedLimit ≤ limit →
      (∀ patience, k.wait patience id opts h =
        k.wait patience id { opts with timeout := none } h) ∧
      ((∀ patience, (k.wait patience id opts h).outcome = none) ↔
        (∀ n, (k.turns n).atRest id = false) ∧
        (opts.signal = true → ∀ n, .byte ctrlC ∉ Receiver.readings n h.input))) := by
  intro q
  constructor
  · intro hl patience hpatience
    have hbound {n : Nat} (hg : GoesOn id opts 0 (k, h) n) : n ≤ limit / q :=
      (Nat.le_div_iff_mul_le hq).mpr (hg.mul_le hl ht)
    obtain ⟨o, ho⟩ : ∃ o, (k.wait patience id opts h).outcome = some o := by
      refine Option.ne_none_iff_exists'.mp fun hnone => ?_
      have hgoes := (outcome_eq_none_iff patience h).mp hnone
      exact Nat.not_succ_le_self _ (hbound (hgoes (limit / q + 1) hpatience))
    refine ⟨o, ho, ?_⟩
    obtain ⟨n, -, hpast, -, haccounts⟩ := (wait_path patience k id opts h).accounts ho
    rw [haccounts.delays]
    refine Nat.add_le_add_left ?_ _
    cases n with
    | zero => exact Nat.zero_le _
    | succ n => exact Nat.succ_le_succ (hbound (hpast n (Nat.lt_succ_self n)))
  · intro hl
    refine ⟨fun patience => ?_, never_returns_iff hl ht h⟩
    obtain ⟨signal, timeout⟩ := opts
    obtain rfl : timeout = some limit := ht
    exact waitFrom_of_largest hl signal patience 0 0 k h

/-- Seven milliseconds are over after two passes of five, though the task stays suspended. -/
theorem timeout_returns_seven : ∃ (k : Kernel) (h : Host Silence Unit), Reachable k ∧
    k.phase? ⟨1⟩ = some .suspended ∧
    ∃ o, (k.wait 2 ⟨1⟩ ⟨true, some 7⟩ h).outcome = some o ∧
      (k.wait 2 ⟨1⟩ ⟨true, some 7⟩ h).host.delays ≤ h.delays + 2 := by
  obtain ⟨k, hk, hconfig, t, ht, hp, -⟩ := exists_parked
  let h : Host Silence Unit := .new ⟨⟩ (.new 0) none none
  have hq : k.config.quantumMs = 5 := by rw [hconfig]; rfl
  have hphase : k.phase? ⟨1⟩ = some .suspended := by rw [phase?_of_task? ht, hp]
  have hpos : 0 < k.config.quantumMs := by rw [hq]; decide
  have ht : WaitOptions.timeout ⟨true, some 7⟩ = some 7 := rfl
  obtain ⟨o, ho, hdelays⟩ := (timeout_returns hpos ht ⟨1⟩ h).1 (by decide) 2 (by rw [hq]; decide)
  rw [hq] at hdelays
  exact ⟨k, h, hk, hphase, o, ho, hdelays⟩

/-- **The largest limit is none.** The task stays suspended, nobody looks for a Ctrl-C, and the wait
never ends. -/
theorem largest_timeout_never_returns : ∃ k : Kernel, Reachable k ∧ k.config.sanitize = k.config ∧
    ∀ patience, (k.wait patience ⟨1⟩ ⟨false, some 0xffffffff⟩
      (Host.new ⟨⟩ (.new 0) none none : Host Silence Unit)).outcome = none := by
  obtain ⟨k, hk, hconfig, t, ht, hp, hi⟩ := exists_parked
  refine ⟨k, hk, by rw [hconfig]; exact Config.sanitize_default, ?_⟩
  refine (never_returns_iff (Nat.le_refl _) rfl _).mpr ⟨fun n => ?_, nofun⟩
  rw [atRest_of_task? (task?_turns_of_suspended hk ht hp hi n), hp]
  rfl

end Kernel

end Coop
