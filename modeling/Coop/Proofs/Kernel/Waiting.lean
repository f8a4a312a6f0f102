import Coop.Wait
import Mathlib.Tactic.SplitIfs

/-!
# Waiting, pass by pass

A wait does one whole pass after the other until something ends it. The passes do nothing to the
kernel but take turns, and at most one request to stop is made at the end.

* `turns`, `passes`: the kernel after a number of turns, and a kernel and its host after a number of
  passes;
* `counted`, `GoesOn`: the time a wait counts, and what has to hold for it to go on;
* **`WaitPath`**, **`wait_path`**: the ways a wait can go, with everything it leaves behind;
* `WaitEnd`, `wait_ends`: the ways a wait can end, as far as the kernel is concerned.
-/

namespace Coop

/-! ## Time -/

/-- What a wait has counted after `n` more passes of a quantum each. -/
def counted (elapsed quantum n : Nat) : Nat := min (elapsed + n * quantum) elapsedLimit

theorem counted_zero {elapsed : Nat} (h : elapsed ≤ elapsedLimit) (quantum : Nat) :
    counted elapsed quantum 0 = elapsed := by
  unfold counted
  omega

theorem counted_counted (elapsed quantum n : Nat) :
    counted (counted elapsed quantum 1) quantum n = counted elapsed quantum (n + 1) := by
  have hsucc : (n + 1) * quantum = n * quantum + quantum := Nat.succ_mul n quantum
  unfold counted
  omega

/-- The time that was counted is within the limit, if there is one. -/
def WaitOptions.Allows (opts : WaitOptions) (elapsed : Nat) : Prop :=
  ∀ limit, opts.timeout = some limit → elapsed ≤ limit

namespace Kernel

/-- The kernel after a number of turns. -/
def turns : Nat → Kernel → Kernel
  | 0, k => k
  | n + 1, k => turns n k.tick.value.kernel

theorem turns_succ (k : Kernel) (n : Nat) :
    k.turns (n + 1) = (k.turns n).tick.value.kernel := by
  induction n generalizing k with
  | zero => rfl
  | succ n ih => exact ih k.tick.value.kernel

variable {ι C : Type} [Receiver ι]

/-- One whole pass of a wait: a look for a Ctrl-C, if asked to, and the work of the pass. -/
def wholePass (signal : Bool) (x : Kernel × Host ι C) : Kernel × Host ι C :=
  x.1.pass (x.2.seesInterrupt signal).2

/-- A kernel and its host after a number of whole passes. -/
def passes (signal : Bool) : Nat → Kernel × Host ι C → Kernel × Host ι C
  | 0, x => x
  | n + 1, x => passes signal n (wholePass signal x)

theorem fst_passes (signal : Bool) (n : Nat) (x : Kernel × Host ι C) :
    (passes signal n x).1 = x.1.turns n := by
  induction n generalizing x with
  | zero => rfl
  | succ n ih => exact ih (wholePass signal x)

/-! ## The ways a wait can go -/

/-- A wait that had counted `elapsed` when it came to the kernel and the host `x` goes on after `n`
passes. -/
structure GoesOn (id : TaskId) (opts : WaitOptions) (elapsed : Nat) (x : Kernel × Host ι C)
    (n : Nat) : Prop where
  inTime : opts.Allows (counted elapsed x.1.config.quantumMs n)
  running : (passes opts.signal n x).1.atRest id = false
  unseen : ((passes opts.signal n x).2.seesInterrupt opts.signal).1 = false

/-- **The ways a wait can go**: it goes on for `n` passes and ends, or its patience ends first. -/
inductive WaitPath (id : TaskId) (opts : WaitOptions) (patience elapsed : Nat)
    (x : Kernel × Host ι C) : Waited ι C → Prop
  | completed (n : Nat) (hn : n ≤ patience) (hpast : ∀ i < n, GoesOn id opts elapsed x i)
    (ht : opts.Allows (counted elapsed x.1.config.quantumMs n))
    (hr : (passes opts.signal n x).1.atRest id = true) :
    WaitPath id opts patience elapsed x
      ⟨some .completed, (passes opts.signal n x).1, (passes opts.signal n x).2⟩
  /-- A Ctrl-C is seen while the task is running. -/
  | interrupted (n : Nat) (hn : n ≤ patience) (hpast : ∀ i < n, GoesOn id opts elapsed x i)
    (ht : opts.Allows (counted elapsed x.1.config.quantumMs n))
    (hr : (passes opts.signal n x).1.atRest id = false) {h : Host ι C}
    (hs : (passes opts.signal n x).2.seesInterrupt opts.signal = (true, h)) :
    WaitPath id opts patience elapsed x
      ⟨some .interrupted, ((passes opts.signal n x).1.abandon id h).1,
        ((passes opts.signal n x).1.abandon id h).2⟩
  | timedOut (n : Nat) (hn : n ≤ patience) (hpast : ∀ i < n, GoesOn id opts elapsed x i)
    {limit : Nat} (ht : opts.timeout = some limit)
    (hlate : limit < counted elapsed x.1.config.quantumMs n) :
    WaitPath id opts patience elapsed x
      ⟨some .timedOut, (passes opts.signal n x).1, (passes opts.signal n x).2.note .warn
        s!"wait on task {id.label}: timed out after {counted elapsed x.1.config.quantumMs n} ms"⟩
  /-- The sleep of one more pass does not come to an end. -/
  | unfinished (hpast : ∀ i < patience + 1, GoesOn id opts elapsed x i) :
    WaitPath id opts patience elapsed x ⟨none, (passes opts.signal (patience + 1) x).1,
      (passes opts.signal (patience + 1) x).2⟩

variable {id : TaskId} {opts : WaitOptions} {patience elapsed : Nat}

/-- A wait that goes on goes the way it goes one pass later. -/
theorem WaitPath.later {x : Kernel × Host ι C} {w : Waited ι C} (h₀ : GoesOn id opts elapsed x 0)
    (h : WaitPath id opts patience (counted elapsed x.1.config.quantumMs 1)
      (wholePass opts.signal x) w) : WaitPath id opts (patience + 1) elapsed x w := by
  have hcount (n : Nat) := counted_counted elapsed x.1.config.quantumMs n
  have hpast {n : Nat} (hp : ∀ i < n, GoesOn id opts (counted elapsed x.1.config.quantumMs 1)
      (wholePass opts.signal x) i) : ∀ i < n + 1, GoesOn id opts elapsed x i := by
    intro i hi
    cases i with
    | zero => exact h₀
    | succ i =>
      have hi := hp i (Nat.lt_of_succ_lt_succ hi)
      exact ⟨hcount i ▸ hi.inTime, hi.running, hi.unseen⟩
  cases h with
  | completed n hn hp ht hr =>
    exact .completed (n + 1) (Nat.succ_le_succ hn) (hpast hp) (hcount n ▸ ht) hr
  | interrupted n hn hp ht hr hs =>
    exact .interrupted (n + 1) (Nat.succ_le_succ hn) (hpast hp) (hcount n ▸ ht) hr hs
  | timedOut n hn hp ht hlate =>
    have hpath := WaitPath.timedOut (x := x) (n + 1) (Nat.succ_le_succ hn) (hpast hp) ht
      (hcount n ▸ hlate)
    rw [← hcount n] at hpath
    exact hpath
  | unfinished hp => exact .unfinished (hpast hp)

theorem goesOn_zero {k : Kernel} {h h₁ : Host ι C} (he : elapsed ≤ elapsedLimit)
    (ht : opts.Allows elapsed) (hr : k.atRest id = false)
    (hs : h.seesInterrupt opts.signal = (false, h₁)) : GoesOn id opts elapsed (k, h) 0 :=
  ⟨by rwa [counted_zero he], hr, congrArg Prod.fst hs⟩

theorem wholePass_eq {k : Kernel} {h h₁ : Host ι C} {signal seen : Bool}
    (hs : h.seesInterrupt signal = (seen, h₁)) : wholePass signal (k, h) = k.pass h₁ := by
  rw [wholePass, hs]

omit [Receiver ι] in
theorem counted_pass {k k' : Kernel} {h h' : Host ι C} (hp : k.pass h = (k', h')) (elapsed : Nat) :
    counted elapsed k.config.quantumMs 1 = min (elapsed + k'.config.quantumMs) elapsedLimit := by
  have hconfig : k'.config = k.config := congrArg (fun y => y.1.config) hp.symm
  rw [hconfig, counted, Nat.one_mul]

/-- **Every wait goes one of these ways.** Without a limit it does not matter what was counted. -/
theorem waitFrom_path (k : Kernel) (h : Host ι C) {count : Nat} (hcount : count ≤ elapsedLimit)
    (ht : opts.Allows count) (hsame : opts.timeout = none ∨ count = elapsed) :
    WaitPath id opts patience count (k, h) (k.waitFrom id opts patience elapsed h) := by
  fun_induction waitFrom id opts patience elapsed k h generalizing count with
  | case1 patience elapsed k h hr =>
    exact .completed 0 (Nat.zero_le _) nofun (by rwa [counted_zero hcount]) hr
  | case2 patience elapsed k h hr h₁ hs k' h' ha =>
    have hpath := WaitPath.interrupted (x := (k, h)) 0 (Nat.zero_le patience) nofun
      (by rwa [counted_zero hcount]) (eq_false_of_ne_true hr) hs
    rw [passes, ha] at hpath
    exact hpath
  | case3 elapsed k h hr h₁ hs k' h' hp =>
    have hfirst := goesOn_zero hcount ht (eq_false_of_ne_true hr) hs
    have hpath : WaitPath id opts 0 count (k, h) _ :=
      .unfinished fun i hi => Nat.lt_one_iff.mp hi ▸ hfirst
    rw [passes, passes, wholePass_eq hs, hp] at hpath
    exact hpath
  | case4 elapsed k h hr h₁ hs k' h' hp patience hnone ih =>
    refine .later (goesOn_zero hcount ht (eq_false_of_ne_true hr) hs) ?_
    rw [wholePass_eq hs, hp]
    refine ih (Nat.min_le_right _ _) (fun limit hlimit => ?_) (.inl hnone)
    rw [hnone] at hlimit
    cases hlimit
  | case5 elapsed k h hr h₁ hs k' h' hp patience limit htime elapsed' =>
    rename_i hlate
    obtain rfl : count = elapsed := hsame.resolve_left (by simp [htime])
    refine .later (goesOn_zero hcount ht (eq_false_of_ne_true hr) hs) ?_
    rw [wholePass_eq hs, hp, counted_pass hp]
    have hpath : WaitPath id opts patience elapsed' (k', h') _ :=
      .timedOut 0 (Nat.zero_le _) nofun htime (by rwa [counted_zero (Nat.min_le_right _ _)])
    rw [counted_zero (Nat.min_le_right _ _)] at hpath
    exact hpath
  | case6 elapsed k h hr h₁ hs k' h' hp patience limit htime elapsed' =>
    rename_i hlate ih
    obtain rfl : count = elapsed := hsame.resolve_left (by simp [htime])
    refine .later (goesOn_zero hcount ht (eq_false_of_ne_true hr) hs) ?_
    rw [wholePass_eq hs, hp, counted_pass hp]
    refine ih (Nat.min_le_right _ _) (fun limit' hlimit => ?_) (.inr rfl)
    rw [htime] at hlimit
    cases hlimit
    exact Nat.le_of_not_lt hlate

theorem wait_path (patience : Nat) (k : Kernel) (id : TaskId) (opts : WaitOptions) (h : Host ι C) :
    WaitPath id opts patience 0 (k, h) (k.wait patience id opts h) :=
  waitFrom_path k h (Nat.zero_le _) (fun _ _ => Nat.zero_le _) (.inr rfl)

/-! ## The kernel after a wait -/

/-- How a wait for a task can end: its outcome, if there is one, and the kernel after it. -/
inductive WaitEnd (id : TaskId) (opts : WaitOptions) (k : Kernel) :
    Option WaitOutcome → Kernel → Prop
  | completed (n : Nat) (h : (k.turns n).atRest id = true) :
    WaitEnd id opts k (some .completed) (k.turns n)
  /-- A Ctrl-C was seen while the task was running. -/
  | interrupted (n : Nat) (hs : opts.signal = true) (h : (k.turns n).atRest id = false) :
    WaitEnd id opts k (some .interrupted) ((k.turns n).interrupt id).value.2
  | timedOut (n : Nat) (ht : opts.timeout ≠ none) : WaitEnd id opts k (some .timedOut) (k.turns n)
  | unfinished (n : Nat) : WaitEnd id opts k none (k.turns n)

theorem signal_of_seesInterrupt {h h' : Host ι C} {signal : Bool}
    (hs : h.seesInterrupt signal = (true, h')) : signal = true := by
  cases signal with
  | true => rfl
  | false => cases hs

/-- **Every wait ends in one of the known ways**, or it ran out of patience. -/
theorem wait_ends (patience : Nat) (k : Kernel) (id : TaskId) (opts : WaitOptions)
    (h : Host ι C) : WaitEnd id opts k (k.wait patience id opts h).outcome
      (k.wait patience id opts h).kernel := by
  have hpath := wait_path patience k id opts h
  have hturns (n : Nat) : (passes opts.signal n (k, h)).1 = k.turns n := fst_passes _ n _
  generalize k.wait patience id opts h = w at hpath
  cases hpath with
  | completed n _ _ _ hr =>
    rw [hturns] at hr ⊢
    exact .completed n hr
  | interrupted n _ _ _ hr hs =>
    rw [hturns] at hr ⊢
    exact .interrupted n (signal_of_seesInterrupt hs) hr
  | timedOut n _ _ ht _ =>
    rw [hturns]
    exact .timedOut n (by simp [ht])
  | unfinished _ =>
    rw [hturns]
    exact .unfinished (patience + 1)

end Kernel

end Coop
