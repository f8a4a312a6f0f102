import Coop.Proofs.Shell.Calls

/-!
# Histories of a shell

The states a shell can be in: after any sequence of its own calls, and also when the kernel was lent
out in between and came back in any state that calls on a kernel lead to.

* `Sound`: the kernel is one that calls on a kernel lead to, and no orphan is waiting;
* `Step`: the calls on a shell;
* `Reachable`, `Exposed`: the states they lead to, without and with lending the kernel;
* **`Exposed.sound`**: all of them are sound.
-/

namespace Coop

namespace Shell

variable {V : Type} {s s' : Shell V}

/-- The kernel is one that calls on a kernel lead to, and no orphan is waiting. -/
structure Sound (s : Shell V) : Prop where
  kernel : s.kernel.Reachable
  orphans : s.orphans = []

theorem Sound.of_kept (h : s.Sound) (hk : s.Kept s') : s'.Sound :=
  ⟨hk.reachable, hk.orphans.trans h.orphans⟩

theorem Sound.of_setUp (h : s.Sound) {name : String} {r : Except ShellError TaskId}
    (hs : SetUp s name r s') : s'.Sound := by
  cases hs with
  | taken => exact h
  | refused _ _ hk => exact ⟨hk, h.orphans⟩
  | rejected _ hd => exact ⟨hd.reachable, h.orphans⟩
  | launched _ hk => exact ⟨hk, h.orphans⟩

theorem Sound.ensureEvaluator (h : s.Sound) (hroom : ¬ s.HasEvaluator → s.kernel.HasRoom) :
    s.ensureEvaluator.value.2.Sound := by
  by_cases he : s.HasEvaluator
  · obtain ⟨id, hl, he⟩ := he
    rw [ensureEvaluator_of_live he hl]
    exact h
  · rw [ensureEvaluator_of_not he]
    exact ⟨h.kernel.create none (hroom he), h.orphans⟩

/-! ## Calls -/

variable [Volume V]

/-- One call on a shell that returned. A call that makes a task needs a number for it. -/
inductive Step (s : Shell V) : Shell V → Prop
  | spawn (name source : String) (hroom : s.task name = none → s.kernel.HasRoom) :
    Step s (s.spawn name source).value.2
  | start (name path : String) (hroom : s.task name = none → s.kernel.HasRoom) :
    Step s (s.start name path).value.2
  | suspend (name : String) : Step s (s.suspend name).2
  | resume (name : String) : Step s (s.resume name).2
  | kill (name : String) : Step s (s.kill name).value.2
  | remove (name : String) : Step s (s.remove name).value.2
  | evaluate {ι C : Type} [Receiver ι] (patience : Nat) (host : Host ι C) (source : String)
    (hroom : ¬ s.HasEvaluator → s.kernel.HasRoom)
    (hr : (s.evaluate patience host source).result ≠ none) :
    Step s (s.evaluate patience host source).shell
  | runFile {ι C : Type} [Receiver ι] (patience : Nat) (host : Host ι C) (path : String)
    (hroom : s.kernel.HasRoom) (hr : (s.runFile patience host path).result ≠ none) :
    Step s (s.runFile patience host path).shell
  | poll {ι C : Type} (host : Host ι C) : Step s (s.poll host).2.1
  /-- The volume changes behind the back of the shell. -/
  | volume (vol : V) : Step s { s with volume := vol }

/-- The states the calls on a shell lead to. -/
inductive Reachable : Shell V → Prop
  | new (config : Config) (vol : V) : Reachable (new config vol)
  | step {s s' : Shell V} (h : Reachable s) (hs : s.Step s') : Reachable s'

/-- The states a shell can be in if the kernel is also lent out and called directly. -/
inductive Exposed : Shell V → Prop
  | new (config : Config) (vol : V) : Exposed (new config vol)
  | step {s s' : Shell V} (h : Exposed s) (hs : s.Step s') : Exposed s'
  | lend {s : Shell V} (h : Exposed s) {k : Kernel} (hk : k.Reachable) :
    Exposed { s with kernel := k }

theorem Reachable.exposed (h : s.Reachable) : s.Exposed := by
  induction h with
  | new config vol => exact .new config vol
  | step _ hs ih => exact .step ih hs

/-- No call on a shell ends with an orphan waiting. -/
theorem Step.sound (hs : s.Step s') (h : s.Sound) : s'.Sound := by
  cases hs with
  | spawn name source hroom => exact h.of_setUp (spawn_setsUp h.kernel hroom source)
  | start name path hroom => exact h.of_setUp (start_setsUp h.kernel hroom path)
  | suspend name => exact h.of_kept (kept_suspend h.kernel name)
  | resume name => exact h.of_kept (kept_resume h.kernel name)
  | kill name => exact h.of_kept (kept_kill h.kernel name)
  | remove name =>
    rw [remove_snd]
    exact ⟨h.kernel.remove name, h.orphans⟩
  | evaluate patience host source hroom =>
    -- the task for the line may have to be made first
    have he := h.ensureEvaluator hroom
    exact he.of_kept (kept_evaluate patience host source he.kernel)
  | runFile patience host path hroom hr =>
    exact h.of_kept (kept_runFile h.kernel h.orphans hroom patience host path hr)
  | poll host => exact h.of_kept (kept_poll h.kernel h.orphans host)
  | volume => exact ⟨h.kernel, h.orphans⟩

/-- **Whatever is done with a shell, no orphan is left waiting.** -/
theorem Exposed.sound (h : s.Exposed) : s.Sound := by
  induction h with
  | new config vol => exact ⟨.new config, rfl⟩
  | step _ hs ih => exact hs.sound ih
  | lend _ hk ih => exact ⟨hk, ih.orphans⟩

end Shell

end Coop
