import Coop.Proofs.Kernel.Compiled
import Coop.Proofs.Shell.History
import Coop.Volume.Memory
import Mathlib.Control.Monad.Basic

/-!
# Background tasks that could not be started

A script that is refused leaves nothing behind: the task made for it is destroyed and its name is
free again. The same holds for a file that cannot be loaded. A file that is loaded and then rejected
at launch is different: its task stays, dormant, and keeps the name.

* `spawn_ne_exec`: a script is never rejected at launch;
* `Restored`: the tasks and the names are what they were;
* `SetUp.restored`, `SetUp.drafted`: the two kinds of failure;
* **`failed_start_restores`**: what is left behind by a call that failed;
* `cut_image_keeps_its_name`: a file that is rejected at launch.
-/

namespace Coop

namespace Shell

variable {V : Type} {s s' : Shell V} {name : String}

theorem retract_ne_exec (s : Shell V) (name : String) {why : ShellError} {f : Fault}
    (hw : why ≠ .exec f) : (s.retract name why).value.1 ≠ .error (.exec f) := by
  unfold retract
  dsimp only [Logged.value_bind]
  cases (s.kernel.remove name).value.1 with
  | error e => nofun
  | ok u =>
    intro he
    exact hw (Except.error.inj he)

/-- A script is never rejected at launch. -/
theorem spawn_ne_exec (s : Shell V) (name source : String) (f : Fault) :
    (s.spawn name source).value.1 ≠ .error (.exec f) := by
  unfold spawn
  dsimp only [Logged.value_bind]
  cases (s.kernel.create (some name)).value.1 with
  | error e => nofun
  | ok id =>
    dsimp only [Logged.value_bind]
    split_ifs with hc
    · rw [value_launch, if_pos (Kernel.execute_of_compiled hc)]
      nofun
    · exact retract_ne_exec _ name nofun

/-- The tasks and the names are what they were. -/
structure Restored (s s' : Shell V) : Prop where
  tasks : s'.kernel.scheduler.tasks = s.kernel.scheduler.tasks
  registry : s'.kernel.registry = s.kernel.registry

/-- A call that failed before the launch leaves nothing behind. -/
theorem SetUp.restored {e : ShellError} (h : SetUp s name (.error e) s')
    (he : ∀ f, e ≠ .exec f) : s.Restored s' := by
  cases h with
  | taken => exact ⟨rfl, rfl⟩
  | refused _ _ _ ht hr => exact ⟨ht, hr⟩
  | rejected => exact absurd rfl (he _)

theorem SetUp.drafted {f : Fault} (h : SetUp s name (.error (.exec f)) s') :
    s.task name = none ∧ s.kernel.Drafted (some name) s'.kernel := by
  cases h with
  | refused _ hw => exact absurd rfl (hw f)
  | rejected hn hd => exact ⟨hn, hd⟩

variable [Volume V]

/-- **What a background task that could not be started leaves behind.** After a script was refused,
for whatever reason, the tasks and the names are what they were. The same holds after a file was
refused, unless it was loaded and then rejected at launch: then the task made for it is still there,
dormant, next to the tasks from before, and the name stands for it. -/
theorem failed_start_restores (h : s.Exposed) (name : String)
    (hroom : s.task name = none → s.kernel.HasRoom) :
    (∀ (source : String) (e : ShellError), (s.spawn name source).value.1 = .error e →
      s.Restored (s.spawn name source).value.2) ∧
    ∀ (path : String) (e : ShellError), (s.start name path).value.1 = .error e →
      ((∀ f, e ≠ .exec f) → s.Restored (s.start name path).value.2) ∧
      ((∃ f, e = .exec f) →
        s.task name = none ∧ (s.start name path).value.2.task name = some s.kernel.fresh ∧
        (s.start name path).value.2.kernel.phase? s.kernel.fresh = some .dormant ∧
        (s.start name path).value.2.kernel.others s.kernel.fresh = s.kernel.scheduler.tasks) := by
  have hk := h.sound.kernel
  refine ⟨fun source e he => ?_, fun path e he => ⟨fun hne => ?_, ?_⟩⟩
  · have hset := spawn_setsUp hk hroom source
    rw [he] at hset
    refine hset.restored fun f hf => ?_
    exact spawn_ne_exec s name source f (hf ▸ he)
  · have hset := start_setsUp hk hroom path
    rw [he] at hset
    exact hset.restored hne
  · rintro ⟨f, rfl⟩
    have hset := start_setsUp hk hroom path
    rw [he] at hset
    obtain ⟨hn, hd⟩ := hset.drafted
    exact ⟨hn, hd.lookup hn, hd.dormant, hd.others⟩

/-- Next to a task that is running, a script with an `end` too many and a file that does not exist
are to be started. -/
theorem failed_start_restores_unmatched : ∃ s : Shell MemoryVolume,
    s.Exposed ∧ s.kernel.phase? ⟨1⟩ = some .ready ∧
    (s.spawn "a" "end").value.1 = .error (.compile ⟨1, .malformed .unmatchedEnd⟩) ∧
    s.Restored (s.spawn "a" "end").value.2 ∧
    (s.start "a" "/f").value.1 = .error (.load (.notFound "/f")) ∧
    s.Restored (s.start "a" "/f").value.2 := by
  let s₀ : Shell MemoryVolume := new { Config.default with heapSize := 32 } .empty
  let s := (s₀.spawn "b" "pass").value.2
  have h₀ : s₀.Exposed := .new _ _
  have hs : s.Exposed := h₀.step (.spawn "b" "pass" fun _ => by decide +kernel)
  have hspawn : (s.spawn "a" "end").value.1 =
      .error (.compile ⟨1, .malformed .unmatchedEnd⟩) := by decide +kernel
  have hstart : (s.start "a" "/f").value.1 = .error (.load (.notFound "/f")) := by decide +kernel
  obtain ⟨hscript, hfile⟩ := failed_start_restores hs "a" fun _ => by decide +kernel
  exact ⟨s, hs, by decide +kernel, hspawn, hscript "end" _ hspawn, hstart,
    (hfile "/f" _ hstart).1 nofun⟩

/-- A file that opens like an image and ends within its header: it is loaded and rejected, the task
stays, and its name cannot be used again. -/
theorem cut_image_keeps_its_name : ∃ s : Shell MemoryVolume,
    s.Exposed ∧ s.kernel.live = [] ∧ s.task "a" = none ∧
    (s.start "a" "/cut").value.1 = .error (.exec (.badImage .truncatedHeader)) ∧
    (s.start "a" "/cut").value.2.kernel.live = [⟨1⟩] ∧
    (s.start "a" "/cut").value.2.task "a" = some ⟨1⟩ ∧
    ((s.start "a" "/cut").value.2.spawn "a" "pass").value.1 =
      .error (.registry (.duplicate ⟨1⟩)) := by
  let s : Shell MemoryVolume := new { Config.default with heapSize := 32 }
    (MemoryVolume.empty.addFile "/cut" "RITE0300".toByteArray)
  exact ⟨s, .new _ _, rfl, rfl, by decide +kernel, by decide +kernel, by decide +kernel,
    by decide +kernel⟩

end Shell

end Coop
