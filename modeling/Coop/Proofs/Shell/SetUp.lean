import Coop.Proofs.Kernel.Drafts
import Coop.Shell

/-!
# Setting up a background task

A background task is made under a name, gets its program and is launched. Any of the three may fail,
and what is left behind depends on which one did.

* `value_retract`, `value_launch`: taking a task back, and launching it;
* `SetUp`: what can become of a task that is set up;
* **`spawn_setsUp`**, **`start_setsUp`**: for scripts, and for files.
-/

namespace Coop

namespace Shell

variable {V : Type} {s : Shell V} {name : String}

theorem value_retract {id : TaskId} (hl : s.task name = some id)
    (hd : s.kernel.phase? id = some .dormant) (why : ShellError) : (s.retract name why).value =
      (.error why, { s with kernel := (s.kernel.destroy id).value.2 }) := by
  have hv := Kernel.value_remove hl
  rw [Kernel.value_destroy hd] at hv ⊢
  unfold retract
  rw [Logged.value_bind, hv]
  rfl

theorem value_launch (s : Shell V) (id : TaskId) (announcement : String) :
    (s.launch id announcement).value =
      (if (s.kernel.execute id).value.1 then .ok id
        else .error (.exec ((s.kernel.execute id).value.2.failure id)),
        { s with kernel := (s.kernel.execute id).value.2 }) := by
  unfold launch
  dsimp only [Logged.value_bind]
  cases (s.kernel.execute id).value with
  | mk launched k => cases launched <;> rfl

/-- **What can become of a task that is set up** under a name: the answer, and the shell after it.
-/
inductive SetUp (s : Shell V) (name : String) : Except ShellError TaskId → Shell V → Prop
  | taken {holder : TaskId} (hn : s.task name = some holder) :
    SetUp s name (.error (.registry (.duplicate holder))) s
  /-- There was no program to put in, and the task was destroyed again. -/
  | refused {why : ShellError} {k : Kernel} {vol : V} (hn : s.task name = none)
    (hw : ∀ f, why ≠ .exec f) (hk : k.Reachable)
    (ht : k.scheduler.tasks = s.kernel.scheduler.tasks)
    (hr : k.registry = s.kernel.registry) :
    SetUp s name (.error why) { s with kernel := k, volume := vol }
  /-- The program was rejected, and the task is still there. -/
  | rejected {f : Fault} {k : Kernel} {vol : V} (hn : s.task name = none)
    (hd : s.kernel.Drafted (some name) k) :
    SetUp s name (.error (.exec f)) { s with kernel := k, volume := vol }
  | launched {k : Kernel} {vol : V} (hn : s.task name = none) (hk : k.Reachable)
    (hp : (s.kernel.create (some name)).value.2.SamePopulation k) :
    SetUp s name (.ok s.kernel.fresh) { s with kernel := k, volume := vol }

namespace SetUp

variable {k : Kernel} (hn : s.task name = none) (hd : s.kernel.Drafted (some name) k)
include hn hd

theorem retract (h : s.kernel.Reachable) (hroom : s.kernel.HasRoom) (vol : V) {why : ShellError}
    (hw : ∀ f, why ≠ .exec f) :
    SetUp s name (Shell.retract { s with kernel := k, volume := vol } name why).value.1
      (Shell.retract { s with kernel := k, volume := vol } name why).value.2 := by
  obtain ⟨ht, hr⟩ := hd.destroy h hroom hn
  rw [value_retract (s := { s with kernel := k, volume := vol }) (hd.lookup hn) hd.dormant]
  exact .refused hn hw (hd.reachable.destroy _) ht hr

theorem launch (vol : V) (announcement : String) :
    SetUp s name
      (Shell.launch { s with kernel := k, volume := vol } s.kernel.fresh announcement).value.1
      (Shell.launch { s with kernel := k, volume := vol } s.kernel.fresh announcement).value.2 := by
  rw [value_launch]
  dsimp only
  cases hx : (k.execute s.kernel.fresh).value.1 with
  | false => exact .rejected hn (hd.execute hx)
  | true => exact .launched hn (hd.reachable.execute _) (hd.same.trans (.execute _))

end SetUp

section

variable (h : s.kernel.Reachable) (hroom : s.task name = none → s.kernel.HasRoom)
include h hroom

theorem create_or : (∃ holder, s.task name = some holder ∧
      (s.kernel.create (some name)).value = (.error (.duplicate holder), s.kernel)) ∨
    (s.task name = none ∧ s.kernel.HasRoom ∧
      ∃ k, (s.kernel.create (some name)).value = (.ok s.kernel.fresh, k) ∧
        s.kernel.Drafted (some name) k) := by
  cases hn : s.task name with
  | some holder => exact .inl ⟨holder, rfl, Kernel.value_create_of_taken hn⟩
  | none =>
    have hb : (some name).bind s.kernel.lookup = none := hn
    refine .inr ⟨rfl, hroom hn, _, ?_, Kernel.Drafted.create h (hroom hn) hb⟩
    rw [Kernel.value_create hb]

theorem spawn_setsUp (source : String) :
    SetUp s name (s.spawn name source).value.1 (s.spawn name source).value.2 := by
  unfold spawn
  rcases create_or h hroom with ⟨holder, hn, hc⟩ | ⟨hn, hroom, k, hc, hd⟩
  · rw [Logged.value_bind, hc]
    exact .taken hn
  · rw [Logged.value_bind, hc]
    dsimp only [Logged.value_bind]
    cases (k.compile s.kernel.fresh source).value.1 with
    | true => exact .launch hn (hd.compile source) s.volume _
    | false => exact .retract hn (hd.compile source) h hroom s.volume (fun _ => nofun)

theorem start_setsUp [Volume V] (path : String) :
    SetUp s name (s.start name path).value.1 (s.start name path).value.2 := by
  unfold start
  rcases create_or h hroom with ⟨holder, hn, hc⟩ | ⟨hn, hroom, k, hc, hd⟩
  · rw [Logged.value_bind, hc]
    exact .taken hn
  · rw [Logged.value_bind, hc]
    dsimp only [Logged.value_bind]
    cases (k.load s.volume s.kernel.fresh path).value.1 with
    | ok route => exact .launch hn (hd.load s.volume path) _ _
    | error e => exact .retract hn (hd.load s.volume path) h hroom _ (fun _ => nofun)

end

end Shell

end Coop
