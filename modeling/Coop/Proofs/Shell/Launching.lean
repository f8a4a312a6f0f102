import Coop.Proofs.Kernel.StaleCode
import Coop.Proofs.Shell.Rollback

/-!
# Compiling decides about launching

Whether a task can be launched is settled when a script is compiled into it: a script that was
accepted is launched, and one that was refused leaves nothing to launch.

* `Task.refusal?`: why a script cannot be put into a task, if it cannot;
* `Task.compile_eq_refusal?`, `Kernel.compile_eq_refusal?`: this is what the compiler answers and
  what it notes in the task;
* `Kernel.task?_of_launched`: a task that was launched is ready and without an error;
* **`compile_and_execute_agree`**: compiling and launching, and what follows for the shell.
-/

namespace Coop

/-- Why a script cannot be put into a task: the compiler refuses it, or its image is larger than the
heap. -/
def Task.refusal? (t : Task) (source : String) : Option CompileError :=
  match Coop.compile source with
  | .error e => some e
  | .ok image =>
    if image.size ≤ t.arena.capacity then none
    else some ⟨0, .doesNotFit ⟨image.size, t.arena.capacity⟩⟩

theorem Task.compile_eq_refusal? {t : Task} (hd : t.phase = .dormant) (source : String) :
    (t.compile source).value.1 = (t.refusal? source).isNone ∧
      (t.compile source).value.2.compileError = t.refusal? source := by
  rw [value_compile, if_pos hd]
  unfold refusal?
  cases Coop.compile source with
  | error e => exact ⟨rfl, rfl⟩
  | ok image =>
    by_cases hle : image.size ≤ t.arena.capacity
    · obtain ⟨arena, hstore⟩ : ∃ arena, t.arena.clear.storeImage image = .ok arena :=
        ⟨_, if_pos hle⟩
      dsimp only
      rw [if_pos hle, hstore]
      exact ⟨rfl, rfl⟩
    · -- the heap is as large after it was cleared
      have hstore : t.arena.clear.storeImage image =
          .error ⟨image.size, t.arena.capacity⟩ := if_neg hle
      dsimp only
      rw [if_neg hle, hstore]
      exact ⟨rfl, rfl⟩

namespace Kernel

variable {k : Kernel} {id : TaskId} {t : Task}

theorem compile_eq_refusal? (ht : k.task? id = some t) (hd : t.phase = .dormant)
    (source : String) : (k.compile id source).value.1 = (t.refusal? source).isNone ∧
      ∃ u, (k.compile id source).value.2.task? id = some u ∧
        u.compileError = t.refusal? source := by
  obtain ⟨hanswer, hnoted⟩ := Task.compile_eq_refusal? hd source
  unfold compile
  rw [ht]
  exact ⟨hanswer, _, task?_put_self ht (t.id_compile source), hnoted⟩

theorem task?_of_launched {image body : ByteArray} (ht : k.task? id = some t)
    (himage : t.image? = some image) (hbody : Image.body image = .ok body)
    (hd : t.phase = .dormant) : (k.execute id).value.1 = true ∧
      ∃ u, (k.execute id).value.2.task? id = some u ∧ u.phase = .ready ∧ u.error = none := by
  obtain ⟨hok, hlaunched⟩ := Task.launched_of_body himage hbody hd
  refine ⟨(execute_fst ht).trans hok, t.launched, task?_execute ht, ?_, ?_⟩
  · rw [hlaunched]
  · rw [hlaunched]

theorem execute_of_accepted {source : String} (h : (k.compile id source).value.1 = true) :
    ((k.compile id source).value.2.execute id).value.1 = true ∧
      ∃ u, ((k.compile id source).value.2.execute id).value.2.task? id = some u ∧
        u.phase = .ready ∧ u.error = none := by
  obtain ⟨image, t, hc, ht, himage, hd⟩ := exists_of_compiled h
  obtain ⟨body, hbody⟩ := exists_body_of_compile hc
  exact task?_of_launched ht himage hbody hd

end Kernel

open Kernel

/-- **Compiling and launching agree.** A script is accepted for a dormant task unless the compiler
refuses it or its image is larger than the heap. After it was accepted, a request to run the task
succeeds and leaves it ready and without an error. After it was refused, the task says why, has no
image, and a request to run it fails and leaves it dormant. So a background task that is started
from a script is never rejected at launch. -/
theorem compile_and_execute_agree {V : Type} (s : Shell V) {k : Kernel} {id : TaskId} {t : Task}
    (ht : k.task? id = some t) (hd : t.phase = .dormant) (source : String) :
    ((k.compile id source).value.1 = true ↔
      ∃ image, Coop.compile source = .ok image ∧ image.size ≤ t.arena.capacity) ∧
    ((k.compile id source).value.1 = true →
      ((k.compile id source).value.2.execute id).value.1 = true ∧
      ∃ u, ((k.compile id source).value.2.execute id).value.2.task? id = some u ∧
        u.phase = .ready ∧ u.error = none) ∧
    ((k.compile id source).value.1 = false →
      (∃ u e, (k.compile id source).value.2.task? id = some u ∧ u.compileError = some e ∧
        t.refusal? source = some e ∧ u.image? = none) ∧
      ((k.compile id source).value.2.execute id).value.1 = false ∧
      ((k.compile id source).value.2.execute id).value.2.phase? id = some .dormant) ∧
    ∀ name f, (s.spawn name source).value.1 ≠ .error (.exec f) := by
  obtain ⟨hanswer, u, hu, hnoted⟩ := compile_eq_refusal? ht hd source
  refine ⟨?_, execute_of_accepted, fun hrefused => ?_, fun name f => s.spawn_ne_exec name source f⟩
  · rw [hanswer, Option.isNone_iff_eq_none, Task.refusal?]
    cases Coop.compile source with
    | error e => simp
    | ok image => simp
  · obtain ⟨u', hu', hdormant, himage⟩ := task?_of_refused ht hd hrefused
    obtain rfl : u = u' := Option.some.inj (hu.symm.trans hu')
    obtain ⟨e, he⟩ : ∃ e, t.refusal? source = some e := by
      rw [← Option.isSome_iff_exists, ← Option.not_isNone, ← hanswer, hrefused]
      rfl
    exact ⟨⟨u, e, hu, hnoted.trans he, he, himage⟩, execute_of_image?_eq_none hu hdormant himage⟩

/-- On a heap of fourteen bytes, a script with one statement fills it to the last byte, and one with
two is a byte too long. -/
theorem compile_and_execute_agree_full : ∃ k : Kernel, Reachable k ∧
    k.phase? ⟨1⟩ = some .dormant ∧
    ((k.compile ⟨1⟩ "pass").value.1 = true ∧
      ((k.compile ⟨1⟩ "pass").value.2.execute ⟨1⟩).value.1 = true) ∧
    (k.compile ⟨1⟩ "pass\npass").value.1 = false ∧
    (∃ u, (k.compile ⟨1⟩ "pass\npass").value.2.task? ⟨1⟩ = some u ∧
      u.compileError = some ⟨0, .doesNotFit ⟨15, 14⟩⟩ ∧ u.image? = none) ∧
    ((k.compile ⟨1⟩ "pass\npass").value.2.execute ⟨1⟩).value.1 = false := by
  let k := ((Kernel.new { Config.default with heapSize := 14 }).create none).value.2
  let t := Task.new ⟨1⟩ none 14 Config.default.priority
  let s : Shell Unit := .new .default ()
  have hk : Reachable k := .create (.new _) none (by decide +kernel)
  have ht : k.task? ⟨1⟩ = some t := by decide +kernel
  obtain ⟨-, hrun, -, -⟩ := compile_and_execute_agree s ht rfl "pass"
  obtain ⟨-, -, hleft, -⟩ := compile_and_execute_agree s ht rfl "pass\npass"
  have hok : (k.compile ⟨1⟩ "pass").value.1 = true := by decide +kernel
  have hno : (k.compile ⟨1⟩ "pass\npass").value.1 = false := by decide +kernel
  obtain ⟨⟨u, e, hu, herror, hwhy, himage⟩, hexec, -⟩ := hleft hno
  have he : t.refusal? "pass\npass" = some ⟨0, .doesNotFit ⟨15, 14⟩⟩ := by decide +kernel
  rw [hwhy] at he
  exact ⟨k, hk, by decide +kernel, ⟨hok, (hrun hok).1⟩, hno,
    ⟨u, hu, herror.trans he, himage⟩, hexec⟩

end Coop
