import Coop.Proofs.Kernel.Running
import Coop.Proofs.Machine.Bodies

/-!
# Compiled scripts

An image that was built has a body, however long. So a script that was compiled into a task is never
rejected at launch.

* `Task.image?_of_compiled`, `Kernel.exists_of_compiled`: the compiled image is what the task holds;
* **`Kernel.execute_of_compiled`**: it is launched.
-/

namespace Coop

theorem exists_body_of_compile {source : String} {image : ByteArray}
    (h : compile source = .ok image) : ∃ body, Image.body image = .ok body := by
  unfold compile at h
  cases hp : parseScript source with
  | error e =>
    rw [hp] at h
    cases h
  | ok statements =>
    rw [hp] at h
    cases h
    obtain ⟨body, _, hbody, -⟩ := Image.body_build (assemble statements)
    exact ⟨body, hbody⟩

namespace Task

variable {t : Task}

theorem image?_of_compiled {source : String} (h : (t.compile source).value.1 = true) :
    t.phase = .dormant ∧ ∃ image, Coop.compile source = .ok image ∧
      (t.compile source).value.2.image? = some image := by
  rw [value_compile] at h ⊢
  by_cases hd : t.phase = .dormant
  · rw [if_pos hd] at h ⊢
    cases hc : Coop.compile source with
    | error e => simp [hc] at h
    | ok image =>
      cases hs : t.arena.clear.storeImage image with
      | error e => simp [hc, hs] at h
      | ok arena =>
        refine ⟨hd, image, rfl, ?_⟩
        simp only [hs]
        exact congrArg some (Arena.image_storeImage hs)
  · rw [if_neg hd] at h
    cases h

end Task

namespace Kernel

variable {k : Kernel} {id : TaskId} {source : String}

theorem exists_of_compiled (h : (k.compile id source).value.1 = true) : ∃ image t,
    Coop.compile source = .ok image ∧ (k.compile id source).value.2.task? id = some t ∧
      t.image? = some image ∧ t.phase = .dormant := by
  cases ht : k.task? id with
  | none =>
    rw [compile, ht] at h
    cases h
  | some t =>
    have hvalue : (k.compile id source).value =
        ((t.compile source).value.1, k.put (t.compile source).value.2) := by
      rw [compile, ht]
      rfl
    rw [hvalue] at h ⊢
    obtain ⟨hd, image, hc, himage⟩ := Task.image?_of_compiled h
    refine ⟨image, (t.compile source).value.2, hc, ?_, himage, ?_⟩
    · exact task?_put_self ht (t.id_compile source)
    · rw [Task.phase_compile, hd]

theorem execute_of_compiled (h : (k.compile id source).value.1 = true) :
    ((k.compile id source).value.2.execute id).value.1 = true := by
  obtain ⟨image, t, hc, ht, himage, hd⟩ := exists_of_compiled h
  obtain ⟨body, hbody⟩ := exists_body_of_compile hc
  rw [execute_fst ht]
  exact (Task.launched_of_body himage hbody hd).1

end Kernel

end Coop
