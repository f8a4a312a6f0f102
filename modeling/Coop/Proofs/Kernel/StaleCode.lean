import Coop.Proofs.Kernel.History
import Coop.Volume.Memory
import Mathlib.Control.Monad.Basic

/-!
# Refused scripts

A script that is refused takes the image that was in the task before with it, so that nothing old is
left to run. A file that is no text at all is refused earlier, before the task is touched, and what
was in the task stays there.

* `Task.image?_of_refused`: the compiler drops the old image;
* `execute_of_image?_eq_none`: a task without an image is not started;
* **`refused_leaves_nothing_to_run`**: what is left in a task after a file was refused;
* `binary_leaves_old_image`: an old program that is started after a failed load.
-/

namespace Coop

theorem Task.image?_of_refused {t : Task} {source : String} (hd : t.phase = .dormant)
    (h : (t.compile source).value.1 = false) : (t.compile source).value.2.image? = none := by
  rw [value_compile, if_pos hd] at h ⊢
  cases hc : Coop.compile source with
  | error e => rfl
  | ok image =>
    cases hs : t.arena.clear.storeImage image with
    | error e => simp only [hs]; rfl
    | ok arena => simp [hc, hs] at h

namespace Kernel

variable {k : Kernel} {id : TaskId} {t : Task}

theorem execute_of_image?_eq_none (h : k.task? id = some t) (hd : t.phase = .dormant)
    (hi : t.image? = none) :
    (k.execute id).value.1 = false ∧ (k.execute id).value.2.phase? id = some .dormant := by
  have hl : t.launch.value = (false, t) := by
    rw [Task.value_launch, if_pos hd, hi]
  have hf : k.scheduler.find? id = some t := h
  have hexec : (k.execute id).value = (false, k.put t) := by
    unfold execute Scheduler.launch
    simp only [hf, Logged.value_bind, hl]
    rfl
  rw [hexec]
  exact ⟨rfl, (Scheduler.phase?_eq_some_iff _ _ _).mpr ⟨t, task?_put_self h rfl, hd⟩⟩

theorem task?_of_refused {source : String} (h : k.task? id = some t) (hd : t.phase = .dormant)
    (hc : (k.compile id source).value.1 = false) :
    ∃ u, (k.compile id source).value.2.task? id = some u ∧ u.phase = .dormant ∧
      u.image? = none := by
  unfold compile at hc ⊢
  rw [h] at hc ⊢
  refine ⟨(t.compile source).value.2, ?_, ?_, Task.image?_of_refused hd hc⟩
  · exact task?_put_self h (t.id_compile source)
  · rw [Task.phase_compile, hd]

theorem value_compileBytes_of_text {bytes : ByteArray} {source : String}
    (h : String.fromUTF8? bytes = some source) : (k.compileBytes id bytes).value =
      (if (k.compile id source).value.1 then .ok ()
        else .error (.compile ((k.compile id source).value.2.compileError id)),
        (k.compile id source).value.2) := by
  rw [compileBytes, h]
  rfl

theorem value_compileBytes_of_binary {bytes : ByteArray} (h : String.fromUTF8? bytes = none) :
    (k.compileBytes id bytes).value = (.error (.compile ⟨0, .notText⟩), k) := by
  rw [compileBytes, h]
  rfl

theorem value_install_of_compile {c : Contents} {e : CompileError}
    (h : (k.install id c).value.1 = .error (.compile e)) :
    (k.compileBytes id c.bytes).value.1 = .error (.compile e) ∧
      (k.install id c).value.2 = (k.compileBytes id c.bytes).value.2 := by
  obtain ⟨route, bytes⟩ := c
  have hmap {r : Except LoadError Unit} (hr : r.map (fun _ => route) = .error (.compile e)) :
      r = .error (.compile e) := by
    cases r with
    | ok u => cases hr
    | error e' => cases hr; rfl
  unfold install at h ⊢
  cases ht : k.task? id with
  | none =>
    rw [ht] at h
    cases route with
    | mappedImage | bufferedImage => cases h
    | mappedSource | bufferedSource => exact ⟨hmap h, rfl⟩
  | some t =>
    rw [ht] at h
    cases route with
    | mappedImage => cases h
    | bufferedImage =>
      dsimp only at h
      cases hl : t.loadImage bytes with
      | mk result t' =>
        rw [hl] at h
        cases result <;> cases h
    | mappedSource | bufferedSource => exact ⟨hmap h, rfl⟩

variable {V : Type} [Volume V]

/-- **What a refused file leaves in a task.** If loading a file into a dormant task ends in a
compile error, then a file was read. If it was a text, the task has no image afterwards, whatever
was in it before, and is not started by a request to run it. If it was no text, nothing changed. -/
theorem refused_leaves_nothing_to_run (vol : V) (hd : k.phase? id = some .dormant) (name : String)
    {e : CompileError} (he : (k.load vol id name).value.1 = .error (.compile e)) :
    ∃ c, (fetch k.config vol name).1 = .ok c ∧
      ((String.fromUTF8? c.bytes).isSome = true →
        (∃ t, (k.load vol id name).value.2.1.task? id = some t ∧ t.image? = none) ∧
        ((k.load vol id name).value.2.1.execute id).value.1 = false ∧
        ((k.load vol id name).value.2.1.execute id).value.2.phase? id = some .dormant) ∧
      (String.fromUTF8? c.bytes = none →
        e = ⟨0, .notText⟩ ∧ (k.load vol id name).value.2.1 = k) := by
  obtain ⟨t, ht, htd⟩ := (Scheduler.phase?_eq_some_iff _ _ _).mp hd
  rw [value_load hd] at he ⊢
  cases hf : fetch k.config vol name with
  | mk contents vol' =>
    rw [hf] at he
    cases contents with
    | error e' =>
      -- a file that is not read is not compiled either
      have hfe : (fetch k.config vol name).1 = .error e' := by rw [hf]
      cases he
      rcases fetch_error hfe with h | ⟨s, h⟩ <;> cases h
    | ok c =>
      obtain ⟨hc, hk⟩ := value_install_of_compile he
      refine ⟨c, rfl, fun htext => ?_, fun hbinary => ?_⟩
      all_goals
        dsimp only
        rw [hk]
      · obtain ⟨source, hsource⟩ := Option.isSome_iff_exists.mp htext
        rw [value_compileBytes_of_text hsource] at hc ⊢
        have hok : (k.compile id source).value.1 = false := by
          refine Bool.eq_false_iff.mpr fun hok => ?_
          rw [hok] at hc
          cases hc
        obtain ⟨u, hu, hud, hui⟩ := task?_of_refused ht htd hok
        exact ⟨⟨u, hu, hui⟩, execute_of_image?_eq_none hu hud hui⟩
      · rw [value_compileBytes_of_binary hbinary] at hc ⊢
        cases hc
        exact ⟨rfl, rfl⟩

/-- A task holds a program, and then a file with an `end` too many is loaded into it. -/
theorem refused_leaves_nothing_to_run_unmatched : ∃ (k : Kernel) (vol : MemoryVolume),
    Reachable k ∧ ((k.task? ⟨1⟩).bind Task.image?).isSome = true ∧
    (k.load vol ⟨1⟩ "/new").value.1 = .error (.compile ⟨1, .malformed .unmatchedEnd⟩) ∧
    (∃ t, (k.load vol ⟨1⟩ "/new").value.2.1.task? ⟨1⟩ = some t ∧ t.image? = none) ∧
    ((k.load vol ⟨1⟩ "/new").value.2.1.execute ⟨1⟩).value.1 = false := by
  let vol := (MemoryVolume.empty.addFile "/old" "pass".toByteArray).addFile "/new" "end".toByteArray
  let k := (((new { Config.default with heapSize := 32 }).create none).value.2.load vol ⟨1⟩
    "/old").value.2.1
  have hk : Reachable k := (Reachable.create (.new _) none (by decide +kernel)).load vol ⟨1⟩ "/old"
  have hd : k.phase? ⟨1⟩ = some .dormant := by decide +kernel
  have he : (k.load vol ⟨1⟩ "/new").value.1 = .error (.compile ⟨1, .malformed .unmatchedEnd⟩) := by
    decide +kernel
  obtain ⟨c, hc, htext, -⟩ := refused_leaves_nothing_to_run vol hd "/new" he
  have hbytes : c.bytes = "end".toByteArray := by
    have : (fetch k.config vol "/new").1 = .ok ⟨.bufferedSource, "end".toByteArray⟩ := by
      decide +kernel
    rw [this] at hc
    cases hc
    rfl
  obtain ⟨himage, hexec, -⟩ := htext (by rw [hbytes]; decide +kernel)
  exact ⟨k, vol, hk, by decide +kernel, he, himage, hexec⟩

/-- A task holds a program, and then a file that is no text is loaded into it: the load fails with a
compile error, and the old program can still be started. -/
theorem binary_leaves_old_image : ∃ (k : Kernel) (vol : MemoryVolume),
    Reachable k ∧ k.phase? ⟨1⟩ = some .dormant ∧
    (k.load vol ⟨1⟩ "/new").value.1 = .error (.compile ⟨0, .notText⟩) ∧
    (((k.load vol ⟨1⟩ "/new").value.2.1.task? ⟨1⟩).bind Task.image?).isSome = true ∧
    ((k.load vol ⟨1⟩ "/new").value.2.1.execute ⟨1⟩).value.1 = true ∧
    ((k.load vol ⟨1⟩ "/new").value.2.1.execute ⟨1⟩).value.2.phase? ⟨1⟩ = some .ready := by
  let vol := (MemoryVolume.empty.addFile "/old" "pass".toByteArray).addFile "/new" ⟨#[0xff]⟩
  have hk := (Reachable.create (.new { Config.default with heapSize := 32 }) none
    (by decide +kernel)).load vol ⟨1⟩ "/old"
  exact ⟨_, vol, hk, by decide +kernel, by decide +kernel, by decide +kernel, by decide +kernel,
    by decide +kernel⟩

end Kernel

end Coop
