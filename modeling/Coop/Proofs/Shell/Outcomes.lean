import Coop.Proofs.Kernel.Outcomes
import Coop.Proofs.Shell.Calls
import Coop.Volume.Memory

/-!
# What the shell reports

A line typed in is compiled into the task for such lines, which may have been used many times
before. What is reported is what became of this line.

* `Entered`: the program of a line, and the task it is compiled into;
* `evaluateIn_faithful`, **`evaluate_faithful`**: lines typed in;
* **`outcomes_are_faithful`**: files and lines.
-/

namespace Coop

namespace Shell

variable {V ι C : Type} [Receiver ι] {s : Shell V} {patience : Nat} {host : Host ι C}
  {source : String}

/-- A line is compiled to an image, which is then the image of the task for lines typed in. -/
structure Entered (s : Shell V) (source : String) (id : TaskId) (image : ByteArray) (t : Task) :
    Prop where
  evaluator : s.ensureEvaluator.value.1 = .ok id
  compiled : compile source = .ok image
  task : (s.ensureEvaluator.value.2.kernel.compile id source).value.2.task? id = some t
  image : t.image? = some image

theorem evaluateIn_faithful (h : s.kernel.Reachable) {id : TaskId} {o : RunOutcome}
    (hr : (s.evaluateIn patience id host source).result = some (.ok o)) :
    ∃ image t, compile source = .ok image ∧
      (s.kernel.compile id source).value.2.task? id = some t ∧ t.image? = some image ∧
      Faithful image t.arena id o := by
  unfold evaluateIn Host.absorb at hr
  dsimp only at hr
  cases hc : (s.kernel.compile id source).value.1 with
  | false => simp [hc] at hr
  | true =>
    obtain ⟨image, t, hcompile, ht, himage, hd⟩ := Kernel.exists_of_compiled hc
    have hx := Kernel.execute_of_compiled hc
    obtain ⟨body, hbody, hlaunched, hprogress⟩ := Kernel.progress_of_launched ht hd himage hx
    refine ⟨image, t, hcompile, ht, himage, ?_⟩
    simp only [hc, hx, Bool.not_true, Bool.false_eq_true, if_false] at hr
    split at hr
    · cases hr
    next o' ho' =>
      cases hr
      exact Kernel.join_faithful ((h.compile id source).execute id) hlaunched hprogress hbody
        patience .untilSignal _ ho'

/-- **A line typed in reports on its own program.** -/
theorem evaluate_faithful (h : s.kernel.Reachable) (hroom : ¬ s.HasEvaluator → s.kernel.HasRoom)
    {o : RunOutcome} (hr : (s.evaluate patience host source).result = some (.ok o)) :
    ∃ id image t, s.Entered source id image t ∧ Faithful image t.arena id o := by
  have hensured : s.ensureEvaluator.value.2.kernel.Reachable := by
    by_cases he : s.HasEvaluator
    · obtain ⟨id, hl, he⟩ := he
      rw [ensureEvaluator_of_live he hl]
      exact h
    · rw [ensureEvaluator_of_not he]
      exact h.create none (hroom he)
  unfold evaluate Host.absorb at hr
  dsimp only at hr
  cases hf : s.ensureEvaluator.value.1 with
  | error e => simp [hf] at hr
  | ok id =>
    rw [hf] at hr
    dsimp only at hr
    split at hr
    · cases hr
    · obtain ⟨image, t, hcompile, ht, himage, hfaithful⟩ := evaluateIn_faithful hensured hr
      exact ⟨id, image, t, ⟨hf, hcompile, ht, himage⟩, hfaithful⟩

/-- **Outcomes are faithful.** For every reachable kernel, volume and host: whatever a run of a file
reports, in a fresh task or in one that was used before, is what became of the program that this run
loaded and launched, from its first instruction on the heap as the load left it; and a run that
fails to load its file leaves the same tasks behind, each in the phase it was in. What a line typed
in reports is what became of the program it was compiled to. -/
theorem outcomes_are_faithful [Volume V] {k : Kernel} (hk : k.Reachable) (hs : s.kernel.Reachable)
    (patience : Nat) (host : Host ι C) :
    (∀ (vol : V) (name : String) (opts : RunOptions), (opts.task = none → k.HasRoom) →
      (∀ o, (k.run patience vol host name opts).result = some (.ok o) →
        ∃ image t, (k.runStart opts).1.Brought vol (k.runStart opts).2 name image t ∧
          Faithful image t.arena (k.runStart opts).2 o) ∧
      ∀ e, (k.run patience vol host name opts).result = some (.error e) →
        (k.run patience vol host name opts).kernel.live = k.live ∧
          ∀ u, (k.run patience vol host name opts).kernel.phase? u = k.phase? u) ∧
    ∀ source, (¬ s.HasEvaluator → s.kernel.HasRoom) →
      ∀ o, (s.evaluate patience host source).result = some (.ok o) →
        ∃ id image t, s.Entered source id image t ∧ Faithful image t.arena id o := by
  refine ⟨fun vol name opts hroom => ⟨fun o hr => ?_, fun e hr => ?_⟩, fun source hroom o hr => ?_⟩
  · exact Kernel.run_faithful hk hroom hr
  · exact Kernel.run_refused hk hroom hr
  · exact evaluate_faithful hs hroom hr

/-- A task that failed before: a file runs in it to its end, or else a line typed in fails. -/
theorem outcomes_are_faithful_reused : ∃ (k : Kernel) (s : Shell MemoryVolume) (image : ByteArray)
    (t : Task), k.Reachable ∧ k.error? ⟨1⟩ = some (.raised "old") ∧ s.kernel = k ∧
    (k.Brought s.volume ⟨1⟩ "/new" image t ∧ Faithful image t.arena ⟨1⟩ (.completed ⟨1⟩)) ∧
    ∃ id image t, s.Entered "raise 'new'" id image t ∧
      Faithful image t.arena id (.failed ⟨1⟩ (.raised "new")) := by
  let host : Host Silence Unit := Host.new {} (Lines.new 0) none none
  let opts : RunOptions := ⟨some ⟨1⟩, true, .untilSignal⟩
  let vol := MemoryVolume.empty.addFile "/new" "pass".toByteArray
  let k := ((((Kernel.new { Config.default with heapSize := 32 }).create none).value.2.compile ⟨1⟩
    "raise 'old'").value.2.execute ⟨1⟩).value.2.tick.value.kernel
  have hk : k.Reachable :=
    (((Kernel.Reachable.new _).create none (by decide +kernel)).compile ⟨1⟩ _).execute ⟨1⟩ |>.tick
  let s : Shell MemoryVolume := ⟨k, vol, some ⟨1⟩, []⟩
  obtain ⟨herror, hlive, hrun, hline⟩ : k.error? ⟨1⟩ = some (.raised "old") ∧ ⟨1⟩ ∈ k.live ∧
      (k.run 9 vol host "/new" opts).result = some (.ok (.completed ⟨1⟩)) ∧
      (s.evaluate 9 host "raise 'new'").result = some (.ok (.failed ⟨1⟩ (.raised "new"))) := by
    decide +kernel
  have hs : s.kernel.Reachable := hk
  obtain ⟨hfiles, hlines⟩ := outcomes_are_faithful hk hs 9 host
  obtain ⟨image, t, hfile⟩ := (hfiles vol "/new" opts fun h => by cases h).1 _ hrun
  have hline := hlines "raise 'new'" (fun hnot => absurd ⟨⟨1⟩, hlive, rfl⟩ hnot) _ hline
  exact ⟨k, s, image, t, hk, herror, rfl, hfile, hline⟩

end Shell

end Coop
