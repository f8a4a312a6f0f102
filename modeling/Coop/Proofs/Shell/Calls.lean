import Coop.Proofs.Shell.SetUp

/-!
# Calls that leave the tasks alone

Requests, lines typed in, files run to their end and turns at the prompt neither add a task nor take
one away, except that the first line typed in makes the task for it. A file gets a task of its own,
and it is gone again whichever way the run ended.

* `Kept`: the same tasks under the same names, and nothing new to watch;
* `kept_suspend`, `kept_resume`, `kept_kill`: requests;
* `ensureEvaluator_of_not`, `kept_evaluate`: lines typed in;
* `poll_eq`, `kept_poll`: turns at the prompt;
* **`kept_runFile`**: files.
-/

namespace Coop

namespace Shell

variable {V ι C : Type} {s s' : Shell V}

/-- A call that neither made nor destroyed a task. -/
structure Kept (s s' : Shell V) : Prop where
  reachable : s'.kernel.Reachable
  same : s.kernel.SamePopulation s'.kernel
  evaluator : s'.evaluator = s.evaluator
  orphans : s'.orphans = s.orphans

theorem Kept.refl (h : s.kernel.Reachable) : s.Kept s := ⟨h, .refl _, rfl, rfl⟩

/-! ## Requests -/

section Requests

variable (h : s.kernel.Reachable) (name : String)
include h

theorem kept_suspend : s.Kept (s.suspend name).2 := by
  unfold suspend
  cases s.task name with
  | none => exact .refl h
  | some id => exact ⟨h.suspend id, .suspend id, rfl, rfl⟩

theorem kept_resume : s.Kept (s.resume name).2 := by
  unfold resume
  cases s.task name with
  | none => exact .refl h
  | some id => exact ⟨h.resume id, .resume id, rfl, rfl⟩

theorem kept_kill : s.Kept (s.kill name).value.2 := by
  unfold kill
  cases s.task name with
  | none => exact .refl h
  | some id => exact ⟨h.interrupt id, .interrupt id, rfl, rfl⟩

end Requests

theorem remove_snd (s : Shell V) (name : String) :
    (s.remove name).value.2 = { s with kernel := (s.kernel.remove name).value.2 } := by
  unfold remove
  dsimp only [Logged.value_bind]
  cases (s.kernel.remove name).value.1 with
  | ok u => rfl
  | error e => cases e <;> rfl

/-! ## Lines typed in -/

/-- There is a live task for lines typed in. -/
def HasEvaluator (s : Shell V) : Prop := ∃ id ∈ s.kernel.live, s.evaluator = some id

theorem ensureEvaluator_of_live {id : TaskId} (he : s.evaluator = some id)
    (hl : id ∈ s.kernel.live) : s.ensureEvaluator.value = (.ok id, s) := by
  have hfound : s.evaluator.filter (fun u => (s.kernel.task? u).isSome) = some id := by
    rw [he, Option.filter_some, if_pos (Kernel.mem_live_iff.mp hl)]
  rw [ensureEvaluator, hfound]
  rfl

theorem ensureEvaluator_of_not (h : ¬ s.HasEvaluator) : s.ensureEvaluator.value =
    (.ok s.kernel.fresh, { s with
      kernel := (s.kernel.create none).value.2
      evaluator := some s.kernel.fresh }) := by
  have hnone : s.evaluator.filter (fun u => (s.kernel.task? u).isSome) = none := by
    refine Option.filter_eq_none_iff.mpr fun u hu hlive => h ⟨u, ?_, hu⟩
    exact Kernel.mem_live_iff.mpr hlive
  have hb : (none : Option String).bind s.kernel.lookup = none := rfl
  rw [ensureEvaluator, hnone]
  dsimp only [Logged.value_bind]
  rw [Kernel.value_create hb]
  rfl

section Lines

variable [Receiver ι] (patience : Nat) (host : Host ι C) (source : String)

theorem kept_evaluateIn (h : s.kernel.Reachable) (id : TaskId) :
    s.Kept (s.evaluateIn patience id host source).shell := by
  have hc := h.compile id source
  have hx := hc.execute id
  have hcp : s.kernel.SamePopulation (s.kernel.compile id source).value.2 := .compile id source
  have hxp := hcp.trans (.execute id)
  unfold evaluateIn Host.absorb
  dsimp only [Kernel.join]
  split_ifs
  · exact ⟨hc, hcp, rfl, rfl⟩
  · exact ⟨hx, hxp, rfl, rfl⟩
  · have hw (h' : Host ι C) := Kernel.SamePopulation.waitEnd
      (Kernel.wait_ends patience ((s.kernel.compile id source).value.2.execute id).value.2 id
        .untilSignal h')
    split <;> exact ⟨hx.wait patience id .untilSignal _, hxp.trans (hw _), rfl, rfl⟩

theorem kept_evaluate (h : s.ensureEvaluator.value.2.kernel.Reachable) :
    s.ensureEvaluator.value.2.Kept (s.evaluate patience host source).shell := by
  unfold evaluate Host.absorb
  dsimp only
  cases s.ensureEvaluator.value.1 with
  | error e => exact .refl h
  | ok id =>
    dsimp only
    cases (s.ensureEvaluator.value.2.kernel.phase? id).filter (fun p => p ≠ .dormant) with
    | some p => exact .refl h
    | none => exact kept_evaluateIn patience _ source h id

end Lines

/-! ## Turns at the prompt -/

/-- What a turn at the prompt does to a shell without orphans. -/
theorem poll_eq (ho : s.orphans = []) (host : Host ι C) : (s.poll host).2.1 =
    if s.kernel.isIdle then s else { s with kernel := s.kernel.tick.value.kernel } := by
  unfold poll Host.absorb reap
  dsimp only [Logged.value_bind]
  rw [ho]
  split_ifs <;> rfl

theorem kept_poll (h : s.kernel.Reachable) (ho : s.orphans = []) (host : Host ι C) :
    s.Kept (s.poll host).2.1 := by
  rw [poll_eq ho]
  split_ifs
  · exact .refl h
  · exact ⟨h.tick, .tick, rfl, rfl⟩

/-! ## Files -/

theorem value_reapFrom {k : Kernel} {id : TaskId} (hn : k.registry.isNamed id = false)
    (hd : k.phase? id = some .dormant) :
    (reapFrom k [id]).value = ([], (k.destroy id).value.2) := by
  rw [reapFrom, hn, hd]
  rfl

end Shell

section Files

variable {V ι C : Type} [Volume V] [Receiver ι]

namespace Shell

variable {s : Shell V}

/-- **The task of a run is gone when the run is over**, and nothing else was added or taken away. -/
theorem kept_runFile (h : s.kernel.Reachable) (ho : s.orphans = []) (hroom : s.kernel.HasRoom)
    (patience : Nat) (host : Host ι C) (path : String)
    (hr : (s.runFile patience host path).result ≠ none) :
    s.Kept (s.runFile patience host path).shell := by
  have hb : (none : Option String).bind s.kernel.lookup = none := rfl
  have hreg : (s.kernel.create none).value.2.registry = s.kernel.registry := by
    rw [Kernel.value_create hb]
    rfl
  have hrun : Kernel.Reachable
      (s.kernel.run patience s.volume host path ⟨none, true, .untilSignal⟩).kernel :=
    h.run patience s.volume host path fun _ => hroom
  have hend := Kernel.run_ends h hroom patience s.volume host path
  unfold runFile at hr ⊢
  dsimp only at hr ⊢
  generalize s.kernel.run patience s.volume host path ⟨none, true, .untilSignal⟩ = ran
    at hr hrun hend ⊢
  obtain ⟨result, kernel, vol, host⟩ := ran
  cases hend with
  | refused e hp hd => exact ⟨hrun, Kernel.undo_create h hroom hb hp hd, rfl, rfl⟩
  | ended o hp hd =>
    have hdestroy := Kernel.undo_create h hroom hb hp hd
    rcases o with rfl | ⟨e, rfl⟩ <;> exact ⟨hrun.destroy _, hdestroy, rfl, rfl⟩
  | interrupted hp hi =>
    -- the request to stop is honoured by one more turn, so the task is dormant when it is reaped
    have hpt := hp.trans .tick
    have hd := Kernel.phase?_tick_of_pending hrun hi
    have hn : kernel.tick.value.kernel.registry.isNamed s.kernel.fresh = false := by
      rw [hpt.registry, hreg, Kernel.isNamed_fresh h hroom]
    dsimp only [dispose, Host.absorb, orphan, reap, Logged.value_bind]
    rw [ho, List.nil_append, value_reapFrom hn hd]
    exact ⟨hrun.tick.destroy _, Kernel.undo_create h hroom hb hpt hd, rfl, ho.symm⟩
  | unfinished => exact absurd rfl hr

end Shell

end Files

end Coop
