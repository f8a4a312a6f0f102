import Coop.Host.ConsoleScript
import Coop.Proofs.Shell.History
import Coop.Volume.Memory
import Mathlib.Control.Monad.Basic

/-!
# No task leaks

Every task of a shell belongs to somebody: it has a name, or it is the one task for lines typed in.
Whatever a shell made on the way, it got rid of again.

* `Owned`: the task for lines typed in is the one task without a name;
* `Owned.create`, `Owned.destroy`: what the making and the destruction of a named task keep;
* `Step.owned`, `Reachable.owned`: what every call keeps, and every history;
* **`no_leaked_tasks`**: tasks, orphans, and files run to their end.
-/

namespace Coop

namespace Registry

variable {r : Registry} {id u : TaskId}

theorem isNamed_insert (r : Registry) (name : String) (id u : TaskId) :
    isNamed ⟨insert name id r.names⟩ u = true ↔ id = u ∨ r.isNamed u = true := by
  rw [isNamed_iff, isNamed_iff]
  simp only [(perm_insert name id r.names).mem_iff, List.mem_cons, Prod.mk.injEq]
  constructor
  · rintro ⟨n, ⟨-, rfl⟩ | hm⟩
    · exact .inl rfl
    · exact .inr ⟨n, hm⟩
  · rintro (rfl | ⟨n, hm⟩)
    · exact ⟨name, .inl ⟨rfl, rfl⟩⟩
    · exact ⟨n, .inr hm⟩

end Registry

theorem Kernel.Named.isNamed_iff {k : Kernel} (h : k.Named) {id : TaskId} :
    k.registry.isNamed id = true ↔ ∃ name, k.lookup name = some id := by
  rw [Registry.isNamed_iff]
  constructor
  · rintro ⟨name, hm⟩
    exact ⟨name, Registry.lookup_of_mem h.distinct hm⟩
  · rintro ⟨name, hl⟩
    exact ⟨name, Registry.mem_of_lookup hl⟩

namespace Shell

variable {V : Type} {s s' : Shell V} {name : String}

/-- The live task without a name is the one for lines typed in. -/
def Owned (s : Shell V) : Prop :=
  ∀ id, s.evaluator = some id ↔ id ∈ s.kernel.live ∧ s.kernel.registry.isNamed id ≠ true

namespace Owned

theorem of_same (h : s.Owned) {k : Kernel} (hp : s.kernel.SamePopulation k) {vol : V} :
    Owned { s with kernel := k, volume := vol } := by
  intro id
  change s.evaluator = some id ↔ id ∈ k.live ∧ k.registry.isNamed id ≠ true
  rw [hp.live, hp.registry]
  exact h id

theorem of_kept (h : s.Owned) (hk : s.Kept s') : s'.Owned := by
  intro id
  rw [hk.evaluator, hk.same.live, hk.same.registry]
  exact h id

section

variable (h : s.Owned) (hs : s.kernel.Reachable)
include h hs

theorem create (hroom : s.kernel.HasRoom) (hn : s.task name = none) :
    Owned { s with kernel := (s.kernel.create (some name)).value.2 } := by
  have hb : (some name).bind s.kernel.lookup = none := hn
  have hlive := Kernel.perm_live_create hb
  have hfresh := Kernel.fresh_notMem_live hs hroom
  intro id
  rw [Kernel.value_create hb] at hlive ⊢
  change s.evaluator = some id ↔ _ ∧ Registry.isNamed ⟨Registry.insert name _ _⟩ id ≠ true
  rw [h id, hlive.mem_iff, List.mem_cons, ne_eq, ne_eq, Registry.isNamed_insert, not_or]
  constructor
  · rintro ⟨hl, hu⟩
    exact ⟨.inr hl, fun hid => hfresh (hid ▸ hl), hu⟩
  · rintro ⟨rfl | hl, hid, hu⟩
    · exact absurd rfl hid
    · exact ⟨hl, hu⟩

theorem destroy {id : TaskId} (hl : s.task name = some id) :
    Owned { s with kernel := (s.kernel.destroy id).value.2 } := by
  by_cases hd : s.kernel.phase? id = some .dormant
  · have hnamed := hs.named.isNamed_iff.mpr ⟨name, hl⟩
    have hlive := Kernel.live_destroy hd
    intro u
    rw [Kernel.value_destroy hd] at hlive ⊢
    change s.evaluator = some u ↔ _ ∧ (s.kernel.registry.unbind id).isNamed u ≠ true
    rw [h u, hlive, List.mem_filter, decide_eq_true_iff]
    constructor
    · rintro ⟨hm, hu⟩
      have hne : u ≠ id := fun he => hu (he ▸ hnamed)
      rw [Registry.isNamed_unbind_of_ne hne]
      exact ⟨⟨hm, hne⟩, hu⟩
    · rintro ⟨⟨hm, hne⟩, hu⟩
      rw [Registry.isNamed_unbind_of_ne hne] at hu
      exact ⟨hm, hu⟩
  · obtain ⟨e, he⟩ := Kernel.value_destroy_of_ne hd
    rw [he]
    exact h

theorem setUp (hroom : s.task name = none → s.kernel.HasRoom) {r : Except ShellError TaskId}
    (hu : SetUp s name r s') : s'.Owned := by
  cases hu with
  | taken => exact h
  | refused _ _ _ ht hr => exact h.of_same ⟨congrArg (List.map Task.id) ht, hr⟩
  | rejected hn hd => exact (h.create hs (hroom hn) hn).of_same hd.same
  | launched hn _ hp => exact (h.create hs (hroom hn) hn).of_same hp

theorem remove (name : String) : (s.remove name).value.2.Owned := by
  rw [remove_snd]
  cases hl : s.task name with
  | none =>
    have hsame : (s.kernel.remove name).value.2 = s.kernel := by
      rw [Kernel.remove, show s.kernel.lookup name = none from hl]
      rfl
    rw [hsame]
    exact h
  | some id =>
    rw [Kernel.value_remove hl]
    exact h.destroy hs hl

theorem ensureEvaluator (hroom : ¬ s.HasEvaluator → s.kernel.HasRoom) :
    s.ensureEvaluator.value.2.Owned := by
  by_cases he : s.HasEvaluator
  · obtain ⟨id, hl, he⟩ := he
    rw [ensureEvaluator_of_live he hl]
    exact h
  · have hb : (none : Option String).bind s.kernel.lookup = none := rfl
    have hlive := Kernel.perm_live_create hb
    have hfresh := Kernel.isNamed_fresh hs (hroom he)
    intro id
    rw [ensureEvaluator_of_not he]
    rw [Kernel.value_create hb] at hlive ⊢
    change some _ = some id ↔ _ ∧ s.kernel.registry.isNamed id ≠ true
    rw [hlive.mem_iff, List.mem_cons, Option.some_inj]
    constructor
    · rintro rfl
      exact ⟨.inl rfl, Bool.eq_false_iff.mp hfresh⟩
    · rintro ⟨rfl | hl, hu⟩
      · rfl
      · exact absurd ⟨id, hl, (h id).mpr ⟨hl, hu⟩⟩ he

end

end Owned

variable [Volume V]

theorem Step.owned (hs : s.Step s') (h : s.Sound) (ho : s.Owned) : s'.Owned := by
  cases hs with
  | spawn name source hroom => exact ho.setUp h.kernel hroom (spawn_setsUp h.kernel hroom source)
  | start name path hroom => exact ho.setUp h.kernel hroom (start_setsUp h.kernel hroom path)
  | suspend name => exact ho.of_kept (kept_suspend h.kernel name)
  | resume name => exact ho.of_kept (kept_resume h.kernel name)
  | kill name => exact ho.of_kept (kept_kill h.kernel name)
  | remove name => exact ho.remove h.kernel name
  | evaluate patience host source hroom =>
    have he := ho.ensureEvaluator h.kernel hroom
    exact he.of_kept (kept_evaluate patience host source (h.ensureEvaluator hroom).kernel)
  | runFile patience host path hroom hr =>
    exact ho.of_kept (kept_runFile h.kernel h.orphans hroom patience host path hr)
  | poll host => exact ho.of_kept (kept_poll h.kernel h.orphans host)
  | volume => exact ho.of_same (.refl _)

theorem Reachable.owned (h : s.Reachable) : s.Owned := by
  induction h with
  | new config vol =>
    intro id
    -- there is neither a task nor one for lines typed in
    constructor
    · intro he
      cases he
    · rintro ⟨hl, -⟩
      cases hl
  | step h hs ih => exact hs.owned h.exposed.sound ih

/-- **No task leaks.** After any sequence of calls on a shell, every live task either is the one for
lines typed in, or has a name, and never both; no orphan is waiting; and a file that is run to its
end, whichever end that is, leaves the same tasks under the same names. -/
theorem no_leaked_tasks (h : s.Reachable) :
    (∀ t ∈ s.kernel.scheduler.tasks,
      Xor (s.evaluator = some t.id) (∃ name, s.task name = some t.id)) ∧
    s.orphans = [] ∧
    ∀ {ι C : Type} [Receiver ι] (patience : Nat) (host : Host ι C) (path : String),
      s.kernel.HasRoom → (s.runFile patience host path).result ≠ none →
        (s.runFile patience host path).shell.kernel.live = s.kernel.live ∧
        (s.runFile patience host path).shell.kernel.registry = s.kernel.registry := by
  have hsound := h.exposed.sound
  refine ⟨fun t ht => ?_, hsound.orphans, fun patience host path hroom hr => ?_⟩
  · have hl : t.id ∈ s.kernel.live := List.mem_map_of_mem ht
    have hnamed : s.kernel.registry.isNamed t.id = true ↔ ∃ name, s.task name = some t.id :=
      hsound.kernel.named.isNamed_iff
    have howned := h.owned t.id
    by_cases hn : ∃ name, s.task name = some t.id
    · refine .inr ⟨hn, fun he => ?_⟩
      exact (howned.mp he).2 (hnamed.mpr hn)
    · refine .inl ⟨howned.mpr ⟨hl, fun hc => ?_⟩, hn⟩
      exact hn (hnamed.mp hc)
  · have hk := kept_runFile hsound.kernel hsound.orphans hroom patience host path hr
    exact ⟨hk.same.live, hk.same.registry⟩

/-- A shell with a background task and a task for lines typed in runs a file that never ends, until
a Ctrl-C stops it. -/
theorem no_leaked_tasks_endless : ∃ (s : Shell MemoryVolume) (host : Host ConsoleScript Unit),
    s.Reachable ∧ s.task "a" = some ⟨1⟩ ∧ s.evaluator = some ⟨2⟩ ∧
    (∀ t ∈ s.kernel.scheduler.tasks,
      Xor (s.evaluator = some t.id) (∃ name, s.task name = some t.id)) ∧
    s.orphans = [] ∧
    (s.runFile 9 host "/f").result = some (.ok (.interrupted ⟨3⟩)) ∧
    (s.runFile 9 host "/f").shell.kernel.live = s.kernel.live ∧
    (s.runFile 9 host "/f").shell.kernel.registry = s.kernel.registry := by
  let s₀ : Shell MemoryVolume := new { Config.default with heapSize := 32 }
    (MemoryVolume.empty.addFile "/f" "loop do\npass\nend".toByteArray)
  let quiet : Host Silence Unit := Host.new {} (Lines.new 0) none none
  let host : Host ConsoleScript Unit :=
    Host.new ⟨0, [], [], ⟨0, 0, .rising⟩, 0⟩ (Lines.new 0) none none
  have h₀ : s₀.Reachable := .new _ _
  let s₁ := (s₀.spawn "a" "suspend").value.2
  have h₁ : s₁.Reachable := h₀.step (.spawn "a" "suspend" fun _ => by decide +kernel)
  have h₂ : (s₁.evaluate 9 quiet "pass").shell.Reachable :=
    h₁.step (.evaluate 9 quiet "pass" (fun _ => by decide +kernel) (by decide +kernel))
  obtain ⟨hname, hevaluator, hroom, hrun⟩ :
      (s₁.evaluate 9 quiet "pass").shell.task "a" = some ⟨1⟩ ∧
      (s₁.evaluate 9 quiet "pass").shell.evaluator = some ⟨2⟩ ∧
      (s₁.evaluate 9 quiet "pass").shell.kernel.HasRoom ∧
      ((s₁.evaluate 9 quiet "pass").shell.runFile 9 host "/f").result =
        some (.ok (.interrupted ⟨3⟩)) := by decide +kernel
  obtain ⟨howned, horphans, hfiles⟩ := no_leaked_tasks h₂
  obtain ⟨hlive, hregistry⟩ := hfiles 9 host "/f" hroom (by rw [hrun]; nofun)
  exact ⟨_, host, h₂, hname, hevaluator, howned, horphans, hrun, hlive, hregistry⟩

end Shell

end Coop
