import Coop.Proofs.Kernel.Routes
import Coop.Proofs.Script.StraightLine

/-!
# Straight-line scripts finish

A task that runs a script without loops comes to its end, however many other tasks there are and
whatever else is done to them and to it, as long as nobody asks it to stop or to park. Every turn
takes one off a bound that counts the statements ahead and the pauses among them.

* `Task.Amid`, `Task.turnsLeft`: a task in the middle of a script, and the turns it takes at most;
* **`Task.Amid.turn`**: one turn of the task;
* `Task.Amid.effect`: any other call;
* `Undisturbed`: a stretch of history in which nobody asks a task to stop or to park;
* `Finished`: the task came to its end, and what it wrote until then;
* `Underway`, `Underway.finishes`, `Underway.wait`: a kernel with such a task, along a stretch of
  history and during a wait;
* **`straight_line_finishes`**.
-/

namespace Coop

open Script

/-- How many ticks a pause lasts. -/
def Clock.sleepTicks (c : Clock) (ms : Nat) : Nat := max 1 ((ms + c.tickMs - 1) / c.tickMs)

namespace Task

variable {statements rest : List Statement} {free : Nat} {t : Task}

/-- The task has the statements `rest` of a straight-line script ahead, on a heap with `free` bytes
left, and nothing was asked of it. -/
structure Amid (statements : List Statement) (free : Nat) (rest : List Statement) (t : Task) :
    Prop where
  image : t.image? = some (Image.build (assemble statements))
  fiber : ∃ pc, t.fiber = some ⟨pc⟩ ∧ At statements free rest pc t.arena
  interrupt : t.interrupt = false
  suspend : t.suspend = false
  error : t.error = none
  phase : t.phase = .ready ∨ t.phase = .waiting

/-- The turns the task takes at most, from when the clock shows `c`: those it sleeps through, and
those the statements ahead take. -/
def turnsLeft (c : Clock) (rest : List Statement) (t : Task) : Nat :=
  (if t.phase = .waiting then t.wakeupTick - (c.tick + 1) else 0) + turnsFor c.sleepTicks rest

theorem turnsLeft_pos (c : Clock) (rest : List Statement) (t : Task) :
    0 < t.turnsLeft c rest := by
  have := turnsFor_pos c.sleepTicks rest
  unfold turnsLeft
  omega

theorem turnsLeft_of_ready (c : Clock) (rest : List Statement) (h : t.phase = .ready) :
    t.turnsLeft c rest = turnsFor c.sleepTicks rest := by
  rw [turnsLeft, h, if_neg Phase.noConfusion, Nat.zero_add]

/-! ## One turn -/

/-- A task after a turn in which it wrote `text`: some statements are still ahead, and at least one
turn fewer; or it came to its end. -/
inductive Turned (statements : List Statement) (free : Nat) (c : Clock) (rest : List Statement)
    (left : Nat) (text : String) (t : Task) : Prop
  | amid {rest' : List Statement} (h : t.Amid statements free rest')
    (hahead : Ahead rest text rest') (hleft : t.turnsLeft c rest' + 1 ≤ left)
  | ended (hp : t.phase = .dormant)
    (h : Unhindered statements free → text = printed rest ∧ t.error = ending rest)

section Body

-- the image stands for any image with a body, so that nothing here looks into it
variable {image body : ByteArray} (himage : t.image? = some image)
  (hbody : Image.body image = .ok body)

include himage hbody

theorem dispatched_of_body (hp : t.phase = .ready) {pc : Nat} (hfiber : t.fiber = some ⟨pc⟩)
    (c : Clock) :
    let slice := Machine.run body c.timeslice ⟨pc, t.arena, ""⟩
    t.dispatchText c = slice.machine.output ∧
    t.dispatched c = settled c { t with
      fiber := some ⟨slice.machine.pc⟩
      arena := slice.machine.arena
      timeslice := slice.budget } slice.handback := by
  have hrun : runImage image c.timeslice ⟨pc, t.arena, ""⟩ =
      Machine.run body c.timeslice ⟨pc, t.arena, ""⟩ := by rw [runImage, hbody]
  have hstep : t.slice c = _ := step_eq (t := { t with timeslice := c.timeslice }) hfiber himage
  simp only [dispatchText, dispatched, if_pos hp, hstep, hrun, and_self]

end Body

theorem image?_of_kept {arena : Arena} (h : t.arena.Kept arena) :
    image? { t with arena := arena } = t.image? := by
  unfold image?
  cases t.code with
  | absent | mapped => rfl
  | pinned => exact congrArg some h.image

theorem Amid.dispatched (h : t.Amid statements free rest) (hplain : ∀ s ∈ statements, IsPlain s)
    (hp : t.phase = .ready) {c : Clock} (hc : 0 < c.timeslice) :
    Turned statements free c rest (turnsFor c.sleepTicks rest) (t.dispatchText c)
      (t.dispatched c) := by
  obtain ⟨pc, hfiber, hat⟩ := h.fiber
  obtain ⟨body, cut, hbody, hcut, hwhole⟩ := exists_body statements
  have hkept := Machine.kept_run (m := ⟨pc, t.arena, ""⟩) hat.valid body c.timeslice
  obtain ⟨text, hout, hslices⟩ := run_at (m := ⟨pc, t.arena, ""⟩) hplain hcut (hwhole free)
    c.sleepTicks c.timeslice hat
  obtain ⟨htext, htask⟩ := dispatched_of_body h.image hbody hp hfiber c
  have himage := (image?_of_kept hkept).trans h.image
  rw [htext, htask, hout, String.empty_append]
  generalize Machine.run body c.timeslice ⟨pc, t.arena, ""⟩ = slice at hslices himage ⊢
  cases hslices with
  | @yield rest' left m hat' hahead hturns =>
    have hphase : (if t.suspend then Phase.suspended else Phase.ready) = .ready := by
      rw [h.suspend]
      rfl
    refine .amid ⟨himage, ⟨m.pc, rfl, hat'⟩, h.interrupt, rfl, h.error,
      .inl hphase⟩ hahead ?_
    rw [turnsLeft_of_ready _ _ hphase]
    omega
  | @sleep ms rest' left m hat' hahead hturns =>
    refine .amid ⟨himage, ⟨m.pc, rfl, hat'⟩, h.interrupt, h.suspend,
      h.error, .inr rfl⟩ hahead ?_
    change (if Phase.waiting = .waiting then c.tick + c.sleepTicks ms - (c.tick + 1) else 0) +
      turnsFor c.sleepTicks rest' + 1 ≤ _
    have hpos : 1 ≤ c.sleepTicks ms := Nat.le_max_left _ _
    rw [if_pos rfl]
    omega
  | @final hb left m hfinal hs =>
    cases hb with
    | yield | sleep | suspend => exact hfinal.elim
    | done =>
      refine .ended rfl fun hclear => ⟨(hs hclear).1.symm, ?_⟩
      change none.or t.error = _
      rw [h.error, eq_none_of_closing (hs hclear).2.symm]
      rfl
    | fault e =>
      refine .ended rfl fun hclear => ⟨(hs hclear).1.symm, ?_⟩
      rw [eq_some_of_closing (hs hclear).2.symm]
      rfl

/-- **One turn of a task in the middle of a straight-line script.** -/
theorem Amid.turn (h : t.Amid statements free rest) (hplain : ∀ s ∈ statements, IsPlain s)
    {c : Clock} (hc : 0 < c.timeslice) :
    Turned statements free c.next rest (t.turnsLeft c rest) (t.turnText c.next)
      (t.turn c.next) := by
  have hended : t.interrupted = t := if_neg (by simp [h.interrupt])
  rw [Task.turn, turnText, hended]
  rcases h.phase with hp | hp
  · have hwoken : t.woken c.next = t := if_neg (by simp [hp])
    rw [hwoken, turnsLeft_of_ready c rest hp]
    exact h.dispatched hplain hp hc
  · by_cases hdue : t.wakeupTick ≤ c.next.tick
    · have hwoken : t.woken c.next = t.awake := if_pos ⟨hp, hdue⟩
      have hphase : t.awake.phase = .ready := by
        change (if t.suspend then Phase.suspended else Phase.ready) = .ready
        rw [h.suspend]
        rfl
      have hawake : t.awake.Amid statements free rest :=
        ⟨h.image, h.fiber, h.interrupt, rfl, h.error, .inl hphase⟩
      have hleft : t.turnsLeft c rest = turnsFor c.next.sleepTicks rest := by
        have hidle : t.wakeupTick - (c.tick + 1) = 0 := Nat.sub_eq_zero_of_le hdue
        rw [turnsLeft, hidle, ite_self, Nat.zero_add]
        rfl
      rw [hwoken, hleft]
      exact hawake.dispatched hplain hphase hc
    · have hwoken : t.woken c.next = t := if_neg (by simp [hdue])
      have hready : t.phase ≠ .ready := by simp [hp]
      rw [hwoken, Task.dispatched, if_neg hready, dispatchText, if_neg hready]
      refine .amid h (.refl rest) ?_
      have hnext : turnsFor c.next.sleepTicks rest = turnsFor c.sleepTicks rest := rfl
      have htick : c.next.tick = c.tick + 1 := rfl
      rw [turnsLeft, turnsLeft, if_pos hp, if_pos hp, hnext, htick]
      omega

/-! ## Any other call -/

theorem Amid.setPriority (h : t.Amid statements free rest) (p : UInt8) :
    (t.setPriority p).Amid statements free rest :=
  ⟨h.image, h.fiber, h.interrupt, h.suspend, h.error, h.phase⟩

open Scheduler in
theorem Amid.effect {s : Scheduler} {u : TaskId} (h : t.Amid statements free rest)
    (hf : s.find? u = some t) {a : Scheduler.Action} (hkeeps : a.KeepsImages s) (htick : a ≠ .tick)
    (hi : (a.effect s.clock u t).interrupt = false) (hs : (a.effect s.clock u t).suspend = false) :
    (a.effect s.clock u t).Amid statements free rest ∧
      (a.effect s.clock u t).turnsLeft s.clock rest = t.turnsLeft s.clock rest := by
  have hrunning : t.phase ≠ .dormant := by
    rcases h.phase with hp | hp <;> simp [hp]
  cases a with
  | spawn | remove => exact ⟨h, rfl⟩
  | tick => exact absurd rfl htick
  | launch id =>
    have hsame : t.launched = t := by rw [launched_eq, if_neg hrunning]
    rw [Action.effect, hsame, ite_self]
    exact ⟨h, rfl⟩
  | resume id =>
    have hsame : t.resumed = t := by
      rw [resumed, if_neg]
      rcases h.phase with hp | hp <;> simp [hp]
    rw [Action.effect, hsame, ite_self]
    exact ⟨h, rfl⟩
  | on id a =>
    rw [Action.effect] at hi hs ⊢
    by_cases hid : id = u
    · rw [if_pos hid] at hi hs ⊢
      subst hid
      cases a with
      | setPriority p => exact ⟨h.setPriority p, rfl⟩
      | loadImage | mapImage => exact absurd (hkeeps t hf) hrunning
      | compile source =>
        have hsame : (t.compile source).value.2 = t := by rw [value_compile, if_neg hrunning]
        rw [Task.Action.apply, hsame]
        exact ⟨h, rfl⟩
      | interrupt =>
        rw [Task.Action.apply, requestInterrupt, if_neg hrunning] at hi
        cases hi
      | suspend =>
        rw [Task.Action.apply, requestSuspend, if_neg hrunning] at hs
        cases hs
    · rw [if_neg hid]
      exact ⟨h, rfl⟩

end Task

theorem Scheduler.ReachableBy.timeslice_pos {ok : Scheduler → Scheduler.Action → Prop}
    {s : Scheduler} (h : ReachableBy ok s) : 0 < s.timeslice := by
  induction h with
  | new tickMs timeslice => exact Nat.le_max_right _ _
  | @act s a _ _ ih =>
    have hclock := congrArg Clock.timeslice (clock_apply s a)
    have hsame : (a.clockAfter s.clock).timeslice = s.timeslice := by cases a <;> rfl
    change (a.apply s).timeslice = _ at hclock
    rw [hclock, hsame]
    exact ih

namespace Kernel

variable {k k' : Kernel} {id : TaskId}

/-- A stretch of history in which nobody asks a task to stop or to park; `texts` is what the task
writes in the turns of the stretch. -/
inductive Undisturbed (id : TaskId) : (k : Kernel) → (texts : List String) → (k' : Kernel) → Prop
  | here (k : Kernel) : Undisturbed id k [] k
  | turn {k k' : Kernel} {texts : List String} (h : Undisturbed id k.tick.value.kernel texts k') :
    Undisturbed id k (k.scheduler.textOf id :: texts) k'
  /-- Any call that is no turn, if it does not leave a request for the task behind. -/
  | call {k k₁ k' : Kernel} {texts : List String} (hstep : Step k k₁)
    (htick : k₁.scheduler.tick = k.scheduler.tick)
    (hasked : ∀ t, k₁.task? id = some t → t.interrupt = false ∧ t.suspend = false)
    (h : Undisturbed id k₁ texts k') : Undisturbed id k texts k'

/-- After a stretch of at most `bound` turns, a task came to the end of the statements `rest`. If
nothing kept it from doing so, it wrote what they say and has the failure they end with. -/
structure Finished (id : TaskId) (statements : List Statement) (free : Nat) (rest : List Statement)
    (bound : Nat) (k : Kernel) (texts : List String) (k' : Kernel) : Prop where
  undisturbed : Undisturbed id k texts k'
  inTime : texts.length ≤ bound
  dormant : k'.phase? id = some .dormant
  written : Unhindered statements free → String.join texts = printed rest
  error : Unhindered statements free → k'.error? id = ending rest

/-- A task has the statements `rest` of a straight-line script ahead and takes at most `bound`
turns for them. -/
structure Underway (id : TaskId) (statements : List Statement) (free : Nat) (rest : List Statement)
    (bound : Nat) (k : Kernel) : Prop where
  supervised : Scheduler.Supervised k.scheduler
  plain : ∀ s ∈ statements, IsPlain s
  task : ∃ t, k.task? id = some t ∧ t.Amid statements free rest ∧
    t.turnsLeft k.scheduler.clock rest ≤ bound

variable {statements rest rest' : List Statement} {free bound : Nat} {text : String}
  {texts : List String}

theorem Finished.cons (h : Finished id statements free rest' bound k.tick.value.kernel texts k')
    (hahead : Ahead rest (k.scheduler.textOf id) rest') :
    Finished id statements free rest (bound + 1) k (k.scheduler.textOf id :: texts) k' where
  undisturbed := .turn h.undisturbed
  inTime := Nat.succ_le_succ h.inTime
  dormant := h.dormant
  written hs := by rw [String.join_cons, h.written hs, hahead.printed]
  error hs := by rw [h.error hs, hahead.ending]

namespace Underway

theorem bound_pos (h : k.Underway id statements free rest bound) : 0 < bound := by
  obtain ⟨t, -, -, hle⟩ := h.task
  exact Nat.lt_of_lt_of_le (t.turnsLeft_pos _ _) hle

theorem atRest_eq (h : k.Underway id statements free rest bound) : k.atRest id = false := by
  obtain ⟨t, ht, hamid, -⟩ := h.task
  rw [atRest_of_task? ht]
  rcases hamid.phase with hp | hp <;> rw [hp] <;> rfl

/-- A turn brings the task closer to its end. -/
theorem tick (h : k.Underway id statements free rest (bound + 1)) :
    (∃ rest', Ahead rest (k.scheduler.textOf id) rest' ∧
      k.tick.value.kernel.Underway id statements free rest' bound) ∨
    Finished id statements free rest (bound + 1) k [k.scheduler.textOf id]
      k.tick.value.kernel := by
  obtain ⟨t, ht, hamid, hle⟩ := h.task
  have hpart := h.supervised.reachable.partitioned
  have hfind : k.scheduler.find? id = some t := ht
  have hclock : k.tick.value.kernel.scheduler.clock = k.scheduler.clock.next :=
    Scheduler.clock_runTick k.scheduler
  have htask : k.tick.value.kernel.task? id = some (t.turn k.scheduler.clock.next) := by
    have := Scheduler.find?_runTick hpart id
    rw [hfind] at this
    exact this
  have htext : k.scheduler.textOf id = t.turnText k.scheduler.clock.next := by
    rw [Scheduler.textOf_eq hpart, hfind]
    rfl
  have hturned := hamid.turn h.plain (c := k.scheduler.clock) h.supervised.timeslice_pos
  rw [← htext] at hturned
  cases hturned with
  | @amid rest' hamid' hahead hleft =>
    refine .inl ⟨rest', hahead, Step.tick.supervised h.supervised, h.plain, _, htask, hamid', ?_⟩
    rw [hclock]
    omega
  | ended hp hs =>
    refine .inr ⟨.turn (.here _), by simp, ?_, fun hclear => ?_, fun hclear => ?_⟩
    · rw [phase?_of_task? htask, hp]
    · rw [String.join_cons, (hs hclear).1]
      exact String.append_empty
    · rw [error?, htask]
      exact (hs hclear).2

/-- No other call keeps the task from its end, unless it leaves a request for it behind. -/
theorem call (h : k.Underway id statements free rest bound) (hstep : Step k k')
    (htick : k'.scheduler.tick = k.scheduler.tick)
    (hasked : ∀ t, k'.task? id = some t → t.interrupt = false ∧ t.suspend = false) :
    k'.Underway id statements free rest bound := by
  obtain ⟨t, ht, hamid, hle⟩ := h.task
  refine ⟨hstep.supervised h.supervised, h.plain, ?_⟩
  rcases hstep.action with hs | ⟨a, hreturns, hkeeps, hremove, -, hs⟩
  · refine ⟨t, ?_, hamid, ?_⟩
    · rw [task?, hs]
      exact ht
    · rwa [hs]
  · have hpart := h.supervised.reachable.partitioned
    have hne : a ≠ .remove id := by
      intro ha
      have hp := hremove id ha
      rw [phase?_of_task? ht] at hp
      rcases hamid.phase with hp' | hp' <;> rw [hp'] at hp <;> cases hp
    have hnt : a ≠ .tick := by
      rintro rfl
      have hclock := congrArg Clock.tick (Scheduler.clock_apply k.scheduler .tick)
      rw [← hs] at hclock
      change k'.scheduler.tick = k.scheduler.tick + 1 at hclock
      omega
    have htask : k'.task? id = some (a.effect k.scheduler.clock id t) := by
      rw [task?, hs]
      exact Scheduler.find?_apply hpart hreturns hne ht
    have hclock : k'.scheduler.clock = k.scheduler.clock := by
      rw [hs, Scheduler.clock_apply]
      cases a with
      | tick => exact absurd rfl hnt
      | spawn | remove | launch | resume | on => rfl
    obtain ⟨hi, hsus⟩ := hasked _ htask
    obtain ⟨hamid', hleft⟩ := hamid.effect ht hkeeps hnt hi hsus
    refine ⟨_, htask, hamid', ?_⟩
    rw [hclock, hleft]
    exact hle

/-- Along any stretch of history that is long enough, the task comes to its end. -/
theorem finishes (h : k.Underway id statements free rest bound) (hu : Undisturbed id k texts k')
    (hlen : bound ≤ texts.length) : ∃ texts₁ texts₂ k₁, texts = texts₁ ++ texts₂ ∧
      Finished id statements free rest bound k texts₁ k₁ ∧ Undisturbed id k₁ texts₂ k' := by
  induction hu generalizing rest bound with
  | here k =>
    have := h.bound_pos
    simp at hlen
    omega
  | @turn k k' texts hu ih =>
    obtain ⟨bound, rfl⟩ := Nat.exists_eq_add_one.mpr h.bound_pos
    rcases h.tick with ⟨rest', hahead, hnext⟩ | hfinished
    · obtain ⟨texts₁, texts₂, k₁, htexts, hfin, hrest⟩ := ih hnext (Nat.le_of_succ_le_succ hlen)
      exact ⟨_ :: texts₁, texts₂, k₁, congrArg _ htexts, hfin.cons hahead, hrest⟩
    · exact ⟨[_], texts, _, rfl, hfinished, hu⟩
  | call hstep htick hasked _ ih =>
    obtain ⟨texts₁, texts₂, k₁, htexts, hfin, hrest⟩ := ih (h.call hstep htick hasked) hlen
    exact ⟨texts₁, texts₂, k₁, htexts,
      { hfin with undisturbed := .call hstep htick hasked hfin.undisturbed }, hrest⟩

/-- A wait that has no reason to give up sees the task come to its end. -/
theorem wait {ι C : Type} [Receiver ι] (h : k.Underway id statements free rest bound)
    {patience : Nat} (hle : bound ≤ patience) (elapsed : Nat) (host : Host ι C) :
    (k.waitFrom id ⟨false, none⟩ patience elapsed host).outcome = some .completed ∧
      ∃ texts, Finished id statements free rest bound k texts
        (k.waitFrom id ⟨false, none⟩ patience elapsed host).kernel := by
  induction patience generalizing k rest bound host with
  | zero => exact absurd h.bound_pos (by omega)
  | succ patience ih =>
    obtain ⟨bound, rfl⟩ := Nat.exists_eq_add_one.mpr h.bound_pos
    unfold waitFrom
    rw [h.atRest_eq]
    rcases h.tick with ⟨rest', hahead, hnext⟩ | hfinished
    · obtain ⟨hout, texts, hfin⟩ := ih hnext (Nat.le_of_succ_le_succ hle) _
      exact ⟨hout, _, hfin.cons hahead⟩
    · have hrest : k.tick.value.kernel.atRest id = true := by
        rw [atRest, hfinished.dormant]
        rfl
      have hdone (host : Host ι C) :
          k.tick.value.kernel.waitFrom id ⟨false, none⟩ patience elapsed host =
            ⟨some .completed, k.tick.value.kernel, host⟩ := by
        unfold waitFrom
        rw [if_pos hrest]
      refine ⟨congrArg Waited.outcome (hdone _), [k.scheduler.textOf id], ?_⟩
      have hkernel := congrArg Waited.kernel (hdone (k.pass host).2)
      exact hkernel.symm ▸ hfinished

end Underway

/-! ## Compiled scripts -/

theorem compiled_task {source : String} {t : Task} {statements : List Statement}
    (hcompile : (k.compile id source).value.1 = true)
    (ht : (k.compile id source).value.2.task? id = some t)
    (hparse : parseScript source = .ok statements) :
    t.phase = .dormant ∧ t.image? = some (Image.build (assemble statements)) := by
  obtain ⟨image, u, hc, hu, himage, hd⟩ := exists_of_compiled hcompile
  rw [hu] at ht
  cases ht
  rw [Coop.compile, hparse] at hc
  cases hc
  exact ⟨hd, himage⟩

theorem underway_execute {t : Task} (hs : Scheduler.Supervised k.scheduler)
    (ht : k.task? id = some t) (hd : t.phase = .dormant)
    (himage : t.image? = some (Image.build (assemble statements)))
    (hplain : ∀ s ∈ statements, IsPlain s) : (k.execute id).value.1 = true ∧
      (k.execute id).value.2.Underway id statements t.arena.free statements
        (turnsFor k.scheduler.sleepTicks statements) := by
  obtain ⟨body, cut, hbody, -⟩ := exists_body statements
  obtain ⟨hstarts, hlaunched⟩ := Task.launched_of_body himage hbody hd
  have hvalid := (hs.coherent t (Scheduler.mem_of_find? ht)).heap
  have hclock : (k.execute id).value.2.scheduler.clock = k.scheduler.clock :=
    Scheduler.clock_apply k.scheduler (.launch id)
  refine ⟨?_, (Step.execute id).supervised hs, hplain, t.launched, task?_execute ht, ?_, ?_⟩
  · rw [execute_fst ht, hstarts]
  · rw [hlaunched]
    exact ⟨himage, ⟨0, rfl, ⟨[], rfl, rfl⟩, hvalid, rfl⟩, rfl, rfl, rfl, .inl rfl⟩
  · have hready : t.launched.phase = .ready := by rw [hlaunched]
    rw [hclock, Task.turnsLeft_of_ready _ _ hready]
    exact Nat.le_refl _

end Kernel

end Coop
