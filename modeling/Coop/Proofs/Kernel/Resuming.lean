import Coop.Proofs.Kernel.Running
import Coop.Proofs.Scheduler.ReadyOrder

/-!
# Asking a suspended task to park

A suspended task is parked already, but a request to park is kept for it all the same, and resuming
the task does not drop the request. So it comes to the same whether a task is asked to park before
it is resumed or after: it is parked again when it next yields or wakes up.

* `Scheduler.put_put`, **`Scheduler.put_moveTo`**: replacing a task before and after it is moved;
* `Task.ifAsked`, `Task.turn_of_asked`: the turn of a task with a request and without one;
* `Action.Parks`, `Scheduler.ParksItself`: programs that ask to be suspended;
* `Task.Free`, **`free_run`**: a task that nobody asks to park;
* `suspend_iterate`, `resume_of_asked`: requests before a resumption;
* **`requests_while_suspended`**;
* `parked_again`: a task that is parked again because of such a request.
-/

namespace Coop

namespace Scheduler

variable {s : Scheduler} {id : TaskId} {t u : Task}

/-! ## Replacing a task before and after it is moved -/

theorem put_put (s : Scheduler) (t u : Task) (h : t.id = u.id) : (s.put t).put u = s.put u := by
  have hmap : (s.tasks.map fun v => if v.id = t.id then t else v).map
      (fun v => if v.id = u.id then u else v) =
      s.tasks.map fun v => if v.id = u.id then u else v := by
    rw [List.map_map]
    refine List.map_congr_left fun v _ => ?_
    by_cases hv : v.id = u.id
    · simp [h, hv]
    · simp [h, hv]
  unfold put
  rw [hmap]

theorem put_of_find? (hs : s.Partitioned) (h : s.find? id = some t) : s.put t = s := by
  have hmap : (s.tasks.map fun v => if v.id = t.id then t else v) = s.tasks := by
    conv => rhs; rw [← List.map_id s.tasks]
    refine List.map_congr_left fun v hv => ?_
    split_ifs with hid
    · have hfind := (hs.find?_eq_some_iff id v).mpr ⟨hv, hid.trans (id_of_find? h)⟩
      rw [h] at hfind
      exact Option.some.inj hfind
    · rfl
  rw [put, hmap]

theorem moveTo_eq (h : s.find? id = some t) (p : Phase) : s.moveTo id p =
    { s.put { t with phase := p } with buckets := (s.moveTo id p).buckets } := by
  rw [moveTo, h]

/-- **It does not matter whether a task is replaced before or after it is moved**, as long as the
new one is as good as the old one to the scheduler. -/
theorem put_moveTo (h : s.find? id = some t) (hid : u.id = t.id) (hphase : u.phase = t.phase)
    (hprio : u.priority = t.priority) (p : Phase) :
    (s.put u).moveTo id p = (s.moveTo id p).put { u with phase := p } := by
  have huid : u.id = id := hid.trans (id_of_find? h)
  have hfind : (s.put u).find? id = some u := by
    rw [find?_put, if_pos huid, h]
    rfl
  -- the place in the ready bucket depends on priorities only
  have hplace (l : List TaskId) :
      (s.put u).enqueue u.priority l id = s.enqueue t.priority l id := by
    rw [enqueue_eq hfind, enqueue_eq h, priorityOf_put (huid.symm ▸ h) hprio]
  have hbuckets : ((s.put u).moveTo id p).buckets = (s.moveTo id p).buckets := by
    rw [moveTo, hfind, moveTo, h]
    dsimp only
    rw [buckets_put, hphase, hplace]
  have htasks : (s.put u).put { u with phase := p } =
      (s.put { t with phase := p }).put { u with phase := p } := by
    rw [put_put s u { u with phase := p } rfl,
      put_put s { t with phase := p } { u with phase := p } hid.symm]
  calc (s.put u).moveTo id p
      = { (s.put u).put { u with phase := p } with
          buckets := ((s.put u).moveTo id p).buckets } := moveTo_eq hfind p
    _ = { (s.put { t with phase := p }).put { u with phase := p } with
          buckets := (s.moveTo id p).buckets } := by rw [hbuckets, htasks]
    _ = (s.moveTo id p).put { u with phase := p } := by rw [moveTo, h]; rfl

end Scheduler

/-! ## The turn of a task that was asked to park -/

namespace Task

variable {c : Clock} {t : Task}

/-- The task after a turn that ended in the given way, if it had been asked to park before. -/
def ifAsked (hb : Handback) (t : Task) : Task :=
  match hb with
  | .yield => { t with phase := .suspended }
  | .sleep _ => { t with suspend := true }
  | .suspend | .done | .fault _ => t

theorem step_of_asked (t : Task) : { t with suspend := true }.step =
    ⟨t.step.handback, { t.step.task with suspend := true }, t.step.output⟩ := by
  unfold step
  dsimp only [image?]
  split <;> rfl

theorem settled_of_asked (t : Task) (c : Clock) (hb : Handback) :
    { t with suspend := true }.settled c hb = (t.settled c hb).ifAsked hb := by
  cases hb <;> rfl

theorem turn_of_asked (hp : t.phase = .ready) (hi : t.interrupt = false) (c : Clock) :
    let asked := { t with suspend := true }
    asked.turnText c = t.turnText c ∧
      asked.turn c = (t.turn c).ifAsked { t with timeslice := c.timeslice }.step.handback := by
  intro asked
  have hround : t.interrupted.woken c = t := woken_interrupted_of_ready hp hi
  have hasked : asked.interrupted.woken c = asked := woken_interrupted_of_ready hp hi
  have hslice : asked.slice c = _ := step_of_asked { t with timeslice := c.timeslice }
  constructor
  · rw [turnText, hasked, turnText, hround, dispatchText, dispatchText, if_pos hp, if_pos hp,
      hslice]
    rfl
  · rw [turn, hasked, turn, hround, dispatched, dispatched, if_pos hp, if_pos hp, hslice]
    exact settled_of_asked _ c _

end Task

namespace Scheduler

variable {s : Scheduler} {u : TaskId}

/-- Two schedulers, one with a ready task and one with the same task after it was asked to park:
the task gets control in both and writes the same. -/
theorem dispatches_of_asked {s' : Scheduler} {t : Task} (hs : s.Partitioned) (hs' : s'.Partitioned)
    (hclock : s'.clock = s.clock) (h : s.find? u = some t)
    (h' : s'.find? u = some { t with suspend := true }) (hp : t.phase = .ready)
    (hi : t.interrupt = false) :
    let d := { t with timeslice := s.timeslice }
    d ∈ s.dispatches ∧ { d with suspend := true } ∈ s'.dispatches ∧ s'.textOf u = s.textOf u := by
  intro d
  have hslice : s'.timeslice = s.timeslice := congrArg Clock.timeslice hclock
  have hmem := mem_dispatches_of_ready hs' h' hp hi
  rw [hslice] at hmem
  refine ⟨mem_dispatches_of_ready hs h hp hi, hmem, ?_⟩
  rw [textOf_eq hs', textOf_eq hs, h, h', hclock]
  exact (Task.turn_of_asked hp hi s.clock.next).1

/-! ## Programs that ask to be suspended -/

/-- The program of the task with number `u` gets control during the call and asks to be suspended.
-/
def Action.Parks (u : TaskId) (s : Scheduler) (a : Action) : Prop :=
  a = .tick ∧ ∃ d ∈ s.dispatches, d.id = u ∧ d.step.handback = .suspend

instance (u : TaskId) (s : Scheduler) (a : Action) : Decidable (a.Parks u s) :=
  inferInstanceAs (Decidable (_ ∧ _))

/-- The program of the task with number `u` asks to be suspended in the course of a history. -/
def ParksItself (u : TaskId) : Scheduler → List Action → Prop
  | _, [] => False
  | s, a :: as => a.Parks u s ∨ ParksItself u (a.apply s) as

instance decidableParksItself (u : TaskId) :
    (s : Scheduler) → (as : List Action) → Decidable (s.ParksItself u as)
  | _, [] => .isFalse id
  | s, a :: as => @instDecidableOr _ _ _ (decidableParksItself u (a.apply s) as)

end Scheduler

/-! ## Tasks that nobody asks to park -/

namespace Task

variable {c : Clock} {t : Task} {u : TaskId}

/-- The task is not parked and was not asked to park. -/
structure Free (t : Task) : Prop where
  phase : t.phase ≠ .suspended
  suspend : t.suspend = false

/-- One turn of a free task: it stays free, unless its program asks to be suspended. -/
theorem Free.turn (h : t.Free) (c : Clock) :
    (t.turn c).Free ∨ ∃ d, t.given? c = some d ∧ d.step.handback = .suspend := by
  have hcourse := t.course c
  generalize t.given? c = o, t.turn c = t' at hcourse ⊢
  cases hcourse with
  | ended => exact .inl ⟨nofun, rfl⟩
  | dormant | asleep => exact .inl h
  | suspended hp => exact absurd hp h.phase
  | parked _ _ _ hs => simp [h.suspend] at hs
  | @given d _ _ hd =>
    have hsuspend : d.step.task.suspend = false := by
      refine (congrArg Standing.suspend standing_step).trans ?_
      exact (congrArg Task.suspend hd).trans h.suspend
    cases hb : d.step.handback with
    | yield =>
      have hp : (d.step.task.settled c .yield).phase = .ready := if_neg (by simp [hsuspend])
      exact .inl ⟨by simp [hp], rfl⟩
    | sleep ms => exact .inl ⟨nofun, hsuspend⟩
    | suspend => exact .inr ⟨d, rfl, hb⟩
    | done | fault => exact .inl ⟨nofun, rfl⟩

theorem Free.effect {a : Scheduler.Action} (h : t.Free) (ha : a ≠ .tick)
    (hask : a ≠ .on u .suspend) : (a.effect c u t).Free := by
  by_cases hp : t.phase = .dormant
  · rcases standing_effect_of_dormant (c := c) (u := u) hp ha with hst | hst
    · refine ⟨?_, (congrArg Standing.suspend hst).trans h.suspend⟩
      rw [show (a.effect c u t).phase = t.phase from congrArg Standing.phase hst]
      exact h.phase
    · refine ⟨?_, congrArg Standing.suspend hst⟩
      rw [show (a.effect c u t).phase = .ready from congrArg Standing.phase hst]
      exact nofun
  · have hst := standing_effect (c := c) (u := u) hp ha
    have hphase : (a.effect c u t).phase = t.phase :=
      (congrArg Standing.phase hst).trans (a.phase_onStanding (.inl h.phase))
    refine ⟨hphase ▸ h.phase, ?_⟩
    exact ((congrArg Standing.suspend hst).trans (a.suspend_onStanding hask)).trans h.suspend

end Task

namespace Scheduler

variable {s : Scheduler} {u : TaskId}

theorem free_apply {a : Action} (hs : s.Partitioned) (h : ∀ t, s.find? u = some t → t.Free)
    (ha : a.Returns s) (hask : a ≠ .on u .suspend) :
    (∀ t, (a.apply s).find? u = some t → t.Free) ∨ a.Parks u s := by
  by_cases hparks : a.Parks u s
  · exact .inr hparks
  · refine .inl fun t' ht' => ?_
    rcases find?_apply_inv hs ha ht' with ⟨t, ht, rfl⟩ | ⟨name, heapSize, priority, -, rfl⟩
    · by_cases htick : a = .tick
      · subst htick
        refine ((h t ht).turn s.clock.next).resolve_right ?_
        rintro ⟨d, hd, hb⟩
        have hid : d.id = u := (Task.id_of_given hd).trans (id_of_find? ht)
        have hmem := (mem_dispatches_iff_given hs).mpr ⟨t, hid.symm ▸ ht, hd⟩
        exact hparks ⟨rfl, d, hmem, hid, hb⟩
      · exact (h t ht).effect htick hask
    · exact ⟨nofun, rfl⟩

/-- **A free task stays free** through any history in which nobody asks it to park and its program
does not ask to be suspended. -/
theorem free_run {as : List Action} (hs : s.Partitioned) (h : ∀ t, s.find? u = some t → t.Free)
    (ha : s.Returning as) (hask : .on u .suspend ∉ as) :
    (∀ t, (s.run as).find? u = some t → t.Free) ∨ s.ParksItself u as := by
  induction as generalizing s with
  | nil => exact .inl h
  | cons a as ih =>
    obtain ⟨hreturns, ha⟩ := ha
    have hne : a ≠ .on u .suspend := fun e => hask (e ▸ List.mem_cons_self)
    rcases free_apply hs h hreturns hne with hfree | hparks
    · exact (ih (hs.apply hreturns) hfree ha (mt (List.mem_cons_of_mem a) hask)).imp_right .inr
    · exact .inr (.inl hparks)

end Scheduler

namespace Kernel

variable {k : Kernel} {id : TaskId} {t : Task}

/-! ## Requests before a resumption -/

theorem suspend_of_task? (ht : k.task? id = some t) (hp : t.phase ≠ .dormant) :
    k.suspend id = (true, k.put { t with suspend := true }) := by
  simp only [suspend, ht, Task.requestSuspend, if_neg hp]

theorem resume_of_suspended (ht : k.task? id = some t) (hp : t.phase = .suspended) :
    k.resume id = (true, { k with scheduler := k.scheduler.moveTo id .ready }) := by
  have hphase : k.scheduler.phase? id = some .suspended := hp ▸ phase?_of_task? ht
  rw [resume, Scheduler.resume, if_pos hphase]

theorem suspend_iterate (ht : k.task? id = some t) (hp : t.phase ≠ .dormant) (n : Nat) :
    (fun k : Kernel => (k.suspend id).2)^[n + 1] k = k.put { t with suspend := true } := by
  induction n with
  | zero => exact congrArg Prod.snd (suspend_of_task? ht hp)
  | succ n ih =>
    have hasked : (k.put { t with suspend := true }).task? id = some { t with suspend := true } :=
      task?_put_self ht rfl
    rw [Function.iterate_succ_apply', ih, suspend_of_task? hasked hp]
    exact congrArg (fun s => { k with scheduler := s })
      (Scheduler.put_put k.scheduler _ { t with suspend := true } rfl)

theorem task?_resume (ht : k.task? id = some t) (hp : t.phase = .suspended) :
    (k.resume id).2.task? id = some { t with phase := .ready } := by
  rw [resume_of_suspended ht hp]
  refine (Scheduler.find?_moveTo _ id .ready id).trans ?_
  rw [if_pos rfl, show k.scheduler.find? id = some t from ht]
  rfl

/-- A task that is asked to park and then resumed is as good as one that is resumed and then asked
to park. -/
theorem resume_of_asked (ht : k.task? id = some t) (hp : t.phase = .suspended) :
    (k.put { t with suspend := true }).resume id = (true, ((k.resume id).2.suspend id).2) := by
  have hasked : (k.put { t with suspend := true }).task? id = some { t with suspend := true } :=
    task?_put_self ht rfl
  rw [resume_of_suspended hasked hp, suspend_of_task? (task?_resume ht hp) nofun,
    resume_of_suspended ht hp]
  exact congrArg (fun s => (true, { k with scheduler := s }))
    (Scheduler.put_moveTo (u := { t with suspend := true }) ht rfl rfl rfl .ready)

theorem suspend_of_asked (h : Reachable k) (ht : k.task? id = some t) (hp : t.phase ≠ .dormant)
    (hs : t.suspend = true) : (k.suspend id).2 = k := by
  have hsame : { t with suspend := true } = t := by rw [← hs]
  rw [suspend_of_task? ht hp, hsame]
  exact congrArg (fun s => { k with scheduler := s }) (Scheduler.put_of_find? h.partitioned ht)

/-- **Requests to park a suspended task.** Let a task of a reachable kernel be suspended. Asking it
to park any number of times and then resuming it is the same as resuming it and then asking it to
park once. If it had been asked before, this is the same as resuming it.

Unless the task was asked to stop, it gets control in the turn after the resumption, does the same
and writes the same with the request and without it. But if it yields, it is parked again with the
request; if it sleeps, the request is still to be honoured.

Without a request, before the resumption or after, it is not suspended again, whatever else is done,
until its program asks for it. -/
theorem requests_while_suspended (h : Reachable k) (ht : k.task? id = some t)
    (hp : t.phase = .suspended) :
    let resumed := (k.resume id).2
    let asked := (resumed.suspend id).2
    (∀ n, ((fun k : Kernel => (k.suspend id).2)^[n + 1] k).resume id = (true, asked)) ∧
    (t.suspend = true → asked = resumed) ∧
    (t.interrupt = false →
      let d := { t with phase := .ready, timeslice := k.scheduler.timeslice }
      d ∈ resumed.scheduler.dispatches ∧ { d with suspend := true } ∈ asked.scheduler.dispatches ∧
      asked.scheduler.textOf id = resumed.scheduler.textOf id ∧
      ∃ t', resumed.tick.value.kernel.task? id = some t' ∧
        asked.tick.value.kernel.task? id = some (t'.ifAsked d.step.handback)) ∧
    (t.suspend = false → ∀ as, resumed.scheduler.Returning as → .on id .suspend ∉ as →
      (resumed.scheduler.run as).phase? id = some .suspended →
      resumed.scheduler.ParksItself id as) := by
  intro resumed asked
  have hresumed : resumed.Reachable := h.resume id
  have hasked : asked.Reachable := hresumed.suspend id
  have htask : resumed.task? id = some { t with phase := .ready } := task?_resume ht hp
  have hput : asked = resumed.put { t with phase := .ready, suspend := true } :=
    congrArg Prod.snd (suspend_of_task? htask nofun)
  have htask' : asked.task? id = some { t with phase := .ready, suspend := true } := by
    rw [hput]
    exact task?_put_self htask rfl
  refine ⟨fun n => ?_, fun hs => ?_, fun hi => ?_, fun hs as ha hask hend => ?_⟩
  · rw [suspend_iterate ht (by simp [hp]) n, resume_of_asked ht hp]
  · exact suspend_of_asked hresumed htask nofun hs
  · have hclock : asked.scheduler.clock = resumed.scheduler.clock := by
      rw [hput]
      rfl
    have hslice : resumed.scheduler.timeslice = k.scheduler.timeslice :=
      congrArg Clock.timeslice (Scheduler.clock_apply k.scheduler (.resume id))
    obtain ⟨hmem, hmem', htext⟩ := Scheduler.dispatches_of_asked hresumed.partitioned
      hasked.partitioned hclock htask htask' rfl hi
    have hturn := (Task.turn_of_asked (t := { t with phase := .ready }) rfl hi
      resumed.scheduler.clock.next).2
    rw [← hslice]
    refine ⟨hmem, hmem', htext, _, task?_tick hresumed htask, ?_⟩
    rw [task?_tick hasked htask', hclock]
    exact congrArg some hturn
  · have hfree : ∀ u, resumed.scheduler.find? id = some u → u.Free := by
      intro u hu
      have heq := htask.symm.trans hu
      cases heq
      exact ⟨nofun, hs⟩
    refine (Scheduler.free_run hresumed.partitioned hfree ha hask).resolve_left fun hfree => ?_
    obtain ⟨u, hu, hsuspended⟩ := (Scheduler.phase?_eq_some_iff _ _ _).mp hend
    exact (hfree u hu).phase hsuspended

/-- A task suspended itself, is asked to park three times and is resumed: it writes its next line,
as it would do without the requests, and is parked again when it yields. Without them it runs on. -/
theorem requests_while_suspended_three : ∃ k resumed asked : Kernel, Reachable k ∧
    k.phase? ⟨1⟩ = some .suspended ∧ (k.resume ⟨1⟩).2 = resumed ∧
    ((fun k : Kernel => (k.suspend ⟨1⟩).2)^[3] k).resume ⟨1⟩ = (true, asked) ∧
    resumed.scheduler.textOf ⟨1⟩ = "on\n" ∧ asked.scheduler.textOf ⟨1⟩ = "on\n" ∧
    asked.tick.value.kernel.phase? ⟨1⟩ = some .suspended ∧
    (resumed.scheduler.run [.tick, .tick]).phase? ⟨1⟩ ≠ some .suspended := by
  have hnew := (Reachable.new { Config.default with heapSize := 64 }).create none
    (by decide +kernel)
  have hparked := ((hnew.compile ⟨1⟩ "suspend\nputs 'on'\npass\npass").execute ⟨1⟩).tick
  -- one evaluation of the kernel serves all of these
  obtain ⟨k, hk, ⟨t, ht, hp, hs, hi, hyield⟩, htext, hruns⟩ : ∃ k, Reachable k ∧
      (∃ t, k.task? ⟨1⟩ = some t ∧ t.phase = .suspended ∧ t.suspend = false ∧
        t.interrupt = false ∧ { t with
          phase := .ready
          timeslice := k.scheduler.timeslice }.step.handback = .yield) ∧
      (k.resume ⟨1⟩).2.scheduler.textOf ⟨1⟩ = "on\n" ∧
      ¬ (k.resume ⟨1⟩).2.scheduler.ParksItself ⟨1⟩ [.tick, .tick] :=
    ⟨_, hparked, by decide +kernel⟩
  obtain ⟨hsame, -, hturn, hfree⟩ := requests_while_suspended hk ht hp
  obtain ⟨-, -, htexts, t', -, ht'⟩ := hturn hi
  refine ⟨k, (k.resume ⟨1⟩).2, ((k.resume ⟨1⟩).2.suspend ⟨1⟩).2, hk, hp ▸ phase?_of_task? ht, rfl,
    hsame 2, htext, htexts.trans htext, ?_, fun hend => hruns ?_⟩
  · rw [phase?_of_task? ht', hyield]
    rfl
  · exact hfree hs [.tick, .tick] ⟨trivial, trivial, trivial⟩ (by decide) hend

/-- A task suspended itself and is asked to park. When it is resumed it is parked again at once,
although its program does not ask for it; without the request it stays ready. -/
theorem parked_again : ∃ k : Kernel, Reachable k ∧ k.phase? ⟨1⟩ = some .suspended ∧
    (k.suspend ⟨1⟩).1 = true ∧
    let resumed := (k.resume ⟨1⟩).2
    let asked := ((k.suspend ⟨1⟩).2.resume ⟨1⟩).2
    [resumed, asked].map (fun k => k.phase? ⟨1⟩) = [some .ready, some .ready] ∧
    [resumed, asked].map (fun k => k.tick.value.kernel.phase? ⟨1⟩) =
      [some .ready, some .suspended] ∧
    ¬ asked.scheduler.ParksItself ⟨1⟩ [.tick] := by
  have hnew := (Reachable.new { Config.default with heapSize := 64 }).create none
    (by decide +kernel)
  exact ⟨_, ((hnew.compile ⟨1⟩ "suspend\npass\npass").execute ⟨1⟩).tick, by decide +kernel⟩

end Kernel

end Coop
