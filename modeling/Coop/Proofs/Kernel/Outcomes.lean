import Coop.Proofs.Kernel.Completion
import Coop.Proofs.Kernel.Drafts
import Coop.Proofs.Kernel.Installing
import Coop.Proofs.Kernel.Timeslice

/-!
# What a run reports

A run reports on a program by what is left in its task when the task is dormant again. What is left
there is what became of this very program, whatever the task was used for before.

* `Machine.Finishes`, `Finishes.unique`: how a program comes to its end, without a budget;
* `finishes_run`: a slice brings a program closer to its end, or there;
* `Task.Pursues`, `Task.Progress`, **`Task.Progress.turn`**: a task that runs a program, and what
  one turn makes of it;
* `Faithful`: an outcome that says what became of a program;
* `failure_of_refused`, **`join_faithful`**: a task that was not launched, and waiting for one that
  was;
* **`run_faithful`**, `run_refused`: running a file.
-/

namespace Coop

open Script

/-! ## Programs that come to their end -/

/-- A program comes to its end, and `hb` is what it hands back then; whenever it hands control back
before that, it goes on from there. -/
inductive Machine.Finishes (body : ByteArray) : Machine → (hb : Handback) → Prop
  | final {m m' : Machine} {hb : Handback} (h : m.execute body = .back hb m') (hf : IsFinal hb) :
    Finishes body m hb
  | next {m m' : Machine} {hb : Handback} (h : m.execute body = .next m')
    (rest : Finishes body m' hb) : Finishes body m hb
  | back {m m' : Machine} {b hb : Handback} (h : m.execute body = .back b m') (hf : ¬ IsFinal b)
    (rest : Finishes body m' hb) : Finishes body m hb

namespace Machine

variable {body : ByteArray} {hb : Handback}

/-- A program has at most one end. -/
theorem Finishes.unique {m : Machine} {hb' : Handback} (h : Finishes body m hb)
    (h' : Finishes body m hb') : hb' = hb := by
  induction h with
  | final h hf =>
    cases h' with
    | final h₁ =>
      rw [h] at h₁
      cases h₁
      rfl
    | next h₁ => simp [h] at h₁
    | back h₁ hf₁ =>
      rw [h] at h₁
      cases h₁
      exact absurd hf hf₁
  | next h _ ih =>
    cases h' with
    | final h₁ | back h₁ => simp [h] at h₁
    | next h₁ rest =>
      rw [h] at h₁
      cases h₁
      exact ih rest
  | back h hf _ ih =>
    cases h' with
    | final h₁ hf₁ =>
      rw [h] at h₁
      cases h₁
      exact absurd hf₁ hf
    | next h₁ => simp [h] at h₁
    | back h₁ _ rest =>
      rw [h] at h₁
      cases h₁
      exact ih rest

theorem Finishes.behind {m : Machine} (h : Finishes body m hb) (text : String) :
    Finishes body (m.behind text) hb := by
  induction h with
  | final h hf => exact .final (by rw [execute_behind, h]; rfl) hf
  | next h _ ih => exact .next (by rw [execute_behind, h]; rfl) ih
  | back h hf _ ih => exact .back (by rw [execute_behind, h]; rfl) hf ih

/-- A slice that ends the program shows how it ends; after any other slice the program has the end
before it that it had. -/
theorem finishes_run (body : ByteArray) (budget : Nat) (m : Machine) :
    (IsFinal (m.run body budget).handback → Finishes body m (m.run body budget).handback) ∧
    (¬ IsFinal (m.run body budget).handback → ∀ hb,
      Finishes body (m.run body budget).machine hb → Finishes body m hb) := by
  induction budget generalizing m with
  | zero => exact ⟨False.elim, fun _ _ h => h⟩
  | succ budget ih =>
    rw [run_succ]
    cases hm : m.execute body with
    | next m' =>
      obtain ⟨hfinal, hrest⟩ := ih m'
      exact ⟨fun hf => .next hm (hfinal hf), fun hf hb h => .next hm (hrest hf hb h)⟩
    | back b m' => exact ⟨fun hf => .final hm hf, fun hf hb h => .back hm hf h⟩

theorem ne_nothingToRun_of_decode {pc : Nat} {e : ImageError}
    (h : Instr.decode body pc = .error e) : e ≠ .nothingToRun := by
  rintro rfl
  have hoperand {α : Type} {operand : Option α} {make : α → Instr} :
      Instr.withOperand pc operand make ≠ .error .nothingToRun := by
    cases operand <;> simp [Instr.withOperand]
  unfold Instr.decode at h
  cases hop : byteAt? body pc with
  | none => simp [hop] at h
  | some op =>
    simp only [hop] at h
    split_ifs at h <;> first | exact hoperand h | cases h

theorem Finishes.ne_nothingToRun {m : Machine} (h : Finishes body m hb) :
    hb ≠ .fault (.badImage .nothingToRun) := by
  induction h with
  | next _ _ ih | back _ _ _ ih => exact ih
  | @final m m' hb h _ =>
    rintro rfl
    unfold execute at h
    split at h
    case h_1 e he =>
      cases h
      exact ne_nothingToRun_of_decode he rfl
    case h_4 text _ =>
      rcases Nat.lt_or_ge m.arena.free (text.size + 1) with hlt | hle
      · rw [print_of_lt (m := { m with pc := m.pc + 3 + text.size }) hlt] at h
        cases h
      · rw [print_of_le (m := { m with pc := m.pc + 3 + text.size }) hle] at h
        cases h
    all_goals cases h

end Machine

theorem Image.body_ne_nothingToRun (image : ByteArray) : body image ≠ .error .nothingToRun := by
  unfold body
  split_ifs
  · cases be32At? image 8 with
    | none => simp
    | some len => cases hs : slice? image headerLen len <;> simp [hs]
  · simp

/-! ## Tasks that run a program -/

namespace Task

variable {image body : ByteArray} {start : Arena} {t : Task}

/-- The task runs a program that was started on the heap `start`: whatever end the program has
before it now, it had from the start. -/
structure Pursues (image body : ByteArray) (start : Arena) (t : Task) : Prop where
  image : t.image? = some image
  fiber : ∃ pc, t.fiber = some ⟨pc⟩ ∧ ∀ hb, Machine.Finishes body ⟨pc, t.arena, ""⟩ hb →
    Machine.Finishes body ⟨0, start, ""⟩ hb
  interrupt : t.interrupt = false
  running : t.phase ≠ .dormant

/-- The task runs a program, or has run it to its end and keeps what went wrong. -/
inductive Progress (image body : ByteArray) (start : Arena) (t : Task) : Prop
  | running (h : t.Pursues image body start)
  | completed (hp : t.phase = .dormant) (he : t.error = none)
    (h : Machine.Finishes body ⟨0, start, ""⟩ .done)
  | failed {e : Fault} (hp : t.phase = .dormant) (he : t.error = some e)
    (h : Machine.Finishes body ⟨0, start, ""⟩ (.fault e))

theorem turn_of_dormant (hp : t.phase = .dormant) (c : Clock) : t.turn c = t := by
  have hsame : t.interrupted.woken c = t := by
    rw [interrupted_of_not (.inl hp), woken_of_lt (by simp [hp])]
  exact (turn_of_ne_ready hsame (by simp [hp])).2

theorem Pursues.settled {d : Task} (h : d.Pursues image body start) (hheap : d.arena.Valid)
    (herror : d.error = none) (hbody : Image.body image = .ok body) (c : Clock) :
    (d.step.task.settled c d.step.handback).Progress image body start := by
  obtain ⟨pc, hfiber, hend⟩ := h.fiber
  have hrun : runImage image d.timeslice ⟨pc, d.arena, ""⟩ =
      Machine.run body d.timeslice ⟨pc, d.arena, ""⟩ := by rw [runImage, hbody]
  have hkept := Machine.kept_run (m := ⟨pc, d.arena, ""⟩) hheap body d.timeslice
  have himage := (image?_of_kept hkept).trans h.image
  obtain ⟨hfinal, hrest⟩ := Machine.finishes_run body d.timeslice ⟨pc, d.arena, ""⟩
  rw [step_eq hfiber h.image, hrun]
  dsimp only
  generalize Machine.run body d.timeslice ⟨pc, d.arena, ""⟩ = slice at himage hfinal hrest ⊢
  obtain ⟨handback, left, m⟩ := slice
  -- the text of a slice is taken away before the next one
  have hgoes (hf : ¬ IsFinal handback) (hb : Handback)
      (hm : Machine.Finishes body ⟨m.pc, m.arena, ""⟩ hb) :
      Machine.Finishes body ⟨0, start, ""⟩ hb := by
    have hbehind := hm.behind m.output
    rw [Machine.behind, String.append_empty] at hbehind
    exact hend hb (hrest hf hb hbehind)
  cases handback with
  | yield =>
    refine .running ⟨himage, ⟨m.pc, rfl, hgoes fun hf => hf⟩, h.interrupt, ?_⟩
    change (if d.suspend then Phase.suspended else Phase.ready) ≠ .dormant
    split_ifs <;> simp
  | sleep | suspend =>
    exact .running ⟨himage, ⟨m.pc, rfl, hgoes fun hf => hf⟩, h.interrupt, by simp [Task.settled]⟩
  | done =>
    refine .completed rfl ?_ (hend _ (hfinal trivial))
    change none.or d.error = none
    rw [herror]
    rfl
  | fault e => exact .failed rfl rfl (hend _ (hfinal trivial))

/-- **One turn of a task that runs a program, or has run it.** -/
theorem Progress.turn (h : t.Progress image body start) (hc : t.Coherent)
    (hbody : Image.body image = .ok body) (c : Clock) :
    (t.turn c).Progress image body start := by
  cases h with
  | completed hp he h =>
    rw [turn_of_dormant hp]
    exact .completed hp he h
  | failed hp he h =>
    rw [turn_of_dormant hp]
    exact .failed hp he h
  | running h =>
    have hcourse := t.course c
    generalize t.given? c = d, t.turn c = t' at hcourse
    cases hcourse with
    | ended _ hi => simp [h.interrupt] at hi
    | dormant hp => exact absurd hp h.running
    | suspended | asleep => exact .running h
    | parked _ _ _ hs =>
      have hphase : t.awake.phase = .suspended := if_pos hs
      exact .running ⟨h.image, h.fiber, h.interrupt, by simp [hphase]⟩
    | @given d hi hp hd =>
      have hpursues : d.Pursues image body start := by
        rw [hd]
        exact ⟨h.image, h.fiber, h.interrupt, nofun⟩
      refine hpursues.settled ?_ ?_ hbody c
      · rw [hd]
        exact hc.heap
      · rw [hd]
        exact hc.error h.running

theorem pursues_launched (himage : t.image? = some image) (hbody : Image.body image = .ok body)
    (hp : t.phase = .dormant) : t.launched.Pursues image body t.arena := by
  rw [(launched_of_body himage hbody hp).2]
  exact ⟨himage, ⟨0, rfl, fun _ h => h⟩, rfl, nofun⟩

end Task

/-! ## Outcomes -/

/-- The outcome says what became of a program that was started on the heap `start` of a task. If it
is an end, it is the end of the program, or the image was rejected and the program did not start;
and a failure is never the one that stands for none. -/
inductive Faithful (image : ByteArray) (start : Arena) (id : TaskId) : RunOutcome → Prop
  | launched : Faithful image start id (.launched id)
  | completed {body : ByteArray} (hbody : Image.body image = .ok body)
    (h : Machine.Finishes body ⟨0, start, ""⟩ .done) : Faithful image start id (.completed id)
  | rejected {e : ImageError} (h : Image.body image = .error e) (he : e ≠ .nothingToRun) :
    Faithful image start id (.failed id (.badImage e))
  | failed {body : ByteArray} {e : Fault} (hbody : Image.body image = .ok body)
    (h : Machine.Finishes body ⟨0, start, ""⟩ (.fault e)) (he : e ≠ .badImage .nothingToRun) :
    Faithful image start id (.failed id e)
  | interrupted : Faithful image start id (.interrupted id)
  | timedOut : Faithful image start id (.timedOut id)

namespace Kernel

variable {k : Kernel} {id : TaskId} {t : Task} {image body : ByteArray} {start : Arena}
  {ι C : Type} [Receiver ι]

theorem progress_turns (h : Reachable k) (ht : k.task? id = some t)
    (hp : t.Progress image body start) (hbody : Image.body image = .ok body) (n : Nat) :
    ∃ t', (k.turns n).task? id = some t' ∧ t'.Progress image body start := by
  induction n generalizing k t with
  | zero => exact ⟨t, ht, hp⟩
  | succ n ih => exact ih h.tick (task?_tick h ht) (hp.turn (h.coherent ht) hbody _)

/-- **Waiting for a task reports on the program it runs.** -/
theorem join_faithful (h : Reachable k) (ht : k.task? id = some t)
    (hp : t.Progress image body start) (hbody : Image.body image = .ok body) (patience : Nat)
    (opts : WaitOptions) (host : Host ι C) {o : RunOutcome}
    (ho : (k.join patience id opts host).1 = some o) : Faithful image start id o := by
  have hend := wait_ends patience k id opts host
  unfold join at ho
  dsimp only at ho
  generalize (k.wait patience id opts host).outcome = w at hend ho
  generalize (k.wait patience id opts host).kernel = k' at hend ho
  cases hend with
  | completed n hr =>
    obtain ⟨t', ht', hp'⟩ := progress_turns h ht hp hbody n
    have herror : (k.turns n).error? id = t'.error := by rw [error?, ht', Option.bind_some]
    rw [atRest_of_task? ht', beq_iff_eq] at hr
    cases hp' with
    | running hrunning => exact absurd hr hrunning.running
    | completed _ he hdone =>
      rw [Option.map_some, outcome, herror, he] at ho
      cases ho
      exact .completed hbody hdone
    | failed _ he hfault =>
      rw [Option.map_some, outcome, herror, he] at ho
      cases ho
      exact .failed hbody hfault fun he => hfault.ne_nothingToRun (congrArg _ he)
  | interrupted =>
    cases ho
    exact .interrupted
  | timedOut =>
    cases ho
    exact .timedOut
  | unfinished => cases ho

theorem failure_of_refused (ht : k.task? id = some t) (hp : t.phase = .dormant)
    (himage : t.image? = some image) (hx : (k.execute id).value.1 = false) :
    Faithful image start id (.failed id ((k.execute id).value.2.failure id)) := by
  rw [execute_fst ht] at hx
  cases hbody : Image.body image with
  | ok body => simp [(Task.launched_of_body himage hbody hp).1] at hx
  | error e =>
    have hlaunched : t.launched.error = some (.badImage e) := by
      simp only [Task.launched_eq, if_pos hp, himage, hbody]
    have hfailure : (k.execute id).value.2.failure id = .badImage e := by
      rw [failure, error?, task?_execute ht, Option.bind_some, hlaunched]
      rfl
    rw [hfailure]
    refine .rejected hbody ?_
    rintro rfl
    exact Image.body_ne_nothingToRun image hbody

theorem progress_of_launched (ht : k.task? id = some t) (hp : t.phase = .dormant)
    (himage : t.image? = some image) (hx : (k.execute id).value.1 = true) :
    ∃ body, Image.body image = .ok body ∧ (k.execute id).value.2.task? id = some t.launched ∧
      t.launched.Progress image body t.arena := by
  rw [execute_fst ht] at hx
  cases hbody : Image.body image with
  | ok body =>
    exact ⟨body, rfl, task?_execute ht, .running (Task.pursues_launched himage hbody hp)⟩
  | error e => simp [Task.value_launch, hp, himage, hbody] at hx

/-! ## Runs -/

variable {V : Type} [Volume V]

/-- A run in a given task reports on the program it loaded. -/
theorem runIn_faithful (h : Reachable k) {patience : Nat} {vol : V} {host : Host ι C}
    {name : String} {fresh : Bool} {opts : RunOptions} {o : RunOutcome}
    (hr : (k.runIn patience vol host name id fresh opts).result = some (.ok o)) :
    ∃ image t, k.Brought vol id name image t ∧ Faithful image t.arena id o := by
  have hload := h.load vol id name
  unfold runIn Host.absorb at hr
  dsimp only at hr
  cases hl : (k.load vol id name).value.1 with
  | error e =>
    rw [hl] at hr
    cases fresh <;> cases hr
  | ok route =>
    obtain ⟨image, t, hbrought⟩ := brought_of_load hl
    refine ⟨image, t, hbrought, ?_⟩
    rw [hl] at hr
    dsimp only at hr
    cases hx : ((k.load vol id name).value.2.1.execute id).value.1 with
    | false =>
      simp only [hx, Bool.not_false, if_true] at hr
      cases hr
      exact failure_of_refused hbrought.task hbrought.dormant hbrought.image hx
    | true =>
      simp only [hx, Bool.not_true, Bool.false_eq_true, if_false] at hr
      obtain ⟨body, hbody, ht, hprogress⟩ :=
        progress_of_launched hbrought.task hbrought.dormant hbrought.image hx
      cases hj : opts.join with
      | false =>
        simp only [hj, Bool.not_false, if_true] at hr
        cases hr
        exact .launched
      | true =>
        simp only [hj, Bool.not_true, Bool.false_eq_true, if_false] at hr
        obtain ⟨o', ho', hsame⟩ := Option.map_eq_some_iff.mp hr
        cases hsame
        exact join_faithful (hload.execute id) ht hprogress hbody patience opts.wait _ ho'

/-- The kernel and the task a run begins with: the task that was asked for, or a fresh one. -/
def runStart (k : Kernel) (opts : RunOptions) : Kernel × TaskId :=
  match opts.task with
  | some id => (k, id)
  | none => ((k.create none).value.2, k.fresh)

theorem run_eq (k : Kernel) (patience : Nat) (vol : V) (host : Host ι C) (name : String)
    (opts : RunOptions) : ∃ host', k.run patience vol host name opts =
      (k.runStart opts).1.runIn patience vol host' name (k.runStart opts).2 opts.task.isNone
        opts := by
  unfold run runStart Host.absorb
  cases opts.task with
  | some id => exact ⟨host, rfl⟩
  | none =>
    have hok : (k.create none).value.1 = .ok k.fresh := by rw [value_create rfl]
    dsimp only
    rw [hok]
    exact ⟨_, rfl⟩

variable {patience : Nat} {vol : V} {host : Host ι C} {name : String} {opts : RunOptions}

/-- **A run reports on the program it loaded**, in a fresh task or in any dormant one. -/
theorem run_faithful (h : Reachable k) (hroom : opts.task = none → k.HasRoom) {o : RunOutcome}
    (hr : (k.run patience vol host name opts).result = some (.ok o)) :
    ∃ image t, (k.runStart opts).1.Brought vol (k.runStart opts).2 name image t ∧
      Faithful image t.arena (k.runStart opts).2 o := by
  have hstart : Reachable (k.runStart opts).1 := by
    unfold runStart
    cases ht : opts.task with
    | some id => exact h
    | none => exact h.create none (hroom ht)
  obtain ⟨host', hrun⟩ := k.run_eq patience vol host name opts
  rw [hrun] at hr
  exact runIn_faithful hstart hr

theorem runIn_refused {fresh : Bool} {e : LoadError}
    (hr : (k.runIn patience vol host name id fresh opts).result = some (.error e)) :
    (k.runIn patience vol host name id fresh opts).kernel =
      if fresh then ((k.load vol id name).value.2.1.destroy id).value.2
      else (k.load vol id name).value.2.1 := by
  unfold runIn Host.absorb at hr ⊢
  dsimp only at hr ⊢
  cases hl : (k.load vol id name).value.1 with
  | error e => cases fresh <;> rfl
  | ok route =>
    rw [hl] at hr
    dsimp only at hr
    split_ifs at hr
    · cases hr
    · cases hr
    · obtain ⟨o, -, ho⟩ := Option.map_eq_some_iff.mp hr
      cases ho

/-- A run that could not load its file leaves the same tasks behind, each in the phase it was in. -/
theorem run_refused (h : Reachable k) (hroom : opts.task = none → k.HasRoom) {e : LoadError}
    (hr : (k.run patience vol host name opts).result = some (.error e)) :
    (k.run patience vol host name opts).kernel.live = k.live ∧
      ∀ u, (k.run patience vol host name opts).kernel.phase? u = k.phase? u := by
  obtain ⟨host', hrun⟩ := k.run_eq patience vol host name opts
  rw [hrun] at hr ⊢
  rw [runIn_refused hr]
  unfold runStart
  cases ht : opts.task with
  | some id =>
    exact ⟨(SamePopulation.load vol id name).live, fun u => phase?_load vol id name u⟩
  | none =>
    have hb : (none : Option String).bind k.lookup = none := rfl
    have hdraft := (Drafted.create h (hroom ht) hb).load vol name
    obtain ⟨htasks, -⟩ := hdraft.destroy h (hroom ht) hb
    refine ⟨congrArg (List.map Task.id) htasks, fun u => ?_⟩
    simp only [phase?, Scheduler.phase?, Scheduler.find?, Option.isNone_none, if_true, htasks]

end Kernel

end Coop
