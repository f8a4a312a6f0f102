import Coop.Host.ConsoleScript
import Coop.Proofs.Host.Books
import Coop.Proofs.Interrupt.History
import Coop.Proofs.Kernel.Running

/-!
# The accounts of a wait

A host keeps books of everything that is done to it. The books after a wait show how many passes it
made, and that it did nothing else than what belongs to them and to its outcome.

* `Scheduler.interrupts_runTick`, `interrupts_interrupt`: who is asked to stop;
* `Booked`, **`booked_passes`**: the books after a number of passes;
* `Act`, `waitActs`, `passes_eq_acts`: everything a wait does, act by act;
* `Accounts`, `WaitPath.accounts`: the accounts of a wait;
* **`wait_accounts`**: every wait that ends accounts for everything it did.
-/

namespace Coop

variable {ι C : Type}

/-! ## Requests to stop -/

theorem Task.interrupts_dispatched (c : Clock) (t : Task) :
    (t.dispatched c).interrupts = t.interrupts := by
  have hstep : ∀ t : Task, t.step.task.interrupts = t.interrupts := by
    intro t
    unfold step
    split <;> rfl
  unfold dispatched
  split_ifs
  · rw [← hstep { t with timeslice := c.timeslice }]
    cases hb : (t.slice c).handback with
    | yield | sleep | suspend | done | fault => rfl
  · rfl

namespace Scheduler

theorem map_ite_find? {α : Type} {f : Task → Task} {g : Task → α} (hg : ∀ t, g (f t) = g t)
    (s : Scheduler) (id u : TaskId) :
    (if id = u then (s.find? u).map f else s.find? u).map g = (s.find? u).map g := by
  split_ifs
  · rw [Option.map_map]
    exact congrArg (Option.map · _) (funext hg)
  · rfl

/-- **Nobody is asked to stop by a turn**, whatever the state of the scheduler. -/
theorem interrupts_runTick (s : Scheduler) (u : TaskId) :
    (s.runTick.value.scheduler.find? u).map Task.interrupts =
      (s.find? u).map Task.interrupts := by
  rw [value_runTick, value_dispatchReady]
  refine List.foldlRecOn
    (motive := fun x : Turn => (x.scheduler.find? u).map Task.interrupts = _) _ _ ?_ ?_
  · refine List.foldlRecOn
      (motive := fun x : Scheduler => (x.find? u).map Task.interrupts = _) _ _ ?_ ?_
    · rw [value_endInterrupted]
      refine List.foldlRecOn
        (motive := fun x : Scheduler => (x.find? u).map Task.interrupts = _) _ _ rfl ?_
      intro x hx id _
      rw [find?_endTask]
      refine (map_ite_find? ?_ x id u).trans hx
      exact fun _ => rfl
    · intro x hx id _
      rw [find?_wake]
      refine (map_ite_find? ?_ x id u).trans hx
      exact fun _ => rfl
  · intro x hx id _
    rw [find?_dispatch, map_ite_find? (Task.interrupts_dispatched _), hx]

end Scheduler

namespace Kernel

theorem interrupts_interrupt {k : Kernel} {id : TaskId} (hr : k.atRest id = false) (u : TaskId) :
    ((k.interrupt id).value.2.task? u).map Task.interrupts =
      (k.task? u).map fun t =>
        if u = id then min (t.interrupts + 1) interruptLimit else t.interrupts := by
  obtain ⟨t, ht, hp⟩ := task?_of_not_atRest hr
  have hid : t.id = id := Scheduler.id_of_find? ht
  rw [value_interrupt, onTask_of_task? ht]
  change ((k.scheduler.put t.requestInterrupt.value.2).find? u).map _ = (k.scheduler.find? u).map _
  rw [Scheduler.find?_put, t.id_requestInterrupt, hid]
  by_cases hu : id = u
  · subst hu
    rw [if_pos rfl, show k.scheduler.find? id = some t from ht, Task.requestInterrupt, if_neg hp]
    simp
  · rw [if_neg hu]
    simp [Ne.symm hu]

theorem tick_interrupt (k : Kernel) (id : TaskId) :
    (k.interrupt id).value.2.scheduler.tick = k.scheduler.tick := by
  unfold interrupt
  cases k.task? id <;> rfl

/-! ## Passes -/

/-- What the tasks write in a number of turns. -/
def turnsText : Nat → Kernel → String
  | 0, _ => ""
  | n + 1, k => k.tick.value.output ++ turnsText n k.tick.value.kernel

theorem snd_pass (k : Kernel) (h : Host ι C) :
    h.Handed eventsPerQuantum (if h.events.isSome then 1 else 0) (k.pass h).2 ∧
    ∃ events lines batches deliveries journal, (k.pass h).2 = { h with
      output := h.output ++ k.tick.value.output
      delays := h.delays + 1
      slept := h.slept + k.config.quantumMs
      watchdog := h.watchdog.map fun d => { d with feeds := d.feeds + 1 }
      events := events
      lines := lines
      batches := batches
      deliveries := deliveries
      journal := journal } := by
  have hpass : (k.pass h).2 = (((h.record k.tick.log).write k.tick.value.output).feed.pump
      eventsPerQuantum).2.sleep k.config.quantumMs := rfl
  rw [hpass]
  -- what the tasks do in the turn does not matter here
  generalize k.tick.log = log, k.tick.value.output = text
  obtain ⟨hhanded, events, lines, batches, deliveries, journal, hpump⟩ :=
    ((h.record log).write text).feed.handed_pump eventsPerQuantum
  rw [hpump] at hhanded ⊢
  exact ⟨hhanded, events, lines, batches, deliveries, journal, rfl⟩

variable [Receiver ι]

/-- The books of a host and the state of the kernel after `n` passes. -/
structure Booked (signal : Bool) (n : Nat) (x y : Kernel × Host ι C) : Prop where
  kernel : y.1 = x.1.turns n
  tick : y.1.scheduler.tick = x.1.scheduler.tick + n
  requests : ∀ u, (y.1.task? u).map Task.interrupts = (x.1.task? u).map Task.interrupts
  input : y.2.input = Receiver.after (if signal then n else 0) x.2.input
  reads : y.2.reads = x.2.reads + if signal then n else 0
  output : y.2.output = x.2.output ++ x.1.turnsText n
  delays : y.2.delays = x.2.delays + n
  slept : y.2.slept = x.2.slept + n * x.1.config.quantumMs
  watchdog : y.2.watchdog = x.2.watchdog.map fun d => { d with feeds := d.feeds + n }
  handed : x.2.Handed eventsPerQuantum (if x.2.events.isSome then n else 0) y.2

/-- **The books after one pass.** -/
theorem booked_wholePass (signal : Bool) (x : Kernel × Host ι C) :
    Booked signal 1 x (wholePass signal x) := by
  obtain ⟨k, h⟩ := x
  obtain ⟨_, _, hlook⟩ := h.seesInterrupt_eq signal
  obtain ⟨hhanded, _, _, _, _, _, hpass⟩ := snd_pass k (h.seesInterrupt signal).2
  have hwhole : k.pass (h.seesInterrupt signal).2 = wholePass signal (k, h) := rfl
  rw [hwhole, hlook] at hhanded hpass
  exact {
    kernel := rfl
    tick := congrArg Clock.tick (Scheduler.clock_runTick k.scheduler)
    requests := Scheduler.interrupts_runTick k.scheduler
    input := by rw [hpass]
    reads := by rw [hpass]
    output := by rw [hpass, turnsText, turnsText, String.append_empty]
    delays := by rw [hpass]
    slept := by rw [hpass, Nat.one_mul]
    watchdog := by rw [hpass]
    handed := hhanded }

/-- **The books after any number of passes.** -/
theorem booked_passes (signal : Bool) (n : Nat) (x : Kernel × Host ι C) :
    Booked signal n x (passes signal n x) := by
  induction n generalizing x with
  | zero =>
    exact {
      kernel := rfl
      tick := rfl
      requests := fun _ => rfl
      input := by simp [passes, Receiver.after]
      reads := by simp [passes]
      output := by simp [passes, turnsText]
      delays := rfl
      slept := by simp [passes]
      watchdog := by simp [passes]
      handed := by simpa [passes] using Host.Handed.refl eventsPerQuantum x.2 }
  | succ n ih =>
    have hone := booked_wholePass signal x
    have hrest := ih (wholePass signal x)
    have hhanded := hone.handed.trans hrest.handed
    rw [hone.handed.isSome] at hhanded
    exact {
      kernel := fst_passes signal (n + 1) x
      tick := hrest.tick.trans (by rw [hone.tick]; omega)
      requests := fun u => (hrest.requests u).trans (hone.requests u)
      input := by
        rw [passes, hrest.input, hone.input]
        cases signal <;> rfl
      reads := by
        rw [passes, hrest.reads, hone.reads]
        split_ifs <;> omega
      output := by
        rw [passes, hrest.output, hone.output, turnsText, turnsText, String.append_empty,
          String.append_assoc]
        rfl
      delays := hrest.delays.trans (by rw [hone.delays]; omega)
      slept := by
        have hconfig : (wholePass signal x).1.config = x.1.config := rfl
        rw [passes, hrest.slept, hone.slept, hconfig, Nat.succ_mul n]
        omega
      watchdog := by
        rw [passes, hrest.watchdog, hone.watchdog, Option.map_map]
        refine congrArg (Option.map · x.2.watchdog) (funext fun d => ?_)
        rw [Function.comp_apply, Nat.add_assoc, Nat.add_comm 1 n]
      handed := by
        rw [passes]
        convert hhanded using 1
        split_ifs <;> omega }

end Kernel

/-! ## What a wait does -/

/-- How often a wait of `n` passes looks at the console. -/
def WaitOutcome.looks (signal : Bool) (n : Nat) (o : WaitOutcome) : Nat :=
  if signal then if o = .interrupted then n + 1 else n else 0

/-- One act of a wait. -/
inductive Act where
  /-- Looks for a Ctrl-C. -/
  | look
  /-- Takes a turn, and writes what the tasks write. -/
  | turn
  | feed
  | handOver (max : Nat)
  | sleep (ms : Nat)
  | write (text : String)
  | requestStop (id : TaskId)
  | disableWatchdog
  | note (level : Level) (text : String)
  deriving DecidableEq

/-- Carries out an act. -/
def Act.perform [Receiver ι] (x : Kernel × Host ι C) : Act → Kernel × Host ι C
  | look => (x.1, (x.2.seesInterrupt true).2)
  | turn => (x.1.tick.value.kernel, (x.2.record x.1.tick.log).write x.1.tick.value.output)
  | feed => (x.1, x.2.feed)
  | handOver max => (x.1, (x.2.pump max).2)
  | sleep ms => (x.1, x.2.sleep ms)
  | write text => (x.1, x.2.write text)
  | requestStop id => ((x.1.interrupt id).value.2, x.2.record (x.1.interrupt id).log)
  | disableWatchdog => (x.1, x.2.disableWatchdog.2)
  | note level text => (x.1, x.2.note level text)

/-- The acts of one pass. -/
def passActs (signal : Bool) (quantum : Nat) : List Act :=
  (if signal then [.look] else []) ++ [.turn, .feed, .handOver eventsPerQuantum, .sleep quantum]

/-- The acts of a wait after its last pass. -/
def lastActs (id : TaskId) (elapsed : Nat) : WaitOutcome → List Act
  | .completed => []
  | .interrupted => [.look, .write "^C\n", .requestStop id, .disableWatchdog,
      .note .info s!"wait on task {id.label}: interrupted"]
  | .timedOut => [.note .warn s!"wait on task {id.label}: timed out after {elapsed} ms"]

/-- Everything a wait does that ends after `n` passes, in order. -/
def waitActs (id : TaskId) (signal : Bool) (quantum n : Nat) (o : WaitOutcome) : List Act :=
  (List.replicate n (passActs signal quantum)).flatten ++ lastActs id (counted 0 quantum n) o

namespace Kernel

variable [Receiver ι]

theorem passes_eq_acts (signal : Bool) (n : Nat) (x : Kernel × Host ι C) : passes signal n x =
    (List.replicate n (passActs signal x.1.config.quantumMs)).flatten.foldl Act.perform x := by
  induction n generalizing x with
  | zero => rfl
  | succ n ih =>
    have hone : wholePass signal x =
        (passActs signal x.1.config.quantumMs).foldl Act.perform x := by
      cases signal <;> rfl
    have hconfig : (wholePass signal x).1.config = x.1.config := rfl
    rw [passes, ih, hconfig, hone, List.replicate_succ, List.flatten_cons, List.foldl_append]

/-! ## Accounts -/

/-- How a wait that ends after `n` whole passes accounts for everything it did, from the kernel `k`
and the host `h` it began with to the kernel `k'` and the host `h'` it left. -/
structure Accounts (id : TaskId) (opts : WaitOptions) (k : Kernel) (h : Host ι C) (n : Nat)
    (o : WaitOutcome) (k' : Kernel) (h' : Host ι C) : Prop where
  /-- It did what belongs to its passes and to its outcome, in this order and nothing else. -/
  acts : (k', h') = (waitActs id opts.signal k.config.quantumMs n o).foldl Act.perform (k, h)
  kernel : k' = if o = .interrupted then ((k.turns n).interrupt id).value.2 else k.turns n
  tick : k'.scheduler.tick = k.scheduler.tick + n
  delays : h'.delays = h.delays + n
  slept : h'.slept = h.slept + n * k.config.quantumMs
  watchdog : h'.watchdog = h.watchdog.map fun d => { d with
    feeds := d.feeds + n
    attempts := d.attempts + if o = .interrupted then 1 else 0 }
  handed : h.Handed eventsPerQuantum (if h.events.isSome then n else 0) h'
  reads : h'.reads = h.reads + o.looks opts.signal n
  input : h'.input = Receiver.after (o.looks opts.signal n) h.input
  /-- It was interrupted if it read a Ctrl-C, and that was the last it read. -/
  interrupted : o = .interrupted ↔
    .byte ctrlC ∈ Receiver.readings (o.looks opts.signal n) h.input
  last : o = .interrupted → ∃ before, .byte ctrlC ∉ before ∧
    Receiver.readings (o.looks opts.signal n) h.input = before ++ [.byte ctrlC]
  output : h'.output = h.output ++ k.turnsText n ++ if o = .interrupted then "^C\n" else ""
  /-- If it was interrupted, it asked the task to stop, once; and nobody else. -/
  target : o = .interrupted → (k.task? id).isSome = true
  requests : ∀ u, (k'.task? u).map Task.interrupts = (k.task? u).map fun t =>
    if o = .interrupted ∧ u = id then min (t.interrupts + 1) interruptLimit else t.interrupts

omit [Receiver ι] in
theorem snd_abandon (k : Kernel) (id : TaskId) (h : Host ι C) : ∃ journal, (k.abandon id h).2 =
    { h with
      output := h.output ++ "^C\n"
      watchdog := h.watchdog.map fun d => { d with attempts := d.attempts + 1 }
      journal := journal } := by
  obtain ⟨journal, hdisabled⟩ :=
    ((h.write "^C\n").record (k.interrupt id).log).disableWatchdog_eq
  exact ⟨_, congrArg (fun h : Host ι C => h.note _ _) hdisabled⟩

/-- A Ctrl-C is seen after some passes if it is the next reading, and the console is looked at. -/
theorem unseen_iff (signal : Bool) (n : Nat) (x : Kernel × Host ι C) :
    ((passes signal n x).2.seesInterrupt signal).1 = false ↔
      (signal = true → (Receiver.look (Receiver.after n x.2.input)).1.2 ≠ .byte ctrlC) := by
  cases signal with
  | false => exact iff_of_true rfl nofun
  | true =>
    have hinput : (passes true n x).2.input = Receiver.after n x.2.input :=
      (booked_passes true n x).input
    obtain ⟨_, _, hlook⟩ := (passes true n x).2.seesInterrupt_eq true
    rw [hlook, hinput]
    simp

theorem ctrlC_notMem_readings {id : TaskId} {opts : WaitOptions} {elapsed n : Nat}
    {x : Kernel × Host ι C} (hpast : ∀ i < n, GoesOn id opts elapsed x i) :
    .byte ctrlC ∉ Receiver.readings (if opts.signal then n else 0) x.2.input := by
  by_cases hs : opts.signal = true
  · rw [if_pos hs, Receiver.mem_readings_iff]
    rintro ⟨i, hi, hread⟩
    exact (unseen_iff opts.signal i x).mp (hpast i hi).unseen hs hread
  · rw [if_neg hs]
    exact List.not_mem_nil

/-- A wait that is not interrupted does what its passes do. -/
theorem Booked.accounts {id : TaskId} {opts : WaitOptions} {k : Kernel} {h : Host ι C} {n : Nat}
    {o : WaitOutcome} {y : Kernel × Host ι C} (hb : Booked opts.signal n (k, h) y)
    (ho : o ≠ .interrupted)
    (hunseen : .byte ctrlC ∉ Receiver.readings (if opts.signal then n else 0) h.input)
    (hacts : y = (waitActs id opts.signal k.config.quantumMs n o).foldl Act.perform (k, h)) :
    Accounts id opts k h n o y.1 y.2 := by
  have hlooks : o.looks opts.signal n = if opts.signal then n else 0 := by
    rw [WaitOutcome.looks, if_neg ho]
  rw [← hlooks] at hunseen
  exact {
    acts := hacts
    kernel := by rw [if_neg ho, hb.kernel]
    tick := hb.tick
    delays := hb.delays
    slept := hb.slept
    watchdog := by
      simp only [if_neg ho]
      exact hb.watchdog
    handed := hb.handed
    reads := hlooks ▸ hb.reads
    input := hlooks ▸ hb.input
    interrupted := ⟨fun h => absurd h ho, fun h => absurd h hunseen⟩
    last := fun h => absurd h ho
    output := by rw [if_neg ho, String.append_empty, hb.output]
    target := fun h => absurd h ho
    requests := fun u => by
      simp only [ho, false_and, if_false]
      exact hb.requests u }

/-- A wait that sees a Ctrl-C after some passes does nothing more than to answer it. -/
theorem accounts_of_interrupted {id : TaskId} {opts : WaitOptions} {k : Kernel} {h h₁ : Host ι C}
    {n : Nat}
    (hunseen : .byte ctrlC ∉ Receiver.readings (if opts.signal then n else 0) h.input)
    (hr : (passes opts.signal n (k, h)).1.atRest id = false)
    (hs : (passes opts.signal n (k, h)).2.seesInterrupt opts.signal = (true, h₁)) :
    Accounts id opts k h n .interrupted ((passes opts.signal n (k, h)).1.abandon id h₁).1
      ((passes opts.signal n (k, h)).1.abandon id h₁).2 := by
  obtain ⟨signal, timeout⟩ := opts
  obtain rfl : signal = true := signal_of_seesInterrupt hs
  have hb := booked_passes true n (k, h)
  have hacts := passes_eq_acts true n (k, h)
  have hunseen : .byte ctrlC ∉ Receiver.readings n h.input := hunseen
  dsimp only at hr hs ⊢
  generalize passes true n (k, h) = y at hr hs hb hacts ⊢
  have hinput : y.2.input = Receiver.after n h.input := hb.input
  obtain ⟨lines, journal, hlook⟩ := y.2.seesInterrupt_eq true
  rw [hs, hinput] at hlook
  obtain ⟨hread, hhost⟩ := Prod.mk.inj hlook
  rw [Bool.true_and, eq_comm, decide_eq_true_iff] at hread
  have hreadings : Receiver.readings (n + 1) h.input =
      Receiver.readings n h.input ++ [.byte ctrlC] := by
    rw [Receiver.readings_succ, hread]
  have hlast : y.1.abandon id h₁ =
      (waitActs id true k.config.quantumMs n .interrupted).foldl Act.perform (k, h) := by
    have hafter : h₁ = (y.2.seesInterrupt true).2 := by rw [hs]
    rw [waitActs, List.foldl_append, ← hacts, hafter]
    rfl
  obtain ⟨_, habandon⟩ := y.1.snd_abandon id h₁
  exact {
    acts := hlast
    kernel := by
      rw [if_pos rfl, ← hb.kernel]
      rfl
    tick := (y.1.tick_interrupt id).trans hb.tick
    delays := by
      rw [habandon, hhost]
      exact hb.delays
    slept := by
      rw [habandon, hhost]
      exact hb.slept
    watchdog := by
      rw [habandon, hhost]
      change y.2.watchdog.map _ = _
      rw [hb.watchdog, Option.map_map]
      rfl
    handed := by
      rw [habandon, hhost]
      exact hb.handed
    reads := by
      rw [habandon, hhost]
      change y.2.reads + 1 = _
      rw [hb.reads]
      rfl
    input := by
      rw [habandon, hhost]
      exact (Receiver.after_succ n h.input).symm
    interrupted := by simp [WaitOutcome.looks, hreadings]
    last := fun _ => ⟨_, hunseen, hreadings⟩
    output := by
      rw [habandon, hhost]
      change y.2.output ++ "^C\n" = _
      rw [hb.output]
      rfl
    target := fun _ => by
      obtain ⟨t, ht, -⟩ := task?_of_not_atRest hr
      have hlive := congrArg Option.isSome (hb.requests id)
      rw [Option.isSome_map, Option.isSome_map, ht] at hlive
      exact hlive.symm
    requests := fun u => by
      have hmap := congrArg
        (Option.map fun i => if u = id then min (i + 1) interruptLimit else i) (hb.requests u)
      rw [Option.map_map, Option.map_map] at hmap
      refine (interrupts_interrupt hr u).trans (hmap.trans ?_)
      simp [Function.comp_def] }

/-- The passes of a wait that ended, with its accounts: it ended for lack of time or it did not. -/
theorem WaitPath.accounts {id : TaskId} {opts : WaitOptions} {patience : Nat} {k : Kernel}
    {h : Host ι C} {w : Waited ι C} {o : WaitOutcome} (hpath : WaitPath id opts patience 0 (k, h) w)
    (ho : w.outcome = some o) : ∃ n ≤ patience, (∀ i < n, GoesOn id opts 0 (k, h) i) ∧
      (o = .timedOut ↔ ¬ opts.Allows (counted 0 k.config.quantumMs n)) ∧
      Accounts id opts k h n o w.kernel w.host := by
  cases hpath with
  | completed n hn hpast ht hr =>
    cases ho
    have hb := booked_passes opts.signal n (k, h)
    refine ⟨n, hn, hpast, ⟨nofun, (absurd ht ·)⟩,
      hb.accounts nofun (ctrlC_notMem_readings hpast) ?_⟩
    rw [waitActs, lastActs, List.append_nil]
    exact passes_eq_acts opts.signal n (k, h)
  | interrupted n hn hpast ht hr hs =>
    cases ho
    exact ⟨n, hn, hpast, ⟨nofun, (absurd ht ·)⟩,
      accounts_of_interrupted (ctrlC_notMem_readings hpast) hr hs⟩
  | timedOut n hn hpast ht hlate =>
    cases ho
    have hb := booked_passes opts.signal n (k, h)
    refine ⟨n, hn, hpast, iff_of_true rfl fun hallows => ?_, ?_⟩
    · exact Nat.not_le_of_lt hlate (hallows _ ht)
    · refine Booked.accounts (y := (_, _)) ?_ nofun (ctrlC_notMem_readings hpast) ?_
      · exact ⟨hb.kernel, hb.tick, hb.requests, hb.input, hb.reads, hb.output, hb.delays, hb.slept,
          hb.watchdog, hb.handed⟩
      · rw [waitActs, List.foldl_append, ← passes_eq_acts opts.signal n (k, h)]
        rfl
  | unfinished hpast => cases ho

/-- **Every wait that ends accounts for everything it did.** There is nothing to wait for on a task
that is dormant or does not exist. Otherwise the books show the same number of turns, sleeps of a
quantum, feeds of the watchdog and batches of at most `eventsPerQuantum` events, and a look at the
console in each pass if that was asked for. A wait is interrupted exactly if it reads a Ctrl-C. It
answers it after all that the tasks wrote, asks its task and no other to stop, and tries once to
switch the watchdog off; no other wait does any of this. -/
theorem wait_accounts (patience : Nat) (k : Kernel) (id : TaskId) (opts : WaitOptions)
    (h : Host ι C) :
    let w := k.wait patience id opts h
    (k.phase? id = none ∨ k.phase? id = some .dormant → w = ⟨some .completed, k, h⟩) ∧
    ∀ o, w.outcome = some o → ∃ n ≤ patience, Accounts id opts k h n o w.kernel w.host := by
  intro w
  constructor
  · intro hp
    refine wait_of_atRest patience ?_ opts h
    rcases hp with hp | hp
    · rw [atRest, hp]
    · rw [atRest, hp]
      rfl
  · intro o ho
    obtain ⟨n, hn, -, -, haccounts⟩ := (wait_path patience k id opts h).accounts ho
    exact ⟨n, hn, haccounts⟩

/-- A task that never ends by itself: two passes go by with a byte and a read error on the console,
then there is a Ctrl-C. A handler is called in the second pass. -/
theorem wait_accounts_noisy : ∃ (k : Kernel) (h : Host ConsoleScript Unit),
    let w := k.wait 9 ⟨1⟩ .untilSignal h
    w.outcome = some .interrupted ∧ Accounts ⟨1⟩ .untilSignal k h 2 .interrupted w.kernel w.host ∧
    w.host.reads = 3 ∧ w.host.output = "hi\n^C\n" ∧ w.host.watchdog = some ⟨true, 2, 1⟩ ∧
    w.host.batches = 2 ∧ w.host.deliveries.size = 1 ∧
    (w.kernel.task? ⟨1⟩).map Task.interrupts = some 1 := by
  let k := (((((Kernel.new { Config.default with heapSize := 64 }).create none).value.2.compile ⟨1⟩
    "puts 'hi'\nloop do\npass\nend").value.2).execute ⟨1⟩).value.2
  let script : ConsoleScript :=
    ⟨0, [⟨1, .byte 0x61⟩, ⟨2, .failed "overrun"⟩, ⟨3, .byte 0x03⟩], [2], ⟨0, 3, .rising⟩, 9⟩
  let st : Station Unit := (Station.start 1).run
    [.attachGpio 0, .register ⟨.gpio, 3⟩ .edges ⟨true, none, ()⟩ fun _ c => .finish c none]
  -- one evaluation of the wait serves all of these
  obtain ⟨k, h, hstart, houtcome, hdelays, hrest⟩ :
      ∃ (k : Kernel) (h : Host ConsoleScript Unit), h.delays = 0 ∧
        (k.wait 9 ⟨1⟩ .untilSignal h).outcome = some .interrupted ∧
        (k.wait 9 ⟨1⟩ .untilSignal h).host.delays = 2 ∧
        (k.wait 9 ⟨1⟩ .untilSignal h).host.reads = 3 ∧
        (k.wait 9 ⟨1⟩ .untilSignal h).host.output = "hi\n^C\n" ∧
        (k.wait 9 ⟨1⟩ .untilSignal h).host.watchdog = some ⟨true, 2, 1⟩ ∧
        (k.wait 9 ⟨1⟩ .untilSignal h).host.batches = 2 ∧
        (k.wait 9 ⟨1⟩ .untilSignal h).host.deliveries.size = 1 ∧
        ((k.wait 9 ⟨1⟩ .untilSignal h).kernel.task? ⟨1⟩).map Task.interrupts = some 1 :=
    ⟨k, .new script st.lines (some (.armed true)) (some st.hub), by decide +kernel⟩
  obtain ⟨n, -, haccounts⟩ := (wait_accounts 9 k ⟨1⟩ .untilSignal h).2 _ houtcome
  obtain rfl : n = 2 := by
    have hn := haccounts.delays
    omega
  exact ⟨k, h, houtcome, haccounts, hrest⟩

end Kernel

end Coop
