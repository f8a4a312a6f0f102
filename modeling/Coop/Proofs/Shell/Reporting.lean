import Coop.Board.Command
import Coop.Proofs.Kernel.Accounts
import Coop.Proofs.Kernel.Outcomes
import Coop.Proofs.Shell.Calls

/-!
# What a failing command line prints

A command that is refused takes no turn, so nothing but its report reaches the console. The report
is one line, except that `run` and a line typed in print some refusals themselves before they are
printed as those of any command.

* `clock_create`, `clock_load`, …: calls that take no turn;
* `RunWay`, `runIn_cases`, `join_failed`: the ways in which a run can go;
* `Ended`, `ended_runFile`, `ended_evaluate`: how a blocking call ends badly;
* `refused_perform`, `failed_perform`: the same for every command;
* **`failing_line_reported`**: what a failing line prints, with `refusals_reported_twice`.
-/

namespace Coop

variable {V ι C : Type}

namespace Kernel

variable {k : Kernel}

/-! ## Calls that take no turn -/

theorem clock_onTask (id : TaskId) (a : Task.Action) :
    (k.onTask id a).scheduler.clock = k.scheduler.clock := by
  unfold onTask
  cases k.task? id <;> rfl

theorem clock_create (name : Option String) :
    (k.create name).value.2.scheduler.clock = k.scheduler.clock := by
  cases hb : name.bind k.lookup with
  | some holder =>
    rw [create, hb]
    rfl
  | none =>
    rw [value_create hb]
    rfl

theorem clock_destroy (id : TaskId) :
    (k.destroy id).value.2.scheduler.clock = k.scheduler.clock := by
  by_cases hd : k.phase? id = some .dormant
  · rw [value_destroy hd]
    exact Scheduler.clock_apply k.scheduler (.remove id)
  · obtain ⟨e, he⟩ := value_destroy_of_ne hd
    rw [he]

theorem clock_remove (name : String) :
    (k.remove name).value.2.scheduler.clock = k.scheduler.clock := by
  cases hl : k.lookup name with
  | none =>
    rw [remove, hl]
    rfl
  | some id =>
    rw [value_remove hl]
    exact clock_destroy id

theorem clock_execute (id : TaskId) :
    (k.execute id).value.2.scheduler.clock = k.scheduler.clock :=
  Scheduler.clock_apply k.scheduler (.launch id)

theorem clock_resume (id : TaskId) : (k.resume id).2.scheduler.clock = k.scheduler.clock :=
  Scheduler.clock_apply k.scheduler (.resume id)

theorem clock_load [Volume V] (vol : V) (id : TaskId) (name : String) :
    (k.load vol id name).value.2.1.scheduler.clock = k.scheduler.clock := by
  rcases load_eq_or vol id name with h | ⟨-, a, h⟩
  · rw [h]
  · rw [h, clock_onTask]

/-! ## Runs -/

variable [Volume V] [Receiver ι]

/-- The kernel with a file in a task, launched. -/
def launchedIn (k : Kernel) (vol : V) (id : TaskId) (name : String) : Kernel :=
  ((k.load vol id name).value.2.1.execute id).value.2

theorem clock_launchedIn (vol : V) (id : TaskId) (name : String) :
    (k.launchedIn vol id name).scheduler.clock = k.scheduler.clock :=
  (clock_execute id).trans (clock_load vol id name)

/-- The ways in which a run in a task can go that waits for the end of the task. -/
inductive RunWay (k : Kernel) (patience : Nat) (vol : V) (h : Host ι C) (name : String)
    (id : TaskId) (wait : WaitOptions) : Ran V ι C → Prop
  /-- There was nothing to launch. -/
  | refused {e : LoadError} {k' : Kernel} {vol' : V} {h' : Host ι C}
    (hclock : k'.scheduler.clock = k.scheduler.clock) (hout : h'.output = h.output) :
    RunWay k patience vol h name id wait ⟨some (.error e), k', vol', h'⟩
  /-- The image was rejected. -/
  | rejected {f : Fault} {vol' : V} {h' : Host ι C} (hout : h'.output = h.output) :
    RunWay k patience vol h name id wait
      ⟨some (.ok (.failed id f)), k.launchedIn vol id name, vol', h'⟩
  | joined {outcome : Option RunOutcome} {k' : Kernel} {vol' : V} {h₀ h' : Host ι C}
    (hj : (k.launchedIn vol id name).join patience id wait h₀ = (outcome, k', h'))
    (hout : h₀.output = h.output) :
    RunWay k patience vol h name id wait ⟨outcome.map .ok, k', vol', h'⟩

theorem runIn_cases (k : Kernel) (patience : Nat) (vol : V) (h : Host ι C) (name : String)
    (id : TaskId) (fresh : Bool) (task : Option TaskId) (wait : WaitOptions) :
    RunWay k patience vol h name id wait
      (k.runIn patience vol h name id fresh ⟨task, true, wait⟩) := by
  have hload := clock_load (k := k) vol id name
  unfold runIn Host.absorb
  dsimp only
  cases (k.load vol id name).value.1 with
  | error e =>
    cases fresh with
    | false => exact .refused hload rfl
    | true => exact .refused ((clock_destroy id).trans hload) rfl
  | ok route =>
    dsimp only
    split_ifs
    · exact .rejected rfl
    · contradiction
    · exact .joined rfl rfl

theorem run_cases (k : Kernel) (patience : Nat) (vol : V) (h : Host ι C) (name : String)
    (wait : WaitOptions) : RunWay (k.create none).value.2 patience vol
      (h.record (k.create none).log) name k.fresh wait
      (k.run patience vol h name ⟨none, true, wait⟩) := by
  have hok : (k.create none).value.1 = .ok k.fresh := by rw [value_create rfl]
  unfold run Host.absorb
  dsimp only
  rw [hok]
  exact runIn_cases _ patience vol _ name k.fresh true none wait

omit [Volume V] in
theorem join_failed {patience : Nat} {id u : TaskId} {wait : WaitOptions} {k' : Kernel}
    {h h' : Host ι C} {f : Fault}
    (hj : k.join patience id wait h = (some (.failed u f), k', h')) :
    ∃ n, k'.scheduler.tick = k.scheduler.tick + n ∧ h'.output = h.output ++ k.turnsText n := by
  obtain ⟨hfailed, hafter⟩ := Prod.mk.inj hj
  obtain ⟨rfl, rfl⟩ := Prod.mk.inj hafter
  obtain ⟨o, ho, hfailed⟩ := Option.map_eq_some_iff.mp hfailed
  obtain ⟨n, -, -, -, haccounts⟩ := (wait_path patience k id wait h).accounts ho
  have hne : o ≠ .interrupted := by
    rintro rfl
    cases hfailed
  have hout := haccounts.output
  rw [if_neg hne, String.append_empty] at hout
  exact ⟨n, haccounts.tick, hout⟩

end Kernel

/-! ## Commands -/

/-- The command prints the error by itself: `run` why its file cannot be loaded, and a line typed in
why it cannot be compiled. -/
def Command.printsItself : Command → ShellError → Bool
  | .run _, .load _ | .evaluate _, .compile _ => true
  | _, _ => false

namespace Shell

variable {s : Shell V}

/-! ## Requests -/

theorem clock_retract (name : String) (why : ShellError) :
    (s.retract name why).value.2.kernel.scheduler.clock = s.kernel.scheduler.clock := by
  have hremove := Kernel.clock_remove (k := s.kernel) name
  unfold retract
  dsimp only [Logged.value_bind]
  cases (s.kernel.remove name).value.1 <;> exact hremove

theorem clock_start [Volume V] (name path : String) :
    (s.start name path).value.2.kernel.scheduler.clock = s.kernel.scheduler.clock := by
  have hcreate := Kernel.clock_create (k := s.kernel) (some name)
  unfold start
  dsimp only [Logged.value_bind]
  cases (s.kernel.create (some name)).value.1 with
  | error e => exact hcreate
  | ok id =>
    have hload := Kernel.clock_load (k := (s.kernel.create (some name)).value.2) s.volume id path
    dsimp only [Logged.value_bind]
    cases ((s.kernel.create (some name)).value.2.load s.volume id path).value.1 with
    | error e => exact (clock_retract name _).trans (hload.trans hcreate)
    | ok route =>
      dsimp only
      rw [value_launch]
      exact (Kernel.clock_execute id).trans (hload.trans hcreate)

theorem clock_suspend (name : String) :
    (s.suspend name).2.kernel.scheduler.clock = s.kernel.scheduler.clock := by
  unfold suspend
  cases s.task name with
  | none => rfl
  | some id =>
    dsimp only
    rw [Kernel.suspend_eq, Kernel.clock_onTask]

theorem clock_resume (name : String) :
    (s.resume name).2.kernel.scheduler.clock = s.kernel.scheduler.clock := by
  unfold resume
  cases s.task name with
  | none => rfl
  | some id => exact Kernel.clock_resume id

theorem clock_kill (name : String) :
    (s.kill name).value.2.kernel.scheduler.clock = s.kernel.scheduler.clock := by
  unfold kill
  cases s.task name with
  | none => rfl
  | some id =>
    dsimp only [Logged.value_bind]
    change (s.kernel.interrupt id).value.2.scheduler.clock = _
    rw [Kernel.value_interrupt, Kernel.clock_onTask]

theorem clock_remove (name : String) :
    (s.remove name).value.2.kernel.scheduler.clock = s.kernel.scheduler.clock := by
  rw [remove_snd]
  exact Kernel.clock_remove name

theorem clock_ensureEvaluator :
    s.ensureEvaluator.value.2.kernel.scheduler.clock = s.kernel.scheduler.clock := by
  have hcreate := Kernel.clock_create (k := s.kernel) none
  unfold ensureEvaluator
  split
  · rfl
  · dsimp only [Logged.value_bind]
    cases (s.kernel.create none).value.1 <;> exact hcreate

/-! ## Files and lines typed in -/

/-- How a blocking call ended, if it ended badly. A refusal takes no turn, and is on the console if
the command prints it by itself. The failure of a program stands behind all that was written since
its launch. -/
inductive Ended (s : Shell V) (h : Host ι C) (cmd : Command) (launched : Kernel)
    (a : Answered V ι C) : Prop
  | refused {e : ShellError} (hr : a.result = some (.error e))
    (hclock : a.shell.kernel.scheduler.clock = s.kernel.scheduler.clock)
    (hout : a.host.output = h.output ++ if cmd.printsItself e then e.message ++ "\n" else "")
  | failed {id : TaskId} {f : Fault} (n : Nat) (hr : a.result = some (.ok (.failed id f)))
    (htick : a.shell.kernel.scheduler.tick = s.kernel.scheduler.tick + n)
    (hout : a.host.output = h.output ++ launched.turnsText n ++ (f.text ++ "\n"))
  | otherwise (hr : ∀ e, a.result ≠ some (.error e))
    (hf : ∀ id f, a.result ≠ some (.ok (.failed id f)))

variable [Receiver ι] (patience : Nat) (h : Host ι C)

variable {patience h} in
theorem Ended.of_joined {cmd : Command} {launched k' : Kernel} {a : Answered V ι C} {id : TaskId}
    {wait : WaitOptions} {h₀ h' : Host ι C} {outcome : Option RunOutcome}
    (hj : launched.join patience id wait h₀ = (outcome, k', h')) (hout : h₀.output = h.output)
    (hlaunched : launched.scheduler.clock = s.kernel.scheduler.clock)
    (hr : a.result = outcome.map .ok)
    (hreport : ∀ u f, outcome = some (.failed u f) →
      a.shell.kernel.scheduler.clock = k'.scheduler.clock ∧
        a.host.output = h'.output ++ (f.text ++ "\n")) :
    Ended s h cmd launched a := by
  by_cases hfailed : ∃ u f, outcome = some (.failed u f)
  · obtain ⟨u, f, rfl⟩ := hfailed
    obtain ⟨n, htick, hwritten⟩ := Kernel.join_failed hj
    obtain ⟨hclock, hprinted⟩ := hreport u f rfl
    have hstart := congrArg (Clock.tick · + n) hlaunched
    refine .failed n hr ((congrArg Clock.tick hclock).trans (htick.trans hstart)) ?_
    rw [hprinted, hwritten, hout]
  · refine .otherwise (fun e he => ?_) fun u f hf => hfailed ⟨u, f, ?_⟩
    · rw [hr] at he
      cases outcome <;> cases he
    · obtain ⟨o, ho, hsame⟩ := Option.map_eq_some_iff.mp (hr.symm.trans hf)
      cases hsame
      exact ho

/-- The kernel with a file in a task of its own, launched. -/
def launchedFile [Volume V] (s : Shell V) (path : String) : Kernel :=
  (s.kernel.create none).value.2.launchedIn s.volume s.kernel.fresh path

theorem ended_runFile [Volume V] (path : String) :
    Ended s h (.run path) (s.launchedFile path) (s.runFile patience h path) := by
  have hway := s.kernel.run_cases patience s.volume h path .untilSignal
  have hcreate := Kernel.clock_create (k := s.kernel) none
  have hlaunched : (s.launchedFile path).scheduler.clock = s.kernel.scheduler.clock :=
    (Kernel.clock_launchedIn s.volume s.kernel.fresh path).trans hcreate
  unfold runFile
  dsimp only
  generalize s.kernel.run patience s.volume h path ⟨none, true, .untilSignal⟩ = ran at hway ⊢
  cases hway with
  | refused hclock hout => exact .refused rfl (hclock.trans hcreate) (congrArg (· ++ _) hout)
  | rejected hout =>
    refine .failed 0 rfl (congrArg Clock.tick ((Kernel.clock_destroy _).trans hlaunched)) ?_
    rw [Kernel.turnsText, String.append_empty]
    exact congrArg (· ++ _) hout
  | @joined outcome _ _ _ _ hj hout =>
    cases outcome with
    | none => exact .of_joined hj hout hlaunched rfl (by simp)
    | some outcome =>
      -- the task is destroyed when its failure is printed, and that takes no turn
      refine .of_joined hj hout hlaunched rfl ?_
      rintro u f ⟨⟩
      exact ⟨Kernel.clock_destroy u, rfl⟩

theorem exists_ensureEvaluator (s : Shell V) : ∃ id, s.ensureEvaluator.value.1 = .ok id := by
  by_cases hs : s.HasEvaluator
  · obtain ⟨id, hlive, he⟩ := hs
    exact ⟨id, by rw [ensureEvaluator_of_live he hlive]⟩
  · exact ⟨s.kernel.fresh, by rw [ensureEvaluator_of_not hs]⟩

/-- The kernel with a line typed in compiled into its task, and launched. -/
def launchedLine (s : Shell V) (source : String) : Kernel :=
  match s.ensureEvaluator.value with
  | (.ok id, s) => ((s.kernel.compile id source).value.2.execute id).value.2
  | (.error _, s) => s.kernel

theorem ended_evaluateIn (id : TaskId) (source : String) :
    Ended s h (.evaluate source) ((s.kernel.compile id source).value.2.execute id).value.2
      (s.evaluateIn patience id h source) := by
  have hcompile : (s.kernel.compile id source).value.2.scheduler.clock =
      s.kernel.scheduler.clock := by
    rw [Kernel.value_compile, Kernel.clock_onTask]
  have hlaunched := (Kernel.clock_execute id).trans hcompile
  unfold evaluateIn Host.absorb
  dsimp only
  split_ifs
  · exact .refused rfl hcompile rfl
  · refine .failed 0 rfl (congrArg Clock.tick hlaunched) ?_
    rw [Kernel.turnsText, String.append_empty]
    rfl
  · generalize hj : Kernel.join (ι := ι) (C := C) patience _ id .untilSignal _ = joined
    obtain ⟨outcome, k', h'⟩ := joined
    cases outcome with
    | none => exact .of_joined hj rfl hlaunched rfl (by simp)
    | some outcome =>
      refine .of_joined hj rfl hlaunched rfl ?_
      rintro u f ⟨⟩
      exact ⟨rfl, rfl⟩

theorem ended_evaluate (source : String) :
    Ended s h (.evaluate source) (s.launchedLine source) (s.evaluate patience h source) := by
  have hclock := clock_ensureEvaluator (s := s)
  obtain ⟨id, hfound⟩ := s.exists_ensureEvaluator
  unfold evaluate launchedLine Host.absorb
  dsimp only
  generalize s.ensureEvaluator = evaluator at hclock hfound ⊢
  obtain ⟨⟨found, s'⟩, log⟩ := evaluator
  obtain rfl : found = .ok id := hfound
  dsimp only at hclock ⊢
  cases (s'.kernel.phase? id).filter (fun p => p ≠ .dormant) with
  | some p => exact .refused rfl hclock String.append_empty.symm
  | none =>
    -- the task for the line was found or made without a turn, so the call in it says it all
    rcases ended_evaluateIn (s := s') patience (h.record log) id source with
      ⟨hr, hc, hout⟩ | ⟨n, hr, htick, hout⟩ | ⟨hr, hf⟩
    · exact .refused hr (hc.trans hclock) hout
    · exact .failed n hr (htick.trans (congrArg (Clock.tick · + n) hclock)) hout
    · exact .otherwise hr hf

/-! ## Command lines -/

section Commands

variable {patience h} {e : ShellError} {cmd : Command} {launched : Kernel} {a : Answered V ι C}

omit [Receiver ι] in
theorem Ended.of_error (hend : Ended s h cmd launched a) (hr : a.result = some (.error e)) :
    a.shell.kernel.scheduler.clock = s.kernel.scheduler.clock ∧
      a.host.output = h.output ++ if cmd.printsItself e then e.message ++ "\n" else "" := by
  cases hend with
  | refused he hclock hout =>
    cases he.symm.trans hr
    exact ⟨hclock, hout⟩
  | failed n hf => cases hf.symm.trans hr
  | otherwise hne => exact absurd hr (hne e)

omit [Receiver ι] in
theorem Ended.of_failed {id : TaskId} {f : Fault} (hend : Ended s h cmd launched a)
    (hr : a.result = some (.ok (.failed id f))) :
    ∃ n, a.shell.kernel.scheduler.tick = s.kernel.scheduler.tick + n ∧
      a.host.output = h.output ++ launched.turnsText n ++ (f.text ++ "\n") := by
  cases hend with
  | refused he => cases he.symm.trans hr
  | failed n hf htick hout =>
    cases hf.symm.trans hr
    exact ⟨n, htick, hout⟩
  | otherwise _ hne => exact absurd hr (hne id f)

omit [Receiver ι] in
theorem ofAnswered_error (hr : (ofAnswered a).result = some (.error e)) :
    a.result = some (.error e) := by
  obtain ⟨result, ha, hmap⟩ := Option.map_eq_some_iff.mp hr
  cases result with
  | ok o => cases hmap
  | error e' =>
    cases hmap
    exact ha

variable [Volume V]

/-- A refused command takes no turn, and writes at most its own report. -/
theorem refused_perform (hr : (s.perform patience h cmd).result = some (.error e)) :
    (s.perform patience h cmd).shell.kernel.scheduler.clock = s.kernel.scheduler.clock ∧
      (s.perform patience h cmd).host.output =
        h.output ++ if cmd.printsItself e then e.message ++ "\n" else "" := by
  cases cmd with
  | stat => cases hr
  | run path => exact (ended_runFile patience h path).of_error (ofAnswered_error hr)
  | start name path => exact ⟨clock_start name path, String.append_empty.symm⟩
  | suspend name => exact ⟨clock_suspend name, String.append_empty.symm⟩
  | resume name => exact ⟨clock_resume name, String.append_empty.symm⟩
  | kill name => exact ⟨clock_kill name, String.append_empty.symm⟩
  | remove name => exact ⟨clock_remove name, String.append_empty.symm⟩
  | evaluate source => exact (ended_evaluate patience h source).of_error (ofAnswered_error hr)

variable (patience h) in
/-- How the program of a command ended, if there was one and it did. -/
def programEnd (s : Shell V) : Command → Option RunOutcome
  | .run path => (s.runFile patience h path).result.bind Except.toOption
  | .evaluate source => (s.evaluate patience h source).result.bind Except.toOption
  | _ => none

/-- The kernel in which the program of a command was just launched. -/
def atLaunch (s : Shell V) : Command → Kernel
  | .run path => s.launchedFile path
  | .evaluate source => s.launchedLine source
  | _ => s.kernel

omit [Receiver ι] [Volume V] in
theorem result_of_toOption {id : TaskId} {f : Fault}
    (hf : a.result.bind Except.toOption = some (.failed id f)) :
    a.result = some (.ok (.failed id f)) := by
  obtain ⟨result, ha, hresult⟩ := Option.bind_eq_some_iff.mp hf
  cases result with
  | error e => cases hresult
  | ok o =>
    cases hresult
    exact ha

/-- The failure of a program is printed where it ends. -/
theorem failed_perform {id : TaskId} {f : Fault}
    (hf : s.programEnd patience h cmd = some (.failed id f)) :
    (s.perform patience h cmd).result = some (.ok ()) ∧
      ∃ n, (s.perform patience h cmd).shell.kernel.scheduler.tick = s.kernel.scheduler.tick + n ∧
        (s.perform patience h cmd).host.output =
          h.output ++ (s.atLaunch cmd).turnsText n ++ (f.text ++ "\n") := by
  cases cmd with
  | stat | start | suspend | resume | kill | remove => cases hf
  | run path =>
    have hr := result_of_toOption hf
    exact ⟨congrArg (Option.map _) hr, (ended_runFile patience h path).of_failed hr⟩
  | evaluate source =>
    have hr := result_of_toOption hf
    exact ⟨congrArg (Option.map _) hr, (ended_evaluate patience h source).of_failed hr⟩

end Commands

variable [Volume V]

/-- **What a failing line prints.** A command that is refused takes no turn, so no program writes
anything. The reason stands on the console in one line, or in two if the command prints it by
itself. If its program fails, all that was written since its launch stands there, and then the
failure in one line. -/
theorem failing_line_reported (s : Shell V) (text : String) :
    let cmd := Command.parse text
    let d := s.dispatch patience h text
    (∀ e, (s.perform patience h cmd).result = some (.error e) →
      d.result = some (.error e) ∧ d.shell.kernel.scheduler.tick = s.kernel.scheduler.tick ∧
      d.host.output = h.output ++ (if cmd.printsItself e then e.message ++ "\n" else "") ++
        (e.message ++ "\n")) ∧
    ∀ id f, s.programEnd patience h cmd = some (.failed id f) →
      d.result = some (.ok ()) ∧ ∃ n, d.shell.kernel.scheduler.tick = s.kernel.scheduler.tick + n ∧
      d.host.output = h.output ++ (s.atLaunch cmd).turnsText n ++ (f.text ++ "\n") := by
  intro cmd d
  constructor
  · intro e hr
    obtain ⟨hclock, hout⟩ := refused_perform hr
    have hd : d = ⟨some (.error e), (s.perform patience h cmd).shell,
        (s.perform patience h cmd).host.writeLine e.message⟩ := by
      simp only [d, cmd, dispatch, hr]
    rw [hd]
    exact ⟨rfl, congrArg Clock.tick hclock, congrArg (· ++ _) hout⟩
  · intro id f hf
    have hfailed := failed_perform hf
    have hd : d = s.perform patience h cmd := by
      simp only [d, cmd, dispatch, hfailed.1]
    rwa [hd]

/-- A request to an unknown task is refused in one line. A line typed in prints what it has to, and
its failure stands in one line behind that. -/
theorem failing_line_reported_once :
    let s : Shell MemoryVolume := new { Config.default with heapSize := 64 } .empty
    let h : Host Silence Unit := Host.new {} (Lines.new 0) none none
    (s.dispatch 9 h "kill x").host.output = "no task named x\n" ∧
    ∃ n, (s.dispatch 9 h "puts 7\nraise 'no'").shell.kernel.scheduler.tick = n ∧
      (s.dispatch 9 h "puts 7\nraise 'no'").host.output =
        (s.launchedLine "puts 7\nraise 'no'").turnsText n ++ "RuntimeError: no\n" := by
  intro s h
  have hrefused : (s.perform 9 h (Command.parse "kill x")).result =
      some (.error (.noSuchTask "x")) := by decide +kernel
  obtain ⟨-, -, hkill⟩ := (failing_line_reported 9 h s "kill x").1 _ hrefused
  have hparse : Command.parse "puts 7\nraise 'no'" = .evaluate "puts 7\nraise 'no'" := by
    decide +kernel
  have hend : s.programEnd 9 h (Command.parse "puts 7\nraise 'no'") =
      some (.failed ⟨1⟩ (.raised "no")) := by decide +kernel
  obtain ⟨-, n, htick, hout⟩ := (failing_line_reported 9 h s "puts 7\nraise 'no'").2 _ _ hend
  have hstart : s.kernel.scheduler.tick = 0 := rfl
  have hempty : h.output = "" := rfl
  have htext : (Fault.raised "no").text ++ "\n" = "RuntimeError: no\n" := by decide +kernel
  rw [hstart, Nat.zero_add] at htick
  rw [hparse, hempty, String.empty_append, htext] at hout
  exact ⟨hkill.trans (by decide +kernel), n, htick, hout⟩

/-- A file that is not there and a line that cannot be compiled are reported twice. -/
theorem refusals_reported_twice :
    let s : Shell MemoryVolume := new { Config.default with heapSize := 64 } .empty
    let h : Host Silence Unit := Host.new {} (Lines.new 0) none none
    let missing : ShellError := .load (.notFound "nofile")
    (s.dispatch 9 h "run nofile").result = some (.error missing) ∧
    (s.dispatch 9 h "run nofile").host.output =
      missing.message ++ "\n" ++ (missing.message ++ "\n") ∧
    (s.dispatch 9 h "end").host.output = "line 1: syntax error, unexpected 'end'\n" ++
      "line 1: syntax error, unexpected 'end'\n" := by
  decide +kernel

end Shell

end Coop
