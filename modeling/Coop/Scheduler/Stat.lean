import Coop.Scheduler

/-!
# Snapshots of the scheduler

* `TaskStat`, `Stat`: what a dump shows of a task and of the scheduler;
* `Scheduler.stat`: the snapshot;
* `Stat.render`: the text of a dump. Addresses are not part of the model and are shown as zero.
-/

namespace Coop

/-- What a dump shows of a task. -/
structure TaskStat where
  id : Nat
  status : Nat
  name : Option String
  priority : UInt8
  phase : Phase
  wait : WaitReason
  timeslice : Nat
  wakeupTick : Nat
  deriving DecidableEq

/-- What a dump shows. -/
structure Stat where
  tick : Nat
  wakeupTick : Option Nat
  dormant : List TaskStat
  ready : List TaskStat
  waiting : List TaskStat
  suspended : List TaskStat
  deriving DecidableEq

/-- What a dump shows of a task. -/
def Task.stat (t : Task) : TaskStat where
  id := t.id.number
  status := t.phase.code
  name := t.name
  priority := t.priority
  phase := t.phase
  wait := t.waitReason
  timeslice := t.timeslice
  wakeupTick := t.wakeupTick

namespace Scheduler

/-- What a dump shows of the tasks in a phase. -/
def statOf (s : Scheduler) (p : Phase) : List TaskStat :=
  ((s.buckets.get p).filterMap s.find?).map Task.stat

/-- The current snapshot. -/
def stat (s : Scheduler) : Stat where
  tick := s.tick
  wakeupTick := s.wakeupTick?
  dormant := s.statOf .dormant
  ready := s.statOf .ready
  waiting := s.statOf .waiting
  suspended := s.statOf .suspended

end Scheduler

/-- The line of a task in a dump. -/
def TaskStat.render (t : TaskStat) : String :=
  "  #" ++ padRight 3 (toString t.id) ++ " tcb=0x" ++ hexPadded 8 0 ++ " st=0x" ++
    hexPadded 2 t.status ++ " heap=0x" ++ hexPadded 8 0 ++ " " ++ padRight 12 (t.name.getD "-") ++
    " pri=" ++ padRight 3 (toString t.priority.toNat) ++ " " ++ t.phase.name ++ " wait=" ++
    t.wait.name ++ " ts=" ++ toString t.timeslice ++ " wakeup=" ++ toString t.wakeupTick ++ "\n"

namespace Stat

/-- The tasks of a phase. -/
def bucket (s : Stat) : Phase → List TaskStat
  | .dormant => s.dormant
  | .ready => s.ready
  | .waiting => s.waiting
  | .suspended => s.suspended

/-- The number of tasks shown. -/
def total (s : Stat) : Nat := (Phase.all.flatMap s.bucket).length

/-- The part of a dump on one phase. -/
def renderPhase (s : Stat) (p : Phase) : String :=
  p.name ++ " (" ++ toString (s.bucket p).length ++ ")\n" ++
    String.join ((s.bucket p).map TaskStat.render)

/-- The text of a dump. -/
def render (s : Stat) : String :=
  "tick " ++ toString s.tick ++ " wakeup_tick " ++ (s.wakeupTick.map toString).getD "-" ++ "\n" ++
    String.join (Phase.all.map s.renderPhase)

end Stat

end Coop
