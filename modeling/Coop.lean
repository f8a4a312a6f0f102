import Coop.Bytes
import Coop.Journal
import Coop.Text.Blank
import Coop.Text.Column
import Coop.Text.Decimal
import Coop.Text.Pieces
import Coop.Text.Utf8
import Coop.Config
import Coop.Arena
import Coop.Fault
import Coop.Image
import Coop.Instr
import Coop.Fiber
import Coop.Script.Error
import Coop.Script.Literal
import Coop.Script.Statement
import Coop.Script.Program
import Coop.Volume
import Coop.Volume.Memory
import Coop.Volume.Faulty
import Coop.Interrupt.Event
import Coop.Interrupt.Line
import Coop.Interrupt.Backend
import Coop.Interrupt.Hub
import Coop.Interrupt.Process
import Coop.Host
import Coop.Host.ConsoleScript
import Coop.Task
import Coop.Registry
import Coop.Scheduler
import Coop.Scheduler.Tick
import Coop.Scheduler.Stat
import Coop.Kernel
import Coop.Load
import Coop.Wait
import Coop.Run
import Coop.Shell
import Coop.Board.LineBuffer
import Coop.Board.Command
import Coop.Board
import Coop.Proofs.Machine.Bodies
import Coop.Proofs.Machine.Heap
import Coop.Proofs.Machine.Guarded
import Coop.Proofs.Machine.Bounds
import Coop.Proofs.Machine.Format
import Coop.Proofs.Machine.Objects
import Coop.Proofs.Machine.Stepping
import Coop.Proofs.Script.Meaning
import Coop.Proofs.Script.Layout
import Coop.Proofs.Script.Reading
import Coop.Proofs.Script.Arguments
import Coop.Proofs.Script.Fronts
import Coop.Proofs.Script.Diagnosis
import Coop.Proofs.Script.Simulation
import Coop.Proofs.Script.Heaps
import Coop.Proofs.Script.Quoting
import Coop.Proofs.Script.Comments
import Coop.Proofs.Script.StraightLine
import Coop.Proofs.Config.Reading
import Coop.Proofs.Config.Settings
import Coop.Proofs.Interrupt.History
import Coop.Proofs.Interrupt.Lines
import Coop.Proofs.Interrupt.Polling
import Coop.Proofs.Interrupt.Draining
import Coop.Proofs.Interrupt.Excuses
import Coop.Proofs.Interrupt.Trace
import Coop.Proofs.Interrupt.Wiring
import Coop.Proofs.Interrupt.Accounts
import Coop.Proofs.Interrupt.Calls
import Coop.Proofs.Interrupt.Backends
import Coop.Proofs.Interrupt.Conservation
import Coop.Proofs.Interrupt.Invariant
import Coop.Proofs.Interrupt.Delivery
import Coop.Proofs.Interrupt.Registration
import Coop.Proofs.Interrupt.Drawing
import Coop.Proofs.Interrupt.Serving
import Coop.Proofs.Interrupt.Fairness
import Coop.Proofs.Interrupt.Watches
import Coop.Proofs.Interrupt.Crossings
import Coop.Proofs.Interrupt.Refusals
import Coop.Proofs.Host.Books
import Coop.Proofs.Scheduler.Lookup
import Coop.Proofs.Scheduler.History
import Coop.Proofs.Scheduler.Numbers
import Coop.Proofs.Scheduler.Partition
import Coop.Proofs.Scheduler.Turn
import Coop.Proofs.Scheduler.Dispatch
import Coop.Proofs.Scheduler.Effect
import Coop.Proofs.Scheduler.Course
import Coop.Proofs.Scheduler.Isolation
import Coop.Proofs.Scheduler.Parking
import Coop.Proofs.Scheduler.ReadyOrder
import Coop.Proofs.Scheduler.Sleeping
import Coop.Proofs.Volume.Handles
import Coop.Proofs.Volume.Following
import Coop.Proofs.Volume.Reading
import Coop.Proofs.Volume.Finding
import Coop.Proofs.Kernel.Loading
import Coop.Proofs.Kernel.Waiting
import Coop.Proofs.Kernel.History
import Coop.Proofs.Kernel.Lifecycle
import Coop.Proofs.Kernel.Population
import Coop.Proofs.Kernel.Running
import Coop.Proofs.Kernel.Accounts
import Coop.Proofs.Kernel.Compiled
import Coop.Proofs.Kernel.Drafts
import Coop.Proofs.Kernel.Ending
import Coop.Proofs.Kernel.Naming
import Coop.Proofs.Kernel.Overdue
import Coop.Proofs.Kernel.Resuming
import Coop.Proofs.Kernel.StaleCode
import Coop.Proofs.Kernel.Installing
import Coop.Proofs.Kernel.Fitting
import Coop.Proofs.Kernel.Routes
import Coop.Proofs.Kernel.Completion
import Coop.Proofs.Kernel.Timeouts
import Coop.Proofs.Kernel.Timeslice
import Coop.Proofs.Kernel.Outcomes
import Coop.Proofs.Shell.SetUp
import Coop.Proofs.Shell.Calls
import Coop.Proofs.Shell.History
import Coop.Proofs.Shell.Outcomes
import Coop.Proofs.Shell.Ownership
import Coop.Proofs.Shell.Reporting
import Coop.Proofs.Shell.Rollback
import Coop.Proofs.Shell.Launching
import Coop.Proofs.Shell.Stopping
import Coop.Proofs.Board.Typing
