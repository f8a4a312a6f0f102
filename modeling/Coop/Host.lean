import Coop.Interrupt.Process

/-!
# The host

What a supervisor needs of the board: a serial console, a way to sleep, and possibly a watchdog to
feed and a hub whose events have to be handed over. A host is a value that records everything done
to it. Interrupts fire at any time; here they fire while the console is read.

* `Reading`, `Signal`, `Receiver`: the receiving side of the console;
* `Watchdog`, `Host`;
* `Host.read`, `Host.write`, `Host.sleep`, `Host.feed`, `Host.pump`, `Host.disableWatchdog`;
* `Host.absorb`: puts what was logged into the host's journal.
-/

universe u

namespace Coop

/-- What one look at the receiving side brings. -/
inductive Reading where
  | byte (b : UInt8)
  | nothing
  | failed (detail : String)
  deriving DecidableEq, Repr

/-- An interrupt that fired. -/
structure Signal where
  line : LineId
  channel : UInt8
  kind : EventKind
  deriving DecidableEq, Repr

/-- The receiving side of a console: a look at it brings a reading, and tells which interrupts fired
meanwhile. -/
class Receiver (ι : Type) where
  look : ι → (List Signal × Reading) × ι

/-- A receiving side on which nothing ever arrives. -/
structure Silence where
  deriving DecidableEq

instance : Receiver Silence := ⟨fun s => (([], .nothing), s)⟩

/-- A watchdog: whether its registers are locked, how often it was fed, and how often it was to be
disabled. -/
structure Watchdog where
  locked : Bool
  feeds : Nat
  attempts : Nat
  deriving DecidableEq, Repr

namespace Watchdog

/-- A running watchdog. -/
def armed (locked : Bool) : Watchdog := ⟨locked, 0, 0⟩

/-- Whether the watchdog is off. -/
def disabled (w : Watchdog) : Bool := !w.locked && 0 < w.attempts

end Watchdog

/-- A host with receiver `ι` and a hub of handlers with captures in `C`. -/
structure Host (ι C : Type) where
  input : ι
  /-- How often the console was read. -/
  reads : Nat
  /-- Everything written to the console. -/
  output : String
  /-- How often the host slept. -/
  delays : Nat
  /-- How long the host slept, in milliseconds. -/
  slept : Nat
  watchdog : Option Watchdog
  events : Option (Hub C)
  lines : Lines
  /-- How many batches of events were handed over. -/
  batches : Nat
  /-- Every handler call made, in order. -/
  deliveries : Array (Delivery C)
  /-- Everything logged, in order. -/
  journal : Array Entry

namespace Host

variable {ι C : Type}

/-- A host on which nothing was done yet. -/
def new (input : ι) (lines : Lines) (watchdog : Option Watchdog) (events : Option (Hub C)) :
    Host ι C where
  input := input
  reads := 0
  output := ""
  delays := 0
  slept := 0
  watchdog := watchdog
  events := events
  lines := lines
  batches := 0
  deliveries := #[]
  journal := #[]

/-- Puts entries into the journal. -/
def record (h : Host ι C) (entries : List Entry) : Host ι C :=
  { h with journal := h.journal ++ entries.toArray }

/-- Logs one message. -/
def note (h : Host ι C) (level : Level) (text : String) : Host ι C :=
  { h with journal := h.journal.push ⟨level, text⟩ }

/-- Takes the value of a computation and puts what it logged into the journal. -/
def absorb {α : Type u} (h : Host ι C) (x : Logged α) : α × Host ι C := (x.value, h.record x.log)

/-- Writes to the console. -/
def write (h : Host ι C) (text : String) : Host ι C := { h with output := h.output ++ text }

/-- Writes a line to the console. -/
def writeLine (h : Host ι C) (text : String) : Host ι C := h.write (text ++ "\n")

/-- An interrupt fires. -/
def fire (h : Host ι C) (s : Signal) : Host ι C :=
  { h with lines := (h.lines.raise s.line s.channel s.kind).2 }

/-- Looks at the receiving side of the console. -/
def read [Receiver ι] (h : Host ι C) : Reading × Host ι C :=
  let ((fired, reading), input) := Receiver.look h.input
  (reading, fired.foldl fire { h with input := input, reads := h.reads + 1 })

/-- Sleeps. -/
def sleep (h : Host ι C) (ms : Nat) : Host ι C :=
  { h with delays := h.delays + 1, slept := h.slept + ms }

/-- Feeds the watchdog, if there is one. -/
def feed (h : Host ι C) : Host ι C :=
  { h with watchdog := h.watchdog.map (fun w => { w with feeds := w.feeds + 1 }) }

/-- Hands over at most `max` events, if there is a hub; gives the number of handler calls. -/
def pump (h : Host ι C) (max : Nat) : Nat × Host ι C :=
  match h.events with
  | none => (0, h)
  | some hub =>
    let (p, h) := { h with events := none }.absorb (hub.process h.lines max)
    (p.deliveries.length, { h with
      events := some p.hub
      lines := p.lines
      batches := h.batches + 1
      deliveries := h.deliveries ++ p.deliveries.toArray })

/-- Switches the watchdog off, if there is one and it lets itself be switched off. -/
def disableWatchdog (h : Host ι C) : Bool × Host ι C :=
  match h.watchdog with
  | none => (false, h.note .info "no watchdog to disable")
  | some w =>
    let h := { h with watchdog := some { w with attempts := w.attempts + 1 } }
    if w.locked then (false, h.note .warn "watchdog disable failed: watchdog registers locked")
    else (true, h.note .info "watchdog disabled")

end Host

end Coop
