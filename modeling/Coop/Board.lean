import Coop.Board.Command
import Coop.Board.LineBuffer
import Coop.Volume.Memory

/-!
# The board

From power-up to the prompt: the button's interrupt, the files in flash, the kernel with the
settings found there, the greeting program run to its end, a heartbeat started in the background,
and then the prompt. A board is switched off inside its `lifetime`-th sleep; whatever was going on
is then abandoned.

* `greeting`, `heartbeat`, `tunables`, `flash`: the files;
* `readConfig`: the settings of a volume;
* `onButton`, `installButton`: the button;
* `Prompt`, `Prompt.accept`, `Prompt.turn`, `Prompt.run`: the prompt;
* `Board.run`: the whole life of a board.
-/

namespace Coop

/-! ## Files in flash -/

/-- The program run at power-up. -/
def greeting : ByteArray := Image.build (assemble [.puts "hello from flash"])

/-- The program started in the background. -/
def heartbeat : ByteArray := "# heartbeat\nloop do\n  puts \"tick\"\n  sleep 10\nend\n".toByteArray

/-- The settings. -/
def tunables : ByteArray :=
  "# kernel tunables\nquantum_ms=5\ntimeslice=64\nheap_size=16384\n".toByteArray

/-- The name of the file of settings. -/
def configFile : String := "KERNEL.TXT"

/-- The files a board comes with. -/
def flash : MemoryVolume :=
  MemoryVolume.empty
    |>.addMapped "/bin/hello" greeting
    |>.addMapped "/lib/blink.rb" heartbeat
    |>.addMapped "/KERNEL.TXT" tunables

/-- The settings of a volume. A file of settings counts only if it lies in addressable memory. -/
def readConfig (vol : MemoryVolume) : Logged (Config × MemoryVolume) := do
  let (opened, vol) ← vol.openPath ("/" ++ configFile)
  match opened with
  | .error _ =>
    Logged.info s!"no {configFile}, using defaults"
    return (.default, vol)
  | .ok handle =>
    let config := match vol.mapped? handle with
      | some text => Config.parse text
      | none => .default
    Logged.info (s!"{configFile}: quantum {config.quantumMs}ms, timeslice {config.timeslice}, " ++
      s!"heap {config.heapSize}")
    return (config, vol.close handle)

/-! ## The button -/

/-- The pin of the button. -/
def buttonPin : UInt8 := 9

/-- The line of the pins. -/
def gpioLine : LineId := 0

/-- What the button's interrupt looks like. -/
def buttonSignal : Signal := ⟨gpioLine, buttonPin, .falling⟩

/-- Counts and logs the presses of the button. -/
def onButton : Handler Nat := fun event presses =>
  .log ⟨.info, s!"{event.source.label} pressed ({presses + 1} so far)"⟩
    (.finish (presses + 1) none)

/-- The hub with the button's handler. -/
def installButton (lines : Lines) : Logged (Hub Nat × Lines) := do
  let hub ← Hub.empty.attach (.newGpio gpioLine)
  let (result, hub, lines) ←
    hub.register lines ⟨.gpio, buttonPin⟩ (.only .falling) ⟨true, none, 0⟩ onButton
  match result with
  | .ok id => Logged.info s!"irq ready ({id.label})."
  | .error _ => return (hub, lines)
  return (hub, lines)

/-! ## The prompt -/

/-- The longest line. -/
def lineCap : Nat := 128

/-- A board at its prompt. -/
structure Prompt (ι : Type) where
  shell : Shell MemoryVolume
  host : Host ι Nat
  line : LineBuffer

namespace Prompt

variable {ι : Type} [Receiver ι]

/-- Whether the board is switched off. -/
def isOff (lifetime : Nat) (p : Prompt ι) : Bool := lifetime ≤ p.host.delays

/-- The sleeps that still come to an end. -/
def patience (lifetime : Nat) (h : Host ι Nat) : Nat := lifetime - 1 - h.delays

/-- Acts on a line that was finished; tells whether the board is still on. -/
def submit (lifetime : Nat) (p : Prompt ι) : Bool × Prompt ι :=
  let h := p.host.write "\r\n"
  match p.line.take with
  | (none, line) => (true, { p with host := h.write "> ", line := line })
  | (some text, line) =>
    let d := p.shell.dispatch (patience lifetime h) h text
    match d.result with
    | none => (false, ⟨d.shell, d.host, line⟩)
    | some _ => (true, ⟨d.shell, d.host.write "> ", line⟩)

/-- Acts on what was read; tells whether the board is still on. -/
def accept (lifetime : Nat) (p : Prompt ι) : Reading → Bool × Prompt ι
  | .byte b =>
    if b = 0x0d ∨ b = 0x0a then p.submit lifetime
    else if b = ctrlC then (true, { p with host := p.host.write "^C\r\n> ", line := p.line.clear })
    else
      match p.line.push b with
      | (true, line) =>
        (true, { p with host := p.host.write (Char.ofNat b.toNat).toString, line := line })
      | (false, line) => (true, { p with line := line })
  | .nothing => (true, p)
  | .failed _ => (true, p)

/-- One turn at the prompt; tells whether the board is still on. -/
def turn (lifetime : Nat) (p : Prompt ι) : Bool × Prompt ι :=
  let (reading, h) := p.host.read
  match { p with host := h }.accept lifetime reading with
  | (false, p) => (false, p)
  | (true, p) =>
    let (_, shell, h) := p.shell.poll p.host
    let p : Prompt ι := ⟨shell, h.sleep shell.kernel.config.quantumMs, p.line⟩
    (!p.isOff lifetime, p)

/-- At most `turns` turns at the prompt. -/
def run (lifetime : Nat) : (turns : Nat) → Prompt ι → Prompt ι
  | 0, p => p
  | turns + 1, p =>
    match p.turn lifetime with
    | (false, p) => p
    | (true, p) => run lifetime turns p

end Prompt

/-! ## Power-up -/

namespace Board

variable {ι : Type} [Receiver ι]

/-- What is logged of the greeting program if it did not run to its end. -/
def describe : Except ShellError RunOutcome → String
  | .ok (.launched id) => s!"Ok(Launched(TaskId({id.number})))"
  | .ok (.completed id) => s!"Ok(Completed(TaskId({id.number})))"
  | .ok (.failed id e) => s!"Ok(Failed(TaskId({id.number}), {e.text}))"
  | .ok (.interrupted id) => s!"Ok(Interrupted(TaskId({id.number})))"
  | .ok (.timedOut id) => s!"Ok(TimedOut(TaskId({id.number})))"
  | .error e => s!"Err({e.message})"

/-- Starts the background program and shows the prompt. -/
def openPrompt (s : Shell MemoryVolume) (h : Host ι Nat) : Prompt ι :=
  let ((started, s), h) := h.absorb (s.start "blink" "blink.rb")
  let h := match started with
    | .ok _ => h
    | .error e => h.note .warn s!"blink: {e.message}"
  ⟨s, h.write "> ", .new lineCap⟩

/-- The life of a board with a console and a watchdog, up to its `lifetime`-th sleep, and at least
up to its first: the host as it is left. -/
def run (lifetime : Nat) (input : ι) (watchdog : Watchdog) : Host ι Nat :=
  let host : Host ι Nat := .new input (.new 1) (some watchdog) none
  let ((hub, lines), host) := host.absorb (installButton host.lines)
  let ((config, volume), host) := host.absorb (readConfig flash)
  let host := { host with events := some hub, lines := lines }.note .info "kernel ready."
  let a := (Shell.new config volume).runFile (lifetime - 1) host "/bin/hello"
  let turns := max lifetime 1
  match a.result with
  | none => a.host
  | some (.ok (.completed _)) => ((openPrompt a.shell a.host).run lifetime turns).host
  | some other =>
    let host := a.host.note .warn s!"boot image: {describe other}"
    ((openPrompt a.shell host).run lifetime turns).host

end Board

end Coop
