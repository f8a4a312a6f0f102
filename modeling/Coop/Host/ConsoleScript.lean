import Coop.Host

/-!
# Scripted consoles

A receiving side whose readings are laid down in advance: each arrives at the earliest at a given
read, in order. Interrupts can be laid down in the same way. A console that stays silent for too
long gets a Ctrl-C, so that nothing waits on it for ever.

* `Arrival`, `ConsoleScript`;
* `ConsoleScript.deliver`: lays down further readings;
* the instance of `Receiver`.
-/

namespace Coop

/-- A reading that arrives at a read, counted from one, or later. -/
structure Arrival where
  due : Nat
  reading : Reading
  deriving DecidableEq, Repr

/-- A scripted console. -/
structure ConsoleScript where
  reads : Nat
  arrivals : List Arrival
  /-- The reads at which an interrupt fires, in ascending order, and the interrupt. -/
  presses : List Nat
  press : Signal
  /-- The reads after which an empty script gives a Ctrl-C. -/
  patience : Nat
  deriving DecidableEq

namespace ConsoleScript

/-- Lays down readings that arrive `after` further reads, behind those laid down before. -/
def deliver (s : ConsoleScript) (after : Nat) (readings : List Reading) : ConsoleScript :=
  { s with arrivals := s.arrivals ++ readings.map (fun r => ⟨s.reads + after, r⟩) }

/-- One look at a scripted console. -/
def look (s : ConsoleScript) : (List Signal × Reading) × ConsoleScript :=
  let reads := s.reads + 1
  let fired := (s.presses.takeWhile (· ≤ reads)).map (fun _ => s.press)
  let s := { s with reads := reads, presses := s.presses.dropWhile (· ≤ reads) }
  let silent := if s.patience < reads then Reading.byte 0x03 else .nothing
  match s.arrivals with
  | [] => ((fired, silent), s)
  | a :: rest =>
    if a.due ≤ reads then ((fired, a.reading), { s with arrivals := rest })
    else ((fired, silent), s)

instance : Receiver ConsoleScript := ⟨look⟩

end ConsoleScript

end Coop
