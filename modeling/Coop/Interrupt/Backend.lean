import Coop.Interrupt.Line

/-!
# Peripheral backends

A backend numbers the registrations on one kind of peripheral and arms the channels of its line. The
pins raise edges and levels by themselves; the converter's channels are sampled by software, and a
reading on the other side of a channel's threshold makes an edge.

* `nextRaw`, `freshRaw`: the numbers;
* `Backend`, `Backend.register`, `Backend.unregister`;
* `Watch`, `Watch.sample`, `Backend.sample`: thresholds.
-/

namespace Coop

/-- The pins that can raise events. -/
def gpioChannels : Nat := 32

/-- The converter's channels. -/
def adcChannels : Nat := 5

/-! ## Numbers -/

/-- The number after a number; zero is left out when the count wraps around. -/
def nextRaw (n : UInt16) : UInt16 := if n + 1 = 0 then 1 else n + 1

/-- The first of the next `tries + 1` numbers that is neither zero nor armed on the line, and the
number to go on from. The last one is taken as it is. -/
def freshRaw (line : SignalLine) : Nat → UInt16 → UInt16 × UInt16
  | 0, n => (n, nextRaw n)
  | tries + 1, n =>
    if n ≠ 0 ∧ line.isArmed n = false then (n, nextRaw n)
    else freshRaw line tries (nextRaw n)

/-- How many numbers may be passed over: zero, and one for each armed channel. -/
def rawTries : Nat := lineChannels + 1

theorem nextRaw_ne_zero (n : UInt16) : nextRaw n ≠ 0 := by
  unfold nextRaw
  split <;> simp_all

theorem freshRaw_snd_ne_zero (line : SignalLine) (tries : Nat) (n : UInt16) :
    (freshRaw line tries n).2 ≠ 0 := by
  induction tries generalizing n with
  | zero => exact nextRaw_ne_zero n
  | succ tries ih =>
    unfold freshRaw
    split
    · exact nextRaw_ne_zero n
    · exact ih _

/-! ## Thresholds -/

/-- The watch on a converter channel: its registration, its threshold in millivolts, and on which
side of it the last reading was. -/
structure Watch where
  raw : UInt16
  threshold : Nat
  above : Option Bool
  deriving DecidableEq, Repr

namespace Watch

/-- Takes in a reading: the edge it makes, if any, and the watch after it. -/
def sample (w : Watch) (mv : Nat) : Option EventKind × Watch :=
  let above := decide (w.threshold ≤ mv)
  let edge := match w.above with
    | some was => if was = above then none else some (if above then .rising else .falling)
    | none => none
  (edge, { w with above := some above })

/-- Whether a channel is watched for a registration. -/
def holds (raw : UInt16) : Option Watch → Bool
  | some w => w.raw == raw
  | none => false

end Watch

/-! ## Backends -/

/-- A backend: the line its events go to, the next number to try, and for the converter the watches.
-/
inductive Backend where
  | gpio (line : LineId) (next : UInt16)
  | adc (line : LineId) (next : UInt16) (watches : Vector (Option Watch) adcChannels)
  deriving DecidableEq

namespace Backend

/-- A backend for the pins. -/
def newGpio (line : LineId) : Backend := .gpio line 1

/-- A backend for the converter. -/
def newAdc (line : LineId) : Backend := .adc line 1 (Vector.replicate adcChannels none)

/-- The kind of peripheral a backend serves. -/
def kind : Backend → Peripheral
  | gpio _ _ => .gpio
  | adc _ _ _ => .adc

/-- The line a backend's events go to. -/
def line : Backend → LineId
  | gpio l _ => l
  | adc l _ _ => l

/-- Arms a channel under a fresh number. A refusal leaves the line alone, but a number drawn for a
busy channel is not drawn again. -/
def register (b : Backend) (lines : Lines) (channel : UInt8) (mask : EventMask)
    (threshold : Option Nat) : Except IrqError UInt16 × Backend × Lines :=
  match b with
  | gpio l next =>
    if gpioChannels ≤ channel.toNat then (.error (.channelOutOfRange channel), b, lines)
    else if mask.isEmpty then (.error (.unsupportedEvent .gpio), b, lines)
    else
      let (raw, next) := freshRaw (lines.get l) rawTries next
      match (lines.get l).arm channel raw mask with
      | .error e => (.error e, gpio l next, lines)
      | .ok armed => (.ok raw, gpio l next, lines.set l armed)
  | adc l next watches =>
    if adcChannels ≤ channel.toNat then (.error (.channelOutOfRange channel), b, lines)
    else if mask.isEmpty || !EventMask.edges.covers mask then
      (.error (.unsupportedEvent .adc), b, lines)
    else
      match threshold with
      | none => (.error .missingThreshold, b, lines)
      | some mv =>
        let (raw, next) := freshRaw (lines.get l) rawTries next
        match (lines.get l).arm channel raw mask with
        | .error e => (.error e, adc l next watches, lines)
        | .ok armed =>
          (.ok raw, adc l next (watches.setIfInBounds channel.toNat (some ⟨raw, mv, none⟩)),
            lines.set l armed)

/-- Disarms a registration; tells whether it was still armed. -/
def unregister (b : Backend) (lines : Lines) (raw : UInt16) : Bool × Backend × Lines :=
  let l := lines.get b.line
  let b := match b with
    | gpio l next => gpio l next
    | adc l next watches =>
      adc l next (watches.map (fun w => if Watch.holds raw w then none else w))
  (l.isArmed raw, b, lines.set b.line (l.disarm raw))

/-- Takes in a reading of a converter channel; tells whether an edge was queued. -/
def sample (b : Backend) (lines : Lines) (channel : UInt8) (mv : Nat) : Bool × Backend × Lines :=
  match b with
  | gpio _ _ => (false, b, lines)
  | adc l next watches =>
    match (watches[channel.toNat]?).join with
    | none => (false, b, lines)
    | some w =>
      let (edge, w) := w.sample mv
      let b := adc l next (watches.setIfInBounds channel.toNat (some w))
      match edge with
      | none => (false, b, lines)
      | some kind =>
        let (queued, lines) := lines.raise l channel kind
        (queued, b, lines)

end Backend

end Coop
