/-!
# Interrupt events

* `EventKind`, `EventMask`: edges and levels, and sets of them;
* `Peripheral`, `Source`: what raises an event, and on which channel;
* `IrqId`, `Event`: a registration, and what its handler is told;
* `IrqError`: why a request about registrations was refused.
-/

namespace Coop

/-- What happened on a channel. -/
inductive EventKind where
  | rising
  | falling
  | low
  | high
  deriving DecidableEq, Repr

/-- A set of kinds of events. -/
structure EventMask where
  rising : Bool
  falling : Bool
  low : Bool
  high : Bool
  deriving DecidableEq, Repr

namespace EventMask

/-- No events. -/
def none : EventMask := ⟨false, false, false, false⟩

/-- Both edges. -/
def edges : EventMask := ⟨true, true, false, false⟩

/-- All events. -/
def all : EventMask := ⟨true, true, true, true⟩

/-- The events of one kind. -/
def only : EventKind → EventMask
  | .rising => ⟨true, false, false, false⟩
  | .falling => ⟨false, true, false, false⟩
  | .low => ⟨false, false, true, false⟩
  | .high => ⟨false, false, false, true⟩

/-- The events of either set. -/
def union (a b : EventMask) : EventMask :=
  ⟨a.rising || b.rising, a.falling || b.falling, a.low || b.low, a.high || b.high⟩

/-- Whether a kind is in the set. -/
def contains (m : EventMask) : EventKind → Bool
  | .rising => m.rising
  | .falling => m.falling
  | .low => m.low
  | .high => m.high

/-- Whether every kind of `other` is in the set. -/
def covers (m other : EventMask) : Bool :=
  (!other.rising || m.rising) && (!other.falling || m.falling) && (!other.low || m.low) &&
    (!other.high || m.high)

/-- Whether the set has no kinds. -/
def isEmpty (m : EventMask) : Bool := !(m.rising || m.falling || m.low || m.high)

end EventMask

/-- A kind of peripheral. -/
inductive Peripheral where
  | gpio
  | adc
  | uart
  | i2c
  | spi
  | pwm
  deriving DecidableEq, Repr

/-- The name of a kind of peripheral. -/
def Peripheral.name : Peripheral → String
  | .gpio => "gpio"
  | .adc => "adc"
  | .uart => "uart"
  | .i2c => "i2c"
  | .spi => "spi"
  | .pwm => "pwm"

/-- A pin or channel of a peripheral. -/
structure Source where
  kind : Peripheral
  channel : UInt8
  deriving DecidableEq, Repr

/-- A source as shown to people. -/
def Source.label (s : Source) : String := s.kind.name ++ toString s.channel.toNat

/-- The number of a registration, unique among those of its kind of peripheral. -/
structure IrqId where
  kind : Peripheral
  raw : UInt16
  deriving DecidableEq, Repr

/-- A registration number as shown to people. -/
def IrqId.label (id : IrqId) : String := id.kind.name ++ ":" ++ toString id.raw.toNat

/-- What a handler is told. -/
structure Event where
  id : IrqId
  source : Source
  kind : EventKind
  deriving DecidableEq, Repr

/-- Why a request about registrations was refused. -/
inductive IrqError where
  /-- There is no backend for this kind. -/
  | unsupported (kind : Peripheral)
  | notRegistered (id : IrqId)
  | channelOutOfRange (channel : UInt8)
  | channelBusy (channel : UInt8)
  /-- The peripheral cannot produce the events asked for. -/
  | unsupportedEvent (kind : Peripheral)
  | missingThreshold
  deriving DecidableEq, Repr

/-- The wording of a refusal. -/
def IrqError.message : IrqError → String
  | .unsupported kind => s!"{kind.name} cannot raise interrupts"
  | .notRegistered id => s!"{id.label} not registered"
  | .channelOutOfRange ch => s!"channel {ch.toNat} out of range"
  | .channelBusy ch => s!"channel {ch.toNat} already has a handler"
  | .unsupportedEvent kind => s!"event type not supported on {kind.name}"
  | .missingThreshold => "threshold required"

end Coop
