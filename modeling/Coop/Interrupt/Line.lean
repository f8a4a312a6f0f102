import Coop.Interrupt.Event

/-!
# Interrupt lines

A line takes events from interrupt context to the main loop. An event on an armed channel is queued
under the number it was armed with; a full queue drops it and counts the loss.

* `SignalLine` with `raise`, `arm`, `disarm`, `disarmAll`, `isArmed`, `take?`;
* `Lines`: all lines of a board, by number.
-/

namespace Coop

/-- The channels of a line. -/
def lineChannels : Nat := 32

/-- The events a line holds. -/
def lineCapacity : Nat := 16

/-- What a channel is armed for. -/
structure Armed where
  raw : UInt16
  mask : EventMask
  deriving DecidableEq, Repr

/-- A line: what its channels are armed for, the queued events, oldest first, and the events lost.
-/
structure SignalLine where
  armed : Vector (Option Armed) lineChannels
  queue : List (UInt16 × EventKind)
  dropped : UInt32
  deriving DecidableEq

/-- Whether a channel is armed under a number. -/
def Armed.holds (raw : UInt16) : Option Armed → Bool
  | some a => a.raw == raw
  | none => false

namespace SignalLine

/-- A line with nothing armed. -/
def new : SignalLine := ⟨Vector.replicate lineChannels none, [], 0⟩

/-- What a channel is armed for. -/
def armedAt (l : SignalLine) (channel : UInt8) : Option Armed := (l.armed[channel.toNat]?).join

/-- An event in interrupt context; tells whether it was queued. -/
def raise (l : SignalLine) (channel : UInt8) (kind : EventKind) : Bool × SignalLine :=
  match l.armedAt channel with
  | none => (false, l)
  | some a =>
    if a.mask.contains kind then
      if l.queue.length < lineCapacity then (true, { l with queue := l.queue ++ [(a.raw, kind)] })
      else (false, { l with dropped := l.dropped + 1 })
    else (false, l)

/-- Arms a free channel. -/
def arm (l : SignalLine) (channel : UInt8) (raw : UInt16) (mask : EventMask) :
    Except IrqError SignalLine :=
  if channel.toNat < lineChannels then
    match l.armedAt channel with
    | some _ => .error (.channelBusy channel)
    | none => .ok { l with armed := l.armed.setIfInBounds channel.toNat (some ⟨raw, mask⟩) }
  else .error (.channelOutOfRange channel)

/-- Whether some channel is armed under a number. -/
def isArmed (l : SignalLine) (raw : UInt16) : Bool := l.armed.any (Armed.holds raw)

/-- Disarms the channel armed under a number. -/
def disarm (l : SignalLine) (raw : UInt16) : SignalLine :=
  { l with armed := l.armed.map (fun slot => if Armed.holds raw slot then none else slot) }

/-- Disarms every channel; queued events stay queued. -/
def disarmAll (l : SignalLine) : SignalLine :=
  { l with armed := Vector.replicate lineChannels none }

/-- The oldest queued event, and the line without it. -/
def take? (l : SignalLine) : Option ((UInt16 × EventKind) × SignalLine) :=
  match l.queue with
  | [] => none
  | e :: rest => some (e, { l with queue := rest })

@[simp] theorem armed_raise (l : SignalLine) (channel : UInt8) (kind : EventKind) :
    (l.raise channel kind).2.armed = l.armed := by
  unfold raise
  repeat' split
  all_goals rfl

@[simp] theorem queue_disarm (l : SignalLine) (raw : UInt16) : (l.disarm raw).queue = l.queue := rfl

@[simp] theorem queue_disarmAll (l : SignalLine) : l.disarmAll.queue = l.queue := rfl

end SignalLine

/-- The number of a line. -/
abbrev LineId := Nat

/-- The lines of a board. -/
structure Lines where
  all : Array SignalLine
  deriving DecidableEq

namespace Lines

/-- `n` lines with nothing armed. -/
def new (n : Nat) : Lines := ⟨Array.replicate n SignalLine.new⟩

/-- The line with a number; one with nothing armed if there is none. -/
def get (ls : Lines) (i : LineId) : SignalLine := ls.all.getD i SignalLine.new

/-- Replaces the line with a number. -/
def set (ls : Lines) (i : LineId) (l : SignalLine) : Lines := ⟨ls.all.setIfInBounds i l⟩

/-- An event on a line; tells whether it was queued. -/
def raise (ls : Lines) (i : LineId) (channel : UInt8) (kind : EventKind) : Bool × Lines :=
  let (queued, l) := (ls.get i).raise channel kind
  (queued, ls.set i l)

theorem get_set_self {ls : Lines} {i : LineId} (h : i < ls.all.size) (l : SignalLine) :
    (ls.set i l).get i = l := by
  simp [get, set, Array.getD_eq_getD_getElem?, h]

theorem get_set_of_ne (ls : Lines) {i j : LineId} (h : i ≠ j) (l : SignalLine) :
    (ls.set i l).get j = ls.get j := by
  simp [get, set, Array.getD_eq_getD_getElem?, h]

end Lines

end Coop
