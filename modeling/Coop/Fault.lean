import Coop.Arena
import Coop.Text.Column

/-!
# Uncaught failures of a program

A program dies by raising an error, by asking for more memory than its heap has left, or because its
image is broken. `Fault.kind` names the class of the failure and `Fault.message` words it.
-/

namespace Coop

/-- What is wrong with an image. -/
inductive ImageError where
  | badMagic
  | truncatedHeader
  | truncatedBody
  | unknownOpcode (op : UInt8) (pc : Nat)
  | truncatedOperand (pc : Nat)
  | nothingToRun
  deriving DecidableEq, Repr

/-- The wording of an image error. -/
def ImageError.message : ImageError → String
  | .badMagic => "bad magic"
  | .truncatedHeader => "truncated header"
  | .truncatedBody => "truncated body"
  | .unknownOpcode op pc => s!"unknown opcode 0x{hexPadded 2 op.toNat} at {pc}"
  | .truncatedOperand pc => s!"truncated operand at {pc}"
  | .nothingToRun => "nothing to run"

/-- The class of a failure. -/
inductive FaultKind where
  | runtime
  | noMemory
  | image
  deriving DecidableEq, Repr

/-- The name of a class of failures. -/
def FaultKind.name : FaultKind → String
  | .runtime => "RuntimeError"
  | .noMemory => "NoMemoryError"
  | .image => "ImageError"

/-- An uncaught failure. -/
inductive Fault where
  | raised (message : String)
  | outOfMemory (cause : Exhausted)
  | badImage (cause : ImageError)
  deriving DecidableEq, Repr

namespace Fault

/-- The class of a failure. -/
def kind : Fault → FaultKind
  | raised _ => .runtime
  | outOfMemory _ => .noMemory
  | badImage _ => .image

/-- The wording of a failure, without its class. -/
def message : Fault → String
  | raised m => m
  | outOfMemory e => e.message
  | badImage e => e.message

/-- A failure as shown to people. -/
def text (f : Fault) : String := f.kind.name ++ ": " ++ f.message

end Fault

end Coop
