import Coop.Text.Blank

/-!
# The line at the prompt

A buffer of printable ASCII bytes and tabs with a hard cap; what does not fit is dropped.

* `LineBuffer`, `LineBuffer.push`, `LineBuffer.clear`;
* `LineBuffer.take`: the line without the blanks around it, if anything is left.
-/

namespace Coop

/-- The line typed so far. -/
structure LineBuffer where
  cap : Nat
  bytes : List UInt8
  deriving DecidableEq

namespace LineBuffer

/-- An empty line. -/
def new (cap : Nat) : LineBuffer := ⟨cap, []⟩

/-- Whether a byte may be part of a line: a tab, or printable ASCII. -/
def accepts (b : UInt8) : Bool := b == 0x09 || (0x20 ≤ b && b < 0x7f)

/-- Takes in a byte; tells whether it was accepted. -/
def push (l : LineBuffer) (b : UInt8) : Bool × LineBuffer :=
  if l.bytes.length < l.cap ∧ accepts b = true then (true, { l with bytes := l.bytes ++ [b] })
  else (false, l)

/-- Drops the line. -/
def clear (l : LineBuffer) : LineBuffer := { l with bytes := [] }

/-- The line without the blanks around it, or nothing if only blanks were typed; the buffer is empty
afterwards. A line that is not text would be left as it is. -/
def take (l : LineBuffer) : Option String × LineBuffer :=
  match String.fromUTF8? l.bytes.toByteArray with
  | none => (none, l)
  | some s =>
    let text := trimText s
    (if text.isEmpty then none else some text, l.clear)

end LineBuffer

end Coop
