import Coop.Arena

/-!
# Compile errors

A script is refused at one line for one cause. `SyntaxError` lists what can be wrong with the text,
`CompileCause` adds the failures around it, and `CompileError` puts the line in front. Line `0`
stands for the script as a whole.
-/

namespace Coop

/-- What is wrong with the text of a script. -/
inductive SyntaxError where
  /-- A word or argument where none belongs. -/
  | unexpected (what : String)
  /-- A number was asked for. -/
  | expectingInteger (got : String)
  /-- The closing quote is missing. -/
  | unterminated
  /-- A text of more than 65535 bytes. -/
  | tooLong
  /-- Anything but `do` after `loop`. -/
  | expectingDo
  /-- An `end` with no loop open. -/
  | unmatchedEnd
  /-- The text ran out inside the loop opened on this line. -/
  | endOfInput (opened : Nat)
  deriving DecidableEq, Repr

/-- The wording of a syntax error. -/
def SyntaxError.message : SyntaxError → String
  | .unexpected what => "syntax error, unexpected '" ++ what ++ "'"
  | .expectingInteger got => "syntax error, expecting integer, got '" ++ got ++ "'"
  | .unterminated => "syntax error, unterminated string meets end of line"
  | .tooLong => "syntax error, string literal too long"
  | .expectingDo => "syntax error, expecting 'do' after 'loop'"
  | .unmatchedEnd => "syntax error, unexpected 'end'"
  | .endOfInput opened =>
    "syntax error, unexpected end-of-input, expecting 'end' (loop opened on line " ++
      toString opened ++ ")"

/-- Why a script did not become an image. -/
inductive CompileCause where
  | malformed (e : SyntaxError)
  | doesNotFit (e : Exhausted)
  | notText
  | unknown
  deriving DecidableEq, Repr

/-- The wording of a cause. -/
def CompileCause.message : CompileCause → String
  | .malformed e => e.message
  | .doesNotFit e => e.message
  | .notText => "source is not valid UTF-8"
  | .unknown => "compile failed"

/-- A refused script: the line it was refused at, and why. -/
structure CompileError where
  line : Nat
  cause : CompileCause
  deriving DecidableEq, Repr

namespace CompileError

/-- The wording of a compile error, without its line. -/
def message (e : CompileError) : String := e.cause.message

/-- A compile error as shown to people. -/
def text (e : CompileError) : String := "line " ++ toString e.line ++ ": " ++ e.message

end CompileError

end Coop
