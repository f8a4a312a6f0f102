import Coop.Script.Literal
import Coop.Text.Pieces

/-!
# Statements

A script has one statement a line; blank lines and lines that start with `#` say nothing. The first
word, up to a blank or an opening parenthesis, chooses the statement; the rest is its argument,
which may stand in parentheses.

* `Statement`;
* `Statement.ofWords`: a statement from its word and argument;
* `Statement.parse`: a statement, or nothing, from a line.
-/

namespace Coop

/-- One statement. A pause is kept in milliseconds, and a loop is a pair of brackets. -/
inductive Statement where
  | puts (text : String)
  | raise (text : String)
  | sleep (ms : Nat)
  | pass
  | suspend
  | loopStart
  | loopEnd
  deriving DecidableEq, Repr

/-- The longest text of a statement, in bytes. -/
def textLimit : Nat := 0xffff

/-- The longest pause, in milliseconds. -/
def sleepLimit : Nat := 0xffffffff

namespace Statement

/-- Whether a character ends the first word of a statement. -/
def endsWord (c : Char) : Bool := isBlank c || c == '('

/-- The first word of a statement. -/
def word (stmt : List Char) : List Char := stmt.takeWhile (fun c => !endsWord c)

/-- The inside of an argument in parentheses; any other argument as it is. -/
def unwrap (arg : List Char) : List Char :=
  match arg with
  | '(' :: rest => if rest.getLast? = some ')' then trim rest.dropLast else arg
  | _ => arg

/-- The argument of a statement. -/
def argument (stmt : List Char) : List Char :=
  unwrap (trim (stmt.dropWhile (fun c => !endsWord c)))

/-- Refuses a text that is too long for an image. -/
def checkLength (text : String) : Except SyntaxError String :=
  if text.utf8ByteSize ≤ textLimit then .ok text else .error .tooLong

/-- The text an argument gives, or `missing` if there is no argument. -/
def textOf (missing : String) (arg : List Char) : Except SyntaxError String :=
  match arg with
  | [] => .ok missing
  | _ => literal arg >>= checkLength

/-- A statement that takes no argument. -/
def bare (s : Statement) (arg : List Char) : Except SyntaxError Statement :=
  match arg with
  | [] => .ok s
  | _ => .error (.unexpected (String.ofList arg))

/-- The statement that a word and its argument make. -/
def ofWords (word : String) (arg : List Char) : Except SyntaxError Statement :=
  match word with
  | "puts" => (textOf "" arg).map puts
  | "raise" => (textOf "unhandled exception" arg).map raise
  | "sleep" => (number arg).map (fun secs => sleep (min (secs * 1000) sleepLimit))
  | "sleep_ms" => (number arg).map sleep
  | "pass" => bare pass arg
  | "Task.pass" => bare pass arg
  | "suspend" => bare suspend arg
  | "Task.suspend" => bare suspend arg
  | "loop" => if arg = ['d', 'o'] then .ok loopStart else .error .expectingDo
  | "end" => bare loopEnd arg
  | other => .error (.unexpected other)

/-- The statement on a line, if the line has one. -/
def parse (line : List Char) : Except SyntaxError (Option Statement) :=
  match trim line with
  | [] => .ok none
  | '#' :: _ => .ok none
  | stmt => (ofWords (String.ofList (word stmt)) (argument stmt)).map some

end Statement

end Coop
