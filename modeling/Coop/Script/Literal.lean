import Coop.Script.Error
import Coop.Text.Blank
import Coop.Text.Decimal

/-!
# Literals

The arguments of statements: unsigned 32-bit numbers, and texts in single or double quotes. Nothing
but a comment may follow a quoted text.

* `number`: an optional plus sign and decimal digits;
* `unescape`: what a backslash and the character after it stand for;
* `quoted`: the text up to the closing quote;
* `literal`: a quoted text, or a number written out in full.
-/

namespace Coop

/-- One more than the largest number a script can write. -/
def wordBound : Nat := 0x100000000

/-- The double quote. -/
def doubleQuote : Char := '\x22'

/-- The single quote. -/
def singleQuote : Char := '\x27'

/-- The backslash. -/
def backslash : Char := '\x5c'

/-- A number without its plus sign. -/
def dropPlus : List Char → List Char
  | '+' :: digits => digits
  | digits => digits

/-- Reads an unsigned number. -/
def number (arg : List Char) : Except SyntaxError Nat :=
  match readDecimal? wordBound digitOfChar? (dropPlus arg) with
  | some n => .ok n
  | none => .error (.expectingInteger (String.ofList arg))

/-- What a backslash followed by `c` stands for. Between double quotes `n`, `t` and `0` stand for a
line feed, a tab and a zero, and any other character for itself; between single quotes only a single
quote and a backslash lose the backslash in front. -/
def unescape (quote c : Char) : List Char :=
  if quote = doubleQuote then
    if c = 'n' then ['\n'] else if c = 't' then ['\t'] else if c = '0' then ['\x00'] else [c]
  else if c = singleQuote ∨ c = backslash then [c]
  else [backslash, c]

/-- The text read so far, if only a comment follows it. -/
def closeQuoted (done rest : List Char) : Except SyntaxError String :=
  match trim rest with
  | [] => .ok (String.ofList done.reverse)
  | '#' :: _ => .ok (String.ofList done.reverse)
  | rest => .error (.unexpected (String.ofList rest))

/-- Reads on inside quotes; `done` holds the characters so far, last one first. -/
def quoted (quote : Char) (done : List Char) : List Char → Except SyntaxError String
  | [] => .error .unterminated
  | c :: rest =>
    if c = backslash then
      match rest with
      | [] => .error .unterminated
      | e :: rest => quoted quote ((unescape quote e).reverse ++ done) rest
    else if c = quote then closeQuoted done rest
    else quoted quote (c :: done) rest

/-- Reads a text: a quoted one, or a number written out in full. -/
def literal (arg : List Char) : Except SyntaxError String :=
  match arg with
  | [] => (number arg).map toString
  | q :: rest =>
    if q = doubleQuote ∨ q = singleQuote then quoted q [] rest else (number arg).map toString

theorem number_lt {arg : List Char} {n : Nat} (h : number arg = .ok n) : n < wordBound := by
  unfold number at h
  split at h
  · rename_i hr
    cases h
    exact readDecimal?_lt (by decide) hr
  · cases h

end Coop
