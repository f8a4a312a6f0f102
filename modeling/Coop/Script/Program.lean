import Coop.Script.Statement
import Coop.Image
import Coop.Instr

/-!
# From scripts to images

A script is read line by line into a list of statements whose loops are balanced, and the statements
are then laid out as instructions one after the other. The end of a loop jumps back to the
instruction after the loop's start.

* `Reader`, `Reader.line`: the state of a reader between lines, and what a line does to it;
* `parseScript`: the statements of a script, or its first error;
* `Assembly`, `Assembly.emit`, `assemble`: the body of an image;
* `compile`: a script as an image.
-/

namespace Coop

/-! ## Reader -/

/-- A reader between two lines: the statements so far, last one first, and the lines that opened the
loops it is in, innermost first. -/
structure Reader where
  statements : List Statement
  opened : List Nat
  deriving DecidableEq

/-- A syntax error at a line. -/
def SyntaxError.onLine (n : Nat) (e : SyntaxError) : CompileError := ⟨n, .malformed e⟩

namespace Reader

/-- The reader before the first line. -/
def start : Reader := ⟨[], []⟩

/-- Takes in a statement of line `n`. -/
def push (r : Reader) (n : Nat) (s : Statement) : Except SyntaxError Reader :=
  match s, r.opened with
  | .loopStart, opened => .ok ⟨s :: r.statements, n :: opened⟩
  | .loopEnd, [] => .error .unmatchedEnd
  | .loopEnd, _ :: opened => .ok ⟨s :: r.statements, opened⟩
  | _, opened => .ok ⟨s :: r.statements, opened⟩

/-- Takes in a line and its number. -/
def line (r : Reader) (numbered : List Char × Nat) : Except CompileError Reader :=
  match Statement.parse numbered.1 with
  | .error e => .error (e.onLine numbered.2)
  | .ok none => .ok r
  | .ok (some s) =>
    match r.push numbered.2 s with
    | .error e => .error (e.onLine numbered.2)
    | .ok r => .ok r

/-- The statements read, if every loop was closed; `last` is the number of the last line. -/
def finish (r : Reader) (last : Nat) : Except CompileError (List Statement) :=
  match r.opened with
  | [] => .ok r.statements.reverse
  | opened :: _ => .error ((SyntaxError.endOfInput opened).onLine (max last opened))

end Reader

/-- The statements of a list of lines. -/
def parseLines (ls : List (List Char)) : Except CompileError (List Statement) :=
  match (ls.zipIdx 1).foldlM Reader.line Reader.start with
  | .error e => .error e
  | .ok r => r.finish ls.length

/-- The statements of a script, or its first error. -/
def parseScript (source : String) : Except CompileError (List Statement) :=
  parseLines (lines source.toList)

/-! ## Layout -/

/-- A body under construction, and the places where its open loops started, innermost first. -/
structure Assembly where
  body : ByteArray
  opened : List Nat

namespace Assembly

/-- An empty body. -/
def start : Assembly := ⟨ByteArray.empty, []⟩

/-- Lays out one statement. -/
def emit (a : Assembly) (s : Statement) : Assembly :=
  match a, s with
  | ⟨body, opened⟩, .puts text => ⟨body ++ (Instr.puts text.toByteArray).encode, opened⟩
  | ⟨body, opened⟩, .raise text => ⟨body ++ (Instr.raise text.toByteArray).encode, opened⟩
  | ⟨body, opened⟩, .sleep ms => ⟨body ++ (Instr.sleep ms).encode, opened⟩
  | ⟨body, opened⟩, .pass => ⟨body ++ Instr.pass.encode, opened⟩
  | ⟨body, opened⟩, .suspend => ⟨body ++ Instr.suspend.encode, opened⟩
  | ⟨body, opened⟩, .loopStart => ⟨body, body.size :: opened⟩
  | ⟨body, []⟩, .loopEnd => ⟨body, []⟩
  | ⟨body, target :: opened⟩, .loopEnd => ⟨body ++ (Instr.jump target).encode, opened⟩

end Assembly

/-- The body of a program: its statements in order, and a stop. -/
def assemble (statements : List Statement) : ByteArray :=
  (statements.foldl Assembly.emit Assembly.start).body ++ Instr.stop.encode

/-- The image of a script. -/
def compile (source : String) : Except CompileError ByteArray :=
  (parseScript source).map (fun statements => Image.build (assemble statements))

theorem isImage_of_compile {source : String} {image : ByteArray} (h : compile source = .ok image) :
    Image.isImage image = true := by
  unfold compile at h
  cases hp : parseScript source with
  | error e => simp [hp, Except.map] at h
  | ok statements =>
    simp only [hp, Except.map, Except.ok.injEq] at h
    exact h ▸ Image.isImage_build _

end Coop
