import Coop.Shell
import Coop.Text.Pieces

/-!
# Command lines

The first word of a line, up to a space, chooses a command; a line with any other first word is a
script for the evaluator. What a command is refused for is printed.

* `Command`, `Command.parse`;
* `Shell.perform`: a command;
* `Shell.dispatch`: a line.
-/

namespace Coop

/-- What a line asks for. -/
inductive Command where
  | stat
  | run (path : String)
  | start (name path : String)
  | suspend (name : String)
  | resume (name : String)
  | kill (name : String)
  | remove (name : String)
  | evaluate (source : String)
  deriving DecidableEq, Repr

namespace Command

/-- The parts of a text before and after its first space, the latter without the blanks around it.
-/
def splitWord (text : String) : Option (String × String) :=
  (splitOnce (· == ' ') text.toList).map (fun p => (String.ofList p.1, String.ofList (trim p.2)))

/-- The argument of `start`: a name and a path, or one word for both. -/
def parseStart (arg : String) : Command :=
  match splitWord arg with
  | some (name, path) => .start name path
  | none => .start arg arg

/-- What a line asks for. -/
def parse (text : String) : Command :=
  let (word, arg) := (splitWord text).getD (text, "")
  match word with
  | "stat" => .stat
  | "run" => .run arg
  | "start" => parseStart arg
  | "suspend" => .suspend arg
  | "resume" => .resume arg
  | "kill" => .kill arg
  | "rm" => .remove arg
  | _ => .evaluate text

end Command

/-- What came of a line: whether its command succeeded, nothing if the host's patience ran out. -/
structure Dispatched (V ι C : Type) where
  result : Option (Except ShellError Unit)
  shell : Shell V
  host : Host ι C

namespace Shell

variable {V ι C : Type}

/-- Forgets the outcome of a blocking call. -/
def ofAnswered (a : Answered V ι C) : Dispatched V ι C :=
  ⟨a.result.map (fun r => r.map (fun _ => ())), a.shell, a.host⟩

/-- Puts what a call logged into the host's journal. -/
def ofLogged {α : Type} (h : Host ι C) (x : Logged (Except ShellError α × Shell V)) :
    Dispatched V ι C :=
  let ((result, s), h) := h.absorb x
  ⟨some (result.map (fun _ => ())), s, h⟩

/-- Carries out a command. -/
def perform [Volume V] [Receiver ι] (patience : Nat) (s : Shell V) (h : Host ι C) :
    Command → Dispatched V ι C
  | .stat => ⟨some (.ok ()), s, h.write s.stat⟩
  | .run path => ofAnswered (s.runFile patience h path)
  | .start name path => ofLogged h (s.start name path)
  | .suspend name => ofLogged h (pure (s.suspend name))
  | .resume name => ofLogged h (pure (s.resume name))
  | .kill name => ofLogged h (s.kill name)
  | .remove name => ofLogged h (s.remove name)
  | .evaluate source => ofAnswered (s.evaluate patience h source)

/-- Carries out a line, and prints why it was refused. -/
def dispatch [Volume V] [Receiver ι] (patience : Nat) (s : Shell V) (h : Host ι C) (text : String) :
    Dispatched V ι C :=
  let d := s.perform patience h (Command.parse text)
  match d.result with
  | some (.error e) => { d with host := d.host.writeLine e.message }
  | _ => d

end Shell

end Coop
