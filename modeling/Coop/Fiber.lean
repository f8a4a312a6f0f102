import Coop.Image
import Coop.Instr
import Coop.Text.Utf8

/-!
# Running an image in slices

A machine is a place in a body, a heap and the text written so far. It runs instruction after
instruction until its budget is spent or the program hands control back.

* `Handback`: what a program asks for when it gives up control;
* `Machine.execute`: one instruction;
* `Machine.run`: a slice of at most `budget` instructions;
* `Slice`, `runImage`: the same on a whole image, which may turn out to be broken;
* `run_zero`, `run_succ`: the two equations of a slice.
-/

namespace Coop

/-- What a program asks for when it hands control back. -/
inductive Handback where
  | yield
  | sleep (ms : Nat)
  | suspend
  | done
  | fault (cause : Fault)
  deriving DecidableEq

/-- A program in progress: the place of its next instruction, its heap, the text it wrote. -/
structure Machine where
  pc : Nat
  arena : Arena
  output : String

/-- The result of one instruction: go on, or hand control back. -/
inductive Move where
  | next (m : Machine)
  | back (h : Handback) (m : Machine)

/-- The result of a slice: why it ended, the budget left over, and the machine after it. -/
structure Slice where
  handback : Handback
  budget : Nat
  machine : Machine

namespace Machine

/-- Prints a line: its text lives on the heap while it is written. -/
def print (m : Machine) (text : ByteArray) : Move :=
  match m with
  | ⟨pc, arena, output⟩ =>
    let mark := arena.mark
    match arena.alloc (text.size + 1) with
    | .error e => .back (.fault (.outOfMemory e)) ⟨pc, arena, output⟩
    | .ok (start, arena) =>
      let line := text.push 0x0a
      let written := (String.fromUTF8? line).getD "?\n"
      .next ⟨pc, (arena.write start line).rewind mark, output ++ written⟩

/-- Executes the instruction at the machine's place. -/
def execute (body : ByteArray) (m : Machine) : Move :=
  match Instr.decode body m.pc with
  | .error e => .back (.fault (.badImage e)) m
  | .ok none => .back .done m
  | .ok (some .stop) => .back .done m
  | .ok (some (.puts text)) => print { m with pc := m.pc + 3 + text.size } text
  | .ok (some (.sleep ms)) => .back (.sleep ms) { m with pc := m.pc + 5 }
  | .ok (some .pass) => .back .yield { m with pc := m.pc + 1 }
  | .ok (some .suspend) => .back .suspend { m with pc := m.pc + 1 }
  | .ok (some (.jump target)) => .next { m with pc := target }
  | .ok (some (.raise text)) => .back (.fault (.raised (textLossy text))) m

/-- Runs at most `budget` instructions. A spent budget is handed back as a yield. -/
def run (body : ByteArray) : Nat → Machine → Slice
  | 0, m => ⟨.yield, 0, m⟩
  | budget + 1, m =>
    match m.execute body with
    | .next m => run body budget m
    | .back h m => ⟨h, budget, m⟩

@[simp] theorem run_zero (body : ByteArray) (m : Machine) : run body 0 m = ⟨.yield, 0, m⟩ := rfl

theorem run_succ (body : ByteArray) (budget : Nat) (m : Machine) :
    run body (budget + 1) m =
      match m.execute body with
      | .next m' => run body budget m'
      | .back h m' => ⟨h, budget, m'⟩ := rfl

end Machine

/-- Runs a slice of an image; a broken image faults without spending anything. -/
def runImage (image : ByteArray) (budget : Nat) (m : Machine) : Slice :=
  match Image.body image with
  | .error e => ⟨.fault (.badImage e), budget, m⟩
  | .ok body => m.run body budget

end Coop
