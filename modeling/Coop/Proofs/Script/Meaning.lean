import Coop.Fiber
import Coop.Script.Program
import Mathlib.Algebra.Group.Nat.Defs

/-!
# What a script means

A script is interpreted line by line, without an image: a position is the number of a line. Lines
that ask for nothing are passed over, a text is written, and every other line hands control back or
goes on at another line.

* `Line`, `Line.read`, `readLines`: a line as it is written;
* `opener`: the line of the `loop` that an `end` belongs to;
* `Runs`: a stretch of interpretation in which control is kept;
* `HandsBack`: a line at which control is handed back;
* `Dispatched`, `Follows`: the same in slices of limited length.
-/

namespace Coop

namespace Script

/-- A line of a script. -/
inductive Line where
  /-- Nothing, or a comment. -/
  | blank
  | puts (text : String)
  | raise (text : String)
  | sleep (secs : Nat)
  | sleepMs (ms : Nat)
  | pass
  | suspend
  | loop
  | close
  deriving DecidableEq

namespace Line

/-- The text of an argument, or `missing` if there is no argument. -/
def textOf (missing : String) (arg : List Char) : Option String :=
  if arg = [] then some missing else (literal arg).toOption

/-- A line that takes exactly the argument `expected`. -/
def fixed (line : Line) (expected arg : List Char) : Option Line :=
  if arg = expected then some line else none

/-- The line made of a word and its argument. -/
def ofWords (word : String) (arg : List Char) : Option Line :=
  match word with
  | "puts" => (textOf "" arg).map puts
  | "raise" => (textOf "unhandled exception" arg).map raise
  | "sleep" => (number arg).toOption.map sleep
  | "sleep_ms" => (number arg).toOption.map sleepMs
  | "pass" => fixed pass [] arg
  | "Task.pass" => fixed pass [] arg
  | "suspend" => fixed suspend [] arg
  | "Task.suspend" => fixed suspend [] arg
  | "loop" => fixed loop ['d', 'o'] arg
  | "end" => fixed close [] arg
  | _ => none

/-- Reads a line, unless it is malformed. -/
def read (line : List Char) : Option Line :=
  match trim line with
  | [] => some blank
  | '#' :: _ => some blank
  | stmt => ofWords (String.ofList (Statement.word stmt)) (Statement.argument stmt)

/-- The line asks for nothing: the next one is as good. -/
def IsQuiet (line : Line) : Prop := line = blank ∨ line = loop

end Line

/-- The lines of a script, unless one of them is malformed. -/
def readLines (source : String) : Option (List Line) := (lines source.toList).mapM Line.read

/-! ## Interpretation -/

/-- Looks back from line `i` for the `loop` that is still open there; `nested` of the open ones are
left out. -/
def opener (p : List Line) : (i nested : Nat) → Option Nat
  | 0, _ => none
  | i + 1, nested =>
    if p[i]? = some .close then opener p i (nested + 1)
    else if p[i]? = some .loop then
      match nested with
      | 0 => some i
      | nested + 1 => opener p i nested
    else opener p i nested

section Opener

variable {p : List Line} {i : Nat} (nested : Nat)

theorem opener_close (h : p[i]? = some .close) :
    opener p (i + 1) nested = opener p i (nested + 1) := if_pos h

theorem opener_loop_zero (h : p[i]? = some .loop) : opener p (i + 1) 0 = some i := by
  simp [opener, h]

theorem opener_loop_succ (h : p[i]? = some .loop) :
    opener p (i + 1) (nested + 1) = opener p i nested := by
  simp [opener, h]

theorem opener_other (hc : p[i]? ≠ some .close) (hl : p[i]? ≠ some .loop) :
    opener p (i + 1) nested = opener p i nested := (if_neg hc).trans (if_neg hl)

theorem opener_lt {l : Nat} (h : opener p i nested = some l) : l < i := by
  induction i generalizing nested with
  | zero => cases h
  | succ i ih =>
    unfold opener at h
    split at h
    · exact Nat.lt_succ_of_lt (ih _ h)
    · split at h
      · cases nested with
        | zero =>
          cases h
          exact Nat.lt_succ_self _
        | succ nested => exact Nat.lt_succ_of_lt (ih _ h)
      · exact Nat.lt_succ_of_lt (ih _ h)

end Opener

/-- The longest pause a script can ask for, in milliseconds. -/
def longestPause : Nat := 2 ^ 32 - 1

/-- From line `i`, the interpretation comes to line `j` without handing control back: it writes
`text`, and `n` of the lines on the way are not quiet. -/
inductive Runs (p : List Line) : (n i : Nat) → (text : String) → (j : Nat) → Prop
  | here (i : Nat) : Runs p 0 i "" i
  | skip {n i j : Nat} {text : String} {line : Line} (h : p[i]? = some line) (hq : line.IsQuiet)
    (hr : Runs p n (i + 1) text j) : Runs p n i text j
  | puts {n i j : Nat} {text rest : String} (h : p[i]? = some (.puts text))
    (hr : Runs p n (i + 1) rest j) : Runs p (n + 1) i (text ++ "\n" ++ rest) j
  /-- An `end` goes on behind the `loop` it belongs to. -/
  | again {n i j l : Nat} {text : String} (h : p[i]? = some .close) (ho : opener p i 0 = some l)
    (hr : Runs p n (l + 1) text j) : Runs p (n + 1) i text j

/-- At line `i`, the interpretation hands control back and will go on at line `j`. -/
inductive HandsBack (p : List Line) : (i : Nat) → Handback → (j : Nat) → Prop
  | sleep {i secs : Nat} (h : p[i]? = some (.sleep secs)) :
    HandsBack p i (.sleep (min (1000 * secs) longestPause)) (i + 1)
  | sleepMs {i ms : Nat} (h : p[i]? = some (.sleepMs ms)) : HandsBack p i (.sleep ms) (i + 1)
  | pass {i : Nat} (h : p[i]? = some .pass) : HandsBack p i .yield (i + 1)
  | suspend {i : Nat} (h : p[i]? = some .suspend) : HandsBack p i .suspend (i + 1)
  /-- A failure is final. -/
  | raise {i : Nat} {text : String} (h : p[i]? = some (.raise text)) :
    HandsBack p i (.fault (.raised text)) i
  /-- The script has no more lines. -/
  | done {i : Nat} (h : p[i]? = none) : HandsBack p i .done i

/-! ## Slices -/

/-- A slice of at most `budget` lines that are not quiet: from line `i` to line `j`, writing `text`,
with `left` of the budget left over. The script hands control back before the budget is spent, or
control is taken from it when the budget is spent. -/
inductive Dispatched (p : List Line) (budget i : Nat) (text : String) (h : Handback)
    (left j : Nat) : Prop
  | back {n k : Nat} (hr : Runs p n i text k) (hb : HandsBack p k h j)
    (hleft : n + 1 + left = budget)
  | spent (hr : Runs p budget i text j) (hb : h = .yield) (hleft : left = 0)

/-- One slice after the other, from line `i` on. -/
inductive Follows (p : List Line) : (i : Nat) → (budgets : List Nat) → List Slice → Prop
  | nil (i : Nat) : Follows p i [] []
  | cons {i j budget : Nat} {budgets : List Nat} {s : Slice} {ss : List Slice}
    (h : Dispatched p budget i s.machine.output s.handback s.budget j)
    (hs : Follows p j budgets ss) : Follows p i (budget :: budgets) (s :: ss)

/-- Nothing in a script can make an image look broken. -/
theorem Follows.ne_badImage {p : List Line} {i : Nat} {budgets : List Nat} {ss : List Slice}
    (h : Follows p i budgets ss) :
    ∀ s ∈ ss, ∀ e, s.handback ≠ .fault (.badImage e) := by
  induction h with
  | nil i =>
    intro s hs
    cases hs
  | @cons i j budget budgets s ss h _ ih =>
    intro s' hs e he
    rcases List.mem_cons.mp hs with rfl | hs
    · rw [he] at h
      cases h with
      | back _ hb _ => cases hb
      | spent _ hb _ => cases hb
    · exact ih s' hs e he

end Script

end Coop
