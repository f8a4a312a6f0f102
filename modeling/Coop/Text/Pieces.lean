/-!
# Cutting lists into pieces

* `pieces p xs`: the stretches of `xs` between the elements that satisfy `p`, empty ones included;
* `lines`: the lines of a text, where a final line end opens no further line;
* `splitOnce`: the parts before and after the first separator;
* `pieces_of_all_not`, `pieces_append_cons`: how `pieces` acts on a list without separators and
  across one.
-/

universe u

namespace Coop

section Pieces

variable {α : Type u} (p : α → Bool)

/-- Puts `x` in front of the pieces of what follows it. -/
def pieceStep (x : α) : List (List α) → List (List α)
  | [] => if p x then [[], []] else [[x]]
  | g :: gs => if p x then [] :: g :: gs else (x :: g) :: gs

/-- The stretches of a list between its separators; there is one more of them than separators. -/
def pieces (xs : List α) : List (List α) := xs.foldr (pieceStep p) [[]]

@[simp] theorem pieces_nil : pieces p [] = [[]] := rfl

theorem pieces_cons (x : α) (xs : List α) : pieces p (x :: xs) = pieceStep p x (pieces p xs) := rfl

theorem pieces_ne_nil (xs : List α) : pieces p xs ≠ [] := by
  cases xs with
  | nil => simp
  | cons x xs =>
    rw [pieces_cons]
    cases pieces p xs <;> simp only [pieceStep] <;> split <;> simp

variable {p}

theorem pieces_of_all_not {xs : List α} (h : ∀ x ∈ xs, p x = false) : pieces p xs = [xs] := by
  induction xs with
  | nil => rfl
  | cons x xs ih =>
    rw [pieces_cons, ih fun y hy => h y (List.mem_cons_of_mem _ hy)]
    simp [pieceStep, h x List.mem_cons_self]

theorem pieces_append_cons {xs : List α} (h : ∀ x ∈ xs, p x = false) {s : α} (hs : p s = true)
    (ys : List α) : pieces p (xs ++ s :: ys) = xs :: pieces p ys := by
  induction xs with
  | nil =>
    rw [List.nil_append, pieces_cons]
    cases hg : pieces p ys with
    | nil => exact absurd hg (pieces_ne_nil p ys)
    | cons g gs => simp [pieceStep, hs]
  | cons x xs ih =>
    rw [List.cons_append, pieces_cons, ih fun y hy => h y (List.mem_cons_of_mem _ hy)]
    simp [pieceStep, h x List.mem_cons_self]

/-- The parts of a list before and after its first separator, if it has one. -/
def splitOnce (p : α → Bool) (xs : List α) : Option (List α × List α) :=
  match xs.dropWhile (fun x => !p x) with
  | [] => none
  | _ :: after => some (xs.takeWhile (fun x => !p x), after)

end Pieces

/-- The lines of a text without their line feeds; a final line feed opens no further line. -/
def lines (cs : List Char) : List (List Char) :=
  let all := pieces (· == '\n') cs
  if all.getLast? == some [] then all.dropLast else all

@[simp] theorem lines_nil : lines [] = [] := rfl

end Coop
