import Coop.Proofs.Script.Reading
import Mathlib.Data.List.Induction

/-!
# The first lines of a script

A script is read from the front, so what its first lines do to the reader does not depend on the
lines behind them.

* `unlines`, `lines_unlines`: a source for given lines;
* `newline_notMem`: no line has a line feed in it;
* `readFront`: the reader behind some lines, with `readFront_append`, `readFront_concat`,
  `readFront_error_append`;
* `compile_of_error`, `compile_of_ok`: an image or an error from the reader behind all lines.
-/

namespace Coop

namespace Script

/-! ## Sources and lines -/

/-- The source with the given lines. -/
def unlines (ls : List (List Char)) : String := String.ofList (ls.flatMap (· ++ ['\n']))

theorem pieces_unlines {ls : List (List Char)} (h : ∀ l ∈ ls, '\n' ∉ l) :
    pieces (· == '\n') (ls.flatMap (· ++ ['\n'])) = ls ++ [[]] := by
  induction ls with
  | nil => rfl
  | cons l ls ih =>
    have hl : ∀ c ∈ l, (c == '\n') = false := by
      intro c hc
      have hne : c ≠ '\n' := fun hcn => h l List.mem_cons_self (hcn ▸ hc)
      simp [hne]
    rw [List.flatMap_cons, List.append_assoc, List.singleton_append,
      pieces_append_cons hl (by decide), ih fun l' hl' => h l' (List.mem_cons_of_mem _ hl')]
    rfl

theorem lines_unlines {ls : List (List Char)} (h : ∀ l ∈ ls, '\n' ∉ l) :
    lines (unlines ls).toList = ls := by
  rw [unlines, String.toList_ofList, lines, pieces_unlines h]
  simp

theorem eq_false_of_mem_pieces {α : Type} {p : α → Bool} {xs g : List α} (hg : g ∈ pieces p xs) :
    ∀ x ∈ g, p x = false := by
  induction xs generalizing g with
  | nil =>
    rw [pieces_nil, List.mem_singleton] at hg
    simp [hg]
  | cons y xs ih =>
    rw [pieces_cons] at hg
    cases hp : pieces p xs with
    | nil => exact absurd hp (pieces_ne_nil p xs)
    | cons first rest =>
      rw [hp] at ih hg
      unfold pieceStep at hg
      -- a separator opens an empty piece, anything else joins the first one
      split_ifs at hg with hy
      · rcases List.mem_cons.mp hg with rfl | hg
        · simp
        · exact ih hg
      · rcases List.mem_cons.mp hg with rfl | hg
        · intro x hx
          rcases List.mem_cons.mp hx with rfl | hx
          · exact Bool.eq_false_iff.mpr hy
          · exact ih List.mem_cons_self x hx
        · exact ih (List.mem_cons_of_mem _ hg)

theorem newline_notMem {cs l : List Char} (hl : l ∈ lines cs) : '\n' ∉ l := by
  intro hn
  have hpiece : l ∈ pieces (· == '\n') cs := by
    unfold lines at hl
    dsimp only at hl
    split_ifs at hl
    · exact List.dropLast_subset _ hl
    · exact hl
  have hne := eq_false_of_mem_pieces hpiece '\n' hn
  simp at hne

/-! ## The reader behind some lines -/

/-- The reader behind some lines, or the error on the first line that cannot be read. -/
def readFront (ls : List (List Char)) : Except CompileError Reader :=
  (ls.zipIdx 1).foldlM Reader.line Reader.start

variable {front rest : List (List Char)} {source : String}

theorem readFront_append (front rest : List (List Char)) : readFront (front ++ rest) =
    readFront front >>= (rest.zipIdx (1 + front.length)).foldlM Reader.line := by
  rw [readFront, List.zipIdx_append, List.foldlM_append]
  rfl

theorem readFront_concat {r : Reader} (h : readFront front = .ok r) (line : List Char) :
    readFront (front ++ [line]) = r.line (line, 1 + front.length) := by
  rw [readFront_append, h]
  change (r.line (line, 1 + front.length) >>= pure) = _
  rw [bind_pure]

theorem readFront_error_append {e : CompileError} (h : readFront front = .error e)
    (rest : List (List Char)) : readFront (front ++ rest) = .error e := by
  rw [readFront_append, h]
  rfl

/-- What can be read as a part of a script can be read alone. -/
theorem exists_readFront_of_append {r : Reader} (h : readFront (front ++ rest) = .ok r) :
    ∃ r₀, readFront front = .ok r₀ := by
  cases hf : readFront front with
  | ok r₀ => exact ⟨r₀, rfl⟩
  | error e =>
    rw [readFront_error_append hf] at h
    cases h

theorem compile_of_error {e : CompileError} (h : readFront (lines source.toList) = .error e) :
    compile source = .error e := by
  unfold readFront at h
  rw [compile, parseScript, parseLines, h]
  rfl

theorem compile_of_ok {r : Reader} (h : readFront (lines source.toList) = .ok r) :
    compile source = (r.finish (lines source.toList).length).map
      fun statements => Image.build (assemble statements) := by
  unfold readFront at h
  rw [compile, parseScript, parseLines, h]

theorem exists_readFront_of_compile {image : ByteArray} (h : compile source = .ok image) :
    ∃ r, readFront (lines source.toList) = .ok r := by
  cases hf : readFront (lines source.toList) with
  | ok r => exact ⟨r, rfl⟩
  | error e =>
    rw [compile_of_error hf] at h
    cases h

end Script

end Coop
