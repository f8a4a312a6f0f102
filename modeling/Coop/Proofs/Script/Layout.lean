import Coop.Proofs.Script.Meaning
import Mathlib.Tactic.SplitIfs

/-!
# Where the lines of a script are laid out

Each line of a script that compiles has a place in the body, where its instruction is found.

* `Line.statement?`, `Line.instr?`: what becomes of a line;
* `layout`, `place`, `bodyOf`: the body when the first lines are laid out, its length, and the whole
  body;
* `opened_layout`: the targets at hand are the places behind the open loops;
* `body_layout_succ`, `place_quiet`: one more line;
* **`decode_bodyOf`**: the instruction of a line is found at its place.
-/

namespace Coop

namespace Script

variable {p : List Line} {i : Nat}

/-- The statement of a line. -/
def Line.statement? : Line → Option Statement
  | blank => none
  | puts text => some (.puts text)
  | raise text => some (.raise text)
  | sleep secs => some (.sleep (min (secs * 1000) sleepLimit))
  | sleepMs ms => some (.sleep ms)
  | pass => some .pass
  | suspend => some .suspend
  | loop => some .loopStart
  | close => some .loopEnd

/-- What is laid out when the first `i` lines are. -/
def layout (p : List Line) (i : Nat) : Assembly :=
  ((p.take i).filterMap Line.statement?).foldl Assembly.emit Assembly.start

/-- The place of line `i` in the body. -/
def place (p : List Line) (i : Nat) : Nat := (layout p i).body.size

/-- The body of a script. -/
def bodyOf (p : List Line) : ByteArray := assemble (p.filterMap Line.statement?)

theorem bodyOf_eq (p : List Line) : bodyOf p = (layout p p.length).body ++ Instr.stop.encode := by
  rw [bodyOf, assemble, layout, List.take_length]

theorem layout_succ {line : Line} (h : p[i]? = some line) : layout p (i + 1) =
    match line.statement? with
    | none => layout p i
    | some s => (layout p i).emit s := by
  unfold layout
  rw [List.take_add_one, h, Option.toList_some, List.filterMap_append, List.foldl_append]
  cases hs : line.statement? with
  | none => simp [hs]
  | some s => simp [hs]

theorem layout_of_none (h : p[i]? = none) : layout p i = layout p p.length := by
  have hi : p.length ≤ i := List.getElem?_eq_none_iff.mp h
  unfold layout
  rw [List.take_of_length_le hi, List.take_length]

/-! ## Loops -/

/-- The targets at hand are the places behind the open loops, innermost first. -/
theorem opened_layout (p : List Line) (i nested : Nat) : (layout p i).opened[nested]? =
    (opener p i nested).map fun l => place p (l + 1) := by
  induction i generalizing nested with
  | zero => simp [layout, Assembly.start, opener]
  | succ i ih =>
    cases h : p[i]? with
    | none =>
      have hl : layout p (i + 1) = layout p i := by
        have hi := List.getElem?_eq_none_iff.mp h
        rw [layout_of_none h, layout_of_none (List.getElem?_eq_none_iff.mpr (Nat.le_succ_of_le hi))]
      rw [hl, ih, opener_other nested (by simp [h]) (by simp [h])]
    | some line =>
      have hsucc := layout_succ h
      cases hl : layout p i with
      | mk body opened =>
        simp only [hl] at ih hsucc
        cases line with
        | blank | puts | raise | sleep | sleepMs | pass | suspend =>
          rw [hsucc, opener_other nested (by simp [h]) (by simp [h]), ← ih nested]
          rfl
        | loop =>
          cases nested with
          | zero =>
            rw [opener_loop_zero h, Option.map_some, place, hsucc]
            rfl
          | succ nested =>
            rw [opener_loop_succ nested h, ← ih nested, hsucc]
            rfl
        | close =>
          rw [opener_close nested h, ← ih (nested + 1), hsucc]
          cases opened <;> rfl

/-! ## Instructions -/

/-- The instruction of line `i`. -/
def Line.instr? (p : List Line) (i : Nat) : Line → Option Instr
  | blank | loop => none
  | puts text => some (.puts text.toByteArray)
  | raise text => some (.raise text.toByteArray)
  | sleep secs => some (.sleep (min (secs * 1000) sleepLimit))
  | sleepMs ms => some (.sleep ms)
  | pass => some .pass
  | suspend => some .suspend
  | close => (opener p i 0).map fun l => .jump (place p (l + 1))

theorem body_layout_succ {line : Line} {instr : Instr} (h : p[i]? = some line)
    (hi : line.instr? p i = some instr) :
    (layout p (i + 1)).body = (layout p i).body ++ instr.encode := by
  have hopen := opened_layout p i 0
  rw [layout_succ h]
  cases hl : layout p i with
  | mk body opened =>
    cases line with
    | blank | loop => cases hi
    | puts | raise | sleep | sleepMs | pass | suspend =>
      cases hi
      rfl
    | close =>
      obtain ⟨l, hl', rfl⟩ := Option.map_eq_some_iff.mp hi
      rw [hl, hl'] at hopen
      cases opened with
      | nil => cases hopen
      | cons target opened =>
        cases hopen
        rfl

theorem place_succ {line : Line} {instr : Instr} (h : p[i]? = some line)
    (hi : line.instr? p i = some instr) : place p (i + 1) = place p i + instr.size := by
  rw [place, body_layout_succ h hi, ByteArray.size_append, Instr.size_encode, place]

theorem place_quiet {line : Line} (h : p[i]? = some line) (hq : line.IsQuiet) :
    place p (i + 1) = place p i := by
  rw [place, layout_succ h]
  rcases hq with rfl | rfl
  · rfl
  · cases hl : layout p i
    simp [Line.statement?, Assembly.emit, place, hl]

theorem body_emit (a : Assembly) (s : Statement) : ∃ rest, (a.emit s).body = a.body ++ rest := by
  obtain ⟨body, opened⟩ := a
  cases s with
  | puts | raise | sleep | pass | suspend => exact ⟨_, rfl⟩
  | loopStart => exact ⟨.empty, ByteArray.append_empty.symm⟩
  | loopEnd =>
    cases opened with
    | nil => exact ⟨.empty, ByteArray.append_empty.symm⟩
    | cons target opened => exact ⟨_, rfl⟩

/-- What is laid out once stays where it is. -/
theorem body_layout_le {j : Nat} (h : i ≤ j) :
    ∃ rest, (layout p j).body = (layout p i).body ++ rest := by
  induction h with
  | refl => exact ⟨.empty, ByteArray.append_empty.symm⟩
  | @step j _ ih =>
    obtain ⟨rest, hrest⟩ := ih
    cases hj : p[j]? with
    | none =>
      have hs : p[j + 1]? = none :=
        List.getElem?_eq_none_iff.mpr (Nat.le_succ_of_le (List.getElem?_eq_none_iff.mp hj))
      exact ⟨rest, by rw [layout_of_none hs, ← layout_of_none hj, hrest]⟩
    | some line =>
      rw [layout_succ hj]
      cases line.statement? with
      | none => exact ⟨rest, hrest⟩
      | some s =>
        obtain ⟨more, hmore⟩ := body_emit (layout p j) s
        exact ⟨rest ++ more, by rw [hmore, hrest, ByteArray.append_assoc]⟩

theorem place_mono {j : Nat} (h : i ≤ j) : place p i ≤ place p j := by
  obtain ⟨rest, hrest⟩ := body_layout_le (p := p) h
  rw [place, place, hrest, ByteArray.size_append]
  exact Nat.le_add_right _ _

theorem exists_bodyOf_eq (h : i ≤ p.length) : ∃ rest, bodyOf p = (layout p i).body ++ rest := by
  obtain ⟨rest, hrest⟩ := body_layout_le (p := p) h
  exact ⟨rest ++ Instr.stop.encode, by rw [bodyOf_eq, hrest, ByteArray.append_assoc]⟩

theorem place_le (p : List Line) (i : Nat) : place p i ≤ (bodyOf p).size := by
  rcases Nat.lt_or_ge i p.length with hi | hi
  · obtain ⟨rest, hrest⟩ := exists_bodyOf_eq (p := p) (Nat.le_of_lt hi)
    rw [hrest, ByteArray.size_append, place]
    exact Nat.le_add_right _ _
  · rw [place, layout_of_none (List.getElem?_eq_none_iff.mpr hi), bodyOf_eq, ByteArray.size_append]
    exact Nat.le_add_right _ _

/-- **The instruction of a line is found at its place.** -/
theorem decode_bodyOf {line : Line} {instr : Instr} (h : p[i]? = some line)
    (hi : line.instr? p i = some instr) (hf : instr.Fits) :
    Instr.decode (bodyOf p) (place p i) = .ok (some instr) := by
  have hlt : i < p.length := (List.getElem?_eq_some_iff.mp h).1
  obtain ⟨rest, hrest⟩ := exists_bodyOf_eq (p := p) (Nat.succ_le_of_lt hlt)
  rw [hrest, body_layout_succ h hi, ByteArray.append_assoc]
  exact Instr.decode_append_encode hf _ rest

theorem decode_bodyOf_of_none (h : p[i]? = none) :
    Instr.decode (bodyOf p) (place p i) = .ok (some .stop) := by
  rw [bodyOf_eq, place, layout_of_none h, ← ByteArray.append_empty (b := Instr.stop.encode)]
  exact Instr.decode_append_encode (i := .stop) trivial _ .empty

end Script

end Coop
