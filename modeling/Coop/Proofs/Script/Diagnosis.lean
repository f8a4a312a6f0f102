import Coop.Proofs.Script.Fronts

/-!
# Where a script is refused

The first lines of a script are hopeless if no further lines make a program of them that compiles. A
script is refused on the line that makes it hopeless, or at its end if loops are still open there
that further lines could close.

* `Completable`, `HopelessAt`: what further lines can do;
* `SyntaxError.IsLocal`, `Statement.parse_local`, `Reader.line_error`: errors of single lines;
* `exists_of_readFront_error`: the line on which reading stops;
* `exists_closing`, **`completable_iff`**: open loops can be closed;
* `loopLines`, `endLines`, `length_opened`: the loops that are open;
* `Verdict`, **`verdict_compile`**: what becomes of a script;
* **`refused_where_hopeless`**.
-/

namespace Coop

/-! ## Errors of single lines -/

/-- An error of a single line; only the end of the input is none. -/
def SyntaxError.IsLocal : SyntaxError → Prop
  | endOfInput _ => False
  | _ => True

/-- A computation whose errors are errors of a single line. -/
def FailsLocally {α : Type} (x : Except SyntaxError α) : Prop := ∀ e, x = .error e → e.IsLocal

namespace FailsLocally

variable {α β : Type}

theorem ok (a : α) : FailsLocally (.ok a) := by
  intro e he
  cases he

theorem error {e : SyntaxError} (h : e.IsLocal) : FailsLocally (.error e : Except _ α) := by
  intro e' he
  cases he
  exact h

theorem map {x : Except SyntaxError α} (h : FailsLocally x) (f : α → β) :
    FailsLocally (x.map f) := by
  cases x with
  | error e => exact .error (h e rfl)
  | ok a => exact .ok (f a)

theorem bind {x : Except SyntaxError α} {f : α → Except SyntaxError β} (h : FailsLocally x)
    (hf : ∀ a, FailsLocally (f a)) : FailsLocally (x >>= f) := by
  cases x with
  | error e => exact .error (h e rfl)
  | ok a => exact hf a

end FailsLocally

theorem number_local (arg : List Char) : FailsLocally (number arg) := by
  unfold number
  split
  · exact .ok _
  · exact .error trivial

theorem closeQuoted_local (done rest : List Char) : FailsLocally (closeQuoted done rest) := by
  unfold closeQuoted
  split
  · exact .ok _
  · exact .ok _
  · exact .error trivial

theorem quoted_local (quote : Char) (done cs : List Char) :
    FailsLocally (quoted quote done cs) := by
  fun_induction quoted quote done cs with
  | case1 => exact .error trivial
  | case2 => exact .error trivial
  | case3 done e rest ih => exact ih
  | case4 done rest => exact closeQuoted_local done rest
  | case5 done c rest hc hq ih => exact ih

theorem literal_local (arg : List Char) : FailsLocally (literal arg) := by
  unfold literal
  split
  · exact (number_local _).map _
  · split_ifs
    · exact quoted_local _ _ _
    · exact (number_local _).map _

namespace Statement

theorem textOf_local (missing : String) (arg : List Char) : FailsLocally (textOf missing arg) := by
  unfold textOf
  split
  · exact .ok _
  · refine (literal_local _).bind fun text => ?_
    unfold checkLength
    split_ifs
    · exact .ok _
    · exact .error trivial

theorem bare_local (s : Statement) (arg : List Char) : FailsLocally (bare s arg) := by
  unfold bare
  split
  · exact .ok _
  · exact .error trivial

theorem ofWords_local (word : String) (arg : List Char) : FailsLocally (ofWords word arg) := by
  unfold ofWords
  split
  case h_1 | h_2 => exact (textOf_local _ _).map _
  case h_3 | h_4 => exact (number_local _).map _
  case h_9 =>
    split_ifs
    · exact .ok _
    · exact .error trivial
  case h_11 => exact .error trivial
  all_goals exact bare_local _ _

theorem parse_local (line : List Char) : FailsLocally (parse line) := by
  unfold parse
  split
  · exact .ok _
  · exact .ok _
  · exact (ofWords_local _ _).map _

end Statement

namespace Reader

theorem push_local (r : Reader) (n : Nat) (s : Statement) : FailsLocally (r.push n s) := by
  unfold push
  split
  case h_2 => exact .error trivial
  all_goals exact .ok _

theorem line_error {r : Reader} {text : List Char} {n : Nat} {e : CompileError}
    (h : r.line (text, n) = .error e) : ∃ s : SyntaxError, s.IsLocal ∧ e = s.onLine n := by
  unfold line at h
  cases hp : Statement.parse text with
  | error s =>
    rw [hp] at h
    exact ⟨s, Statement.parse_local text s hp, (Except.error.inj h).symm⟩
  | ok o =>
    rw [hp] at h
    cases o with
    | none => cases h
    | some st =>
      cases hpush : r.push n st with
      | error s =>
        simp only [hpush] at h
        exact ⟨s, push_local r n st s hpush, (Except.error.inj h).symm⟩
      | ok r' => simp [hpush] at h

end Reader

namespace Script

variable {ls front : List (List Char)} {r : Reader}

theorem exists_of_readFront_error {e : CompileError} (h : readFront ls = .error e) :
    ∃ (n : Nat) (s : SyntaxError), s.IsLocal ∧ e = s.onLine (n + 1) ∧
      (∃ r, readFront (ls.take n) = .ok r) ∧ readFront (ls.take (n + 1)) = .error e := by
  induction ls using List.reverseRecOn with
  | nil => cases h
  | append_singleton front line ih =>
    cases hf : readFront front with
    | error e' =>
      rw [readFront_error_append hf] at h
      cases h
      obtain ⟨n, s, hlocal, he, hok, herror⟩ := ih hf
      -- the line is one of the front lines, since something is refused there
      have hlt : n < front.length := by
        by_contra hge
        obtain ⟨r, hr⟩ := hok
        rw [List.take_of_length_le (by omega), hf] at hr
        cases hr
      refine ⟨n, s, hlocal, he, ?_, ?_⟩
      · rwa [List.take_append_of_le_length (by omega)]
      · rwa [List.take_append_of_le_length (by omega)]
    | ok r =>
      have hline : r.line (line, 1 + front.length) = .error e := by
        rw [← readFront_concat hf, h]
      obtain ⟨s, hlocal, he⟩ := Reader.line_error hline
      refine ⟨front.length, s, hlocal, by rw [he, Nat.add_comm], ⟨r, ?_⟩, ?_⟩
      · rw [List.take_left]
        exact hf
      · rw [List.take_of_length_le (by simp), h]

/-! ## Closing loops -/

/-- A line that closes a loop. -/
def endLine : List Char := ['e', 'n', 'd']

theorem parse_endLine : Statement.parse endLine = .ok (some .loopEnd) := by decide +kernel

/-- With one more `end` for each of them, no loops are open. -/
theorem exists_closing (r : Reader) (n : Nat) : ∃ r',
    ((List.replicate r.opened.length endLine).zipIdx n).foldlM Reader.line r = .ok r' ∧
      r'.opened = [] := by
  obtain ⟨statements, opened⟩ := r
  induction opened generalizing statements n with
  | nil => exact ⟨⟨statements, []⟩, rfl, rfl⟩
  | cons l opened ih =>
    obtain ⟨r', hr', hopened⟩ := ih (n + 1) (.loopEnd :: statements)
    refine ⟨r', ?_, hopened⟩
    have hline : Reader.line ⟨statements, l :: opened⟩ (endLine, n) =
        .ok ⟨.loopEnd :: statements, opened⟩ := by
      rw [Reader.line, parse_endLine]
      rfl
    rw [List.length_cons, List.replicate_succ, List.zipIdx_cons, List.foldlM_cons, hline]
    exact hr'

/-- Some further lines make a program of these lines that compiles. -/
def Completable (front : List (List Char)) : Prop :=
  ∃ source image, front <+: lines source.toList ∧ compile source = .ok image

theorem Completable.mono (h : Completable ls) (hfront : front <+: ls) : Completable front := by
  obtain ⟨source, image, hls, hc⟩ := h
  exact ⟨source, image, hfront.trans hls, hc⟩

/-- **Lines that can be read can be completed.** -/
theorem completable_iff (hn : ∀ l ∈ front, '\n' ∉ l) :
    Completable front ↔ ∃ r, readFront front = .ok r := by
  constructor
  · rintro ⟨source, image, ⟨rest, hrest⟩, hc⟩
    obtain ⟨r, hr⟩ := exists_readFront_of_compile hc
    rw [← hrest] at hr
    exact exists_readFront_of_append hr
  · rintro ⟨r, hr⟩
    have hends : ∀ l ∈ front ++ List.replicate r.opened.length endLine, '\n' ∉ l := by
      intro l hl
      rcases List.mem_append.mp hl with hl | hl
      · exact hn l hl
      · rw [List.eq_of_mem_replicate hl]
        decide
    have hlines := lines_unlines hends
    obtain ⟨r', hr', hopened⟩ := exists_closing r (1 + front.length)
    have hread : readFront (front ++ List.replicate r.opened.length endLine) = .ok r' := by
      rw [readFront_append, hr]
      exact hr'
    refine ⟨unlines (front ++ List.replicate r.opened.length endLine),
      Image.build (assemble r'.statements.reverse), ?_, ?_⟩
    · rw [hlines]
      exact List.prefix_append _ _
    · rw [compile_of_ok (by rw [hlines, hread]), Reader.finish, hopened]
      rfl

/-- The first line behind which lines are hopeless: no further lines make a program of the first `n`
lines, but some make one of those in front of the last of them. -/
def HopelessAt (ls : List (List Char)) (n : Nat) : Prop :=
  Completable (ls.take (n - 1)) ∧ ¬ Completable (ls.take n)

theorem HopelessAt.not_completable {n : Nat} (h : HopelessAt ls n) : ¬ Completable ls :=
  fun hc => h.2 (hc.mono (List.take_prefix n ls))

theorem HopelessAt.le {n m : Nat} (h : HopelessAt ls n) (h' : HopelessAt ls m) : n ≤ m := by
  by_contra hlt
  exact h'.2 (h.1.mono (List.take_prefix_take_left (by omega)))

theorem HopelessAt.unique {n m : Nat} (h : HopelessAt ls n) (h' : HopelessAt ls m) : n = m :=
  Nat.le_antisymm (h.le h') (h'.le h)

/-! ## Open loops -/

/-- The number of lines that open a loop. -/
def loopLines (ls : List (List Char)) : Nat := ls.countP fun l => Line.read l = some .loop

/-- The number of lines that close one. -/
def endLines (ls : List (List Char)) : Nat := ls.countP fun l => Line.read l = some .close

theorem length_opened_line {r r' : Reader} {text : List Char} {n : Nat}
    (h : r.line (text, n) = .ok r') :
    r'.opened.length + endLines [text] = r.opened.length + loopLines [text] := by
  unfold Reader.line at h
  cases hp : Statement.parse text with
  | error e => simp [hp] at h
  | ok o =>
    obtain ⟨line, hread, rfl, -⟩ := read_of_parse hp
    simp only [hp] at h
    cases line with
    | blank =>
      obtain rfl := Except.ok.inj h
      simp [endLines, loopLines, hread]
    | puts | raise | sleep | sleepMs | pass | suspend | loop =>
      obtain rfl := Except.ok.inj h
      simp [endLines, loopLines, hread]
    | close =>
      obtain ⟨statements, opened⟩ := r
      cases opened with
      | nil => cases h
      | cons l opened =>
        obtain rfl := Except.ok.inj h
        simp [endLines, loopLines, hread]

/-- The loops that are open are those that were opened and not closed. -/
theorem length_opened (h : readFront ls = .ok r) :
    r.opened.length + endLines ls = loopLines ls := by
  induction ls using List.reverseRecOn generalizing r with
  | nil =>
    obtain rfl := Except.ok.inj h
    rfl
  | append_singleton front line ih =>
    obtain ⟨r₀, hr₀⟩ := exists_readFront_of_append h
    rw [readFront_concat hr₀] at h
    have hline := length_opened_line h
    have hfront := ih hr₀
    have hloops : loopLines (front ++ [line]) = loopLines front + loopLines [line] :=
      List.countP_append
    have hends : endLines (front ++ [line]) = endLines front + endLines [line] :=
      List.countP_append
    omega

theorem length_of_mapM_read {p : List Line} (h : ls.mapM Line.read = some p) :
    p.length = ls.length := by
  induction ls generalizing p with
  | nil =>
    obtain rfl := Option.some.inj h
    rfl
  | cons l ls ih =>
    rw [List.mapM_cons] at h
    cases hl : Line.read l with
    | none => simp [hl] at h
    | some line =>
      cases hls : ls.mapM Line.read with
      | none => simp [hl, hls] at h
      | some q =>
        obtain rfl : line :: q = p := by simpa [hl, hls] using h
        rw [List.length_cons, ih hls, List.length_cons]

theorem exists_opener {l : Nat} {opened : List Nat} (h : readFront ls = .ok r)
    (hopened : r.opened = l :: opened) :
    ∃ p i, ls.mapM Line.read = some p ∧ opener p p.length 0 = some i ∧ l = i + 1 ∧
      l ≤ ls.length := by
  obtain ⟨p, hp, hreads⟩ := Reads.start.foldlM h
  have hfirst := hreads.opened 0
  rw [hopened, List.nil_append] at hfirst
  obtain ⟨i, hi, hl⟩ := Option.map_eq_some_iff.mp hfirst.symm
  have hlt := opener_lt 0 hi
  rw [length_of_mapM_read hp] at hlt
  exact ⟨p, i, hp, hi, hl.symm, by omega⟩

/-! ## What becomes of a script -/

/-- What can become of a script. -/
inductive Verdict (source : String) : Except CompileError ByteArray → Prop
  | hopeless {n : Nat} {e : SyntaxError} (hlocal : e.IsLocal)
    (hn : HopelessAt (lines source.toList) n)
    (hsame : ∀ source' : String,
      (lines source'.toList).take n = (lines source.toList).take n →
        compile source' = .error (e.onLine n)) :
    Verdict source (.error (e.onLine n))
  /-- The innermost open loop starts on line `i`, counted from zero. -/
  | unfinished {p : List Line} {i : Nat} (hc : Completable (lines source.toList))
    (hcount : endLines (lines source.toList) < loopLines (lines source.toList))
    (hp : readLines source = some p) (hi : opener p p.length 0 = some i) :
    Verdict source (.error ((SyntaxError.endOfInput (i + 1)).onLine (lines source.toList).length))
  | finished {image : ByteArray} (hc : Completable (lines source.toList))
    (hcount : loopLines (lines source.toList) = endLines (lines source.toList)) :
    Verdict source (.ok image)

theorem verdict_of_error {source : String} {e : CompileError}
    (h : readFront (lines source.toList) = .error e) : Verdict source (.error e) := by
  obtain ⟨n, s, hlocal, rfl, hok, herror⟩ := exists_of_readFront_error h
  have hfront (k : Nat) : ∀ l ∈ (lines source.toList).take k, '\n' ∉ l :=
    fun l hl => newline_notMem (List.mem_of_mem_take hl)
  refine .hopeless hlocal ⟨(completable_iff (hfront n)).mpr hok, fun hc => ?_⟩
    fun source' hsame => ?_
  · obtain ⟨r, hr⟩ := (completable_iff (hfront (n + 1))).mp hc
    rw [herror] at hr
    cases hr
  · rw [← hsame] at herror
    have hall := readFront_error_append herror ((lines source'.toList).drop (n + 1))
    rw [List.take_append_drop] at hall
    exact compile_of_error hall

theorem verdict_of_ok {source : String} (h : readFront (lines source.toList) = .ok r) :
    Verdict source (compile source) := by
  have hc : Completable (lines source.toList) :=
    (completable_iff fun l hl => newline_notMem hl).mpr ⟨r, h⟩
  have hlength := length_opened h
  rw [compile_of_ok h, Reader.finish]
  cases hopened : r.opened with
  | nil =>
    rw [hopened, List.length_nil] at hlength
    exact .finished hc (by omega)
  | cons l opened =>
    rw [hopened, List.length_cons] at hlength
    obtain ⟨p, i, hp, hi, rfl, hle⟩ := exists_opener h hopened
    dsimp only [Except.map]
    rw [Nat.max_eq_left hle]
    exact .unfinished hc (by omega) hp hi

/-- **One of these becomes of every script.** -/
theorem verdict_compile (source : String) : Verdict source (compile source) := by
  cases h : readFront (lines source.toList) with
  | error e =>
    rw [compile_of_error h]
    exact verdict_of_error h
  | ok r => exact verdict_of_ok h

theorem hopelessAt_of_compile {source : String} {e : SyntaxError} {n : Nat} (hlocal : e.IsLocal)
    (h : compile source = .error (e.onLine n)) :
    HopelessAt (lines source.toList) n ∧ ∀ source' : String,
      (lines source'.toList).take n = (lines source.toList).take n →
        compile source' = .error (e.onLine n) := by
  have hverdict := verdict_compile source
  rw [h] at hverdict
  cases hverdict with
  | hopeless _ hn hsame => exact ⟨hn, hsame⟩
  | unfinished => exact hlocal.elim

theorem unfinished_of_compile {source : String} {l n : Nat}
    (h : compile source = .error ((SyntaxError.endOfInput l).onLine n)) :
    (Completable (lines source.toList) ∧
      endLines (lines source.toList) < loopLines (lines source.toList)) ∧
    n = (lines source.toList).length ∧
      ∃ p i, readLines source = some p ∧ opener p p.length 0 = some i ∧ l = i + 1 := by
  have hverdict := verdict_compile source
  rw [h] at hverdict
  cases hverdict with
  | hopeless hlocal => exact hlocal.elim
  | unfinished hc hcount hp hi => exact ⟨⟨hc, hcount⟩, rfl, _, _, hp, hi, rfl⟩

theorem finished_of_compile {source : String} {image : ByteArray}
    (h : compile source = .ok image) : Completable (lines source.toList) ∧
      loopLines (lines source.toList) = endLines (lines source.toList) := by
  have hverdict := verdict_compile source
  rw [h] at hverdict
  cases hverdict with
  | finished hc hcount => exact ⟨hc, hcount⟩

-- the second `end` has no loop; what is wrong behind it does not show
example : compile "loop do\nend\nend\nputs 'a" = .error (SyntaxError.unmatchedEnd.onLine 3) := by
  decide +kernel

end Script

end Coop
