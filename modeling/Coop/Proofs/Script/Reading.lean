import Coop.Proofs.Script.Layout

/-!
# Scripts that compile

A script that compiles can be read line by line, every operand fits its place, and every `end` has a
`loop` in front of it. No such script could be mistaken for an image.

* `Line.Fits`, `WellFormed`: what the compiler makes sure of;
* `read_of_parse`: a line that is parsed is read;
* `Reads`: a reader and the lines it has taken in, with `Reads.line` for one more line;
* `exists_lines_of_parse`, **`exists_lines_of_compile`**: the lines behind an image;
* `isImage_of_source`: a script that compiles is no image itself.
-/

namespace Coop

namespace Script

/-- The operand of a line fits its place in an image. -/
def Line.Fits : Line → Prop
  | puts text | raise text => text.utf8ByteSize ≤ textLimit
  | sleepMs ms => ms < wordBound
  | _ => True

/-- What the compiler makes sure of. -/
structure WellFormed (p : List Line) : Prop where
  fits : ∀ line ∈ p, line.Fits
  closed : ∀ {i : Nat}, p[i]? = some .close → ∃ l, opener p i 0 = some l

/-! ## One line -/

theorem exists_of_map_eq_ok {ε α β : Type} {f : α → β} {x : Except ε α} {b : β}
    (h : x.map f = .ok b) : ∃ a, x = .ok a ∧ f a = b := by
  cases x with
  | error e => cases h
  | ok a => exact ⟨a, rfl, Except.ok.inj h⟩

theorem textOf_of_ok {missing text : String} {arg : List Char}
    (hm : missing.utf8ByteSize ≤ textLimit) (h : Statement.textOf missing arg = .ok text) :
    Line.textOf missing arg = some text ∧ text.utf8ByteSize ≤ textLimit := by
  unfold Line.textOf
  cases arg with
  | nil =>
    cases h
    exact ⟨rfl, hm⟩
  | cons c rest =>
    have h : (literal (c :: rest) >>= Statement.checkLength) = .ok text := h
    cases hl : literal (c :: rest) with
    | error e =>
      rw [hl] at h
      cases h
    | ok t =>
      rw [hl] at h
      have h : Statement.checkLength t = .ok text := h
      unfold Statement.checkLength at h
      split_ifs at h with hle
      cases h
      exact ⟨rfl, hle⟩

theorem fixed_of_bare {s s' : Statement} {arg : List Char} (h : Statement.bare s arg = .ok s')
    (line : Line) : line.fixed [] arg = some line ∧ s' = s := by
  cases arg with
  | nil =>
    cases h
    exact ⟨rfl, rfl⟩
  | cons c rest => cases h

theorem ofWords_of_ok {word : String} {arg : List Char} {s : Statement}
    (h : Statement.ofWords word arg = .ok s) :
    ∃ line, Line.ofWords word arg = some line ∧ line.statement? = some s ∧ line.Fits := by
  unfold Statement.ofWords at h
  split at h
  · obtain ⟨text, ht, rfl⟩ := exists_of_map_eq_ok h
    obtain ⟨hl, hle⟩ := textOf_of_ok (by decide) ht
    exact ⟨.puts text, by simp [Line.ofWords, hl], rfl, hle⟩
  · obtain ⟨text, ht, rfl⟩ := exists_of_map_eq_ok h
    obtain ⟨hl, hle⟩ := textOf_of_ok (by decide +kernel) ht
    exact ⟨.raise text, by simp [Line.ofWords, hl], rfl, hle⟩
  · obtain ⟨secs, hn, rfl⟩ := exists_of_map_eq_ok h
    exact ⟨.sleep secs, by simp [Line.ofWords, hn, Except.toOption], rfl, trivial⟩
  · obtain ⟨ms, hn, rfl⟩ := exists_of_map_eq_ok h
    exact ⟨.sleepMs ms, by simp [Line.ofWords, hn, Except.toOption], rfl, number_lt hn⟩
  · obtain ⟨hf, rfl⟩ := fixed_of_bare h .pass
    exact ⟨.pass, hf, rfl, trivial⟩
  · obtain ⟨hf, rfl⟩ := fixed_of_bare h .pass
    exact ⟨.pass, hf, rfl, trivial⟩
  · obtain ⟨hf, rfl⟩ := fixed_of_bare h .suspend
    exact ⟨.suspend, hf, rfl, trivial⟩
  · obtain ⟨hf, rfl⟩ := fixed_of_bare h .suspend
    exact ⟨.suspend, hf, rfl, trivial⟩
  · split_ifs at h with hdo
    cases h
    exact ⟨.loop, if_pos hdo, rfl, trivial⟩
  · obtain ⟨hf, rfl⟩ := fixed_of_bare h .close
    exact ⟨.close, hf, rfl, trivial⟩
  · cases h

theorem parse_of_ne {line : List Char} (hempty : trim line ≠ [])
    (hcomment : ∀ rest, trim line ≠ '#' :: rest) : Statement.parse line =
      (Statement.ofWords (String.ofList (Statement.word (trim line)))
        (Statement.argument (trim line))).map some := by
  unfold Statement.parse
  split
  · rename_i h
    exact absurd h hempty
  · rename_i rest h
    exact absurd h (hcomment rest)
  · rfl

theorem read_of_ne {line : List Char} (hempty : trim line ≠ [])
    (hcomment : ∀ rest, trim line ≠ '#' :: rest) : Line.read line =
      Line.ofWords (String.ofList (Statement.word (trim line)))
        (Statement.argument (trim line)) := by
  unfold Line.read
  split
  · rename_i h
    exact absurd h hempty
  · rename_i rest h
    exact absurd h (hcomment rest)
  · rfl

theorem read_of_parse {line : List Char} {s : Option Statement}
    (h : Statement.parse line = .ok s) :
    ∃ l, Line.read line = some l ∧ l.statement? = s ∧ l.Fits := by
  by_cases hempty : trim line = []
  · simp only [Statement.parse, hempty] at h
    cases h
    exact ⟨.blank, by simp only [Line.read, hempty], rfl, trivial⟩
  by_cases hcomment : ∃ rest, trim line = '#' :: rest
  · obtain ⟨rest, ht⟩ := hcomment
    simp only [Statement.parse, ht] at h
    cases h
    exact ⟨.blank, by simp only [Line.read, ht], rfl, trivial⟩
  · have hcomment : ∀ rest, trim line ≠ '#' :: rest := fun rest ht => hcomment ⟨rest, ht⟩
    rw [parse_of_ne hempty hcomment] at h
    rw [read_of_ne hempty hcomment]
    obtain ⟨st, hst, rfl⟩ := exists_of_map_eq_ok h
    exact ofWords_of_ok hst

/-! ## Line after line -/

/-- A reader that has taken in the lines `p`. -/
structure Reads (p : List Line) (r : Reader) : Prop where
  wellFormed : WellFormed p
  statements : r.statements.reverse = p.filterMap Line.statement?
  /-- The reader counts lines from one. -/
  opened : ∀ nested : Nat, r.opened[nested]? = (opener p p.length nested).map (· + 1)

/-- What was open before a line does not depend on the lines from there on. -/
theorem opener_append {p : List Line} {i : Nat} (h : i ≤ p.length) (q : List Line) (nested : Nat) :
    opener (p ++ q) i nested = opener p i nested := by
  induction i generalizing nested with
  | zero => rfl
  | succ i ih =>
    have hi : (p ++ q)[i]? = p[i]? := List.getElem?_append_left (Nat.lt_of_succ_le h)
    have ih := ih (Nat.le_of_succ_le h)
    simp only [opener, hi, ih]

theorem WellFormed.append {p : List Line} {line : Line} (hp : WellFormed p) (hf : line.Fits)
    (hc : line = .close → ∃ l, opener p p.length 0 = some l) : WellFormed (p ++ [line]) where
  fits l hl := by
    rcases List.mem_append.mp hl with hl | hl
    · exact hp.fits l hl
    · rw [List.mem_singleton.mp hl]
      exact hf
  closed {i} hi := by
    rcases Nat.lt_or_ge i p.length with hlt | hge
    · rw [List.getElem?_append_left hlt] at hi
      rw [opener_append (Nat.le_of_lt hlt)]
      exact hp.closed hi
    · have hlen := (List.getElem?_eq_some_iff.mp hi).1
      rw [List.length_append, List.length_singleton] at hlen
      obtain rfl : i = p.length := by omega
      rw [opener_append (Nat.le_refl _)]
      exact hc (by simpa using hi)

theorem Reads.line {p : List Line} {r r' : Reader} {text : List Char} (h : Reads p r)
    (hr : r.line (text, p.length + 1) = .ok r') :
    ∃ line, Line.read text = some line ∧ Reads (p ++ [line]) r' := by
  unfold Reader.line at hr
  cases hparse : Statement.parse text with
  | error e => simp [hparse] at hr
  | ok o =>
    obtain ⟨line, hread, hstmt, hfits⟩ := read_of_parse hparse
    refine ⟨line, hread, ?_⟩
    subst hstmt
    have hlast : (p ++ [line])[p.length]? = some line := by simp
    have hlen : (p ++ [line]).length = p.length + 1 := by simp
    have hbefore := opener_append (Nat.le_refl p.length) [line]
    simp only [hparse] at hr
    cases line with
    | blank =>
      cases hr
      refine ⟨h.wellFormed.append hfits (by simp), ?_, fun nested => ?_⟩
      · rw [h.statements]
        simp [Line.statement?]
      · rw [hlen, opener_other nested (by simp) (by simp), hbefore, h.opened]
    | puts | raise | sleep | sleepMs | pass | suspend =>
      cases hr
      refine ⟨h.wellFormed.append hfits (by simp), ?_, fun nested => ?_⟩
      · rw [List.reverse_cons, h.statements]
        simp [Line.statement?]
      · rw [hlen, opener_other nested (by simp) (by simp), hbefore]
        exact h.opened nested
    | loop =>
      cases hr
      refine ⟨h.wellFormed.append hfits (by simp), ?_, fun nested => ?_⟩
      · rw [List.reverse_cons, h.statements]
        simp [Line.statement?]
      · rw [hlen]
        cases nested with
        | zero =>
          rw [opener_loop_zero hlast]
          rfl
        | succ nested =>
          rw [opener_loop_succ nested hlast, hbefore]
          exact h.opened nested
    | close =>
      obtain ⟨statements, opened⟩ := r
      cases opened with
      | nil => cases hr
      | cons n opened =>
        cases hr
        refine ⟨h.wellFormed.append hfits fun _ => ?_, ?_, fun nested => ?_⟩
        · -- the reader has a loop open
          have hopen := h.opened 0
          obtain ⟨l, hl, -⟩ := Option.map_eq_some_iff.mp hopen.symm
          exact ⟨l, hl⟩
        · rw [List.reverse_cons, h.statements]
          simp [Line.statement?]
        · rw [hlen, opener_close nested hlast, hbefore]
          exact h.opened (nested + 1)

theorem Reads.start : Reads [] Reader.start :=
  ⟨⟨fun _ hl => (List.not_mem_nil hl).elim, fun hi => by simp at hi⟩, rfl, fun _ => rfl⟩

theorem Reads.foldlM {ls : List (List Char)} {p : List Line} {r r' : Reader} (h : Reads p r)
    (hr : (ls.zipIdx (p.length + 1)).foldlM Reader.line r = .ok r') :
    ∃ q, ls.mapM Line.read = some q ∧ Reads (p ++ q) r' := by
  induction ls generalizing p r with
  | nil =>
    cases hr
    exact ⟨[], rfl, by rwa [List.append_nil]⟩
  | cons text ls ih =>
    rw [List.zipIdx_cons, List.foldlM_cons] at hr
    cases hl : r.line (text, p.length + 1) with
    | error e =>
      rw [hl] at hr
      cases hr
    | ok r₁ =>
      rw [hl] at hr
      have hr : (ls.zipIdx (p.length + 1 + 1)).foldlM Reader.line r₁ = .ok r' := hr
      obtain ⟨line, hread, hline⟩ := h.line hl
      obtain ⟨q, hq, hreads⟩ := ih hline (by simpa using hr)
      refine ⟨line :: q, ?_, ?_⟩
      · rw [List.mapM_cons, hread, hq]
        rfl
      · rwa [List.append_assoc] at hreads

/-- The lines behind the statements of a script. -/
theorem exists_lines_of_parse {source : String} {statements : List Statement}
    (h : parseScript source = .ok statements) :
    ∃ p, readLines source = some p ∧ WellFormed p ∧ statements = p.filterMap Line.statement? := by
  unfold parseScript parseLines at h
  split at h
  · cases h
  · rename_i r hfold
    obtain ⟨p, hp, hreads⟩ := Reads.start.foldlM hfold
    rw [List.nil_append] at hreads
    unfold Reader.finish at h
    split at h
    · cases h
      exact ⟨p, hp, hreads.wellFormed, hreads.statements⟩
    · cases h

/-- **The lines behind an image.** -/
theorem exists_lines_of_compile {source : String} {image : ByteArray}
    (h : compile source = .ok image) :
    ∃ p, readLines source = some p ∧ WellFormed p ∧ image = Image.build (bodyOf p) := by
  obtain ⟨statements, hparse, rfl⟩ := exists_of_map_eq_ok h
  obtain ⟨p, hp, hwf, rfl⟩ := exists_lines_of_parse hparse
  exact ⟨p, hp, hwf, rfl⟩

/-! ## Scripts and images -/

theorem trimRight_cons_of_not_isBlank {c : Char} (h : isBlank c = false) (cs : List Char) :
    ∃ rest, trimRight (c :: cs) = c :: rest := by
  unfold trimRight
  rw [List.reverse_cons, List.dropWhile_append]
  split
  · exact ⟨[], by simp [h]⟩
  · exact ⟨(cs.reverse.dropWhile isBlank).reverse, by simp⟩

theorem read_magic (cs : List Char) : Line.read ('R' :: cs) = none := by
  obtain ⟨rest, htrim⟩ := trimRight_cons_of_not_isBlank (c := 'R') (by decide) cs
  have htrim : trim ('R' :: cs) = 'R' :: rest := by
    rw [trim, trimLeft_cons_of_not_isBlank (by decide), htrim]
  have hword : Statement.word ('R' :: rest) =
      'R' :: rest.takeWhile fun c => !Statement.endsWord c :=
    List.takeWhile_cons_of_pos (by decide)
  rw [read_of_ne (by simp [htrim]) (by simp [htrim]), htrim, hword]
  unfold Line.ofWords
  split
  case h_11 => rfl
  all_goals
    rename_i h
    have h := congrArg String.toList h
    rw [String.toList_ofList] at h
    simp at h

theorem exists_lines_cons {c : Char} (h : c ≠ '\n') (cs : List Char) :
    ∃ first rest, lines (c :: cs) = (c :: first) :: rest := by
  have hc : (c == '\n') = false := beq_eq_false_iff_ne.mpr h
  cases hp : pieces (· == '\n') cs with
  | nil => exact absurd hp (pieces_ne_nil _ cs)
  | cons g gs =>
    have hall : pieces (· == '\n') (c :: cs) = (c :: g) :: gs := by
      rw [pieces_cons, hp]
      simp [pieceStep, hc]
    unfold lines
    rw [hall]
    cases gs with
    | nil => exact ⟨g, [], rfl⟩
    | cons g' gs =>
      dsimp only
      split
      · exact ⟨g, (g' :: gs).dropLast, rfl⟩
      · exact ⟨g, g' :: gs, rfl⟩

theorem toList_of_isImage {source : String} (h : Image.isImage source.toByteArray = true) :
    ∃ cs, source.toList = 'R' :: cs := by
  have hmagic : Image.magic.utf8DecodeChar? 0 = some 'R' :=
    List.utf8DecodeChar?_utf8Encode_cons (l := ['I', 'T', 'E', '0', '3', '0', '0'])
  have hfront : source.toByteArray.extract 0 8 = Image.magic := of_decide_eq_true h
  have hsize : 8 ≤ source.toByteArray.size := by
    have := congrArg ByteArray.size hfront
    rw [ByteArray.size_extract, Image.size_magic] at this
    omega
  have hfirst : source.toByteArray.utf8DecodeChar? 0 = some 'R' := by
    rw [← ByteArray.extract_zero_size (b := source.toByteArray),
      ByteArray.extract_eq_extract_append_extract 8 (Nat.zero_le 8) hsize, hfront]
    exact ByteArray.utf8DecodeChar?_append_eq_some hmagic _
  have hbytes : source.toList.utf8Encode = source.toByteArray := String.utf8Encode_toList
  rw [← hbytes] at hfirst hsize
  cases hl : source.toList with
  | nil =>
    rw [hl] at hsize
    exact absurd hsize (by decide)
  | cons c cs =>
    rw [hl, List.utf8DecodeChar?_utf8Encode_cons] at hfirst
    exact ⟨cs, by rw [Option.some.inj hfirst]⟩

/-- **A script that compiles is not taken for an image.** -/
theorem isImage_of_source {source : String} {image : ByteArray} (h : compile source = .ok image) :
    Image.isImage source.toByteArray = false := by
  obtain ⟨p, hread, -⟩ := exists_lines_of_compile h
  refine Bool.eq_false_iff.mpr fun himage => ?_
  obtain ⟨cs, hcs⟩ := toList_of_isImage himage
  obtain ⟨first, rest, hlines⟩ := exists_lines_cons (c := 'R') (by decide) cs
  rw [readLines, hcs, hlines, List.mapM_cons, read_magic] at hread
  cases hread

end Script

end Coop
