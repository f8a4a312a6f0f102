import Coop.Proofs.Script.Reading
import Mathlib.Data.List.Basic
import Mathlib.Data.List.TakeWhile

/-!
# The word and the argument of a line

A line is trimmed, cut behind its first word, and the rest of it is trimmed again.

* `Blanks`, `Snug`, `trim_eq_of`, `exists_trim`, `trim_append`: trimming;
* `given`, `Says`: the word of a line, and its argument with the parentheses around it;
* `says_of_append`, `Says.commented`: a line written out, and a line with a comment behind it;
* `TextWord`, `TextWord.parse_eq`: the two words that take a text.
-/

namespace Coop

namespace Script

/-! ## Trimming -/

/-- Nothing but blanks. -/
def Blanks (cs : List Char) : Prop := ∀ c ∈ cs, isBlank c = true

/-- No blank at either end. -/
structure Snug (cs : List Char) : Prop where
  head : ∀ c, cs.head? = some c → isBlank c = false
  last : ∀ c, cs.getLast? = some c → isBlank c = false

variable {l r x y cs : List Char}

theorem trimLeft_eq (h : ∀ c, cs.head? = some c → isBlank c = false) : trimLeft cs = cs := by
  cases cs with
  | nil => rfl
  | cons c cs => exact trimLeft_cons_of_not_isBlank (h c rfl) cs

theorem trimRight_eq (h : ∀ c, cs.getLast? = some c → isBlank c = false) : trimRight cs = cs := by
  have hreverse : trimLeft cs.reverse = cs.reverse := trimLeft_eq (by simpa using h)
  rw [trimRight, ← trimLeft, hreverse, List.reverse_reverse]

theorem trimRight_append (hr : Blanks r) (cs : List Char) : trimRight (cs ++ r) = trimRight cs := by
  have hreverse : ∀ c ∈ r.reverse, isBlank c = true := fun c hc => hr c (List.mem_reverse.mp hc)
  rw [trimRight, List.reverse_append, List.dropWhile_append_of_pos hreverse, trimRight]

theorem trim_eq_of (hcs : cs = l ++ (x ++ r)) (hl : Blanks l) (hx : Snug x) (hr : Blanks r) :
    trim cs = x := by
  have hleft : trimLeft cs = trimLeft (x ++ r) := by
    rw [hcs, trimLeft, List.dropWhile_append_of_pos hl, trimLeft]
  rw [trim, hleft]
  cases x with
  | nil =>
    have hempty : trimLeft r = [] := List.dropWhile_eq_nil_iff.mpr hr
    rw [List.nil_append, hempty, trimRight_nil]
  | cons c x =>
    rw [List.cons_append, trimLeft_cons_of_not_isBlank (hx.head c rfl), ← List.cons_append,
      trimRight_append hr, trimRight_eq hx.last]

theorem blanks_nil : Blanks [] := fun _ hc => (List.not_mem_nil hc).elim

theorem blanks_space : Blanks [' '] := by
  intro c hc
  rw [List.mem_singleton.mp hc]
  decide

theorem Blanks.append (hl : Blanks l) (hr : Blanks r) : Blanks (l ++ r) := by
  intro c hc
  rcases List.mem_append.mp hc with hc | hc
  · exact hl c hc
  · exact hr c hc

theorem Snug.trim_eq (hx : Snug x) : trim x = x :=
  trim_eq_of (by rw [List.nil_append, List.append_nil]) blanks_nil hx blanks_nil

theorem exists_trimRight (cs : List Char) : ∃ r, Blanks r ∧ cs = trimRight cs ++ r := by
  refine ⟨(cs.reverse.takeWhile isBlank).reverse, fun c hc => ?_, ?_⟩
  · exact List.mem_takeWhile_imp (List.mem_reverse.mp hc)
  · rw [trimRight, ← List.reverse_append, List.takeWhile_append_dropWhile, List.reverse_reverse]

theorem exists_trim (cs : List Char) : ∃ l r, Blanks l ∧ Blanks r ∧ cs = l ++ (trim cs ++ r) := by
  obtain ⟨r, hr, htrim⟩ := exists_trimRight (trimLeft cs)
  refine ⟨cs.takeWhile isBlank, r, fun c hc => List.mem_takeWhile_imp hc, hr, ?_⟩
  rw [trim, ← htrim, trimLeft, List.takeWhile_append_dropWhile]

theorem isBlank_head_trimLeft {c : Char} (h : (trimLeft cs).head? = some c) :
    isBlank c = false := by
  have hnot := List.head?_dropWhile_not isBlank cs
  rw [trimLeft] at h
  rwa [h] at hnot

theorem snug_trim (cs : List Char) : Snug (trim cs) := by
  constructor
  · intro c hc
    obtain ⟨r, -, htrim⟩ := exists_trimRight (trimLeft cs)
    have hhead : (trimLeft cs).head? = some c := by
      rw [htrim, List.head?_append, ← trim, hc]
      rfl
    exact isBlank_head_trimLeft hhead
  · intro c hc
    rw [trim, trimRight, List.getLast?_reverse] at hc
    exact isBlank_head_trimLeft hc

theorem Snug.append (hx : Snug x) (hy : Snug y) (hxne : x ≠ []) (hyne : y ≠ [])
    (between : List Char) : Snug (x ++ (between ++ y)) where
  head c hc := by
    rw [List.head?_append_of_ne_nil _ hxne] at hc
    exact hx.head c hc
  last c hc := by
    rw [← List.append_assoc, List.getLast?_append_of_ne_nil _ hyne] at hc
    exact hy.last c hc

theorem trim_append (hne : trim cs ≠ []) {gap : List Char} (hgap : Blanks gap) {c : Char}
    (hc : isBlank c = false) (rest : List Char) : ∃ gap' tail, Blanks gap' ∧
      trim (cs ++ (gap ++ c :: rest)) = trim cs ++ (gap' ++ c :: tail) := by
  obtain ⟨l, r, hl, hr, hcs⟩ := exists_trim cs
  obtain ⟨r', hr', hcut⟩ := exists_trimRight (c :: rest)
  obtain ⟨tail, htail⟩ := trimRight_cons_of_not_isBlank hc rest
  have hsnug : Snug (c :: tail) := by
    have htrim := snug_trim (c :: rest)
    rwa [trim, trimLeft_cons_of_not_isBlank hc, htail] at htrim
  refine ⟨r ++ gap, tail, hr.append hgap, trim_eq_of (l := l) (r := r') ?_ hl
    ((snug_trim cs).append hsnug hne (by simp) (r ++ gap)) hr'⟩
  rw [htail] at hcut
  calc cs ++ (gap ++ c :: rest)
      = l ++ (trim cs ++ r) ++ (gap ++ (c :: tail ++ r')) := by rw [← hcs, ← hcut]
    _ = l ++ (trim cs ++ (r ++ gap ++ c :: tail) ++ r') := by simp only [List.append_assoc]

theorem exists_trim_eq_cons {gap : List Char} (hgap : Blanks gap) {c : Char}
    (hc : isBlank c = false) (rest : List Char) : ∃ tail, trim (gap ++ c :: rest) = c :: tail := by
  have hleft : trimLeft (gap ++ c :: rest) = c :: rest := by
    rw [trimLeft, List.dropWhile_append_of_pos hgap, ← trimLeft, trimLeft_cons_of_not_isBlank hc]
  rw [trim, hleft]
  exact trimRight_cons_of_not_isBlank hc rest

/-! ## Word and argument -/

/-- The argument of a statement, with the parentheses around it. -/
def given (stmt : List Char) : List Char := trim (stmt.dropWhile fun c => !Statement.endsWord c)

/-- A line with its word and its argument. -/
structure Says (line word arg : List Char) : Prop where
  word_eq : Statement.word (trim line) = word
  arg_eq : given (trim line) = arg

theorem not_isBlank_of_endsWord {c : Char} (h : Statement.endsWord c = false) :
    isBlank c = false :=
  (Bool.or_eq_false_iff.mp h).1

variable {line word arg : List Char}

theorem says_of_append (hword : ∀ c ∈ word, Statement.endsWord c = false) (hne : word ≠ [])
    (harg : Snug arg) (hargne : arg ≠ []) : Says (word ++ ' ' :: arg) word arg := by
  have hin : ∀ c ∈ word, (!Statement.endsWord c) = true := by
    intro c hc
    rw [hword c hc]
    rfl
  have hsnug : Snug word :=
    ⟨fun c hc => not_isBlank_of_endsWord (hword c (List.mem_of_head? hc)),
      fun c hc => not_isBlank_of_endsWord (hword c (List.mem_of_getLast? hc))⟩
  have htrim : trim (word ++ ' ' :: arg) = word ++ ' ' :: arg :=
    (hsnug.append harg hne hargne [' ']).trim_eq
  constructor
  · rw [htrim, Statement.word, List.takeWhile_append_of_pos hin,
      List.takeWhile_cons_of_neg (by decide), List.append_nil]
  · rw [htrim, given, List.dropWhile_append_of_pos hin, List.dropWhile_cons_of_neg (by decide)]
    exact trim_eq_of (by rw [List.append_nil]; rfl) blanks_space harg blanks_nil

theorem word_append {stmt : List Char} (h : given stmt ≠ []) (rest : List Char) :
    Statement.word (stmt ++ rest) = Statement.word stmt ∧
      given (stmt ++ rest) = trim (stmt.dropWhile (fun c => !Statement.endsWord c) ++ rest) := by
  have hdrop : stmt.dropWhile (fun c => !Statement.endsWord c) ≠ [] := by
    intro hnil
    rw [given, hnil] at h
    exact h rfl
  have hlength := congrArg List.length
    (List.takeWhile_append_dropWhile (p := fun c => !Statement.endsWord c) (l := stmt))
  have hpos := List.length_pos_of_ne_nil hdrop
  rw [List.length_append] at hlength
  constructor
  · rw [Statement.word, List.takeWhile_append, if_neg (by omega), Statement.word]
  · rw [given, List.dropWhile_append, if_neg (by simpa using hdrop)]

/-- A comment behind a line becomes a part of its argument. -/
theorem Says.commented (h : Says line word arg) (hne : arg ≠ []) (comment : List Char) :
    ∃ gap note, Blanks gap ∧
      Says (line ++ ' ' :: '#' :: comment) word (arg ++ (gap ++ '#' :: note)) := by
  have hgiven : given (trim line) ≠ [] := by rwa [h.arg_eq]
  have hline : trim line ≠ [] := fun hnil => hgiven (by rw [hnil]; rfl)
  -- the line is trimmed as a whole, and what is behind its word once more
  obtain ⟨gap, note, hgap, htrim⟩ := trim_append hline blanks_space (c := '#') (by decide) comment
  obtain ⟨hword, hrest⟩ := word_append hgiven (gap ++ '#' :: note)
  obtain ⟨gap', note', hgap', htrim'⟩ := trim_append hgiven hgap (c := '#') (by decide) note
  refine ⟨gap', note', hgap', ?_, ?_⟩
  · rw [← List.singleton_append, htrim, hword, h.word_eq]
  · rw [← List.singleton_append, htrim, hrest, htrim', ← given, h.arg_eq]

/-! ## Words that take a text -/

/-- The two words that take a text. -/
inductive TextWord where
  | puts
  | raise

namespace TextWord

/-- A word as it is written. -/
def chars : TextWord → List Char
  | puts => ['p', 'u', 't', 's']
  | raise => ['r', 'a', 'i', 's', 'e']

/-- What a word makes of a text. -/
def statement : TextWord → String → Statement
  | puts => .puts
  | raise => .raise

theorem endsWord_chars (w : TextWord) : ∀ c ∈ w.chars, Statement.endsWord c = false := by
  have hall : w.chars.all (fun c => !Statement.endsWord c) = true := by cases w <;> rfl
  intro c hc
  simpa using List.all_eq_true.mp hall c hc

theorem ofWords_eq (w : TextWord) (hne : arg ≠ []) :
    Statement.ofWords (String.ofList w.chars) arg =
      (literal arg >>= Statement.checkLength).map w.statement := by
  obtain ⟨c, rest, rfl⟩ := List.exists_cons_of_ne_nil hne
  cases w <;> rfl

/-- A line that starts with one of the two words and has an argument. -/
theorem parse_eq (w : TextWord) (h : Says line w.chars arg) (hne : Statement.unwrap arg ≠ []) :
    Statement.parse line = (literal (Statement.unwrap arg) >>= Statement.checkLength).map
      fun text => some (w.statement text) := by
  have hsplit : trim line = w.chars ++ (trim line).dropWhile fun c => !Statement.endsWord c := by
    rw [← h.word_eq, Statement.word, List.takeWhile_append_dropWhile]
  have hfirst : ∃ c rest, trim line = c :: rest ∧ c ≠ '#' := by
    rw [hsplit]
    cases w with
    | puts => exact ⟨'p', _, rfl, by decide⟩
    | raise => exact ⟨'r', _, rfl, by decide⟩
  obtain ⟨c, rest, hline, hc⟩ := hfirst
  have hcomment : ∀ rest', trim line ≠ '#' :: rest' := by
    intro rest' heq
    rw [hline] at heq
    exact hc (List.cons.inj heq).1
  have hargument : Statement.argument (trim line) = Statement.unwrap arg := by
    rw [← h.arg_eq]
    rfl
  rw [parse_of_ne (by simp [hline]) hcomment, h.word_eq, hargument, ofWords_eq w hne]
  cases literal (Statement.unwrap arg) >>= Statement.checkLength <;> rfl

end TextWord

end Script

end Coop
