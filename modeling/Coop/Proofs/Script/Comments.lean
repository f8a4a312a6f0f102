import Coop.Proofs.Script.Quoting

/-!
# Comments behind literals

A line that prints a text or fails with one may have a comment behind it. The comment becomes a part
of the argument, and only the reader of quoted texts knows about comments: a number is spoiled by
it, and so is everything in parentheses.

* `Quoted`, `Numeral`: literals with nothing behind them;
* `Garbled`, `Quoted.garbled`, `Numeral.garbled`: arguments that are no literals;
* `Brittle`, `Brittle.garbled`: literals that take no comment;
* `parse_commented_of_quoted`, `parse_commented_of_brittle`: a line with a comment behind it;
* `compile_of_parse_eq`, `compile_of_parse_error`: a script with one line replaced;
* **`comment_behind_literal`**.
-/

namespace Coop

namespace Script

/-! ## Literals -/

/-- A text between quotes, with nothing behind it. -/
def Quoted (lit : List Char) : Prop :=
  ∃ quote written text, IsQuote quote ∧ Inside quote written text ∧
    lit = quote :: (written ++ [quote])

/-- A number. -/
def Numeral (lit : List Char) : Prop := ∃ n, number lit = .ok n

variable {lit arg gap : List Char}

theorem foldlM_pushDigit?_of_mem {bound : Nat} {digit? : Char → Option Nat} {c : Char}
    {cs : List Char} (hc : c ∈ cs) (hdigit : digit? c = none) (n : Nat) :
    cs.foldlM (pushDigit? bound digit?) n = none := by
  induction cs generalizing n with
  | nil => cases hc
  | cons d cs ih =>
    rw [List.foldlM_cons]
    cases hd : pushDigit? bound digit? n d with
    | none => rfl
    | some k =>
      rcases List.mem_cons.mp hc with rfl | hc
      · simp [pushDigit?, hdigit] at hd
      · exact ih hc k

/-- A character that is no part of a number. -/
def Foreign (c : Char) : Prop := digitOfChar? c = none ∧ c ≠ '+'

instance (c : Char) : Decidable (Foreign c) := inferInstanceAs (Decidable (_ ∧ _))

theorem number_of_mem {c : Char} {cs : List Char} (hc : c ∈ cs) (hforeign : Foreign c) :
    number cs = .error (.expectingInteger (String.ofList cs)) := by
  have hmem : c ∈ dropPlus cs := by
    unfold dropPlus
    split
    · exact (List.mem_cons.mp hc).resolve_left hforeign.2
    · exact hc
  have hread : readDecimal? wordBound digitOfChar? (dropPlus cs) = none := by
    rw [readDecimal?, foldlM_pushDigit?_of_mem hmem hforeign.1, ite_self]
  rw [number, hread]

theorem Numeral.not_foreign (h : Numeral lit) {c : Char} (hc : c ∈ lit) : ¬ Foreign c := by
  intro hforeign
  obtain ⟨n, hn⟩ := h
  rw [number_of_mem hc hforeign] at hn
  cases hn

theorem IsQuote.foreign {quote : Char} (h : IsQuote quote) : Foreign quote := by
  rcases h with rfl | rfl <;> decide

theorem Numeral.ne_nil (h : Numeral lit) : lit ≠ [] := by
  rintro rfl
  obtain ⟨n, hn⟩ := h
  cases hn

theorem Quoted.ne_nil (h : Quoted lit) : lit ≠ [] := by
  obtain ⟨quote, written, text, -, -, rfl⟩ := h
  exact List.cons_ne_nil _ _

/-! ## Arguments that are no literals -/

/-- An argument that is there but is no literal. -/
def Garbled (arg : List Char) : Prop := arg ≠ [] ∧ ∃ e, literal arg = .error e

theorem garbled_of_mem {c d : Char} {cs : List Char} (hc : ¬ IsQuote c) (hd : d ∈ c :: cs)
    (hforeign : Foreign d) : Garbled (c :: cs) := by
  have hquote : ¬ (c = doubleQuote ∨ c = singleQuote) := hc
  refine ⟨List.cons_ne_nil c cs, .expectingInteger (String.ofList (c :: cs)), ?_⟩
  rw [literal, if_neg hquote, number_of_mem hd hforeign]
  rfl

theorem Numeral.garbled (h : Numeral lit) {c : Char} {rest : List Char} (hc : c ∈ rest)
    (hforeign : Foreign c) : Garbled (lit ++ rest) := by
  obtain ⟨d, ds, rfl⟩ := List.exists_cons_of_ne_nil h.ne_nil
  have hd : ¬ IsQuote d := fun hquote => h.not_foreign List.mem_cons_self hquote.foreign
  exact garbled_of_mem hd (List.mem_append_right (d :: ds) hc) hforeign

theorem Quoted.garbled (h : Quoted lit) (hgap : Blanks gap) {c : Char} (hc : isBlank c = false)
    (hne : c ≠ '#') (rest : List Char) : Garbled (lit ++ (gap ++ c :: rest)) := by
  obtain ⟨quote, written, text, hq, hinside, rfl⟩ := h
  obtain ⟨tail, htail⟩ := exists_trim_eq_cons hgap hc rest
  refine ⟨by simp, .unexpected (String.ofList (c :: tail)), ?_⟩
  rw [List.cons_append, List.append_assoc, List.singleton_append, literal_of_inside hinside hq,
    closeQuoted, htail]
  split
  · rename_i heq
    cases heq
  · rename_i heq
    exact absurd (List.cons.inj heq).1 hne
  · rfl

/-- A literal that takes no comment: a number, or any literal in parentheses. -/
inductive Brittle : (arg : List Char) → Prop
  | bare {lit : List Char} (h : Numeral lit) : Brittle lit
  | wrapped {inner : List Char} (h : Quoted (trim inner) ∨ Numeral (trim inner)) :
    Brittle ('(' :: (inner ++ [')']))

theorem Brittle.ne_nil (h : Brittle arg) : arg ≠ [] := by
  cases h with
  | bare h => exact h.ne_nil
  | wrapped _ => exact List.cons_ne_nil _ _

theorem unwrap_cases (arg : List Char) :
    (∃ cs, arg = '(' :: (cs ++ [')']) ∧ Statement.unwrap arg = trim cs) ∨
      Statement.unwrap arg = arg := by
  unfold Statement.unwrap
  split
  · rename_i rest
    split_ifs with hlast
    · exact .inl ⟨rest.dropLast, by rw [List.dropLast_append_getLast? _ hlast], rfl⟩
    · exact .inr rfl
  · exact .inr rfl

/-- A comment sign behind the literal stays where it is, also when parentheses are taken off. -/
theorem Brittle.garbled (h : Brittle arg) {rest : List Char} (hhash : '#' ∈ rest) :
    Garbled (Statement.unwrap (arg ++ rest)) := by
  have hrest : rest ≠ [] := List.ne_nil_of_mem hhash
  cases h with
  | bare h =>
    have hbare : Statement.unwrap (arg ++ rest) = arg ++ rest := by
      obtain ⟨c, cs, rfl⟩ := List.exists_cons_of_ne_nil h.ne_nil
      refine unwrap_of_ne ?_ _
      rintro rfl
      exact h.not_foreign List.mem_cons_self (by decide)
    rw [hbare]
    exact h.garbled hhash (by decide)
  | @wrapped inner h =>
    rcases unwrap_cases ('(' :: (inner ++ [')']) ++ rest) with ⟨cs, hcs, hunwrap⟩ | hunwrap
    · -- the comment ends in a closing parenthesis, and the one behind the literal is in the way
      have hinner : cs = inner ++ ([] ++ ')' :: rest.dropLast) := by
        rw [List.cons_append, List.append_assoc, List.singleton_append] at hcs
        have hdrop := congrArg List.dropLast (List.cons.inj hcs).2
        rw [List.dropLast_concat] at hdrop
        rw [← hdrop, List.dropLast_append_of_ne_nil (List.cons_ne_nil _ _),
          List.dropLast_cons_of_ne_nil hrest, List.nil_append]
      have hne : trim inner ≠ [] := h.elim Quoted.ne_nil Numeral.ne_nil
      obtain ⟨gap, tail, hgap, htrim⟩ :=
        trim_append hne blanks_nil (c := ')') (by decide) rest.dropLast
      rw [hunwrap, hinner, htrim]
      rcases h with h | h
      · exact h.garbled hgap (by decide) (by decide) tail
      · exact h.garbled (List.mem_append_right gap List.mem_cons_self) (by decide)
    · rw [hunwrap]
      exact garbled_of_mem (by unfold IsQuote; decide) List.mem_cons_self (by decide)

/-! ## Lines with a comment behind them -/

variable {line : List Char} {w : TextWord}

theorem parse_commented_of_quoted (h : Says line w.chars lit) (hlit : Quoted lit)
    (comment : List Char) :
    Statement.parse (line ++ ' ' :: '#' :: comment) = Statement.parse line := by
  obtain ⟨gap, note, hgap, hsaid⟩ := h.commented hlit.ne_nil comment
  obtain ⟨quote, written, text, hq, hinside, rfl⟩ := hlit
  obtain ⟨tail, htail⟩ := exists_trim_eq_cons hgap (c := '#') (by decide) note
  have hunwrap (rest : List Char) : Statement.unwrap (quote :: rest) = quote :: rest :=
    unwrap_of_ne hq.ne_paren rest
  have hliteral : literal (quote :: (written ++ [quote]) ++ (gap ++ '#' :: note)) =
      literal (quote :: (written ++ [quote])) := by
    rw [List.cons_append, List.append_assoc, List.singleton_append, literal_of_inside hinside hq,
      literal_of_inside hinside hq, closeQuoted, htail]
    rfl
  rw [w.parse_eq hsaid (by simp [hunwrap]), w.parse_eq h (by simp [hunwrap]), hunwrap,
    List.cons_append, hunwrap, ← List.cons_append, hliteral]

theorem parse_commented_of_brittle (h : Says line w.chars arg) (harg : Brittle arg)
    (comment : List Char) :
    ∃ e, Statement.parse (line ++ ' ' :: '#' :: comment) = .error e := by
  obtain ⟨gap, note, -, hsaid⟩ := h.commented harg.ne_nil comment
  have hhash : '#' ∈ gap ++ '#' :: note := List.mem_append_right gap List.mem_cons_self
  obtain ⟨hne, e, he⟩ := harg.garbled hhash
  refine ⟨e, ?_⟩
  rw [w.parse_eq hsaid hne, he]
  rfl

/-! ## Scripts with one line replaced -/

section Replaced

variable {before after : List (List Char)} {line' : List Char} {source source' : String}
  (hsource : lines source.toList = before ++ line :: after)
  (hsource' : lines source'.toList = before ++ line' :: after)
include hsource hsource'

theorem compile_of_parse_eq (h : Statement.parse line' = Statement.parse line) :
    compile source' = compile source := by
  have hline (r : Reader) (n : Nat) : r.line (line', n) = r.line (line, n) := by
    rw [Reader.line, Reader.line, h]
  have hread : readFront (lines source'.toList) = readFront (lines source.toList) := by
    rw [hsource, hsource', readFront_append, readFront_append]
    simp only [List.zipIdx_cons, List.foldlM_cons, hline]
  have hlength : (lines source'.toList).length = (lines source.toList).length := by
    rw [hsource, hsource', List.length_append, List.length_append, List.length_cons,
      List.length_cons]
  cases hr : readFront (lines source.toList) with
  | error e => rw [compile_of_error hr, compile_of_error (hread.trans hr)]
  | ok r => rw [compile_of_ok hr, compile_of_ok (hread.trans hr), hlength]

theorem compile_of_parse_error {image : ByteArray} (hcompile : compile source = .ok image)
    {e : SyntaxError} (h : Statement.parse line' = .error e) :
    compile source' = .error (e.onLine (before.length + 1)) := by
  obtain ⟨r, hr⟩ := exists_readFront_of_compile hcompile
  rw [hsource] at hr
  obtain ⟨r₀, hr₀⟩ := exists_readFront_of_append hr
  have hbad : readFront (before ++ [line']) = .error (e.onLine (before.length + 1)) := by
    rw [readFront_concat hr₀, Reader.line, h, Nat.add_comm]
  refine compile_of_error ?_
  rw [hsource', List.append_cons]
  exact readFront_error_append hbad after

end Replaced

/-- **Comments behind literals.** Take a script that compiles, any line of it that prints or raises
a literal, and any comment. If the literal is a text between quotes, the script with the comment
behind the line compiles to the same image. If it is a number, or stands in parentheses, then the
script with the comment is refused on that line. -/
theorem comment_behind_literal {before after : List (List Char)} {comment : List Char}
    {source source' : String} {image : ByteArray} (hcompile : compile source = .ok image)
    (hsource : lines source.toList = before ++ line :: after)
    (hsource' : lines source'.toList = before ++ (line ++ ' ' :: '#' :: comment) :: after)
    (hsaid : Says line w.chars arg) :
    (Quoted arg → compile source' = .ok image) ∧
    (Brittle arg → ∃ e : SyntaxError, compile source' = .error (e.onLine (before.length + 1))) := by
  constructor
  · intro harg
    rw [compile_of_parse_eq hsource hsource' (parse_commented_of_quoted hsaid harg comment),
      hcompile]
  · intro harg
    obtain ⟨e, he⟩ := parse_commented_of_brittle hsaid harg comment
    exact ⟨e, compile_of_parse_error hsource hsource' hcompile he⟩

/-- A comment sign between the quotes, and a comment with a quote and a parenthesis. -/
theorem comment_behind_literal_second_line :
    (∃ image, compile "pass\nputs 'a#'" = .ok image ∧
      compile "pass\nputs 'a#' # \")" = .ok image) ∧
    ∃ e : SyntaxError, compile "puts (+7) # \")" = .error (e.onLine 1) := by
  constructor
  · have hcompile : compile "pass\nputs 'a#'" =
        .ok (Image.build (assemble [.pass, .puts "a#"])) := by decide +kernel
    have hlines : lines "pass\nputs 'a#'".toList =
        ["pass".toList] ++ "puts 'a#'".toList :: [] := rfl
    have hsaid : Says "puts 'a#'".toList TextWord.puts.chars "'a#'".toList := ⟨rfl, rfl⟩
    have hquoted : Quoted "'a#'".toList :=
      ⟨singleQuote, ['a', '#'], ['a', '#'], .inr rfl,
        .plain (by decide) (by decide) (.plain (by decide) (by decide) .nil), rfl⟩
    exact ⟨_, hcompile, (comment_behind_literal hcompile hlines rfl hsaid).1 hquoted⟩
  · have hcompile : compile "puts (+7)" = .ok (Image.build (assemble [.puts "7"])) := by
      decide +kernel
    have hlines : lines "puts (+7)".toList = [] ++ "puts (+7)".toList :: [] := rfl
    have hsaid : Says "puts (+7)".toList TextWord.puts.chars "(+7)".toList := ⟨rfl, rfl⟩
    have hnumeral : Numeral (trim ['+', '7']) := ⟨7, rfl⟩
    have hbrittle : Brittle "(+7)".toList := .wrapped (.inr hnumeral)
    exact (comment_behind_literal hcompile hlines rfl hsaid).2 hbrittle

/-- A number takes no comment, and neither does a text in parentheses. -/
theorem comment_refused :
    (∃ image, compile "puts 42" = .ok image) ∧
    compile "puts 42 # answer" = .error ((SyntaxError.expectingInteger "42 # answer").onLine 1) ∧
    (∃ image, compile "puts ('a')" = .ok image) ∧
    compile "puts ('a') # b" = .error ((SyntaxError.expectingInteger "('a') # b").onLine 1) := by
  have hnumber : compile "puts 42" = .ok (Image.build (assemble [.puts "42"])) := by
    decide +kernel
  have htext : compile "puts ('a')" = .ok (Image.build (assemble [.puts "a"])) := by
    decide +kernel
  exact ⟨⟨_, hnumber⟩, by decide +kernel, ⟨_, htext⟩, by decide +kernel⟩

end Script

end Coop
