import Coop.Proofs.Machine.Format
import Coop.Proofs.Script.Arguments
import Coop.Proofs.Script.Fronts
import Coop.Proofs.Script.Simulation

/-!
# Writing texts into scripts

Every text can be written into a script, between quotes of either kind. The reader gives it back as
it was, and the program prints it or fails with it.

* `Inside`, `quoted_of_inside`: what may stand between quotes, and the text it stands for;
* `escape`, `quotedText`, `inside_escape`: a text between quotes;
* `Spelling`, `Wrapping`, `Wrapping.read`: a text as an argument, with or without parentheses;
* `compile_line_of_text`, `compile_line_of_error`, `compile_text`: scripts of one line;
* `runSlices_of_stop`, `run_puts`, `run_raise`: programs of one statement;
* **`every_text_prints`**.
-/

namespace Coop

namespace Script

/-! ## Between quotes -/

/-- What may be written between quotes, and the text it stands for. -/
inductive Inside (quote : Char) : (written text : List Char) → Prop
  | nil : Inside quote [] []
  | plain {c : Char} {written text : List Char} (hb : c ≠ backslash) (hq : c ≠ quote)
    (h : Inside quote written text) : Inside quote (c :: written) (c :: text)
  | escaped (c : Char) {written text : List Char} (h : Inside quote written text) :
    Inside quote (backslash :: c :: written) (unescape quote c ++ text)

/-- Either kind of quote. -/
def IsQuote (quote : Char) : Prop := quote = doubleQuote ∨ quote = singleQuote

variable {quote : Char} {written text : List Char}

theorem IsQuote.ne_backslash (h : IsQuote quote) : quote ≠ backslash := by
  rcases h with rfl | rfl <;> decide

theorem IsQuote.not_isBlank (h : IsQuote quote) : isBlank quote = false := by
  rcases h with rfl | rfl <;> decide

theorem IsQuote.ne_paren (h : IsQuote quote) : quote ≠ '(' := by
  rcases h with rfl | rfl <;> decide

/-- The reader comes to the closing quote with the text. -/
theorem quoted_of_inside (h : Inside quote written text) (hq : IsQuote quote)
    (done rest : List Char) :
    quoted quote done (written ++ quote :: rest) = closeQuoted (text.reverse ++ done) rest := by
  induction h generalizing done with
  | nil =>
    rw [List.nil_append, quoted.eq_def]
    simp [hq.ne_backslash]
  | @plain c written text hb hne _ ih =>
    rw [List.cons_append, quoted.eq_def]
    simp [hb, hne, ih]
  | @escaped c written text _ ih =>
    rw [List.cons_append, List.cons_append, quoted.eq_def]
    simp [ih]

theorem literal_of_inside (h : Inside quote written text) (hq : IsQuote quote)
    (rest : List Char) :
    literal (quote :: (written ++ quote :: rest)) = closeQuoted text.reverse rest := by
  have hquote : quote = doubleQuote ∨ quote = singleQuote := hq
  rw [literal, if_pos hquote, quoted_of_inside h hq, List.append_nil]

/-! ## Texts between quotes -/

/-- A character of a text between quotes. -/
def escape (quote c : Char) : List Char :=
  if c = backslash ∨ c = quote then [backslash, c]
  else if quote = doubleQuote ∧ c = '\n' then [backslash, 'n']
  else [c]

/-- A text between quotes. -/
def quotedText (quote : Char) (text : String) : List Char :=
  quote :: (text.toList.flatMap (escape quote) ++ [quote])

theorem unescape_self (hq : IsQuote quote) {c : Char} (hc : c = backslash ∨ c = quote) :
    unescape quote c = [c] := by
  rcases hq with rfl | rfl <;> rcases hc with rfl | rfl <;> rfl

theorem inside_escape (hq : IsQuote quote) (text : List Char) :
    Inside quote (text.flatMap (escape quote)) text := by
  induction text with
  | nil => exact .nil
  | cons c text ih =>
    rw [List.flatMap_cons, escape]
    split_ifs with hc hn
    · have h := ih.escaped c
      rwa [unescape_self hq hc] at h
    · obtain ⟨rfl, rfl⟩ := hn
      exact ih.escaped 'n'
    · exact .plain (fun hb => hc (.inl hb)) (fun hq => hc (.inr hq)) ih

theorem literal_quotedText (hq : IsQuote quote) (text : String) :
    literal (quotedText quote text) = .ok text := by
  rw [quotedText, literal_of_inside (inside_escape hq _) hq]
  simp [closeQuoted]

theorem snug_of_ends {c d : Char} (hc : isBlank c = false) (hd : isBlank d = false)
    (cs : List Char) : Snug (c :: (cs ++ [d])) where
  head e he := by
    obtain rfl : c = e := by simpa using he
    exact hc
  last e he := by
    rw [← List.cons_append, List.getLast?_concat] at he
    obtain rfl : d = e := by simpa using he
    exact hd

theorem newline_notMem_escape (hq : IsQuote quote) {c : Char}
    (h : quote = doubleQuote ∨ c ≠ '\n') : '\n' ∉ escape quote c := by
  have hquote : '\n' ≠ quote := by rcases hq with rfl | rfl <;> decide
  unfold escape
  split_ifs with hc hn
  · rcases hc with rfl | rfl
    · decide
    · simp [hquote]
      decide
  · decide
  · have hne : c ≠ '\n' := h.elim (fun hd hcn => hn ⟨hd, hcn⟩) id
    simpa using hne.symm

theorem newline_notMem_quotedText (hq : IsQuote quote) {text : String}
    (h : quote = doubleQuote ∨ '\n' ∉ text.toList) : '\n' ∉ quotedText quote text := by
  have hquote : '\n' ≠ quote := by rcases hq with rfl | rfl <;> decide
  have hescape : ∀ c ∈ text.toList, '\n' ∉ escape quote c := by
    intro c hc
    refine newline_notMem_escape hq (h.imp_right fun hn hcn => ?_)
    exact hn (hcn ▸ hc)
  simpa [quotedText, hquote] using hescape

/-! ## Texts as arguments -/

/-- A text between quotes that stays on its line. -/
inductive Spelling (text : String) : (lit : List Char) → Prop
  | double : Spelling text (quotedText doubleQuote text)
  | single (h : '\n' ∉ text.toList) : Spelling text (quotedText singleQuote text)

/-- An argument as it is, or in parentheses. -/
inductive Wrapping (lit : List Char) : (arg : List Char) → Prop
  | bare : Wrapping lit lit
  | wrapped : Wrapping lit ('(' :: (lit ++ [')']))

variable {t : String} {lit arg : List Char} {p : List Line}

theorem Spelling.exists_quote (h : Spelling t lit) :
    ∃ quote, IsQuote quote ∧ lit = quotedText quote t ∧ '\n' ∉ lit := by
  cases h with
  | double => exact ⟨doubleQuote, .inl rfl, rfl, newline_notMem_quotedText (.inl rfl) (.inl rfl)⟩
  | single hn => exact ⟨singleQuote, .inr rfl, rfl, newline_notMem_quotedText (.inr rfl) (.inr hn)⟩

theorem unwrap_of_ne {c : Char} (h : c ≠ '(') (cs : List Char) :
    Statement.unwrap (c :: cs) = c :: cs := by
  unfold Statement.unwrap
  split
  · rename_i heq
    exact absurd (List.cons.inj heq).1 h
  · rfl

theorem unwrap_of_parens (cs : List Char) : Statement.unwrap ('(' :: (cs ++ [')'])) = trim cs := by
  simp [Statement.unwrap]

/-- The parentheses around a text say nothing. -/
theorem Wrapping.read (hw : Wrapping lit arg) (h : Spelling t lit) :
    (Snug arg ∧ arg ≠ []) ∧ '\n' ∉ arg ∧ Statement.unwrap arg = lit := by
  obtain ⟨quote, hq, rfl, hn⟩ := h.exists_quote
  have hsnug : Snug (quotedText quote t) := snug_of_ends hq.not_isBlank hq.not_isBlank _
  cases hw with
  | bare => exact ⟨⟨hsnug, by simp [quotedText]⟩, hn, unwrap_of_ne hq.ne_paren _⟩
  | wrapped =>
    refine ⟨⟨snug_of_ends (by decide) (by decide) _, by simp⟩, by simp [hn], ?_⟩
    rw [unwrap_of_parens, hsnug.trim_eq]

/-! ## Scripts of one line -/

/-- The line of a word and its text. -/
def TextWord.line : TextWord → String → Line
  | .puts => .puts
  | .raise => .raise

theorem TextWord.bodyOf_line (w : TextWord) (t : String) :
    bodyOf [w.line t] = assemble [w.statement t] := by
  cases w <;> rfl

theorem lines_of_line {line : List Char} (hne : line ≠ []) (hn : '\n' ∉ line) :
    lines line = [line] := by
  have hpieces : pieces (· == '\n') line = [line] := by
    refine pieces_of_all_not fun c hc => ?_
    simpa using fun hcn : c = '\n' => hn (hcn ▸ hc)
  simp [lines, hpieces, hne]

section OneLine

variable {source : String} (hne : source.toList ≠ []) (hn : '\n' ∉ source.toList)
include hne hn

theorem compile_line_of_error {e : SyntaxError}
    (h : Statement.parse source.toList = .error e) : compile source = .error (e.onLine 1) := by
  refine compile_of_error ?_
  rw [lines_of_line hne hn]
  change (Reader.start.line (source.toList, 1) >>= pure) = _
  rw [Reader.line, h]
  rfl

theorem compile_line_of_text {w : TextWord}
    (h : Statement.parse source.toList = .ok (some (w.statement t))) :
    compile source = .ok (Image.build (bodyOf [w.line t])) := by
  have hread : readFront (lines source.toList) = .ok ⟨[w.statement t], []⟩ := by
    rw [lines_of_line hne hn]
    change (Reader.start.line (source.toList, 1) >>= pure) = _
    rw [Reader.line, h]
    cases w <;> rfl
  rw [compile_of_ok hread, w.bodyOf_line]
  rfl

end OneLine

/-- A script of one line that writes out a text. -/
theorem compile_text (w : TextWord) (h : Spelling t lit) (hw : Wrapping lit arg) {source : String}
    (hsource : source.toList = w.chars ++ ' ' :: arg) :
    compile source =
      if t.utf8ByteSize ≤ textLimit then .ok (Image.build (bodyOf [w.line t]))
      else .error (SyntaxError.tooLong.onLine 1) := by
  obtain ⟨⟨hsnug, hargne⟩, hnarg, hunwrap⟩ := hw.read h
  obtain ⟨quote, hq, rfl, -⟩ := h.exists_quote
  have hchars : w.chars ≠ [] ∧ '\n' ∉ w.chars := by cases w <;> decide
  have hne : source.toList ≠ [] := by simp [hsource]
  have hn : '\n' ∉ source.toList := by simp [hsource, hchars.2, hnarg]
  have hsaid : Says source.toList w.chars arg := by
    rw [hsource]
    exact says_of_append w.endsWord_chars hchars.1 hsnug hargne
  have hparse := w.parse_eq hsaid (by rw [hunwrap]; simp [quotedText])
  rw [hunwrap, literal_quotedText hq] at hparse
  change _ = (Statement.checkLength t).map _ at hparse
  rw [Statement.checkLength] at hparse
  split_ifs at hparse ⊢ with hle
  · exact compile_line_of_text hne hn hparse
  · exact compile_line_of_error hne hn hparse

/-! ## Programs of one statement -/

theorem TextWord.wellFormed (w : TextWord) (ht : t.utf8ByteSize ≤ textLimit) :
    WellFormed [w.line t] where
  fits line hline := by
    rw [List.mem_singleton.mp hline]
    cases w <;> exact ht
  closed {i} hi := by
    have hmem := List.mem_of_getElem? hi
    rw [List.mem_singleton] at hmem
    cases w <;> cases hmem

theorem TextWord.size_bodyOf (w : TextWord) (ht : t.utf8ByteSize ≤ textLimit) :
    (bodyOf [w.line t]).size < 0x100000000 := by
  obtain ⟨i, hi, hsize⟩ : ∃ i : Instr, bodyOf [w.line t] =
      ByteArray.empty ++ i.encode ++ Instr.stop.encode ∧ i.size = 3 + t.utf8ByteSize := by
    cases w with
    | puts => exact ⟨.puts t.toByteArray, rfl, rfl⟩
    | raise => exact ⟨.raise t.toByteArray, rfl, rfl⟩
  have hstop : Instr.stop.size = 1 := rfl
  have hlimit : textLimit = 0xffff := rfl
  rw [hi, ByteArray.size_append, ByteArray.size_append, Instr.size_encode, Instr.size_encode,
    hsize, hstop, ByteArray.size_empty]
  omega

theorem runImage_bodyOf (hsize : (bodyOf p).size < 0x100000000) (budget : Nat) (m : Machine) :
    runImage (Image.build (bodyOf p)) budget m = m.run (bodyOf p) budget := by
  rw [runImage, Image.body_build_of_lt hsize]

theorem runSlices_of_stop {m : Machine} (hsize : (bodyOf p).size < 0x100000000)
    (hstop : Instr.decode (bodyOf p) m.pc = .ok (some .stop)) {budgets : List Nat}
    (hpos : ∀ b ∈ budgets, 0 < b) :
    ∀ s ∈ runSlices (Image.build (bodyOf p)) m budgets,
      s.handback = .done ∧ s.machine.output = "" := by
  induction budgets generalizing m with
  | nil =>
    intro s hs
    cases hs
  | cons budget budgets ih =>
    obtain ⟨b, rfl⟩ := Nat.exists_eq_add_of_le' (hpos budget List.mem_cons_self)
    have hrun : runImage (Image.build (bodyOf p)) (b + 1) { m with output := "" } =
        ⟨.done, b, { m with output := "" }⟩ := by
      rw [runImage_bodyOf hsize, Machine.run_succ, Machine.execute, hstop]
    intro s hs
    rw [runSlices, hrun] at hs
    rcases List.mem_cons.mp hs with rfl | hs
    · exact ⟨rfl, rfl⟩
    · exact ih (m := { m with output := "" }) hstop
        (fun b' hb' => hpos b' (List.mem_cons_of_mem _ hb')) s hs

theorem run_puts (ht : t.utf8ByteSize ≤ textLimit) {a : Arena} (ha : a.Valid)
    (hroom : t.utf8ByteSize + 1 ≤ a.free) {budget : Nat} {budgets : List Nat} (hb : 0 < budget)
    (hpos : ∀ b ∈ budgets, 0 < b) :
    ∃ s ss, runSlices (Image.build (bodyOf [TextWord.puts.line t])) ⟨0, a, ""⟩
        (budget :: budgets) = s :: ss ∧
      s.machine.output = t ++ "\n" ∧ s.handback = (if budget = 1 then .yield else .done) ∧
      ∀ s' ∈ ss, s'.handback = .done ∧ s'.machine.output = "" := by
  have hsize := TextWord.puts.size_bodyOf ht
  have hroomy : Roomy [TextWord.puts.line t] a := by
    refine ⟨ha, fun text htext => ?_⟩
    have hsame : text = t := by simpa [TextWord.line] using htext
    rwa [hsame]
  obtain ⟨m, hm, hpc, hout⟩ := execute_puts (m := ⟨0, a, ""⟩) (i := 0)
    (TextWord.puts.wellFormed ht) hsize hroomy rfl rfl
  have hstop : Instr.decode (bodyOf [TextWord.puts.line t]) m.pc = .ok (some .stop) := by
    rw [hpc]
    exact decode_bodyOf_of_none rfl
  rw [String.empty_append] at hout
  obtain ⟨left, hrun⟩ : ∃ left, runImage (Image.build (bodyOf [TextWord.puts.line t])) budget
      ⟨0, a, ""⟩ = ⟨if budget = 1 then .yield else .done, left, m⟩ := by
    obtain ⟨b, rfl⟩ := Nat.exists_eq_add_of_le' hb
    rw [runImage_bodyOf hsize, Machine.run_succ, hm]
    cases b with
    | zero => exact ⟨0, rfl⟩
    | succ b =>
      refine ⟨b, ?_⟩
      dsimp only
      rw [Machine.run_succ, Machine.execute, hstop, if_neg (by omega)]
  refine ⟨_, _, rfl, ?_, ?_, ?_⟩
  · rw [hrun, hout]
  · rw [hrun]
  · rw [hrun]
    exact runSlices_of_stop hsize hstop hpos

theorem run_raise (ht : t.utf8ByteSize ≤ textLimit) (a : Arena) {budget : Nat} (hb : 0 < budget) :
    (runImage (Image.build (bodyOf [TextWord.raise.line t])) budget ⟨0, a, ""⟩).handback =
      .fault (.raised t) := by
  have hsize := TextWord.raise.size_bodyOf ht
  obtain ⟨hdecode, -⟩ := decode_line (m := ⟨0, a, ""⟩) (i := 0) (TextWord.raise.wellFormed ht)
    hsize rfl rfl rfl
  have hexecute : Machine.execute (bodyOf [TextWord.raise.line t]) ⟨0, a, ""⟩ =
      .back (.fault (.raised t)) ⟨0, a, ""⟩ := by
    rw [Machine.execute, hdecode]
    dsimp only
    rw [textLossy_toByteArray]
  obtain ⟨b, rfl⟩ := Nat.exists_eq_add_of_le' hb
  rw [runImage_bodyOf hsize, Machine.run_succ, hexecute]

/-- **Every text can be printed.** Take any text, written between double quotes, or between single
quotes if it has no line feed, and put into parentheses or not. If it has at most 65535 bytes, then
the script of one line that prints it compiles, and on every heap with room for it, in slices of any
length, the program prints just the text and a line feed and is over with its second instruction;
the script that fails with the text compiles too, and its first instruction is a runtime error with
that text. If the text has more bytes, both scripts are refused on line 1. -/
theorem every_text_prints (h : Spelling t lit) (hw : Wrapping lit arg) :
    (t.utf8ByteSize ≤ 65535 →
      (∃ image, compile ("puts " ++ String.ofList arg) = .ok image ∧
        ∀ a : Arena, a.Valid → t.utf8ByteSize + 1 ≤ a.free →
          ∀ budget budgets, 0 < budget → (∀ b ∈ budgets, 0 < b) →
            ∃ s ss, runSlices image ⟨0, a, ""⟩ (budget :: budgets) = s :: ss ∧
              s.machine.output = t ++ "\n" ∧
              s.handback = (if budget = 1 then .yield else .done) ∧
              ∀ s' ∈ ss, s'.handback = .done ∧ s'.machine.output = "") ∧
      ∃ image, compile ("raise " ++ String.ofList arg) = .ok image ∧
        ∀ a budget, 0 < budget → ∃ e, (runImage image budget ⟨0, a, ""⟩).handback = .fault e ∧
          e.kind.name = "RuntimeError" ∧ e.message = t) ∧
    (65535 < t.utf8ByteSize → ∀ word ∈ ["puts ", "raise "],
      ∃ e, compile (word ++ String.ofList arg) = .error e ∧ e.line = 1 ∧
        e.message = "syntax error, string literal too long") := by
  have hputs : ("puts " ++ String.ofList arg).toList = TextWord.puts.chars ++ ' ' :: arg := by
    rw [String.toList_append, String.toList_ofList, String.toList_ofList]
    rfl
  have hraise : ("raise " ++ String.ofList arg).toList = TextWord.raise.chars ++ ' ' :: arg := by
    rw [String.toList_append, String.toList_ofList, String.toList_ofList]
    rfl
  have hputs := compile_text .puts h hw hputs
  have hraise := compile_text .raise h hw hraise
  constructor
  · intro ht
    have ht : t.utf8ByteSize ≤ textLimit := ht
    rw [if_pos ht] at hputs hraise
    refine ⟨⟨_, hputs, fun a ha hroom budget budgets hb hpos => run_puts ht ha hroom hb hpos⟩,
      _, hraise, fun a budget hb => ?_⟩
    exact ⟨.raised t, run_raise ht a hb, rfl, rfl⟩
  · intro ht word hword
    have ht : ¬ t.utf8ByteSize ≤ textLimit := Nat.not_le_of_lt ht
    rw [if_neg ht] at hputs hraise
    rcases List.mem_pair.mp hword with rfl | rfl
    · exact ⟨_, hputs, rfl, rfl⟩
    · exact ⟨_, hraise, rfl, rfl⟩

/-- A text of quotes, parentheses, a comment sign, a backslash and blanks at both ends. -/
theorem every_text_prints_tricky :
    ∃ image, compile "puts (' \"it\\'s\" (#\\\\) ')" = .ok image ∧
      ∃ s, runSlices image ⟨0, Arena.new 64, ""⟩ [2] = [s] ∧
        s.machine.output = " \"it's\" (#\\) \n" ∧ s.handback = .done := by
  obtain ⟨hfits, -⟩ :=
    every_text_prints (t := " \"it's\" (#\\) ") (.single (by decide +kernel)) .wrapped
  obtain ⟨⟨image, himage, hruns⟩, -⟩ := hfits (by decide +kernel)
  obtain ⟨s, ss, hs, hout, hback, -⟩ :=
    hruns (Arena.new 64) (.new 64) (by decide +kernel) 2 [] (by decide) (by simp)
  refine ⟨image, himage, s, ?_, hout, hback⟩
  rw [hs, ← (List.cons.inj hs).2]
  rfl

end Script

end Coop
