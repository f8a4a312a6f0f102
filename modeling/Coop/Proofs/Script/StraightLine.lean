import Coop.Proofs.Machine.Bodies
import Coop.Proofs.Script.Simulation
import Mathlib.Algebra.Ring.Nat

/-!
# Straight-line scripts

Without loops, a script goes through its statements once, from the first to the last. So every slice
leaves fewer statements ahead, and the script comes to its end.

* `printed`, `ending`: what a straight-line script writes, and the failure it ends with;
* `turnsFor`: a bound on the turns it takes;
* `IsPlain`, `isPlain_of_parse`: the statements of a script without loops that never parks;
* `codeOf`, `decode_next`, `decode_cut`: the instruction of the next statement, in a body whose end
  may be cut off;
* `At`, `Unhindered`: the machine is at the next statement, and nothing keeps the script from its
  end;
* `Ahead`: what was written on the way from one statement to another;
* `Moves`, `execute_at`: one instruction;
* `Slices`, **`run_at`**: one slice.
-/

namespace Coop

namespace Script

/-! ## What a straight-line script does -/

/-- The pause a statement asks for, in milliseconds. -/
def pause? : Statement → Option Nat
  | .sleep ms => some ms
  | _ => none

/-- What is written: the texts up to the first failure. -/
def printed : List Statement → String
  | [] => ""
  | .puts text :: rest => text ++ "\n" ++ printed rest
  | .raise _ :: _ => ""
  | _ :: rest => printed rest

/-- The first failure. -/
def ending : List Statement → Option Fault
  | [] => none
  | .raise text :: _ => some (.raised text)
  | _ :: rest => ending rest

/-- How a script ends. -/
def closing : Option Fault → Handback
  | none => .done
  | some e => .fault e

theorem eq_none_of_closing {e : Option Fault} (h : closing e = .done) : e = none := by
  cases e with
  | none => rfl
  | some e => cases h

theorem eq_some_of_closing {e : Option Fault} {cause : Fault}
    (h : closing e = .fault cause) : e = some cause := by
  cases e with
  | none => cases h
  | some e =>
    cases h
    rfl

/-- The turns a script takes at most: one for each statement, one for the end, and what its pauses
take. -/
def turnsFor (ticks : Nat → Nat) (statements : List Statement) : Nat :=
  statements.length + 1 + ((statements.filterMap pause?).map ticks).sum

section Turns

variable (ticks : Nat → Nat) (statements : List Statement)

theorem turnsFor_pos : 0 < turnsFor ticks statements := by
  unfold turnsFor
  omega

theorem turnsFor_sleep (ms : Nat) :
    turnsFor ticks (.sleep ms :: statements) = turnsFor ticks statements + 1 + ticks ms := by
  have hpause : (Statement.sleep ms :: statements).filterMap pause? =
      ms :: statements.filterMap pause? := rfl
  rw [turnsFor, hpause, List.length_cons, List.map_cons, List.sum_cons, turnsFor]
  omega

theorem turnsFor_cons {s : Statement} (h : pause? s = none) :
    turnsFor ticks (s :: statements) = turnsFor ticks statements + 1 := by
  rw [turnsFor, List.filterMap_cons_none h, List.length_cons, turnsFor]
  omega

end Turns

/-! ## Plain statements -/

/-- A statement that goes on at the next one or fails, with an operand that fits its place. -/
def IsPlain : Statement → Prop
  | .puts text | .raise text => text.utf8ByteSize ≤ textLimit
  | .sleep ms => ms < wordBound
  | .pass => True
  | .suspend | .loopStart | .loopEnd => False

theorem getElem?_of_opener {p : List Line} {i nested l : Nat} (h : opener p i nested = some l) :
    p[l]? = some .loop := by
  induction i generalizing nested with
  | zero => cases h
  | succ i ih =>
    unfold opener at h
    split at h
    · exact ih h
    · split at h
      · rename_i hloop
        cases nested with
        | zero =>
          cases h
          exact hloop
        | succ nested => exact ih h
      · exact ih h

theorem isPlain_of_parse {source : String} {statements : List Statement}
    (h : parseScript source = .ok statements) (hloop : .loopStart ∉ statements)
    (hsuspend : .suspend ∉ statements) : ∀ s ∈ statements, IsPlain s := by
  obtain ⟨p, -, hp, rfl⟩ := exists_lines_of_parse h
  intro s hs
  obtain ⟨line, hline, hst⟩ := List.mem_filterMap.mp hs
  have hfits := hp.fits line hline
  cases line with
  | blank => cases hst
  | puts text | raise text =>
    cases hst
    exact hfits
  | sleep secs =>
    cases hst
    exact Nat.lt_of_le_of_lt (Nat.min_le_right _ _) (by decide)
  | sleepMs ms =>
    cases hst
    exact hfits
  | pass =>
    cases hst
    trivial
  | suspend =>
    cases hst
    exact hsuspend hs
  | loop =>
    cases hst
    exact hloop hs
  | close =>
    -- an `end` has its `loop` in front of it
    obtain ⟨i, hi⟩ := List.mem_iff_getElem?.mp hline
    obtain ⟨l, hl⟩ := hp.closed hi
    have hmem : Line.loop ∈ p := List.mem_of_getElem? (getElem?_of_opener hl)
    exact (hloop (List.mem_filterMap.mpr ⟨.loop, hmem, rfl⟩)).elim

/-! ## Where the statements are -/

/-- The instruction of a plain statement. -/
def instr? : Statement → Option Instr
  | .puts text => some (.puts text.toByteArray)
  | .raise text => some (.raise text.toByteArray)
  | .sleep ms => some (.sleep ms)
  | .pass => some .pass
  | .suspend | .loopStart | .loopEnd => none

/-- The instructions of a number of statements. -/
def codeOf (statements : List Statement) : ByteArray :=
  (statements.foldl Assembly.emit Assembly.start).body

theorem codeOf_snoc {s : Statement} {i : Instr} (h : instr? s = some i)
    (statements : List Statement) : codeOf (statements ++ [s]) = codeOf statements ++ i.encode := by
  rw [codeOf, codeOf, List.foldl_append, List.foldl_cons, List.foldl_nil]
  cases statements.foldl Assembly.emit Assembly.start with
  | mk body opened =>
    cases s with
    | puts | raise | sleep | pass =>
      cases h
      rfl
    | suspend | loopStart | loopEnd => cases h

theorem exists_codeOf_append (front rest : List Statement) :
    ∃ more, codeOf (front ++ rest) = codeOf front ++ more := by
  induction rest generalizing front with
  | nil => exact ⟨.empty, by rw [List.append_nil, ByteArray.append_empty]⟩
  | cons s rest ih =>
    obtain ⟨more, hmore⟩ := ih (front ++ [s])
    obtain ⟨code, hcode⟩ := body_emit (front.foldl Assembly.emit Assembly.start) s
    refine ⟨code ++ more, ?_⟩
    rw [List.append_cons, hmore, codeOf, List.foldl_append, List.foldl_cons, List.foldl_nil, hcode,
      ByteArray.append_assoc, codeOf]

theorem decode_next {s : Statement} {i : Instr} (h : instr? s = some i) (hf : i.Fits)
    (front rest : List Statement) :
    Instr.decode (assemble (front ++ s :: rest)) (codeOf front).size = .ok (some i) := by
  obtain ⟨more, hmore⟩ := exists_codeOf_append (front ++ [s]) rest
  have hbody : assemble (front ++ s :: rest) =
      codeOf front ++ (i.encode ++ (more ++ Instr.stop.encode)) := by
    change codeOf (front ++ s :: rest) ++ Instr.stop.encode = _
    rw [List.append_cons, hmore, codeOf_snoc h, ByteArray.append_assoc, ByteArray.append_assoc]
  rw [hbody]
  exact Instr.decode_append_encode hf _ _

theorem decode_end (statements : List Statement) :
    Instr.decode (assemble statements) (codeOf statements).size = .ok (some .stop) := by
  have h := Instr.decode_append_encode (i := .stop) trivial (codeOf statements) .empty
  rwa [ByteArray.append_empty] at h

/-- What is found in the whole is found in a front part, or nothing is found there. -/
theorem decode_cut {whole body cut : ByteArray} (hw : whole = body ++ cut) {pc : Nat} {i : Instr}
    (h : Instr.decode whole pc = .ok (some i)) : Instr.decode body pc = .ok (some i) ∨
      cut ≠ .empty ∧ ∀ i, Instr.decode body pc ≠ .ok (some i) := by
  by_cases hfound : ∃ i', Instr.decode body pc = .ok (some i')
  · obtain ⟨i', hi'⟩ := hfound
    have hsame := (Instr.decode_append hi' cut).2
    rw [← hw, h] at hsame
    cases hsame
    exact .inl hi'
  · refine .inr ⟨?_, fun i hi => hfound ⟨i, hi⟩⟩
    rintro rfl
    rw [ByteArray.append_empty] at hw
    exact hfound ⟨i, hw ▸ h⟩

/-! ## The machine -/

/-- The hand-back puts an end to the program. -/
def IsFinal : Handback → Prop
  | .done | .fault _ => True
  | .yield | .sleep _ | .suspend => False

/-- A program in progress has the statements `rest` ahead, on a heap with `free` bytes. -/
structure At (statements : List Statement) (free : Nat) (rest : List Statement) (pc : Nat)
    (arena : Arena) : Prop where
  place : ∃ front, statements = front ++ rest ∧ pc = (codeOf front).size
  valid : arena.Valid
  room : arena.free = free

/-- The image can tell the length of the body, and every line that is printed fits the heap. -/
structure Unhindered (statements : List Statement) (free : Nat) : Prop where
  size : (assemble statements).size < 2 ^ 32
  room : ∀ text, .puts text ∈ statements → text.utf8ByteSize + 1 ≤ free

/-- From the statements `rest` on, `text` was written until the statements `rest'` were ahead. -/
structure Ahead (rest : List Statement) (text : String) (rest' : List Statement) : Prop where
  printed : printed rest = text ++ printed rest'
  ending : ending rest = ending rest'

theorem Ahead.refl (rest : List Statement) : Ahead rest "" rest :=
  ⟨String.empty_append.symm, rfl⟩

theorem Ahead.trans {rest rest' rest'' : List Statement} {text text' : String}
    (h : Ahead rest text rest') (h' : Ahead rest' text' rest'') :
    Ahead rest (text ++ text') rest'' where
  printed := by rw [h.printed, h'.printed, String.append_assoc]
  ending := h.ending.trans h'.ending

variable {statements rest : List Statement} {free : Nat} {body cut : ByteArray} {m : Machine}

theorem At.pass {s : Statement} {i : Instr} {arena : Arena} (h : At statements free (s :: rest)
    m.pc m.arena) (hi : instr? s = some i) (hk : m.arena.Kept arena) :
    At statements free rest (m.pc + i.size) arena := by
  obtain ⟨front, rfl, hpc⟩ := h.place
  refine ⟨⟨front ++ [s], by rw [List.append_assoc]; rfl, ?_⟩, hk.valid, hk.free.trans h.room⟩
  rw [codeOf_snoc hi, ByteArray.size_append, Instr.size_encode, hpc]

theorem exists_body (statements : List Statement) : ∃ body cut,
    Image.body (Image.build (assemble statements)) = .ok body ∧
      assemble statements = body ++ cut ∧
      ∀ free, Unhindered statements free → cut = .empty := by
  obtain ⟨body, cut, hbody, hcut, -⟩ := Image.body_build (assemble statements)
  refine ⟨body, cut, hbody, hcut, fun free hs => ?_⟩
  have hsame := Image.body_build_append hs.size .empty
  rw [ByteArray.append_empty, hbody] at hsame
  cases hsame
  have hlen := congrArg ByteArray.size hcut
  rw [ByteArray.size_append] at hlen
  exact ByteArray.size_eq_zero_iff.mp (by omega)

/-- What one instruction can do when the statements `rest` are ahead. -/
inductive Moves (statements : List Statement) (free : Nat) (out : String) :
    (rest : List Statement) → Move → Prop
  | puts {text : String} {rest : List Statement} {m : Machine}
    (hat : At statements free rest m.pc m.arena) (hout : m.output = out ++ (text ++ "\n")) :
    Moves statements free out (.puts text :: rest) (.next m)
  | pass {rest : List Statement} {m : Machine} (hat : At statements free rest m.pc m.arena)
    (hout : m.output = out) : Moves statements free out (.pass :: rest) (.back .yield m)
  | sleep {ms : Nat} {rest : List Statement} {m : Machine}
    (hat : At statements free rest m.pc m.arena) (hout : m.output = out) :
    Moves statements free out (.sleep ms :: rest) (.back (.sleep ms) m)
  | final {rest : List Statement} {h : Handback} {m : Machine} (hfinal : IsFinal h)
    (hout : m.output = out)
    (hclear : Unhindered statements free → printed rest = "" ∧ h = closing (ending rest)) :
    Moves statements free out rest (.back h m)

/-- What one slice of at most `budget` instructions can do when the statements `rest` are ahead. -/
inductive Slices (statements : List Statement) (free : Nat) (ticks : Nat → Nat) (budget : Nat)
    (rest : List Statement) (text : String) : Slice → Prop
  | yield {rest' : List Statement} {left : Nat} {m : Machine}
    (hat : At statements free rest' m.pc m.arena) (hahead : Ahead rest text rest')
    (hturns : turnsFor ticks rest' + min 1 budget ≤ turnsFor ticks rest) :
    Slices statements free ticks budget rest text ⟨.yield, left, m⟩
  | sleep {ms : Nat} {rest' : List Statement} {left : Nat} {m : Machine}
    (hat : At statements free rest' m.pc m.arena) (hahead : Ahead rest text rest')
    (hturns : turnsFor ticks rest' + 1 + ticks ms ≤ turnsFor ticks rest) :
    Slices statements free ticks budget rest text ⟨.sleep ms, left, m⟩
  | final {h : Handback} {left : Nat} {m : Machine} (hfinal : IsFinal h)
    (hclear : Unhindered statements free → printed rest = text ∧ h = closing (ending rest)) :
    Slices statements free ticks budget rest text ⟨h, left, m⟩

theorem execute_of_decode_ne (h : ∀ i, Instr.decode body m.pc ≠ .ok (some i)) :
    ∃ hb, IsFinal hb ∧ m.execute body = .back hb m := by
  unfold Machine.execute
  cases hd : Instr.decode body m.pc with
  | error e => exact ⟨.fault (.badImage e), trivial, rfl⟩
  | ok o =>
    cases o with
    | none => exact ⟨.done, trivial, rfl⟩
    | some i => exact absurd hd (h i)

theorem moves_puts {text : String} (h : At statements free (.puts text :: rest) m.pc m.arena)
    (hd : Instr.decode body m.pc = .ok (some (.puts text.toByteArray))) :
    Moves statements free m.output (.puts text :: rest) (m.execute body) := by
  unfold Machine.execute
  rw [hd]
  dsimp only
  rcases Nat.lt_or_ge m.arena.free (text.toByteArray.size + 1) with hlt | hle
  · rw [Machine.print_of_lt (m := ⟨m.pc + 3 + text.toByteArray.size, m.arena, m.output⟩) hlt]
    refine .final trivial rfl fun hs => ?_
    obtain ⟨front, hst, -⟩ := h.place
    have hroom := hs.room text (by rw [hst]; simp)
    rw [← h.room] at hroom
    exact absurd hroom (Nat.not_le_of_lt hlt)
  · rw [Machine.print_of_le (m := ⟨m.pc + 3 + text.toByteArray.size, m.arena, m.output⟩) hle,
      fromUTF8?_push_newline]
    have hkept : m.arena.Kept (m.arena.passed (text.toByteArray.push 0x0a)) :=
      Arena.kept_passed h.valid (by rwa [ByteArray.size_push])
    have hat := h.pass rfl hkept
    rw [Instr.size, ← Nat.add_assoc] at hat
    exact .puts hat rfl

section Run

-- the body that is run may be a front part of what the statements are laid out as
variable (hplain : ∀ s ∈ statements, IsPlain s) (hcut : assemble statements = body ++ cut)
  (hwhole : Unhindered statements free → cut = .empty)

include hcut hwhole in
theorem moves_of_decode {i : Instr}
    (hd : Instr.decode (assemble statements) m.pc = .ok (some i))
    (hmoves : Instr.decode body m.pc = .ok (some i) →
      Moves statements free m.output rest (m.execute body)) :
    Moves statements free m.output rest (m.execute body) := by
  rcases decode_cut hcut hd with hfound | ⟨hne, hnone⟩
  · exact hmoves hfound
  · obtain ⟨hb, hfinal, hexec⟩ := execute_of_decode_ne hnone
    rw [hexec]
    exact .final hfinal rfl fun hs => absurd (hwhole hs) hne

include hplain hcut hwhole

/-- One instruction of a straight-line script. -/
theorem execute_at (h : At statements free rest m.pc m.arena) :
    Moves statements free m.output rest (m.execute body) := by
  obtain ⟨front, hst, hpc⟩ := h.place
  cases rest with
  | nil =>
    rw [List.append_nil] at hst
    subst hst
    refine moves_of_decode hcut hwhole (hpc ▸ decode_end statements) fun hd => ?_
    unfold Machine.execute
    rw [hd]
    exact .final trivial rfl fun _ => ⟨rfl, rfl⟩
  | cons s rest =>
    have hs := hplain s (by rw [hst]; simp)
    have hdecode {i : Instr} (hi : instr? s = some i) (hf : i.Fits) :
        Instr.decode (assemble statements) m.pc = .ok (some i) := by
      rw [hst, hpc]
      exact decode_next hi hf front rest
    cases s with
    | suspend | loopStart | loopEnd => exact hs.elim
    | puts text =>
      have hfits : (Instr.puts text.toByteArray).Fits := Nat.lt_of_le_of_lt hs (by decide)
      exact moves_of_decode hcut hwhole (hdecode rfl hfits) (moves_puts h)
    | raise text =>
      have hfits : (Instr.raise text.toByteArray).Fits := Nat.lt_of_le_of_lt hs (by decide)
      refine moves_of_decode hcut hwhole (hdecode rfl hfits) fun hd => ?_
      unfold Machine.execute
      rw [hd]
      dsimp only
      rw [textLossy_toByteArray]
      exact .final trivial rfl fun _ => ⟨rfl, rfl⟩
    | sleep ms =>
      refine moves_of_decode hcut hwhole (hdecode rfl hs) fun hd => ?_
      unfold Machine.execute
      rw [hd]
      exact .sleep (h.pass rfl (.refl h.valid)) rfl
    | pass =>
      refine moves_of_decode hcut hwhole (hdecode rfl trivial) fun hd => ?_
      unfold Machine.execute
      rw [hd]
      exact .pass (h.pass rfl (.refl h.valid)) rfl

/-- **One slice of a straight-line script.** -/
theorem run_at (ticks : Nat → Nat) (budget : Nat) (h : At statements free rest m.pc m.arena) :
    ∃ text, (m.run body budget).machine.output = m.output ++ text ∧
      Slices statements free ticks budget rest text (m.run body budget) := by
  induction budget generalizing m rest with
  | zero => exact ⟨"", String.append_empty.symm, .yield h (.refl rest) (Nat.le_refl _)⟩
  | succ budget ih =>
    have hmoves := execute_at hplain hcut hwhole h
    rw [Machine.run_succ]
    cases hm : m.execute body with
    | next m' =>
      rw [hm] at hmoves
      cases hmoves with
      | @puts text rest' _ hat hout =>
        have hputs : Ahead (.puts text :: rest') (text ++ "\n") rest' := ⟨rfl, rfl⟩
        have hturns := turnsFor_cons ticks rest' (s := .puts text) rfl
        obtain ⟨text', hout', hslices⟩ := ih hat
        refine ⟨text ++ "\n" ++ text', ?_, ?_⟩
        · dsimp only
          rw [hout', hout, String.append_assoc]
        · dsimp only
          generalize m'.run body budget = slice at hslices
          cases hslices with
          | yield hat' hahead hle => exact .yield hat' (hputs.trans hahead) (by omega)
          | sleep hat' hahead hle => exact .sleep hat' (hputs.trans hahead) (by omega)
          | final hfinal hs =>
            refine .final hfinal fun hclear => ?_
            rw [hputs.printed, hputs.ending, (hs hclear).1]
            exact ⟨rfl, (hs hclear).2⟩
    | back hb m' =>
      rw [hm] at hmoves
      refine ⟨"", ?_, ?_⟩
      · rw [String.append_empty]
        cases hmoves <;> assumption
      · cases hmoves with
        | @pass rest' _ hat hout =>
          have hturns := turnsFor_cons ticks rest' (s := .pass) rfl
          exact .yield hat ⟨String.empty_append.symm, rfl⟩ (by omega)
        | @sleep ms rest' _ hat hout =>
          have hturns := turnsFor_sleep ticks rest' ms
          exact .sleep hat ⟨String.empty_append.symm, rfl⟩ (by omega)
        | final hfinal hout hs => exact .final hfinal hs

end Run

end Script

end Coop
