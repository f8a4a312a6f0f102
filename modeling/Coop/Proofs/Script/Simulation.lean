import Coop.Proofs.Machine.Heap
import Coop.Proofs.Script.Reading

/-!
# Compiled scripts do what they say

An image of a script, run in slices of any length, does what the lines of the script say. The
machine and the interpretation go side by side: the machine is always at the place of a line.

* `Roomy`: there is room on the heap for every line that is printed;
* `fits_instr`: every instruction of a script fits;
* `execute_puts`, `execute_close`, `execute_handsBack`: one instruction;
* `exists_active`: the next line that is not quiet;
* `dispatched_run`: one slice;
* `runSlices`, **`compile_correct`**: any number of slices.
-/

namespace Coop

namespace Script

variable {p : List Line} {i : Nat} {m : Machine}

/-- There is room on the heap for every line that is printed. -/
structure Roomy (p : List Line) (a : Arena) : Prop where
  valid : a.Valid
  room : ∀ text, .puts text ∈ p → text.utf8ByteSize + 1 ≤ a.free

theorem Roomy.kept {a b : Arena} (h : Roomy p a) (hk : a.Kept b) : Roomy p b where
  valid := hk.valid
  room text ht := by
    rw [hk.free]
    exact h.room text ht

theorem fits_instr (hp : WellFormed p) (hplace : place p i < 0x100000000) {line : Line}
    {instr : Instr} (h : p[i]? = some line) (hi : line.instr? p i = some instr) : instr.Fits := by
  have hfits := hp.fits line (List.mem_of_getElem? h)
  cases line with
  | blank | loop => cases hi
  | pass | suspend =>
    cases hi
    trivial
  | puts text | raise text =>
    cases hi
    have hle : text.utf8ByteSize ≤ textLimit := hfits
    exact Nat.lt_of_le_of_lt hle (by decide)
  | sleep secs =>
    cases hi
    exact Nat.lt_of_le_of_lt (Nat.min_le_right _ _) (by decide)
  | sleepMs ms =>
    cases hi
    exact hfits
  | close =>
    -- a script jumps backwards only
    obtain ⟨l, hl, rfl⟩ := Option.map_eq_some_iff.mp hi
    exact Nat.lt_of_le_of_lt (place_mono (Nat.succ_le_of_lt (opener_lt 0 hl))) hplace

/-! ## One instruction -/

/-- The machine executes the instruction of the line whose place it is at. -/
theorem decode_line (hp : WellFormed p) (hsize : (bodyOf p).size < 0x100000000)
    (hpc : m.pc = place p i) {line : Line} {instr : Instr} (h : p[i]? = some line)
    (hi : line.instr? p i = some instr) :
    Instr.decode (bodyOf p) m.pc = .ok (some instr) ∧ place p (i + 1) = m.pc + instr.size := by
  have hplace := Nat.lt_of_le_of_lt (place_le p i) hsize
  rw [hpc]
  exact ⟨decode_bodyOf h hi (fits_instr hp hplace h hi), place_succ h hi⟩

theorem fromUTF8?_push_newline (text : String) :
    String.fromUTF8? (text.toByteArray.push 0x0a) = some (text ++ "\n") := by
  have hn : "\n".toByteArray = ⟨#[0x0a]⟩ := by decide +kernel
  have h : text.toByteArray.push 0x0a = (text ++ "\n").toByteArray := by
    rw [String.toByteArray_append, hn]
    apply ByteArray.ext
    simp
  rw [h, fromUTF8?_toByteArray]

theorem execute_puts {text : String} (hp : WellFormed p) (hsize : (bodyOf p).size < 0x100000000)
    (ha : Roomy p m.arena) (hpc : m.pc = place p i) (h : p[i]? = some (.puts text)) :
    ∃ m', m.execute (bodyOf p) = .next m' ∧ m'.pc = place p (i + 1) ∧
      m'.output = m.output ++ (text ++ "\n") := by
  obtain ⟨hdecode, hplace⟩ := decode_line hp hsize hpc h rfl
  have hroom : text.toByteArray.size + 1 ≤ m.arena.free := ha.room text (List.mem_of_getElem? h)
  refine ⟨⟨m.pc + 3 + text.toByteArray.size, m.arena.passed (text.toByteArray.push 0x0a),
    m.output ++ (text ++ "\n")⟩, ?_, ?_, rfl⟩
  · unfold Machine.execute
    rw [hdecode]
    refine (Machine.print_of_le (m := ⟨m.pc + 3 + text.toByteArray.size, m.arena, m.output⟩)
      hroom).trans ?_
    rw [fromUTF8?_push_newline]
    rfl
  · rw [hplace]
    exact Nat.add_assoc _ _ _

theorem execute_close {l : Nat} (hp : WellFormed p) (hsize : (bodyOf p).size < 0x100000000)
    (hpc : m.pc = place p i) (h : p[i]? = some .close) (hl : opener p i 0 = some l) :
    m.execute (bodyOf p) = .next { m with pc := place p (l + 1) } := by
  have hi : Line.close.instr? p i = some (.jump (place p (l + 1))) := by
    rw [Line.instr?, hl]
    rfl
  unfold Machine.execute
  rw [(decode_line hp hsize hpc h hi).1]

theorem execute_handsBack (hp : WellFormed p) (hsize : (bodyOf p).size < 0x100000000)
    (hpc : m.pc = place p i) (hactive : ∀ line, p[i]? = some line → ¬ line.IsQuiet)
    (hputs : ∀ text, p[i]? ≠ some (.puts text)) (hclose : p[i]? ≠ some .close) :
    ∃ h m' j, m.execute (bodyOf p) = .back h m' ∧ HandsBack p i h j ∧ m'.pc = place p j ∧
      m'.output = m.output := by
  cases h : p[i]? with
  | none =>
    refine ⟨.done, m, i, ?_, .done h, hpc, rfl⟩
    unfold Machine.execute
    rw [hpc, decode_bodyOf_of_none h]
  | some line =>
    cases line with
    | blank => exact absurd (.inl rfl) (hactive _ h)
    | loop => exact absurd (.inr rfl) (hactive _ h)
    | puts text => exact absurd h (hputs text)
    | close => exact absurd h hclose
    | raise text =>
      obtain ⟨hdecode, -⟩ := decode_line hp hsize hpc h rfl
      refine ⟨_, m, i, ?_, .raise h, hpc, rfl⟩
      unfold Machine.execute
      rw [hdecode]
      dsimp only
      rw [textLossy_toByteArray]
    | sleep secs =>
      obtain ⟨hdecode, hplace⟩ := decode_line hp hsize hpc h rfl
      refine ⟨_, { m with pc := m.pc + 5 }, i + 1, ?_, .sleep h, ?_, rfl⟩
      · unfold Machine.execute
        rw [hdecode, Nat.mul_comm 1000]
        rfl
      · exact hplace.symm
    | sleepMs ms =>
      obtain ⟨hdecode, hplace⟩ := decode_line hp hsize hpc h rfl
      refine ⟨_, { m with pc := m.pc + 5 }, i + 1, ?_, .sleepMs h, ?_, rfl⟩
      · unfold Machine.execute
        rw [hdecode]
      · exact hplace.symm
    | pass =>
      obtain ⟨hdecode, hplace⟩ := decode_line hp hsize hpc h rfl
      refine ⟨_, { m with pc := m.pc + 1 }, i + 1, ?_, .pass h, ?_, rfl⟩
      · unfold Machine.execute
        rw [hdecode]
      · exact hplace.symm
    | suspend =>
      obtain ⟨hdecode, hplace⟩ := decode_line hp hsize hpc h rfl
      refine ⟨_, { m with pc := m.pc + 1 }, i + 1, ?_, .suspend h, ?_, rfl⟩
      · unfold Machine.execute
        rw [hdecode]
      · exact hplace.symm

/-! ## One slice -/

theorem exists_active (p : List Line) (i : Nat) : ∃ j, place p j = place p i ∧
    (∀ {n : Nat} {text : String} {k : Nat}, Runs p n j text k → Runs p n i text k) ∧
    ∀ line, p[j]? = some line → ¬ line.IsQuiet := by
  induction hd : p.length - i generalizing i with
  | zero =>
    refine ⟨i, rfl, id, fun line h => ?_⟩
    have := (List.getElem?_eq_some_iff.mp h).1
    omega
  | succ d ih =>
    cases h : p[i]? with
    | none => exact ⟨i, rfl, id, fun line hl => by simp [h] at hl⟩
    | some line =>
      by_cases hq : line.IsQuiet
      · obtain ⟨j, hplace, hruns, hactive⟩ := ih (i + 1) (by omega)
        exact ⟨j, hplace.trans (place_quiet h hq), fun hr => .skip h hq (hruns hr), hactive⟩
      · refine ⟨i, rfl, id, fun line' hl => ?_⟩
        rw [h] at hl
        cases hl
        exact hq

/-- One instruction: control is kept, or it is handed back. -/
theorem execute_active (hp : WellFormed p) (hsize : (bodyOf p).size < 0x100000000)
    (ha : Roomy p m.arena) (hpc : m.pc = place p i)
    (hactive : ∀ line, p[i]? = some line → ¬ line.IsQuiet) :
    (∃ m' text j, m.execute (bodyOf p) = .next m' ∧ m'.pc = place p j ∧
      m'.output = m.output ++ text ∧
      ∀ {n : Nat} {rest : String} {k : Nat}, Runs p n j rest k →
        Runs p (n + 1) i (text ++ rest) k) ∨
    ∃ h m' j, m.execute (bodyOf p) = .back h m' ∧ HandsBack p i h j ∧ m'.pc = place p j ∧
      m'.output = m.output := by
  by_cases hputs : ∃ text, p[i]? = some (.puts text)
  · obtain ⟨text, h⟩ := hputs
    obtain ⟨m', hm, hpc', hout⟩ := execute_puts hp hsize ha hpc h
    exact .inl ⟨m', text ++ "\n", i + 1, hm, hpc', hout, .puts h⟩
  by_cases hclose : p[i]? = some .close
  · obtain ⟨l, hl⟩ := hp.closed hclose
    have hm := execute_close hp hsize hpc hclose hl
    refine .inl ⟨_, "", l + 1, hm, rfl, String.append_empty.symm, ?_⟩
    intro n rest k hr
    rw [String.empty_append]
    exact .again hclose hl hr
  · exact .inr (execute_handsBack hp hsize hpc hactive (fun text h => hputs ⟨text, h⟩) hclose)

/-- One slice of the machine is a slice of the interpretation. -/
theorem dispatched_run (hp : WellFormed p) (hsize : (bodyOf p).size < 0x100000000)
    (ha : Roomy p m.arena) (hpc : m.pc = place p i) (budget : Nat) :
    ∃ text j, (m.run (bodyOf p) budget).machine.output = m.output ++ text ∧
      (m.run (bodyOf p) budget).machine.pc = place p j ∧
      Dispatched p budget i text (m.run (bodyOf p) budget).handback
        (m.run (bodyOf p) budget).budget j := by
  induction budget generalizing m i with
  | zero => exact ⟨"", i, String.append_empty.symm, hpc, .spent (.here i) rfl rfl⟩
  | succ budget ih =>
    obtain ⟨a, hplace, hruns, hactive⟩ := exists_active p i
    rw [← hplace] at hpc
    have hkept := Machine.kept_execute ha.valid (bodyOf p)
    rw [Machine.run_succ]
    rcases execute_active hp hsize ha hpc hactive with
      ⟨m', text, j, hm, hpc', hout, hstep⟩ | ⟨h, m', j, hm, hb, hpc', hout⟩
    · rw [hm] at hkept ⊢
      obtain ⟨rest, k, ho, hk, hd⟩ := ih (m := m') (ha.kept hkept) hpc'
      refine ⟨text ++ rest, k, ?_, hk, ?_⟩
      · dsimp only
        rw [ho, hout, String.append_assoc]
      · cases hd with
        | back hr hb hleft => exact .back (hruns (hstep hr)) hb (by dsimp only; omega)
        | spent hr hb hleft => exact .spent (hruns (hstep hr)) hb hleft
    · rw [hm]
      refine ⟨"", j, ?_, hpc', ?_⟩
      · rw [String.append_empty]
        exact hout
      · exact .back (hruns (.here a)) hb (by dsimp only; omega)

/-! ## Any number of slices -/

/-- The slices of an image that is run again and again, from where it stopped. -/
def runSlices (image : ByteArray) : Machine → (budgets : List Nat) → List Slice
  | _, [] => []
  | m, budget :: budgets =>
    let s := runImage image budget { m with output := "" }
    s :: runSlices image s.machine budgets

theorem follows_runSlices (hp : WellFormed p) (hsize : (bodyOf p).size < 0x100000000)
    {image : ByteArray} (himage : Image.body image = .ok (bodyOf p)) (ha : Roomy p m.arena)
    (hpc : m.pc = place p i) (budgets : List Nat) :
    Follows p i budgets (runSlices image m budgets) := by
  induction budgets generalizing m i with
  | nil => exact .nil i
  | cons budget budgets ih =>
    have hrun : runImage image budget { m with output := "" } =
        Machine.run (bodyOf p) budget { m with output := "" } := by
      rw [runImage, himage]
    have hkept := Machine.kept_run (m := { m with output := "" }) ha.valid (bodyOf p) budget
    obtain ⟨text, j, hout, hpc', hd⟩ :=
      dispatched_run (m := { m with output := "" }) hp hsize ha hpc budget
    rw [String.empty_append] at hout
    rw [runSlices, hrun]
    refine .cons ?_ (ih (ha.kept hkept) hpc')
    rw [hout]
    exact hd

/-- **A compiled script does what its lines say.** Its lines can be read, its image passes its
check, and on a heap with room for every line that is printed, the slices of any run of the image
follow the lines, whatever the budgets: the only hand-backs that no line asks for are the yields
that come when a budget is spent. The image never turns out to be broken. -/
theorem compile_correct {source : String} {image : ByteArray} (h : compile source = .ok image)
    (hsize : image.size < Image.headerLen + 2 ^ 32) :
    ∃ p, readLines source = some p ∧ (∃ body, Image.body image = .ok body) ∧
      ∀ a : Arena, a.Valid → (∀ text, .puts text ∈ p → text.utf8ByteSize + 1 ≤ a.free) →
        ∀ budgets, Follows p 0 budgets (runSlices image ⟨0, a, ""⟩ budgets) ∧
          ∀ s ∈ runSlices image ⟨0, a, ""⟩ budgets, ∀ e, s.handback ≠ .fault (.badImage e) := by
  obtain ⟨p, hread, hp, rfl⟩ := exists_lines_of_compile h
  rw [Image.size_build] at hsize
  have hbody : (bodyOf p).size < 0x100000000 := by omega
  have himage : Image.body (Image.build (bodyOf p)) = .ok (bodyOf p) := by
    rw [← ByteArray.append_empty (b := Image.build (bodyOf p))]
    exact Image.body_build_append hbody .empty
  refine ⟨p, hread, ⟨bodyOf p, himage⟩, fun a hvalid hroom budgets => ?_⟩
  have hfollows := follows_runSlices (m := ⟨0, a, ""⟩) (i := 0) hp hbody himage ⟨hvalid, hroom⟩ rfl
    budgets
  exact ⟨hfollows, hfollows.ne_badImage⟩

/-- A loop that greets and yields, on a heap with room for just one greeting. -/
theorem compile_correct_greeting : ∃ image,
    compile "# greet\nloop do\n  puts 'hi'\n  pass\nend" = .ok image ∧
      Follows [.blank, .loop, .puts "hi", .pass, .close] 0 [1, 4, 2]
        (runSlices image ⟨0, Arena.new 3, ""⟩ [1, 4, 2]) := by
  have hread : readLines "# greet\nloop do\n  puts 'hi'\n  pass\nend" =
      some [.blank, .loop, .puts "hi", .pass, .close] := by decide +kernel
  have hsize : (compile "# greet\nloop do\n  puts 'hi'\n  pass\nend").toOption.map
      ByteArray.size = some 24 := by decide +kernel
  cases h : compile "# greet\nloop do\n  puts 'hi'\n  pass\nend" with
  | error e =>
    rw [h] at hsize
    cases hsize
  | ok image =>
    rw [h] at hsize
    have hsize : image.size = 24 := Option.some.inj hsize
    obtain ⟨p, hp, -, hfollows⟩ := compile_correct h (by rw [hsize]; decide)
    rw [hread] at hp
    cases hp
    refine ⟨image, rfl, (hfollows (Arena.new 3) (.new 3) (fun text ht => ?_) [1, 4, 2]).1⟩
    have htext : text = "hi" := by simpa using ht
    rw [htext]
    decide +kernel

end Script

end Coop
