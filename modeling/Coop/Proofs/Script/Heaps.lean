import Coop.Proofs.Machine.Bodies
import Coop.Proofs.Script.Simulation

/-!
# Programs on different heaps

A program sees its heap only when it prints a line and there is no room for it. So with room for
everything it prints, a program does the same on every heap.

* `Instr.next`, `Visits`, `Ample`: the places a program comes to, and room for what it prints there;
* `Machine.Alike`, `Machine.execute_alike`, `Machine.run_alike`: two machines that differ in their
  heaps only, for one instruction and for one slice;
* **`runSlices_alike`**: any number of slices;
* **`ample_of_compile`**: what a compiled script prints stands on a line of it.
-/

namespace Coop

/-- The place control goes to after an instruction at `pc`. -/
def Instr.next (pc : Nat) : Instr → Nat
  | stop | raise _ => pc
  | jump target => target
  | i => pc + i.size

/-- The places a program comes to, given room for what it prints. -/
inductive Visits (body : ByteArray) : Nat → Prop
  | start : Visits body 0
  | step {pc : Nat} {i : Instr} (h : Visits body pc) (hd : Instr.decode body pc = .ok (some i)) :
    Visits body (i.next pc)

/-- A heap with room for every line a program prints. -/
structure Ample (body : ByteArray) (a : Arena) : Prop where
  valid : a.Valid
  room : ∀ pc text, Visits body pc → Instr.decode body pc = .ok (some (.puts text)) →
    text.size + 1 ≤ a.free

theorem Ample.kept {body : ByteArray} {a b : Arena} (h : Ample body a) (hk : a.Kept b) :
    Ample body b := by
  refine ⟨hk.valid, fun pc text hv hd => ?_⟩
  rw [hk.free]
  exact h.room pc text hv hd

/-- At the same place, with the same text written. -/
structure Machine.Alike (m₁ m₂ : Machine) : Prop where
  pc : m₁.pc = m₂.pc
  output : m₁.output = m₂.output

/-- The same move of two machines. -/
inductive Move.Alike : Move → Move → Prop
  | next {m₁ m₂ : Machine} (h : m₁.Alike m₂) : Move.Alike (.next m₁) (.next m₂)
  | back (h : Handback) {m₁ m₂ : Machine} (hm : m₁.Alike m₂) : Move.Alike (.back h m₁) (.back h m₂)

/-- What a program shows of a slice: the text it wrote, and what it handed back. -/
def Slice.shown (s : Slice) : String × Handback := (s.machine.output, s.handback)

namespace Machine

variable {body : ByteArray} {m m₁ m₂ : Machine}

theorem pc_print (text : ByteArray) : (m.print text).machine.pc = m.pc := by
  rcases Nat.lt_or_ge m.arena.free (text.size + 1) with hlt | hle
  · rw [print_of_lt hlt]
    rfl
  · rw [print_of_le hle]
    rfl

theorem visits_execute (h : Visits body m.pc) : Visits body (m.execute body).machine.pc := by
  unfold execute
  cases hd : Instr.decode body m.pc with
  | error e => exact h
  | ok o =>
    cases o with
    | none => exact h
    | some i =>
      have hnext := h.step hd
      cases i with
      | puts text =>
        change Visits body (print _ text).machine.pc
        rw [pc_print, Nat.add_assoc]
        exact hnext
      | stop | sleep | pass | suspend | jump | raise => exact hnext

theorem execute_alike (h : m₁.Alike m₂) (hv : Visits body m₁.pc) (h₁ : Ample body m₁.arena)
    (h₂ : Ample body m₂.arena) : (m₁.execute body).Alike (m₂.execute body) := by
  obtain ⟨pc, a₁, out⟩ := m₁
  obtain ⟨pc₂, a₂, out₂⟩ := m₂
  obtain rfl : pc = pc₂ := h.pc
  obtain rfl : out = out₂ := h.output
  unfold execute
  cases hd : Instr.decode body pc with
  | error e => exact .back _ ⟨rfl, rfl⟩
  | ok o =>
    cases o with
    | none => exact .back _ ⟨rfl, rfl⟩
    | some i =>
      cases i with
      | puts text =>
        -- the only instruction that looks at the heap
        dsimp only
        rw [print_of_le (m := ⟨pc + 3 + text.size, a₁, out⟩) (h₁.room pc text hv hd),
          print_of_le (m := ⟨pc + 3 + text.size, a₂, out⟩) (h₂.room pc text hv hd)]
        exact .next ⟨rfl, rfl⟩
      | jump target => exact .next ⟨rfl, rfl⟩
      | stop | sleep | pass | suspend | raise => exact .back _ ⟨rfl, rfl⟩

theorem visits_run (h : Visits body m.pc) (budget : Nat) :
    Visits body (m.run body budget).machine.pc := by
  induction budget generalizing m with
  | zero => exact h
  | succ budget ih =>
    have hstep := visits_execute h
    rw [run_succ]
    cases hm : m.execute body with
    | next m' =>
      rw [hm] at hstep
      exact ih hstep
    | back hb m' =>
      rw [hm] at hstep
      exact hstep

theorem run_alike (h : m₁.Alike m₂) (hv : Visits body m₁.pc) (h₁ : Ample body m₁.arena)
    (h₂ : Ample body m₂.arena) (budget : Nat) :
    (m₁.run body budget).handback = (m₂.run body budget).handback ∧
      (m₁.run body budget).machine.Alike (m₂.run body budget).machine := by
  induction budget generalizing m₁ m₂ with
  | zero => exact ⟨rfl, h⟩
  | succ budget ih =>
    have hmove := execute_alike h hv h₁ h₂
    have hvisits := visits_execute hv
    have hkept₁ := kept_execute h₁.valid body
    have hkept₂ := kept_execute h₂.valid body
    rw [run_succ, run_succ]
    generalize m₁.execute body = move₁ at *
    generalize m₂.execute body = move₂ at *
    cases hmove with
    | next hm => exact ih hm hvisits (h₁.kept hkept₁) (h₂.kept hkept₂)
    | back hb hm => exact ⟨rfl, hm⟩

end Machine

namespace Script

variable {image : ByteArray} {m₁ m₂ : Machine}

/-- **A program does the same on every heap with room for what it prints.** -/
theorem runSlices_alike {body : ByteArray} (himage : Image.body image = .ok body)
    (h : m₁.Alike m₂) (hv : Visits body m₁.pc) (h₁ : Ample body m₁.arena)
    (h₂ : Ample body m₂.arena) (budgets : List Nat) :
    (runSlices image m₁ budgets).map Slice.shown =
      (runSlices image m₂ budgets).map Slice.shown := by
  induction budgets generalizing m₁ m₂ with
  | nil => rfl
  | cons budget budgets ih =>
    have hrun (m : Machine) : runImage image budget m = m.run body budget := by
      rw [runImage, himage]
    have halike : Machine.Alike { m₁ with output := "" } { m₂ with output := "" } := ⟨h.pc, rfl⟩
    obtain ⟨hback, hm⟩ := Machine.run_alike halike hv h₁ h₂ budget
    have hvisits := Machine.visits_run (m := { m₁ with output := "" }) hv budget
    have hkept₁ := Machine.kept_run (m := { m₁ with output := "" }) h₁.valid body budget
    have hkept₂ := Machine.kept_run (m := { m₂ with output := "" }) h₂.valid body budget
    have hrest := ih hm hvisits (h₁.kept hkept₁) (h₂.kept hkept₂)
    simp only [runSlices, hrun, List.map_cons, hrest, Slice.shown, hback, hm.output]

/-! ## Compiled scripts -/

variable {p : List Line}

theorem exists_instr {j : Nat} {line : Line} (hp : WellFormed p) (h : p[j]? = some line)
    (hq : ¬ line.IsQuiet) : ∃ i, line.instr? p j = some i := by
  cases line with
  | blank => exact absurd (.inl rfl) hq
  | loop => exact absurd (.inr rfl) hq
  | close =>
    obtain ⟨l, hl⟩ := hp.closed h
    exact ⟨.jump (place p (l + 1)), by rw [Line.instr?, hl]; rfl⟩
  | puts | raise | sleep | sleepMs | pass | suspend => exact ⟨_, rfl⟩

/-- The instruction at the place of a line is the one of the next line that is not quiet, or the
stop at the end. -/
theorem decode_place (hp : WellFormed p) {i : Nat} (hi : place p i < 0x100000000) :
    Instr.decode (bodyOf p) (place p i) = .ok (some .stop) ∨
      ∃ j line instr, place p j = place p i ∧ p[j]? = some line ∧
        line.instr? p j = some instr ∧
        Instr.decode (bodyOf p) (place p i) = .ok (some instr) := by
  obtain ⟨j, hplace, -, hactive⟩ := exists_active p i
  rw [← hplace] at hi ⊢
  cases h : p[j]? with
  | none => exact .inl (decode_bodyOf_of_none h)
  | some line =>
    obtain ⟨instr, hinstr⟩ := exists_instr hp h (hactive line h)
    exact .inr ⟨j, line, instr, rfl, h, hinstr, decode_bodyOf h hinstr (fits_instr hp hi h hinstr)⟩

section Prefix

-- the length field wraps around, so that of a very long body only the front part may be run
variable {body rest : ByteArray} (hbody : bodyOf p = body ++ rest) (hsize : body.size < 0x100000000)

include hbody hsize

theorem decode_front {i : Nat} {instr : Instr}
    (hd : Instr.decode body (place p i) = .ok (some instr)) :
    Instr.decode (bodyOf p) (place p i) = .ok (some instr) ∧ place p i < 0x100000000 := by
  obtain ⟨hlt, hd⟩ := Instr.decode_append hd rest
  rw [hbody]
  exact ⟨hd, Nat.lt_trans hlt hsize⟩

theorem exists_place_of_visits (hp : WellFormed p) {pc : Nat} (h : Visits body pc) :
    ∃ i, pc = place p i := by
  induction h with
  | start => exact ⟨0, rfl⟩
  | @step pc instr _ hd ih =>
    obtain ⟨i, rfl⟩ := ih
    obtain ⟨hd, hlt⟩ := decode_front hbody hsize hd
    rcases decode_place hp hlt with hstop | ⟨j, line, instr', hplace, h, hi, hd'⟩
    · rw [hstop] at hd
      cases hd
      exact ⟨i, rfl⟩
    · rw [hd'] at hd
      cases hd
      have hsucc := place_succ h hi
      cases line with
      | blank | loop => cases hi
      | close =>
        obtain ⟨l, -, rfl⟩ := Option.map_eq_some_iff.mp hi
        exact ⟨l + 1, rfl⟩
      | raise =>
        cases hi
        exact ⟨i, rfl⟩
      | puts | sleep | sleepMs | pass | suspend =>
        cases hi
        rw [hplace] at hsucc
        exact ⟨j + 1, hsucc.symm⟩

theorem exists_puts_of_visits (hp : WellFormed p) {pc : Nat} {text : ByteArray}
    (h : Visits body pc) (hd : Instr.decode body pc = .ok (some (.puts text))) :
    ∃ line, .puts line ∈ p ∧ text = line.toByteArray := by
  obtain ⟨i, rfl⟩ := exists_place_of_visits hbody hsize hp h
  obtain ⟨hd, hlt⟩ := decode_front hbody hsize hd
  rcases decode_place hp hlt with hstop | ⟨j, line, instr, -, h, hi, hd'⟩
  · rw [hstop] at hd
    cases hd
  · rw [hd'] at hd
    cases hd
    cases line with
    | puts line =>
      cases hi
      exact ⟨line, List.mem_of_getElem? h, rfl⟩
    | close =>
      obtain ⟨l, -, hjump⟩ := Option.map_eq_some_iff.mp hi
      cases hjump
    | blank | loop | raise | sleep | sleepMs | pass | suspend => cases hi

end Prefix

/-- **What a compiled script prints stands on a line of it.** -/
theorem ample_of_compile {source : String} (h : compile source = .ok image) :
    ∃ p body, readLines source = some p ∧ Image.body image = .ok body ∧
      ∀ a : Arena, a.Valid → (∀ text, .puts text ∈ p → text.utf8ByteSize < a.free) →
        Ample body a := by
  obtain ⟨p, hread, hp, rfl⟩ := exists_lines_of_compile h
  obtain ⟨body, rest, himage, hbody, hsize⟩ := Image.body_build (bodyOf p)
  refine ⟨p, body, hread, himage, fun a hvalid hroom => ⟨hvalid, fun pc text hv hd => ?_⟩⟩
  obtain ⟨line, hline, rfl⟩ := exists_puts_of_visits hbody hsize hp hv hd
  exact hroom line hline

end Script

end Coop
