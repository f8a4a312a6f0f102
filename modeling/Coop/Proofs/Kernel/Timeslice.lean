import Coop.Proofs.Kernel.Routes

/-!
# Timeslices do not show

A program that is stopped because its budget is spent goes on from there as if it had not been
stopped. So the budgets decide when a program runs, but neither what it writes nor what it asks for.

* `Machine.spends`: a slice ends because its budget is spent;
* `Machine.run_add`: such a slice and the next one are one slice;
* `Sight`, `transcript`: what can be seen of a program, yields apart;
* `Script.seen`, `seen_split`, `seen_ones`: the transcript of an image, with a budget in two parts,
  and with budgets of one instruction;
* `seen_prefix`: any two schedules of budgets;
* **`timeslice_independence`**: one cut, any schedule of budgets, and any timeslice of a task.
-/

namespace Coop

/-! ## Text that was written before -/

/-- The machine with more text in front of what it wrote. -/
def Machine.behind (text : String) (m : Machine) : Machine := { m with output := text ++ m.output }

/-- The move with more text in front of what was written. -/
def Move.behind (text : String) : Move → Move
  | .next m => .next (m.behind text)
  | .back h m => .back h (m.behind text)

/-- The slice with more text in front of what was written. -/
def Slice.behind (text : String) (s : Slice) : Slice := { s with machine := s.machine.behind text }

namespace Machine

variable {body : ByteArray} {m : Machine}

theorem print_behind (text : String) (line : ByteArray) :
    (m.behind text).print line = (m.print line).behind text := by
  rcases Nat.lt_or_ge m.arena.free (line.size + 1) with hlt | hle
  · rw [print_of_lt hlt, print_of_lt (m := m.behind text) hlt]
    rfl
  · rw [print_of_le hle, print_of_le (m := m.behind text) hle, Move.behind]
    simp only [behind, String.append_assoc]

theorem execute_behind (text : String) :
    (m.behind text).execute body = (m.execute body).behind text := by
  have hpc : (m.behind text).pc = m.pc := rfl
  unfold execute
  rw [hpc]
  cases Instr.decode body m.pc with
  | error e => rfl
  | ok o =>
    cases o with
    | none => rfl
    | some i =>
      cases i with
      | puts line => exact print_behind (m := { m with pc := m.pc + 3 + line.size }) text line
      | stop | sleep | pass | suspend | jump | raise => rfl

/-- What was written before a slice is not noticed by it. -/
theorem run_behind (text : String) (budget : Nat) :
    (m.behind text).run body budget = (m.run body budget).behind text := by
  induction budget generalizing m with
  | zero => rfl
  | succ budget ih =>
    rw [run_succ, run_succ, execute_behind]
    cases m.execute body with
    | next m' => exact ih
    | back h m' => rfl

/-! ## A budget in two parts -/

/-- Whether a slice ends because its budget is spent: none of its instructions hands control back.
-/
def spends (body : ByteArray) : (budget : Nat) → Machine → Bool
  | 0, _ => true
  | budget + 1, m =>
    match m.execute body with
    | .next m' => spends body budget m'
    | .back _ _ => false

theorem run_of_spends {budget : Nat} (h : spends body budget m = true) :
    (m.run body budget).handback = .yield ∧ (m.run body budget).budget = 0 := by
  induction budget generalizing m with
  | zero => exact ⟨rfl, rfl⟩
  | succ budget ih =>
    rw [run_succ]
    cases hm : m.execute body with
    | next m' =>
      rw [spends, hm] at h
      exact ih h
    | back hb m' =>
      rw [spends, hm] at h
      cases h

/-- **A slice whose budget is spent and the slice after it are one slice.** -/
theorem run_add {a : Nat} (h : spends body a m = true) (b : Nat) :
    m.run body (a + b) = (m.run body a).machine.run body b := by
  induction a generalizing m with
  | zero => rw [Nat.zero_add, run_zero]
  | succ a ih =>
    rw [Nat.add_right_comm, run_succ, run_succ]
    cases hm : m.execute body with
    | next m' =>
      rw [spends, hm] at h
      exact ih h
    | back hb m' =>
      rw [spends, hm] at h
      cases h

theorem run_add_behind {a : Nat} (h : spends body a m = true) (b : Nat) :
    m.run body (a + b) =
      (run body b { (m.run body a).machine with output := "" }).behind
        (m.run body a).machine.output := by
  rw [run_add h, ← run_behind, behind, String.append_empty]

theorem spends_one {m' : Machine} (h : m.execute body = .next m') : spends body 1 m = true := by
  rw [spends, h]
  rfl

end Machine

/-! ## Transcripts -/

/-- Something that can be seen of a program. -/
inductive Sight where
  | char (c : Char)
  | back (h : Handback)
  deriving DecidableEq

/-- What can be seen of one slice: the text it wrote, and what it asked for. That it yielded cannot
be seen. -/
def sights (reply : String × Handback) : List Sight :=
  reply.1.toList.map .char ++ if reply.2 = .yield then [] else [.back reply.2]

/-- What can be seen of a program, slice by slice. -/
def transcript (replies : List (String × Handback)) : List Sight := replies.flatMap sights

theorem sights_behind (text : String) (s : Slice) :
    sights (s.behind text).shown = text.toList.map .char ++ sights s.shown := by
  change (text ++ s.machine.output).toList.map Sight.char ++ _ = _
  rw [String.toList_append, List.map_append, List.append_assoc]
  rfl

namespace Script

/-- What can be seen of an image that is run slice by slice. -/
def seen (image : ByteArray) (m : Machine) (budgets : List Nat) : List Sight :=
  transcript ((runSlices image m budgets).map Slice.shown)

variable {image body : ByteArray} {m : Machine}

theorem seen_cons (budget : Nat) (budgets : List Nat) : seen image m (budget :: budgets) =
    sights (runImage image budget { m with output := "" }).shown ++
      seen image (runImage image budget { m with output := "" }).machine budgets := by
  simp [seen, runSlices, transcript]

theorem seen_behind (text : String) (budgets : List Nat) :
    seen image (m.behind text) budgets = seen image m budgets := by
  cases budgets with
  | nil => rfl
  | cons budget budgets =>
    rw [seen_cons, seen_cons]
    rfl

theorem seen_prefix_append (bs more : List Nat) :
    seen image m bs <+: seen image m (bs ++ more) := by
  induction bs generalizing m with
  | nil => exact List.nil_prefix
  | cons b bs ih =>
    rw [List.cons_append, seen_cons, seen_cons, List.prefix_append_right_inj]
    exact ih

section Body

variable (hbody : Image.body image = .ok body)

include hbody

theorem runImage_eq (budget : Nat) (m : Machine) : runImage image budget m = m.run body budget := by
  rw [runImage, hbody]

/-- A budget may be given in two parts, if the first one is spent. -/
theorem seen_split {a : Nat} (h : Machine.spends body a { m with output := "" } = true) (b : Nat)
    (budgets : List Nat) :
    seen image m ((a + b) :: budgets) = seen image m (a :: b :: budgets) := by
  obtain ⟨hyield, -⟩ := Machine.run_of_spends h
  rw [seen_cons, seen_cons, seen_cons]
  simp only [runImage_eq hbody]
  rw [Machine.run_add_behind h, sights_behind]
  have hfirst : sights (Machine.run body a { m with output := "" }).shown =
      (Machine.run body a { m with output := "" }).machine.output.toList.map .char := by
    simp [sights, Slice.shown, hyield]
  rw [hfirst, List.append_assoc]
  exact congrArg _ (congrArg _ (seen_behind _ _))

theorem seen_ones (k : Nat) :
    ∃ n, 0 < n ∧ ∀ budgets, seen image m ((k + 1) :: budgets) =
      seen image m (List.replicate n 1 ++ budgets) := by
  induction k generalizing m with
  | zero => exact ⟨1, Nat.one_pos, fun _ => rfl⟩
  | succ k ih =>
    cases hm : Machine.execute body { m with output := "" } with
    | next m' =>
      obtain ⟨n, -, hn⟩ := ih (m := m')
      refine ⟨n + 1, Nat.succ_pos n, fun budgets => ?_⟩
      have hfirst (bs : List Nat) : seen image m (1 :: bs) =
          sights (Slice.mk .yield 0 m').shown ++ seen image m' bs := by
        rw [seen_cons, runImage_eq hbody, Machine.run_succ, hm]
        rfl
      rw [Nat.add_comm (k + 1) 1, seen_split hbody (Machine.spends_one hm), hfirst, hn,
        List.replicate_succ, List.cons_append, hfirst]
    | back h m' =>
      refine ⟨1, Nat.one_pos, fun budgets => ?_⟩
      have hrun (n : Nat) : Machine.run body (n + 1) { m with output := "" } = ⟨h, n, m'⟩ := by
        rw [Machine.run_succ, hm]
      rw [List.replicate_one, List.singleton_append, seen_cons, seen_cons]
      simp only [runImage_eq hbody, hrun]
      rfl

/-- Whatever the budgets, a program shows what it shows instruction by instruction. -/
theorem seen_eq_ones {budgets : List Nat} (h : ∀ b ∈ budgets, 0 < b) :
    ∃ n, budgets.length ≤ n ∧ seen image m budgets = seen image m (List.replicate n 1) := by
  induction budgets generalizing m with
  | nil => exact ⟨0, Nat.le_refl 0, rfl⟩
  | cons b bs ih =>
    obtain ⟨hb, hbs⟩ := List.forall_mem_cons.mp h
    obtain ⟨n, hn, hrest⟩ := ih (m := (runImage image b { m with output := "" }).machine) hbs
    obtain ⟨j, hj, hones⟩ := seen_ones (m := m) hbody (b - 1)
    rw [Nat.sub_add_cancel hb] at hones
    refine ⟨j + n, ?_, ?_⟩
    · rw [List.length_cons]
      omega
    · rw [seen_cons, hrest, ← seen_cons, hones, List.replicate_append_replicate]

/-- **What can be seen of a program under one schedule is seen under every other in time.** -/
theorem seen_prefix {budgets : List Nat} (h : ∀ b ∈ budgets, 0 < b) {schedule : Nat → Nat}
    (hs : ∀ i, 0 < schedule i) :
    ∃ n, seen image m budgets <+: seen image m ((List.range n).map schedule) := by
  obtain ⟨k, -, hk⟩ := seen_eq_ones (m := m) hbody h
  have hpos : ∀ b ∈ (List.range k).map schedule, 0 < b := by
    intro b hb
    obtain ⟨i, -, rfl⟩ := List.mem_map.mp hb
    exact hs i
  obtain ⟨n, hn, hones⟩ := seen_eq_ones (m := m) hbody hpos
  rw [List.length_map, List.length_range] at hn
  refine ⟨k, ?_⟩
  rw [hk, hones, ← Nat.add_sub_of_le hn, ← List.replicate_append_replicate]
  exact seen_prefix_append _ _

end Body

end Script

open Script in
/-- **Timeslices do not show.** Let an image pass its check, and take any place in it and any heap.
A slice that ends because its budget is spent, followed by another slice, is one slice with both
budgets: the same hand-back, budget left over, place, heap and text. Whatever is seen of the program
under some budgets is in time seen under any other schedule of budgets, none of them zero: the
characters written and the hand-backs that are no yields, in the same order. So nothing of it
depends on the timeslice of a task. -/
theorem timeslice_independence {image body : ByteArray} (hbody : Image.body image = .ok body)
    (m : Machine) :
    (∀ a b, Machine.spends body a m = true →
      let s₁ := runImage image a m
      let s₂ := runImage image b { s₁.machine with output := "" }
      s₁.handback = .yield ∧ s₁.budget = 0 ∧
      runImage image (a + b) m = ⟨s₂.handback, s₂.budget,
        ⟨s₂.machine.pc, s₂.machine.arena, s₁.machine.output ++ s₂.machine.output⟩⟩) ∧
    (∀ (budgets : List Nat) (schedule : Nat → Nat), (∀ b ∈ budgets, 0 < b) →
      (∀ i, 0 < schedule i) →
      ∃ n, seen image m budgets <+: seen image m ((List.range n).map schedule)) ∧
    ∀ t : Task, t.image? = some image → t.fiber.isSome = true → t.arena.Valid →
      ∀ slice slice', 0 < slice → 0 < slice' → ∀ n, ∃ n',
        transcript (t.replies (List.replicate n slice)) <+:
          transcript (t.replies (List.replicate n' slice')) := by
  refine ⟨fun a b h => ?_, fun budgets schedule hb hs => seen_prefix hbody hb hs, ?_⟩
  · simp only [runImage_eq hbody]
    obtain ⟨hyield, hspent⟩ := Machine.run_of_spends h
    exact ⟨hyield, hspent, Machine.run_add_behind h b⟩
  · intro t himage hfiber hheap slice slice' hpos hpos' n
    obtain ⟨⟨pc⟩, hfiber⟩ := Option.isSome_iff_exists.mp hfiber
    have hreplies (budgets : List Nat) :
        transcript (t.replies budgets) = seen image ⟨pc, t.arena, ""⟩ budgets := by
      rw [Task.replies_eq hfiber himage hheap "", seen]
    have hsame : ∀ b ∈ List.replicate n slice, 0 < b := by
      intro b hb
      rw [List.eq_of_mem_replicate hb]
      exact hpos
    obtain ⟨n', hn'⟩ := seen_prefix (m := ⟨pc, t.arena, ""⟩) hbody hsame (fun _ : Nat => hpos')
    rw [List.map_const', List.length_range] at hn'
    refine ⟨n', ?_⟩
    rw [hreplies, hreplies]
    exact hn'

/-- A greeting that is cut off from the pause behind it. -/
theorem timeslice_independence_greeting : ∃ image body m,
    Image.body image = .ok body ∧ Machine.spends body 1 m = true ∧
    (runImage image (1 + 1) m).handback = .sleep 20 ∧
    (runImage image (1 + 1) m).machine.output = "hi\n" ∧
    ∃ n, [.char 'h', .char 'i', .char '\n', .back (.sleep 20)] <+:
      Script.seen image m ((List.range n).map fun _ => 1) := by
  let body := (Instr.puts "hi".toByteArray).encode ++ (Instr.sleep 20).encode
  let m : Machine := ⟨0, Arena.new 3, ""⟩
  have hbody : Image.body (Image.build body) = .ok body := by decide +kernel
  have hspends : Machine.spends body 1 m = true := by decide +kernel
  obtain ⟨hcut, hseen, -⟩ := timeslice_independence hbody m
  obtain ⟨-, -, hcut⟩ := hcut 1 1 hspends
  obtain ⟨n, hn⟩ := hseen [2] (fun _ => 1) (by decide) (fun _ => Nat.one_pos)
  have hall : Script.seen (Image.build body) m [2] =
      [.char 'h', .char 'i', .char '\n', .back (.sleep 20)] := by decide +kernel
  refine ⟨Image.build body, body, m, hbody, hspends, ?_, ?_, n, hall ▸ hn⟩
  all_goals
    rw [hcut]
    decide +kernel

end Coop
