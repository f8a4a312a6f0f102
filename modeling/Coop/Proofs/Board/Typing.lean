import Coop.Board.LineBuffer
import Coop.Proofs.Config.Reading
import Coop.Proofs.Machine.Guarded
import Coop.Proofs.Script.Arguments
import Mathlib.Data.List.DropRight
import Mathlib.Data.List.Induction

/-!
# Typing a line

Bytes are offered to the line at the prompt one by one, and now and then the line is dropped or
taken. Taking it would leave a line behind that is not text, but no such line can be typed.

* `LineBuffer.Op`, `LineBuffer.Answer`, `LineBuffer.after`, `LineBuffer.answers`: what can be done
  with a line, and the answers to it;
* `LineBuffer.offered`, `LineBuffer.fitting`, **`LineBuffer.after_new`**: what was typed is what the
  line holds;
* `fromUTF8?_of_ascii`, `LineBuffer.Trims`, `LineBuffer.take_eq_some_iff`,
  `LineBuffer.take_eq_none_iff`: what is taken;
* `FixedLine`, `FixedLine.Holds`, `FixedLine.run_holds`: a line in memory of a fixed size, with a
  test before every access;
* **`LineBuffer.holds_first_typed`**.
-/

namespace Coop

namespace LineBuffer

/-- What can be done with a line. -/
inductive Op where
  | push (b : UInt8)
  | clear
  | take

/-- The answers to that. -/
inductive Answer where
  | pushed (accepted : Bool)
  | cleared
  | taken (text : Option String)

/-- Does something with a line. -/
def Op.perform (l : LineBuffer) : Op → Answer × LineBuffer
  | push b => (.pushed (l.push b).1, (l.push b).2)
  | clear => (.cleared, l.clear)
  | take => (.taken l.take.1, l.take.2)

/-- The line after all that was done with it. -/
def after (l : LineBuffer) (ops : List Op) : LineBuffer :=
  ops.foldl (fun l op => (op.perform l).2) l

/-- The answers to all that was done with it. -/
def answers : LineBuffer → List Op → List Answer
  | _, [] => []
  | l, op :: ops => (op.perform l).1 :: answers (op.perform l).2 ops

theorem after_concat (l : LineBuffer) (ops : List Op) (op : Op) :
    l.after (ops ++ [op]) = (op.perform (l.after ops)).2 := by
  simp [after]

/-! ## What was typed -/

/-- The byte that is offered, if one is. -/
def Op.byte? : Op → Option UInt8
  | push b => some b
  | clear | take => none

/-- Whether a byte is offered. -/
def Op.isPush (op : Op) : Bool := op.byte?.isSome

/-- The bytes that were offered since the line was last dropped or taken. -/
def offered (ops : List Op) : List UInt8 := (ops.rtakeWhile Op.isPush).filterMap Op.byte?

/-- Those of them that may be part of a line: tabs, and the bytes from `0x20` to `0x7e`. -/
def fitting (ops : List Op) : List UInt8 :=
  (offered ops).filter fun b => b = 0x09 ∨ (0x20 ≤ b ∧ b ≤ 0x7e)

theorem accepts_iff {b : UInt8} : accepts b = true ↔ b = 0x09 ∨ (0x20 ≤ b ∧ b ≤ 0x7e) := by
  have hlast : b < 0x7f ↔ b ≤ 0x7e := by
    rw [UInt8.lt_iff_toNat_lt, UInt8.le_iff_toNat_le]
    simp only [UInt8.reduceToNat]
    omega
  simp only [accepts, Bool.or_eq_true, beq_iff_eq, Bool.and_eq_true, decide_eq_true_eq, hlast]

theorem fitting_eq (ops : List Op) : fitting ops = (offered ops).filter accepts := by
  refine List.filter_congr fun b _ => ?_
  rw [Bool.eq_iff_iff, decide_eq_true_eq, accepts_iff]

theorem fitting_push (ops : List Op) (b : UInt8) :
    fitting (ops ++ [.push b]) = fitting ops ++ if accepts b then [b] else [] := by
  have hoffered : offered (ops ++ [.push b]) = offered ops ++ [b] := by
    rw [offered, List.rtakeWhile_concat_pos Op.isPush ops (.push b) rfl, List.filterMap_append]
    rfl
  rw [fitting_eq, hoffered, List.filter_append, ← fitting_eq, List.filter_singleton]
  cases accepts b <;> rfl

theorem fitting_of_not_isPush (ops : List Op) {op : Op} (h : op.isPush = false) :
    fitting (ops ++ [op]) = [] := by
  rw [fitting, offered, List.rtakeWhile_concat_neg Op.isPush ops op (Bool.eq_false_iff.mp h)]
  rfl

end LineBuffer

/-! ## Lines are text -/

theorem fromUTF8?_of_ascii {bytes : List UInt8} (h : ∀ b ∈ bytes, b.toNat < 0x80) :
    String.fromUTF8? bytes.toByteArray = some (.ofList (bytes.map .ofUInt8)) := by
  rw [Config.fromUTF8?_eq_some_iff, String.toByteArray_ofList]
  induction bytes with
  | nil => rfl
  | cons b bytes ih =>
    obtain ⟨hb, hbytes⟩ := List.forall_mem_cons.mp h
    have hsize : (Char.ofUInt8 b).utf8Size = 1 := by
      rw [Char.utf8Size_eq_one_iff, UInt32.le_iff_toNat_le]
      exact Nat.le_of_lt_succ hb
    have hval : (Char.ofUInt8 b).val.toUInt8 = b := UInt8.toUInt8_toUInt32 b
    rw [List.map_cons, List.utf8Encode_cons, List.utf8Encode_singleton,
      String.utf8EncodeChar_eq_singleton hsize, ih hbytes, hval, ← List.toByteArray_append]
    rfl

namespace LineBuffer

section Taking

variable {l : LineBuffer} {b : UInt8}

/-- The line, read as text. -/
def text (l : LineBuffer) : String := .ofList (l.bytes.map .ofUInt8)

theorem fromUTF8?_bytes (h : ∀ b ∈ l.bytes, accepts b = true) :
    String.fromUTF8? l.bytes.toByteArray = some l.text := by
  refine fromUTF8?_of_ascii fun b hb => ?_
  have hb := accepts_iff.mp (h b hb)
  rw [UInt8.le_iff_toNat_le, UInt8.le_iff_toNat_le, ← UInt8.toNat_inj] at hb
  simp only [UInt8.reduceToNat] at hb
  omega

theorem take_eq (h : ∀ b ∈ l.bytes, accepts b = true) : l.take =
    (if (trimText l.text).isEmpty then none else some (trimText l.text), l.clear) := by
  rw [take, fromUTF8?_bytes h]

/-- The core is what is left of a text when the blanks at both ends are taken off. -/
def Trims (s core : String) : Prop :=
  Script.Snug core.toList ∧ ∃ left right, Script.Blanks left ∧ Script.Blanks right ∧
    s.toList = left ++ (core.toList ++ right)

theorem trims_iff {s core : String} : Trims s core ↔ trimText s = core := by
  constructor
  · rintro ⟨hsnug, left, right, hleft, hright, hs⟩
    rw [trimText, Script.trim_eq_of hs hleft hsnug hright, String.ofList_toList]
  · rintro rfl
    obtain ⟨left, right, hleft, hright, hs⟩ := Script.exists_trim s.toList
    rw [Trims, trimText, String.toList_ofList]
    exact ⟨Script.snug_trim s.toList, left, right, hleft, hright, hs⟩

theorem trim_eq_nil_iff {cs : List Char} : trim cs = [] ↔ Script.Blanks cs := by
  constructor
  · intro h
    obtain ⟨left, right, hleft, hright, hcs⟩ := Script.exists_trim cs
    rw [hcs, h]
    exact hleft.append (Script.blanks_nil.append hright)
  · intro h
    refine Script.trim_eq_of (l := cs) (r := []) ?_ h ⟨by simp, by simp⟩ Script.blanks_nil
    rw [List.append_nil, List.append_nil]

theorem isBlank_ofUInt8_iff (h : accepts b = true) :
    isBlank (.ofUInt8 b) = true ↔ b = 0x09 ∨ b = 0x20 := by
  have hn : (Char.ofUInt8 b).toNat = b.toNat := rfl
  have hb := accepts_iff.mp h
  simp only [UInt8.le_iff_toNat_le, ← UInt8.toNat_inj, UInt8.reduceToNat] at hb ⊢
  simp only [isBlank, hn, Bool.or_eq_true, Bool.and_eq_true, decide_eq_true_eq, beq_iff_eq]
  omega

/-- What is taken is the line without the blanks around it. -/
theorem take_eq_some_iff (h : ∀ b ∈ l.bytes, accepts b = true) {core : String} :
    l.take.1 = some core ↔ core ≠ "" ∧ Trims l.text core := by
  rw [take_eq h, trims_iff]
  simp only [String.isEmpty_iff]
  split_ifs with hempty
  · rw [hempty]
    simp only [false_iff, not_and]
    exact fun hne hcore => hne hcore.symm
  · rw [Option.some_inj]
    exact ⟨fun hcore => ⟨hcore ▸ hempty, hcore⟩, fun hcore => hcore.2⟩

theorem take_eq_none_iff (h : ∀ b ∈ l.bytes, accepts b = true) :
    l.take.1 = none ↔ ∀ b ∈ l.bytes, b = 0x09 ∨ b = 0x20 := by
  have hblanks : Script.Blanks l.text.toList ↔ ∀ b ∈ l.bytes, b = 0x09 ∨ b = 0x20 := by
    rw [text, String.toList_ofList, Script.Blanks, List.forall_mem_map]
    exact forall₂_congr fun b hb => isBlank_ofUInt8_iff (h b hb)
  rw [take_eq h, ← hblanks, ← trim_eq_nil_iff, ← String.ofList_eq_empty_iff, ← trimText]
  simp only [String.isEmpty_iff]
  split_ifs with hempty
  · exact iff_of_true rfl hempty
  · exact iff_of_false (by simp) hempty

end Taking

/-! ## What a line holds -/

theorem mem_take_fitting {ops : List Op} {cap : Nat} :
    ∀ b ∈ (fitting ops).take cap, accepts b = true := by
  intro b hb
  have hmem := List.mem_of_mem_take hb
  rw [fitting_eq] at hmem
  exact (List.mem_filter.mp hmem).2

theorem push_fst_iff {l : LineBuffer} {b : UInt8} :
    (l.push b).1 = true ↔ accepts b = true ∧ l.bytes.length < l.cap := by
  unfold push
  split_ifs with h
  · exact iff_of_true rfl h.symm
  · exact iff_of_false (by simp) fun hb => h hb.symm

theorem perform_fitting (cap : Nat) (ops : List Op) (op : Op) :
    (op.perform ⟨cap, (fitting ops).take cap⟩).2 = ⟨cap, (fitting (ops ++ [op])).take cap⟩ := by
  cases op with
  | push b =>
    rw [Op.perform, push, fitting_push, List.length_take]
    cases hb : accepts b with
    | false => simp
    | true =>
      rcases Nat.lt_or_ge (fitting ops).length cap with hlt | hge
      · have hfits : min cap (fitting ops).length < cap := by omega
        have hall : (fitting ops ++ [b]).length ≤ cap := by
          rw [List.length_append, List.length_singleton]
          exact hlt
        simp only [hfits, and_self, if_true]
        rw [List.take_of_length_le (Nat.le_of_lt hlt), List.take_of_length_le hall]
      · -- the line is full, and what comes now is cut off on both sides
        have hfull : ¬ min cap (fitting ops).length < cap := by omega
        simp only [hfull, false_and, if_false, if_true]
        rw [List.take_append_of_le_length hge]
  | clear => rw [Op.perform, fitting_of_not_isPush ops rfl, clear, List.take_nil]
  | take =>
    -- the bytes so far are text, or the line would stay as it is
    rw [Op.perform, take_eq mem_take_fitting, fitting_of_not_isPush ops rfl, clear, List.take_nil]

/-- **What was typed is what the line holds**, as far as there is room. -/
theorem after_new (cap : Nat) (ops : List Op) :
    (new cap).after ops = ⟨cap, (fitting ops).take cap⟩ := by
  induction ops using List.reverseRecOn with
  | nil => exact congrArg (LineBuffer.mk cap) List.take_nil.symm
  | append_singleton ops op ih => rw [after_concat, ih, perform_fitting]

/-- A bell is passed over, and there is room for two bytes. -/
example : ((new 2).after
    [.push 0x61, .clear, .push 0x68, .push 0x07, .push 0x69, .push 0x21]).bytes = [0x68, 0x69] := by
  decide

end LineBuffer

/-! ## Lines in memory of a fixed size -/

open LineBuffer

/-- A line in memory of a fixed size: its cells, and how many of them are taken up. -/
structure FixedLine (cap : Nat) where
  cells : Vector UInt8 cap
  len : Nat

namespace FixedLine

variable {cap : Nat}

/-- An empty line over zeroed memory. -/
def new (cap : Nat) : FixedLine cap := ⟨Vector.replicate cap 0, 0⟩

/-- Writes into a cell, which must be there. -/
def store (cells : Vector UInt8 cap) (i : Nat) (b : UInt8) : Checked (Vector UInt8 cap) :=
  if h : i < cap then .ok (cells.set i b h) else .error .outOfRange

/-- The first `n` cells, which must be there. -/
def front (cells : Vector UInt8 cap) (n : Nat) : Checked (List UInt8) :=
  if n ≤ cap then .ok (cells.toList.take n) else .error .outOfRange

/-- Takes in a byte; tells whether it was accepted. -/
def push (f : FixedLine cap) (b : UInt8) : Checked (Bool × FixedLine cap) :=
  if cap ≤ f.len ∨ accepts b = false then return (false, f)
  else do
    let cells ← store f.cells f.len b
    return (true, ⟨cells, f.len + 1⟩)

/-- Drops the line; its bytes stay in memory. -/
def clear (f : FixedLine cap) : FixedLine cap := { f with len := 0 }

/-- The line without the blanks around it. A line that is not text is left as it is. -/
def take (f : FixedLine cap) : Checked (Option String × FixedLine cap) := do
  let bytes ← front f.cells f.len
  match String.fromUTF8? bytes.toByteArray with
  | none => return (none, f)
  | some s =>
    let text := trimText s
    return (if text.isEmpty then none else some text, f.clear)

/-- Does something with a line. -/
def perform (f : FixedLine cap) : Op → Checked (Answer × FixedLine cap)
  | .push b => do
    let (accepted, f) ← f.push b
    return (.pushed accepted, f)
  | .clear => return (.cleared, f.clear)
  | .take => do
    let (text, f) ← f.take
    return (.taken text, f)

/-- Does one thing after the other with a line. -/
def run : FixedLine cap → List Op → Checked (List Answer × FixedLine cap)
  | f, [] => return ([], f)
  | f, op :: ops => do
    let (answer, f) ← f.perform op
    let (rest, f) ← f.run ops
    return (answer :: rest, f)

/-- The cells that are taken up hold the line. -/
structure Holds (f : FixedLine cap) (l : LineBuffer) : Prop where
  cap_eq : l.cap = cap
  len_le : f.len ≤ cap
  front_eq : f.cells.toList.take f.len = l.bytes

variable {f : FixedLine cap} {l : LineBuffer}

theorem Holds.len_eq (h : Holds f l) : f.len = l.bytes.length := by
  rw [← h.front_eq, List.length_take, Vector.length_toList, Nat.min_eq_left h.len_le]

theorem holds_new (cap : Nat) : Holds (new cap) (.new cap) := ⟨rfl, Nat.zero_le cap, List.take_zero⟩

theorem Holds.clear (h : Holds f l) : Holds f.clear l.clear :=
  ⟨h.cap_eq, Nat.zero_le cap, List.take_zero⟩

/-- The cell behind the line is there as long as the line is not full. -/
theorem Holds.push (h : Holds f l) (b : UInt8) :
    ∃ f', f.push b = .ok ((l.push b).1, f') ∧ Holds f' (l.push b).2 := by
  unfold FixedLine.push LineBuffer.push
  rw [← h.len_eq, h.cap_eq]
  by_cases hroom : f.len < cap ∧ accepts b = true
  · have hnot : ¬ (cap ≤ f.len ∨ accepts b = false) := by
      rw [not_or, Nat.not_le, Bool.not_eq_false]
      exact hroom
    rw [if_pos hroom, if_neg hnot, store, dif_pos hroom.1]
    refine ⟨_, rfl, rfl, hroom.1, ?_⟩
    -- the new cell lies behind the others, and those are as they were
    rw [Vector.toList_set, List.take_add_one, List.take_set_of_le (Nat.le_refl _), h.front_eq,
      List.getElem?_set_self (by rw [Vector.length_toList]; exact hroom.1)]
    rfl
  · have hfull : cap ≤ f.len ∨ accepts b = false := by
      rw [not_and_or, Nat.not_lt, Bool.not_eq_true] at hroom
      exact hroom
    rw [if_neg hroom, if_pos hfull]
    exact ⟨f, rfl, h⟩

/-- The line never reaches beyond the last cell. -/
theorem Holds.take (h : Holds f l) :
    ∃ f', f.take = .ok (l.take.1, f') ∧ Holds f' l.take.2 := by
  have hfront : front f.cells f.len = .ok l.bytes := by
    rw [front, if_pos h.len_le, h.front_eq]
  unfold FixedLine.take LineBuffer.take
  rw [hfront, Guarded.ok_bind]
  cases String.fromUTF8? l.bytes.toByteArray with
  | none => exact ⟨f, rfl, h⟩
  | some s =>
    dsimp only
    exact ⟨f.clear, rfl, h.clear⟩

theorem perform_holds (h : Holds f l) (op : Op) :
    ∃ f', f.perform op = .ok ((op.perform l).1, f') ∧ Holds f' (op.perform l).2 := by
  cases op with
  | push b =>
    obtain ⟨f', hpush, hf'⟩ := h.push b
    refine ⟨f', ?_, hf'⟩
    rw [perform, hpush]
    rfl
  | clear => exact ⟨f.clear, rfl, h.clear⟩
  | take =>
    obtain ⟨f', htake, hf'⟩ := h.take
    refine ⟨f', ?_, hf'⟩
    rw [perform, htake]
    rfl

/-- **No access fails**, and the answers are those of a line that has no memory to mind. -/
theorem run_holds (h : Holds f l) (ops : List Op) :
    ∃ f', f.run ops = .ok (l.answers ops, f') ∧ Holds f' (l.after ops) := by
  induction ops generalizing f l with
  | nil => exact ⟨f, rfl, h⟩
  | cons op ops ih =>
    obtain ⟨f₁, hop, hf₁⟩ := perform_holds h op
    obtain ⟨f₂, hops, hf₂⟩ := ih hf₁
    refine ⟨f₂, ?_, hf₂⟩
    rw [run, hop, Guarded.ok_bind]
    dsimp only
    rw [hops]
    rfl

end FixedLine

/-- **A line holds the first bytes that were typed.** Take a line of any capacity, and let bytes be
offered to it and the line be dropped and taken in any order. Then it holds the first bytes, as many
as it has room for, of those that were offered since it was last dropped or taken and are tabs or
printable; and it accepts the next byte exactly if that is one of them. In memory of that size no
access is out of range, and the answers are the same. The line is text, and to take it always
empties it: it gives the text without the blanks around it, or nothing if there are only blanks. -/
theorem LineBuffer.holds_first_typed (cap : Nat) (ops : List Op) :
    let l := (new cap).after ops
    l.bytes = (fitting ops).take cap ∧
    (∀ b, (l.push b).1 = true ↔
      (b = 0x09 ∨ (0x20 ≤ b ∧ b ≤ 0x7e)) ∧ (fitting ops).length < cap) ∧
    (∃ cells, (FixedLine.new cap).run ops =
        .ok ((new cap).answers ops, ⟨cells, l.bytes.length⟩) ∧
      cells.toList.take l.bytes.length = l.bytes) ∧
    l.take.2 = new cap ∧
    String.fromUTF8? l.bytes.toByteArray = some l.text ∧
    (∀ core, l.take.1 = some core ↔ core ≠ "" ∧ Trims l.text core) ∧
    (l.take.1 = none ↔ ∀ b ∈ l.bytes, b = 0x09 ∨ b = 0x20) := by
  intro l
  have hl : l = ⟨cap, (fitting ops).take cap⟩ := after_new cap ops
  have htyped : ∀ b ∈ l.bytes, accepts b = true := by
    rw [hl]
    exact mem_take_fitting
  obtain ⟨f, hrun, hf⟩ := FixedLine.run_holds (FixedLine.holds_new cap) ops
  refine ⟨by rw [hl], fun b => ?_, ⟨f.cells, ?_, ?_⟩, ?_, fromUTF8?_bytes htyped,
    fun core => take_eq_some_iff htyped, take_eq_none_iff htyped⟩
  · have hroom : min cap (fitting ops).length < cap ↔ (fitting ops).length < cap := by omega
    rw [push_fst_iff, accepts_iff, hl, List.length_take]
    exact and_congr_right fun _ => hroom
  · rw [hrun, ← hf.len_eq]
  · rw [← hf.len_eq]
    exact hf.front_eq
  · rw [take_eq htyped, hl]
    rfl

end Coop
