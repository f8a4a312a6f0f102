import Coop.Proofs.Machine.Heap

/-!
# A machine that checks every access

The interpreter once more, with every access to memory and every sum and difference written out and
tested: sums against the largest word, differences against zero, indices and ranges against the
bytes they are taken from. A test that fails is a trap. There never is one, whatever bytes are run,
and the results are those of the machine that tests nothing.

* `Trap`, `Checked`: failed tests, and computations that may run into one;
* `Guarded.add`, `Guarded.sub`, `Guarded.index`, `Guarded.range`: the tests;
* `Guarded.body`, `Guarded.alloc`, `Guarded.print`, `Guarded.execute`, `Guarded.run`,
  `Guarded.step`: images, heaps, one instruction, one slice;
* `body_eq`, `print_eq`, `execute_eq`, **`run_eq`**, `step_eq`: none of them runs into a trap.
-/

namespace Coop

/-- A test that failed. -/
inductive Trap where
  | overflow
  | underflow
  | outOfRange
  /-- An interval whose lower end is above its upper end. -/
  | reversed
  deriving DecidableEq

/-- A computation that may run into a trap. -/
abbrev Checked := Except Trap

namespace Guarded

/-! ## Tests -/

section Tests

variable (limit : Nat)

/-- A sum, which must not be larger than the largest word. -/
def add (a b : Nat) : Checked Nat := if a + b ≤ limit then .ok (a + b) else .error .overflow

/-- A number, which must not be larger than the largest word. -/
def word (n : Nat) : Checked Nat := if n ≤ limit then .ok n else .error .overflow

/-- A difference, which must not be negative. -/
def sub (a b : Nat) : Checked Nat := if b ≤ a then .ok (a - b) else .error .underflow

/-- A sum, if it is not larger than the largest word. -/
def add? (a b : Nat) : Option Nat := if a + b ≤ limit then some (a + b) else none

/-- The bytes from `start` to `stop`, if they are there. -/
def range? (b : ByteArray) (start stop : Nat) : Option ByteArray :=
  if start ≤ stop ∧ stop ≤ b.size then some (b.extract start stop) else none

/-- A byte, which must be there. -/
def index (b : ByteArray) (i : Nat) : Checked UInt8 :=
  match byteAt? b i with
  | some byte => .ok byte
  | none => .error .outOfRange

/-- The bytes from `start` to `stop`, which must be there. -/
def range (b : ByteArray) (start stop : Nat) : Checked ByteArray :=
  match range? b start stop with
  | some bytes => .ok bytes
  | none => .error .outOfRange

end Tests

/-! ## Operands and images -/

/-- The number that two bytes make. -/
def number16 (field : ByteArray) : Checked Nat := do
  let hi ← index field 0
  let lo ← index field 1
  return hi.toNat * 0x100 + lo.toNat

/-- The number that four bytes make. -/
def number32 (field : ByteArray) : Checked Nat := do
  let b₀ ← index field 0
  let b₁ ← index field 1
  let b₂ ← index field 2
  let b₃ ← index field 3
  return (b₀.toNat * 0x100 + b₁.toNat) * 0x10000 + (b₂.toNat * 0x100 + b₃.toNat)

section Operands

variable (limit : Nat)

/-- The number operand at an offset; a missing one is no trap. -/
def numberAt (body : ByteArray) (i : Nat) : Checked (Option Nat) :=
  match (add? limit i 4).bind (range? body i) with
  | none => return none
  | some field => do
    let n ← number32 field
    return some n

/-- The text operand at an offset; a missing one is no trap. -/
def textAt (body : ByteArray) (i : Nat) : Checked (Option ByteArray) :=
  match add? limit i 2 with
  | none => return none
  | some start =>
    match range? body i start with
    | none => return none
    | some field => do
      let len ← word limit (← number16 field)
      return (add? limit start len).bind (range? body start)

/-- The body of a byte string that opens like an image; a broken image is no trap. -/
def bodyBehind (image : ByteArray) : Checked (Except ImageError ByteArray) :=
  match range? image 8 Image.headerLen with
  | none => return .error .truncatedHeader
  | some field => do
    let len ← word limit (← number32 field)
    match (add? limit Image.headerLen len).bind (range? image Image.headerLen) with
    | none => return .error .truncatedBody
    | some bytes => return .ok bytes

/-- The body of an image. -/
def body (image : ByteArray) : Checked (Except ImageError ByteArray) := do
  if image.size < 8 then
    return .error .badMagic
  let front ← range image 0 8
  if front ≠ Image.magic then
    return .error .badMagic
  bodyBehind limit image

/-! ## Heaps -/

/-- The size of the part of the memory above the image. -/
def region (a : Arena) : Checked Nat := sub a.capacity a.imageLen

/-- The place of the fill level in that part. -/
def level (a : Arena) : Checked Nat := sub a.top a.imageLen

/-- The bytes above everything in use. -/
def free (a : Arena) : Checked Nat := do
  let region ← region a
  let level ← level a
  sub region level

/-- Takes `len` bytes on top of what is in use, which must lie inside the memory. -/
def alloc (a : Arena) (len : Nat) : Checked (Except Exhausted (Nat × Arena)) := do
  let free ← free a
  if free < len then
    return .error ⟨len, free⟩
  let start ← level a
  let top ← add limit a.top len
  let stop ← add limit start len
  if stop ≤ (← region a) then
    return .ok (a.imageLen + start, { a with top := top, peak := max a.peak top })
  else throw .outOfRange

/-- Writes into the object of `len` bytes at `start`, from its place `i` on. -/
def write (a : Arena) (start len i : Nat) (bytes : ByteArray) : Checked Arena :=
  if i + bytes.size ≤ len then .ok (a.write (start + i) bytes) else .error .outOfRange

/-- Goes back to a mark between the image and the fill level. -/
def rewind (a : Arena) (m : Mark) : Checked Arena :=
  if a.imageLen ≤ a.top then .ok (a.rewind m) else .error .reversed

/-- Puts a line together in the object of `len` bytes at `start`. -/
def writeLine (a : Arena) (start len : Nat) (text : ByteArray) : Checked Arena := do
  let a ← write a start len 0 text
  write a start len text.size ⟨#[0x0a]⟩

/-! ## Instructions -/

/-- Prints a line: it is put together on the heap and written from there. -/
def print (m : Machine) (text : ByteArray) : Checked Move := do
  let len ← add limit text.size 1
  match ← alloc limit m.arena len with
  | .error e => return .back (.fault (.outOfMemory e)) m
  | .ok (start, arena) =>
    let arena ← writeLine arena start len text
    let written := (String.fromUTF8? (arena.read start len)).getD "?\n"
    let arena ← rewind arena m.arena.mark
    return .next ⟨m.pc, arena, m.output ++ written⟩

/-- Goes on with an operand that was found, or faults. -/
def withOperand {α : Type} (m : Machine) (operand : Option α) (next : α → Checked Move) :
    Checked Move :=
  match operand with
  | some x => next x
  | none => return .back (.fault (.badImage (.truncatedOperand m.pc))) m

/-- Executes the instruction at the machine's place. -/
def execute (body : ByteArray) (m : Machine) : Checked Move :=
  match byteAt? body m.pc with
  | none => return .back .done m
  | some op =>
    if op = 0x00 then return .back .done m
    else if op = 0x01 then do
      withOperand m (← textAt limit body (← add limit m.pc 1)) fun text => do
        let pc ← add limit (← add limit m.pc 3) text.size
        print limit { m with pc := pc } text
    else if op = 0x02 then do
      withOperand m (← numberAt limit body (← add limit m.pc 1)) fun ms => do
        return .back (.sleep ms) { m with pc := ← add limit m.pc 5 }
    else if op = 0x03 then do
      return .back .yield { m with pc := ← add limit m.pc 1 }
    else if op = 0x04 then do
      return .back .suspend { m with pc := ← add limit m.pc 1 }
    else if op = 0x05 then do
      withOperand m (← numberAt limit body (← add limit m.pc 1)) fun target => do
        return .next { m with pc := ← word limit target }
    else if op = 0x06 then do
      withOperand m (← textAt limit body (← add limit m.pc 1)) fun text =>
        return .back (.fault (.raised (textLossy text))) m
    else return .back (.fault (.badImage (.unknownOpcode op m.pc))) m

/-- Runs at most `budget` instructions, and counts them. -/
def run (body : ByteArray) : (budget : Nat) → Machine → Checked (Slice × Nat)
  | 0, m => return (⟨.yield, 0, m⟩, 0)
  | budget + 1, m => do
    match ← execute limit body m with
    | .next m => do
      let (slice, count) ← run body budget m
      return (slice, count + 1)
    | .back h m => return (⟨h, budget, m⟩, 1)

/-- Runs a slice of an image. -/
def step (image : ByteArray) (budget : Nat) (m : Machine) : Checked (Slice × Nat) := do
  match ← Guarded.body limit image with
  | .error e => return (⟨.fault (.badImage e), budget, m⟩, 0)
  | .ok body => run limit body budget m

end Operands

/-! ## No test fails -/

theorem ok_bind {α β : Type} (x : α) (f : α → Checked β) : (Except.ok x >>= f) = f x := rfl

section Bytes

variable {limit : Nat} {b : ByteArray} {i : Nat}

theorem add_eq {x y : Nat} (h : x + y ≤ limit) : add limit x y = .ok (x + y) := if_pos h

theorem add_below {size : Nat} (hsize : 0 < size) (x y : Nat) :
    add (size - 1) x y = if x + y < size then .ok (x + y) else .error .overflow := by
  simp only [add, Nat.le_sub_one_iff_lt hsize]

theorem toNat_sum32 {n : UInt32} {k : Nat} (h : n.toNat + k < UInt32.size) :
    (n + .ofNat k).toNat = n.toNat + k := by
  rw [UInt32.toNat_add, UInt32.toNat_ofNat', Nat.add_mod_mod, Nat.mod_eq_of_lt h]

theorem toNat_sum64 {n : UInt64} {k : Nat} (h : n.toNat + k < UInt64.size) :
    (n + .ofNat k).toNat = n.toNat + k := by
  rw [UInt64.toNat_add, UInt64.toNat_ofNat', Nat.add_mod_mod, Nat.mod_eq_of_lt h]

theorem sub_eq {x y : Nat} (h : y ≤ x) : sub x y = .ok (x - y) := if_pos h

theorem word_eq {n : Nat} (h : n ≤ limit) : word limit n = .ok n := if_pos h

theorem index_extract {j k : Nat} (hk : i + k < j) (hj : j ≤ b.size) :
    ∃ byte, index (b.extract i j) k = .ok byte ∧ byteAt? b (i + k) = some byte := by
  have hlt : i + k < b.size := Nat.lt_of_lt_of_le hk hj
  have hin : k < (b.extract i j).size := by
    rw [ByteArray.size_extract]
    omega
  refine ⟨b[i + k], ?_, dif_pos hlt⟩
  unfold index byteAt?
  rw [dif_pos hin, ByteArray.getElem_extract hin]

theorem number16_extract (h : i + 2 ≤ b.size) :
    ∃ n, number16 (b.extract i (i + 2)) = .ok n ∧ be16At? b i = some n := by
  obtain ⟨hi, hhi, hhi'⟩ := index_extract (show i + 0 < i + 2 by omega) h
  obtain ⟨lo, hlo, hlo'⟩ := index_extract (show i + 1 < i + 2 by omega) h
  refine ⟨hi.toNat * 0x100 + lo.toNat, ?_, ?_⟩
  · rw [number16, hhi, hlo]
    rfl
  · rw [be16At?, ← Nat.add_zero i, hhi', Nat.add_zero, hlo']
    rfl

theorem number32_extract (h : i + 4 ≤ b.size) :
    ∃ n, number32 (b.extract i (i + 4)) = .ok n ∧ be32At? b i = some n := by
  obtain ⟨b₀, h₀, h₀'⟩ := index_extract (show i + 0 < i + 4 by omega) h
  obtain ⟨b₁, h₁, h₁'⟩ := index_extract (show i + 1 < i + 4 by omega) h
  obtain ⟨b₂, h₂, h₂'⟩ := index_extract (show i + 2 < i + 4 by omega) h
  obtain ⟨b₃, h₃, h₃'⟩ := index_extract (show i + 3 < i + 4 by omega) h
  refine ⟨(b₀.toNat * 0x100 + b₁.toNat) * 0x10000 + (b₂.toNat * 0x100 + b₃.toNat), ?_, ?_⟩
  · rw [number32, h₀, h₁, h₂, h₃]
    rfl
  · rw [be32At?, be16At?, be16At?, ← Nat.add_zero i, h₀', Nat.add_zero, h₁', h₂', h₃']
    rfl

theorem be16At?_of_lt (h : b.size < i + 2) : be16At? b i = none := by
  have hnone : byteAt? b (i + 1) = none := dif_neg (by omega)
  cases hhi : byteAt? b i <;> simp [be16At?, hhi, hnone]

theorem be32At?_of_lt (h : b.size < i + 4) : be32At? b i = none := by
  have hnone : be16At? b (i + 2) = none := be16At?_of_lt (by omega)
  cases hhi : be16At? b i <;> simp [be32At?, hhi, hnone]

theorem end_be32At? {n : Nat} (h : be32At? b i = some n) : i + 4 ≤ b.size := by
  refine Nat.le_of_not_lt fun hlt => ?_
  rw [be32At?_of_lt hlt] at h
  cases h

theorem end_textAt? {text : ByteArray} (h : Instr.textAt? b i = some text) :
    i + 2 + text.size ≤ b.size := by
  unfold Instr.textAt? at h
  cases hlen : be16At? b i with
  | none => simp [hlen] at h
  | some len =>
    have hslice : slice? b (i + 2) len = some text := by simpa [hlen] using h
    unfold slice? at hslice
    split_ifs at hslice with hle
    cases hslice
    rw [ByteArray.size_extract]
    omega

theorem range?_eq_slice? (hb : b.size ≤ limit) (len : Nat) :
    (add? limit i len).bind (range? b i) = slice? b i len := by
  unfold add? range? slice?
  by_cases h : i + len ≤ b.size
  · rw [if_pos (Nat.le_trans h hb), if_pos h, Option.bind_some, if_pos ⟨Nat.le_add_right i len, h⟩]
  · rw [if_neg h]
    split_ifs with hl
    · rw [Option.bind_some, if_neg fun hr => h hr.2]
    · rfl

theorem numberAt_eq (hb : b.size ≤ limit) (i : Nat) : numberAt limit b i = .ok (be32At? b i) := by
  unfold numberAt
  rw [range?_eq_slice? hb, slice?]
  rcases Nat.lt_or_ge b.size (i + 4) with hlt | hle
  · rw [if_neg (Nat.not_le_of_lt hlt), be32At?_of_lt hlt]
    rfl
  · obtain ⟨n, hn, hn'⟩ := number32_extract hle
    rw [if_pos hle, hn']
    dsimp only
    rw [hn]
    rfl

theorem textAt_eq (hw : 0xffffffff ≤ limit) (hb : b.size ≤ limit) (i : Nat) :
    textAt limit b i = .ok (Instr.textAt? b i) := by
  have hfield := range?_eq_slice? (i := i) hb 2
  unfold textAt Instr.textAt?
  rcases Nat.lt_or_ge b.size (i + 2) with hlt | hle
  · rw [slice?, if_neg (Nat.not_le_of_lt hlt)] at hfield
    rw [be16At?_of_lt hlt]
    cases hadd : add? limit i 2 with
    | none => rfl
    | some start =>
      rw [hadd, Option.bind_some] at hfield
      dsimp only
      rw [hfield]
      rfl
  · obtain ⟨n, hn, hn'⟩ := number16_extract hle
    have hlt := be16At?_lt hn'
    have hadd : add? limit i 2 = some (i + 2) := if_pos (Nat.le_trans hle hb)
    rw [hadd, Option.bind_some, slice?, if_pos hle] at hfield
    rw [hadd, hn']
    dsimp only
    rw [hfield]
    dsimp only
    rw [hn, ok_bind, word_eq (by omega), ok_bind, range?_eq_slice? hb]
    rfl

theorem bodyBehind_eq (hw : 0xffffffff ≤ limit) (hb : b.size ≤ limit) (hm : Image.isImage b) :
    bodyBehind limit b = .ok (Image.body b) := by
  have hfield : range? b 8 Image.headerLen =
      if 8 + 4 ≤ b.size then some (b.extract 8 (8 + 4)) else none := by
    unfold range? Image.headerLen
    simp
  unfold bodyBehind Image.body
  rw [if_pos hm, hfield]
  rcases Nat.lt_or_ge b.size (8 + 4) with hlt | hle
  · rw [if_neg (Nat.not_le_of_lt hlt), be32At?_of_lt hlt]
    rfl
  · obtain ⟨n, hn, hn'⟩ := number32_extract hle
    have hlt := be32At?_lt hn'
    rw [if_pos hle, hn']
    dsimp only
    rw [hn, ok_bind, word_eq (by omega), ok_bind, range?_eq_slice? hb]
    cases slice? b Image.headerLen n <;> rfl

/-- Looking for the body of an image runs into no trap. -/
theorem body_eq (hw : 0xffffffff ≤ limit) (hb : b.size ≤ limit) :
    body limit b = .ok (Image.body b) := by
  have hbad (h : b.extract 0 8 ≠ Image.magic) : Image.body b = .error .badMagic := by
    rw [Image.body, Image.isImage, decide_eq_false h]
    rfl
  unfold body
  by_cases h8 : b.size < 8
  · have hne : b.extract 0 8 ≠ Image.magic := by
      intro h
      have hsize := congrArg ByteArray.size h
      rw [ByteArray.size_extract, Image.size_magic] at hsize
      omega
    rw [if_pos h8, hbad hne]
    rfl
  · have hfront : range b 0 8 = .ok (b.extract 0 8) := by
      rw [range, range?, if_pos ⟨Nat.zero_le 8, Nat.le_of_not_lt h8⟩]
    rw [if_neg h8, hfront, ok_bind]
    by_cases hm : b.extract 0 8 = Image.magic
    · rw [if_neg (not_not_intro hm), bodyBehind_eq hw hb (decide_eq_true hm)]
    · rw [if_pos hm, hbad hm]
      rfl

end Bytes

/-! ## No write leaves its object -/

theorem overwrite_overwrite {memory bytes bytes' : ByteArray} {start : Nat}
    (h : start + bytes.size ≤ memory.size) :
    overwrite (overwrite memory start bytes) (start + bytes.size) bytes' =
      overwrite memory start (bytes ++ bytes') := by
  have hfront : (memory.extract 0 start ++ bytes).size = start + bytes.size := by
    rw [ByteArray.size_append, ByteArray.size_extract]
    omega
  have hbehind : (memory.extract 0 start ++ bytes).extract
      (start + bytes.size + bytes'.size) memory.size = ByteArray.empty := by
    rw [ByteArray.extract_eq_empty_iff, hfront]
    omega
  rw [overwrite_eq, size_overwrite h, overwrite_eq memory start bytes, overwrite_eq,
    ByteArray.extract_append_eq_left hfront.symm, ByteArray.extract_append, hbehind,
    ByteArray.empty_append, hfront, ByteArray.extract_extract, ByteArray.size_append,
    ByteArray.append_assoc (a := memory.extract 0 start), Nat.add_sub_cancel_left,
    Nat.add_sub_cancel' h, Nat.min_self, Nat.add_assoc start]

theorem extract_overwrite {memory bytes : ByteArray} {start : Nat}
    (h : start + bytes.size ≤ memory.size) :
    (overwrite memory start bytes).extract start (start + bytes.size) = bytes := by
  have hsize : (memory.extract 0 start).size = start := by
    rw [ByteArray.size_extract]
    omega
  rw [overwrite_eq, ByteArray.append_assoc, ByteArray.extract_append, hsize, Nat.sub_self,
    Nat.add_sub_cancel_left, ByteArray.extract_append_eq_left rfl, ByteArray.extract_extract]
  simp

section Heaps

variable {limit start : Nat} {a : Arena} {text : ByteArray}

theorem free_eq (h : a.Valid) : free a = .ok a.free := by
  have himage := h.image_le
  have htop := Nat.le_trans h.top_le h.peak_le
  unfold free region level
  rw [sub_eq (Nat.le_trans himage htop), ok_bind, sub_eq himage, ok_bind, sub_eq (by omega),
    Arena.free]
  congr 1
  omega

theorem alloc_eq (h : a.Valid) (hc : a.capacity ≤ limit) (len : Nat) :
    alloc limit a len = .ok (a.alloc len) := by
  have himage := h.image_le
  have htop := Nat.le_trans h.top_le h.peak_le
  unfold alloc Arena.alloc
  rw [free_eq h, ok_bind]
  rcases Nat.lt_or_ge a.free len with hlt | hle
  · rw [if_pos hlt, if_neg (Nat.not_le_of_lt hlt)]
    rfl
  · have hfit : a.top + len ≤ a.capacity := by
      unfold Arena.free at hle
      omega
    unfold level region
    rw [if_neg (Nat.not_lt_of_le hle), if_pos hle, sub_eq himage, ok_bind,
      add_eq (Nat.le_trans hfit hc), ok_bind, add_eq (by omega), ok_bind,
      sub_eq (Nat.le_trans himage htop), ok_bind, if_pos (by omega), Nat.add_sub_cancel' himage]
    rfl

theorem writeLine_eq (h : start + (text.size + 1) ≤ a.capacity) :
    writeLine a start (text.size + 1) text = .ok (a.write start (text.push 0x0a)) := by
  have hpush : text.push 0x0a = text ++ ⟨#[0x0a]⟩ := by
    rw [ByteArray.ext_iff, ByteArray.data_push, ByteArray.data_append]
    rfl
  have hin : 0 + text.size ≤ text.size + 1 := by omega
  have hlast : text.size + (ByteArray.mk #[0x0a]).size ≤ text.size + 1 := Nat.le_refl _
  have hfront : start + text.size ≤ a.memory.size := by
    unfold Arena.capacity at h
    omega
  unfold writeLine write
  rw [if_pos hin, ok_bind, if_pos hlast, hpush]
  exact congrArg (fun memory => Except.ok { a with memory := memory }) (overwrite_overwrite hfront)

theorem read_line (h : start + (text.size + 1) ≤ a.capacity) :
    (a.write start (text.push 0x0a)).read start (text.size + 1) = text.push 0x0a := by
  have hfits : start + (text.push 0x0a).size ≤ a.memory.size := by rwa [ByteArray.size_push]
  have hline := extract_overwrite hfits
  rwa [ByteArray.size_push] at hline

theorem rewind_eq (h : a.imageLen ≤ a.top) (mark : Mark) : rewind a mark = .ok (a.rewind mark) :=
  if_pos h

end Heaps

/-! ## No instruction runs into a trap -/

section Machines

variable {limit : Nat} {m : Machine} {body image : ByteArray}

/-- Printing a line runs into no trap, and the line is written as it stands on the heap. -/
theorem print_eq (h : m.arena.Valid) (hc : m.arena.capacity ≤ limit) {text : ByteArray}
    (ht : text.size + 1 ≤ limit) : print limit m text = .ok (m.print text) := by
  unfold print
  rw [add_eq ht, ok_bind, alloc_eq h hc, ok_bind]
  rcases Nat.lt_or_ge m.arena.free (text.size + 1) with hlt | hle
  · rw [Machine.print_of_lt hlt, Arena.alloc, if_neg (Nat.not_le_of_lt hlt)]
    rfl
  · have htop := Nat.le_trans h.top_le h.peak_le
    obtain ⟨grown, hgrown⟩ : ∃ grown : Arena, grown = { m.arena with
      top := m.arena.top + (text.size + 1)
      peak := max m.arena.peak (m.arena.top + (text.size + 1)) } := ⟨_, rfl⟩
    have halloc : m.arena.alloc (text.size + 1) = .ok (m.arena.top, grown) := by
      rw [hgrown, Arena.alloc, if_pos hle]
    have hpassed : m.arena.passed (text.push 0x0a) =
        (grown.write m.arena.top (text.push 0x0a)).rewind m.arena.mark := by
      rw [hgrown, Arena.passed, ByteArray.size_push]
    have hfit : m.arena.top + (text.size + 1) ≤ grown.capacity := by
      have hcap : grown.capacity = m.arena.capacity := by rw [hgrown]; rfl
      rw [hcap]
      unfold Arena.free at hle
      omega
    have himage : (grown.write m.arena.top (text.push 0x0a)).imageLen ≤
        (grown.write m.arena.top (text.push 0x0a)).top := by
      rw [hgrown]
      exact Nat.le_trans h.image_le (Nat.le_add_right _ _)
    rw [Machine.print_of_le hle, hpassed, halloc]
    dsimp only
    rw [writeLine_eq hfit, ok_bind, read_line hfit, rewind_eq himage, ok_bind]
    rfl

/-- No instruction runs into a trap, whatever bytes it is made of. -/
theorem execute_eq (hw : 0xffffffff ≤ limit) (hb : body.size ≤ limit) (h : m.arena.Valid)
    (hc : m.arena.capacity ≤ limit) : execute limit body m = .ok (m.execute body) := by
  unfold execute Machine.execute Instr.decode
  cases hop : byteAt? body m.pc with
  | none => rfl
  | some op =>
    have hlt : m.pc < body.size := by
      unfold byteAt? at hop
      split_ifs at hop with hlt
      exact hlt
    have hnext : add limit m.pc 1 = .ok (m.pc + 1) := add_eq (by omega)
    dsimp only
    split_ifs
    · rfl
    · rw [hnext, ok_bind, textAt_eq hw hb, ok_bind]
      cases htext : Instr.textAt? body (m.pc + 1) with
      | none => rfl
      | some text =>
        -- the text lies inside the body, so that the place behind it fits a word
        have hend := end_textAt? htext
        unfold withOperand
        dsimp only
        rw [add_eq (by omega), ok_bind, add_eq (by omega), ok_bind]
        exact print_eq (m := { m with pc := m.pc + 3 + text.size }) h hc (by omega)
    · rw [hnext, ok_bind, numberAt_eq hb, ok_bind]
      cases hms : be32At? body (m.pc + 1) with
      | none => rfl
      | some ms =>
        have hend := end_be32At? hms
        unfold withOperand
        dsimp only
        rw [add_eq (by omega)]
        rfl
    · rw [hnext]
      rfl
    · rw [hnext]
      rfl
    · rw [hnext, ok_bind, numberAt_eq hb, ok_bind]
      cases htarget : be32At? body (m.pc + 1) with
      | none => rfl
      | some target =>
        have hlt := be32At?_lt htarget
        unfold withOperand
        dsimp only
        rw [word_eq (by omega)]
        rfl
    · rw [hnext, ok_bind, textAt_eq hw hb, ok_bind]
      cases Instr.textAt? body (m.pc + 1) <;> rfl
    · rfl

/-- **No slice runs into a trap.** The instructions it executes and the budget it leaves make up the
budget it got. -/
theorem run_eq (hw : 0xffffffff ≤ limit) (hb : body.size ≤ limit) (h : m.arena.Valid)
    (hc : m.arena.capacity ≤ limit) (budget : Nat) : ∃ count,
      run limit body budget m = .ok (m.run body budget, count) ∧
        count + (m.run body budget).budget = budget := by
  induction budget generalizing m with
  | zero => exact ⟨0, rfl, rfl⟩
  | succ budget ih =>
    have hkept := Machine.kept_execute h body
    unfold run
    rw [execute_eq hw hb h hc, ok_bind, Machine.run_succ]
    cases hm : m.execute body with
    | back hand m' => exact ⟨1, rfl, Nat.add_comm 1 budget⟩
    | next m' =>
      rw [hm] at hkept
      have hcap : m'.arena.capacity = m.arena.capacity := hkept.capacity
      obtain ⟨count, hrun, hcount⟩ := ih (m := m') hkept.valid (hcap ▸ hc)
      refine ⟨count + 1, ?_, ?_⟩
      · dsimp only
        rw [hrun]
        rfl
      · dsimp only
        omega

theorem size_body_le (h : Image.body image = .ok body) : body.size ≤ image.size := by
  unfold Image.body at h
  split_ifs at h
  cases hlen : be32At? image 8 with
  | none => simp [hlen] at h
  | some len =>
    simp only [hlen, slice?] at h
    split_ifs at h
    cases h
    rw [ByteArray.size_extract]
    omega

/-- No step of an image runs into a trap or executes more instructions than its budget. -/
theorem step_eq (hw : 0xffffffff ≤ limit) (hb : image.size ≤ limit) (h : m.arena.Valid)
    (hc : m.arena.capacity ≤ limit) (budget : Nat) : ∃ count,
      step limit image budget m = .ok (runImage image budget m, count) ∧ count ≤ budget := by
  unfold step runImage
  rw [body_eq hw hb, ok_bind]
  cases hbody : Image.body image with
  | error e => exact ⟨0, rfl, Nat.zero_le budget⟩
  | ok body =>
    obtain ⟨count, hrun, hcount⟩ := run_eq hw (Nat.le_trans (size_body_le hbody) hb) h hc budget
    exact ⟨count, hrun, by omega⟩

end Machines

end Guarded

end Coop
