import Coop.Fault

/-!
# Instructions

A body is a sequence of instructions, each one byte of opcode followed by its operand; numbers are
big-endian, and a text is preceded by its length in 16 bits.

* `Instr`, `Instr.encode`, `Instr.size`;
* `Instr.decode`: the instruction at an offset, `none` past the end of the body;
* `Instr.decode_append_encode`: an instruction is read back where it was written.
-/

namespace Coop

/-- One instruction of a body. -/
inductive Instr where
  | stop
  | puts (text : ByteArray)
  | sleep (ms : Nat)
  | pass
  | suspend
  | jump (target : Nat)
  | raise (text : ByteArray)
  deriving DecidableEq

namespace Instr

/-- The bytes of an instruction. -/
def encode : Instr → ByteArray
  | stop => ⟨#[0x00]⟩
  | puts text => ⟨#[0x01]⟩ ++ be16 text.size ++ text
  | sleep ms => ⟨#[0x02]⟩ ++ be32 ms
  | pass => ⟨#[0x03]⟩
  | suspend => ⟨#[0x04]⟩
  | jump target => ⟨#[0x05]⟩ ++ be32 target
  | raise text => ⟨#[0x06]⟩ ++ be16 text.size ++ text

/-- The number of bytes an instruction takes. -/
def size : Instr → Nat
  | stop | pass | suspend => 1
  | sleep _ | jump _ => 5
  | puts text | raise text => 3 + text.size

/-- The text operand at an offset. -/
def textAt? (body : ByteArray) (i : Nat) : Option ByteArray := do
  let len ← be16At? body i
  slice? body (i + 2) len

/-- Wraps an operand that was found, or reports it as missing. -/
def withOperand {α : Type} (pc : Nat) (operand : Option α) (make : α → Instr) :
    Except ImageError (Option Instr) :=
  match operand with
  | some x => .ok (some (make x))
  | none => .error (.truncatedOperand pc)

/-- The instruction at an offset of a body, `none` past its end. -/
def decode (body : ByteArray) (pc : Nat) : Except ImageError (Option Instr) :=
  match byteAt? body pc with
  | none => .ok none
  | some op =>
    if op = 0x00 then .ok (some stop)
    else if op = 0x01 then withOperand pc (textAt? body (pc + 1)) puts
    else if op = 0x02 then withOperand pc (be32At? body (pc + 1)) sleep
    else if op = 0x03 then .ok (some pass)
    else if op = 0x04 then .ok (some suspend)
    else if op = 0x05 then withOperand pc (be32At? body (pc + 1)) jump
    else if op = 0x06 then withOperand pc (textAt? body (pc + 1)) raise
    else .error (.unknownOpcode op pc)

@[simp] theorem size_encode (i : Instr) : i.encode.size = i.size := by
  have one (b : UInt8) : (ByteArray.mk #[b]).size = 1 := rfl
  cases i <;> simp [encode, size, one]

/-- Whether the operand of an instruction fits its place. -/
def Fits : Instr → Prop
  | puts text | raise text => text.size < 0x10000
  | sleep n | jump n => n < 0x100000000
  | stop | pass | suspend => True

theorem textAt?_append {a text rest : ByteArray} (h : text.size < 0x10000) :
    textAt? (a ++ (be16 text.size ++ (text ++ rest))) a.size = some text := by
  have hl : be16At? (a ++ (be16 text.size ++ (text ++ rest))) (a.size + 0) = some text.size := by
    rw [be16At?_append_right, be16At?_append_left (by simp), be16At?_be16 h]
  have ht : slice? (a ++ (be16 text.size ++ (text ++ rest))) (a.size + ((be16 text.size).size + 0))
      text.size = some text := by
    rw [slice?_append_right, slice?_append_right, slice?_append_left]
  rw [Nat.add_zero] at hl
  rw [size_be16, Nat.add_zero] at ht
  simp only [textAt?, hl, Option.bind_eq_bind, Option.bind_some, ht]

/-- An instruction is read back where it was written. -/
theorem decode_append_encode {i : Instr} (h : i.Fits) (a rest : ByteArray) :
    decode (a ++ (i.encode ++ rest)) a.size = .ok (some i) := by
  have shift (op : UInt8) (x : ByteArray) : a ++ (⟨#[op]⟩ ++ x) = (a ++ ⟨#[op]⟩) ++ x :=
    (ByteArray.append_assoc).symm
  have size (op : UInt8) : a.size + 1 = (a ++ ⟨#[op]⟩).size := by
    rw [ByteArray.size_append]; rfl
  cases i with
  | stop => simp [decode, encode, byteAt?_append_singleton]
  | pass => simp [decode, encode, byteAt?_append_singleton]
  | suspend => simp [decode, encode, byteAt?_append_singleton]
  | puts text =>
    rw [encode, ByteArray.append_assoc, ByteArray.append_assoc, decode, byteAt?_append_singleton,
      shift, size 1, textAt?_append h]
    rfl
  | raise text =>
    rw [encode, ByteArray.append_assoc, ByteArray.append_assoc, decode, byteAt?_append_singleton,
      shift, size 6, textAt?_append h]
    rfl
  | sleep n =>
    rw [encode, ByteArray.append_assoc, decode, byteAt?_append_singleton, shift,
      size 2, be32At?_append_be32 h]
    rfl
  | jump n =>
    rw [encode, ByteArray.append_assoc, decode, byteAt?_append_singleton, shift,
      size 5, be32At?_append_be32 h]
    rfl

end Instr

end Coop
