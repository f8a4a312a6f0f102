/-!
# Byte strings

Reading and writing big-endian numbers in a `ByteArray`, and cutting out stretches of it.

* `byteAt?`, `slice?`: a byte, a stretch, if it lies inside;
* `be16`, `be32`: the low 16 or 32 bits of a number, most significant byte first;
* `be16At?`, `be32At?`: the number stored at an offset;
* `zeros`, `overwrite`: fresh memory, and memory with a stretch replaced;
* `be16At?_be16`, `be32At?_be32`: what is written reads back, also inside a longer byte string;
* `be16At?_lt`, `be32At?_lt`: what is read fits its bytes.
-/

namespace Coop

/-- Byte strings are equal if their bytes are. -/
instance decidableEqBytes : DecidableEq ByteArray := ByteArray.instDecidableEq

/-- The byte at an offset, if there is one. -/
def byteAt? (b : ByteArray) (i : Nat) : Option UInt8 :=
  if h : i < b.size then some b[i] else none

/-- The `len` bytes from `start` on, if there are so many. -/
def slice? (b : ByteArray) (start len : Nat) : Option ByteArray :=
  if start + len ≤ b.size then some (b.extract start (start + len)) else none

/-- The low 16 bits of a number, most significant byte first. -/
def be16 (n : Nat) : ByteArray := ⟨#[UInt8.ofNat (n / 0x100), UInt8.ofNat n]⟩

/-- The low 32 bits of a number, most significant byte first. -/
def be32 (n : Nat) : ByteArray :=
  ⟨#[UInt8.ofNat (n / 0x1000000), UInt8.ofNat (n / 0x10000), UInt8.ofNat (n / 0x100),
    UInt8.ofNat n]⟩

/-- The 16-bit number stored at an offset. -/
def be16At? (b : ByteArray) (i : Nat) : Option Nat := do
  let hi ← byteAt? b i
  let lo ← byteAt? b (i + 1)
  return hi.toNat * 0x100 + lo.toNat

/-- The 32-bit number stored at an offset. -/
def be32At? (b : ByteArray) (i : Nat) : Option Nat := do
  let hi ← be16At? b i
  let lo ← be16At? b (i + 2)
  return hi * 0x10000 + lo

/-- Fresh memory: `n` zero bytes. -/
def zeros (n : Nat) : ByteArray := ⟨Array.replicate n 0⟩

/-- `memory` with the bytes from `start` on replaced by `bytes`. -/
def overwrite (memory : ByteArray) (start : Nat) (bytes : ByteArray) : ByteArray :=
  bytes.copySlice 0 memory start bytes.size

@[simp] theorem size_be16 (n : Nat) : (be16 n).size = 2 := rfl

@[simp] theorem size_be32 (n : Nat) : (be32 n).size = 4 := rfl

@[simp] theorem size_zeros (n : Nat) : (zeros n).size = n := by
  simp [zeros, ByteArray.size]

theorem overwrite_eq (memory : ByteArray) (start : Nat) (bytes : ByteArray) :
    overwrite memory start bytes =
      memory.extract 0 start ++ bytes ++ memory.extract (start + bytes.size) memory.size := by
  simp [overwrite, ByteArray.copySlice_eq_append]

theorem size_overwrite {memory bytes : ByteArray} {start : Nat}
    (h : start + bytes.size ≤ memory.size) : (overwrite memory start bytes).size = memory.size := by
  rw [overwrite_eq]
  simp
  omega

theorem byteAt?_append_left {a b : ByteArray} {i : Nat} (h : i < a.size) :
    byteAt? (a ++ b) i = byteAt? a i := by
  have h' : i < (a ++ b).size := by simp; omega
  simp only [byteAt?, h, h', dif_pos]
  rw [ByteArray.getElem_append_left]

theorem byteAt?_append_right {a b : ByteArray} {i : Nat} :
    byteAt? (a ++ b) (a.size + i) = byteAt? b i := by
  unfold byteAt?
  by_cases h : i < b.size
  · have h' : a.size + i < (a ++ b).size := by simp; omega
    simp only [h, h', dif_pos]
    rw [ByteArray.getElem_append_right (by omega)]
    simp
  · have h' : ¬ a.size + i < (a ++ b).size := by simp; omega
    simp only [h, h', dif_neg, not_false_eq_true]

theorem be16At?_append_left {a b : ByteArray} {i : Nat} (h : i + 2 ≤ a.size) :
    be16At? (a ++ b) i = be16At? a i := by
  unfold be16At?
  rw [byteAt?_append_left (by omega), byteAt?_append_left (by omega)]

theorem be16At?_append_right {a b : ByteArray} {i : Nat} :
    be16At? (a ++ b) (a.size + i) = be16At? b i := by
  unfold be16At?
  rw [Nat.add_assoc, byteAt?_append_right, byteAt?_append_right]

theorem be32At?_append_left {a b : ByteArray} {i : Nat} (h : i + 4 ≤ a.size) :
    be32At? (a ++ b) i = be32At? a i := by
  unfold be32At?
  rw [be16At?_append_left (by omega), be16At?_append_left (by omega)]

theorem be32At?_append_right {a b : ByteArray} {i : Nat} :
    be32At? (a ++ b) (a.size + i) = be32At? b i := by
  unfold be32At?
  rw [Nat.add_assoc, be16At?_append_right, be16At?_append_right]

theorem be16At?_be16 {n : Nat} (h : n < 0x10000) : be16At? (be16 n) 0 = some n := by
  have hi : byteAt? (be16 n) 0 = some (UInt8.ofNat (n / 0x100)) := rfl
  have lo : byteAt? (be16 n) 1 = some (UInt8.ofNat n) := rfl
  simp only [be16At?, hi, lo, Option.bind_eq_bind, Option.bind_some, Nat.zero_add,
    UInt8.toNat_ofNat']
  change some _ = some _
  congr 1
  omega

theorem be32At?_be32 {n : Nat} (h : n < 0x100000000) : be32At? (be32 n) 0 = some n := by
  have b0 : byteAt? (be32 n) 0 = some (UInt8.ofNat (n / 0x1000000)) := rfl
  have b1 : byteAt? (be32 n) 1 = some (UInt8.ofNat (n / 0x10000)) := rfl
  have b2 : byteAt? (be32 n) 2 = some (UInt8.ofNat (n / 0x100)) := rfl
  have b3 : byteAt? (be32 n) 3 = some (UInt8.ofNat n) := rfl
  simp only [be32At?, be16At?, b0, b1, b2, b3, Option.bind_eq_bind, Option.bind_some, Nat.zero_add,
    Nat.reduceAdd, UInt8.toNat_ofNat']
  change some _ = some _
  congr 1
  omega

theorem be16At?_lt {b : ByteArray} {i n : Nat} (h : be16At? b i = some n) : n < 0x10000 := by
  unfold be16At? at h
  cases hhi : byteAt? b i with
  | none => simp [hhi] at h
  | some hi =>
    cases hlo : byteAt? b (i + 1) with
    | none => simp [hlo] at h
    | some lo =>
      have hn : hi.toNat * 0x100 + lo.toNat = n := by simpa [hhi, hlo] using h
      have := hi.toNat_lt
      have := lo.toNat_lt
      omega

theorem be32At?_lt {b : ByteArray} {i n : Nat} (h : be32At? b i = some n) : n < 0x100000000 := by
  unfold be32At? at h
  cases hhi : be16At? b i with
  | none => simp [hhi] at h
  | some hi =>
    cases hlo : be16At? b (i + 2) with
    | none => simp [hlo] at h
    | some lo =>
      have hn : hi * 0x10000 + lo = n := by simpa [hhi, hlo] using h
      have := be16At?_lt hhi
      have := be16At?_lt hlo
      omega

theorem slice?_append_right {a b : ByteArray} {i len : Nat} :
    slice? (a ++ b) (a.size + i) len = slice? b i len := by
  unfold slice?
  by_cases h : i + len ≤ b.size
  · have h' : a.size + i + len ≤ (a ++ b).size := by rw [ByteArray.size_append]; omega
    rw [if_pos h, if_pos h', Nat.add_assoc, ByteArray.extract_append_size_add]
  · have h' : ¬ a.size + i + len ≤ (a ++ b).size := by rw [ByteArray.size_append]; omega
    rw [if_neg h, if_neg h']

theorem slice?_append_left {a b : ByteArray} : slice? (a ++ b) 0 a.size = some a := by
  have h : 0 + a.size ≤ (a ++ b).size := by rw [ByteArray.size_append]; omega
  rw [slice?, if_pos h, Nat.zero_add, ByteArray.extract_append_eq_left rfl]

theorem byteAt?_append_singleton {a rest : ByteArray} {op : UInt8} :
    byteAt? (a ++ (⟨#[op]⟩ ++ rest)) a.size = some op := by
  have h : byteAt? (a ++ (⟨#[op]⟩ ++ rest)) (a.size + 0) = some op := by
    rw [byteAt?_append_right, byteAt?_append_left Nat.one_pos]
    rfl
  rwa [Nat.add_zero] at h

theorem be32At?_append_be32 {a rest : ByteArray} {n : Nat} (h : n < 0x100000000) :
    be32At? (a ++ (be32 n ++ rest)) a.size = some n := by
  have hl : be32At? (a ++ (be32 n ++ rest)) (a.size + 0) = some n := by
    rw [be32At?_append_right, be32At?_append_left (by simp), be32At?_be32 h]
  rwa [Nat.add_zero] at hl

end Coop
