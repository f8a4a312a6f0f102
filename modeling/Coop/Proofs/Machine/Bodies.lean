import Coop.Image
import Coop.Instr
import Mathlib.Tactic.SplitIfs

/-!
# Bodies that are cut off

The length field of an image wraps around, and what it then announces is there: the body found in a
very long image is the front part of the one it was built from. What is read in a front part is
read in the whole as well.

* `be16At?_append`, `be32At?_append`, `slice?_append`: operands;
* `Instr.decode_append`: instructions;
* `be32At?_be32_mod`, **`Image.body_build`**: the length field, and the body it finds.
-/

namespace Coop

/-! ## Reading a front part -/

theorem be16At?_append {a : ByteArray} {i n : Nat} (h : be16At? a i = some n) (b : ByteArray) :
    be16At? (a ++ b) i = some n := by
  by_cases hlt : i + 1 < a.size
  · rw [be16At?_append_left hlt, h]
  · have hnone : byteAt? a (i + 1) = none := dif_neg hlt
    simp [be16At?, hnone] at h

theorem be32At?_append {a : ByteArray} {i n : Nat} (h : be32At? a i = some n) (b : ByteArray) :
    be32At? (a ++ b) i = some n := by
  cases hhi : be16At? a i with
  | none => simp [be32At?, hhi] at h
  | some hi =>
    cases hlo : be16At? a (i + 2) with
    | none => simp [be32At?, hlo] at h
    | some lo =>
      simp only [be32At?, hhi, hlo] at h
      simp only [be32At?, be16At?_append hhi, be16At?_append hlo]
      exact h

theorem slice?_append {a : ByteArray} {start len : Nat} {x : ByteArray}
    (h : slice? a start len = some x) (b : ByteArray) : slice? (a ++ b) start len = some x := by
  unfold slice? at h ⊢
  split at h
  · rename_i hle
    cases h
    have hle' : start + len ≤ (a ++ b).size := by
      rw [ByteArray.size_append]
      omega
    rw [if_pos hle', ByteArray.extract_append, Nat.sub_eq_zero_of_le hle,
      Nat.sub_eq_zero_of_le (Nat.le_trans (Nat.le_add_right start len) hle),
      ByteArray.extract_same, ByteArray.append_empty]
  · cases h

theorem Instr.textAt?_append_of_some {a text : ByteArray} {i : Nat} (h : textAt? a i = some text)
    (b : ByteArray) : textAt? (a ++ b) i = some text := by
  unfold textAt? at h ⊢
  cases hlen : be16At? a i with
  | none => simp [hlen] at h
  | some len =>
    simp only [hlen] at h
    simp only [be16At?_append hlen]
    exact slice?_append h b

theorem Instr.withOperand_eq {α : Type} {pc : Nat} {o o' : Option α} {make : α → Instr}
    {i : Option Instr} (hsome : ∀ x, o = some x → o' = some x)
    (h : withOperand pc o make = .ok i) : withOperand pc o' make = .ok i := by
  cases o with
  | none => cases h
  | some x =>
    rw [hsome x rfl]
    exact h

theorem Instr.decode_append {body : ByteArray} {pc : Nat} {i : Instr}
    (h : decode body pc = .ok (some i)) (rest : ByteArray) :
    pc < body.size ∧ decode (body ++ rest) pc = .ok (some i) := by
  by_cases hlt : pc < body.size
  · refine ⟨hlt, ?_⟩
    unfold decode at h ⊢
    rw [byteAt?_append_left hlt]
    cases hop : byteAt? body pc with
    | none => simp [hop] at h
    | some op =>
      simp only [hop] at h
      dsimp only
      split_ifs at h ⊢
      all_goals first
        | exact h
        | exact withOperand_eq (fun n hn => be32At?_append hn rest) h
        | exact withOperand_eq (fun text ht => textAt?_append_of_some ht rest) h
  · have hnone : byteAt? body pc = none := dif_neg hlt
    simp [decode, hnone] at h

/-! ## The body of an image -/

/-- The length field of an image holds the length of its body modulo 2³². -/
theorem be32At?_be32_mod (n : Nat) : be32At? (be32 n) 0 = some (n % 0x100000000) := by
  have hbyte {a b : Nat} (h : a % 0x100 = b % 0x100) : UInt8.ofNat a = UInt8.ofNat b := by
    rwa [← UInt8.toNat_inj, UInt8.toNat_ofNat', UInt8.toNat_ofNat']
  -- only the low four bytes of the number are written
  have hmod : be32 n = be32 (n % 0x100000000) := by
    have h₃ : UInt8.ofNat (n / 0x1000000) = UInt8.ofNat (n % 0x100000000 / 0x1000000) :=
      hbyte (by omega)
    have h₂ : UInt8.ofNat (n / 0x10000) = UInt8.ofNat (n % 0x100000000 / 0x10000) :=
      hbyte (by omega)
    have h₁ : UInt8.ofNat (n / 0x100) = UInt8.ofNat (n % 0x100000000 / 0x100) := hbyte (by omega)
    have h₀ : UInt8.ofNat n = UInt8.ofNat (n % 0x100000000) := hbyte (by omega)
    rw [be32, be32, h₃, h₂, h₁, h₀]
  rw [hmod]
  exact be32At?_be32 (Nat.mod_lt _ (by decide))

/-- The body found in an image is the front part of the one it was built from. -/
theorem Image.body_build (b : ByteArray) : ∃ front rest, body (build b) = .ok front ∧
    b = front ++ rest ∧ front.size < 0x100000000 := by
  have hm : build b = (magic ++ be32 b.size) ++ b := rfl
  have hhead : (magic ++ be32 b.size).size = headerLen := by simp [headerLen]
  have hlen : be32At? (build b) 8 = some (b.size % 0x100000000) := by
    have h8 : 8 = magic.size + 0 := by rw [size_magic]
    rw [build, ByteArray.append_assoc, h8, be32At?_append_right, be32At?_append_left (by simp),
      be32At?_be32_mod]
  have hle : 0 + b.size % 0x100000000 ≤ b.size := by
    have := Nat.mod_le b.size 0x100000000
    omega
  have hslice : slice? (build b) headerLen (b.size % 0x100000000) =
      some (b.extract 0 (b.size % 0x100000000)) := by
    have h12 : headerLen = (magic ++ be32 b.size).size + 0 := by rw [hhead, Nat.add_zero]
    rw [h12, hm, slice?_append_right, slice?, if_pos hle, Nat.zero_add]
  refine ⟨b.extract 0 (b.size % 0x100000000), b.extract (b.size % 0x100000000) b.size, ?_, ?_, ?_⟩
  · rw [body, if_pos (isImage_build b), hlen]
    dsimp only
    rw [hslice]
  · rw [← ByteArray.extract_eq_extract_append_extract _ (Nat.zero_le _) (Nat.mod_le _ _),
      ByteArray.extract_zero_size]
  · have := Nat.mod_lt b.size (show 0x100000000 > 0 by decide)
    rw [ByteArray.size_extract]
    omega

end Coop
