/-!
# Bounded decimal numbers

Reading a run of decimal digits as a number below a bound. The bound is checked digit by digit, so
an overlong run is refused without its value being computed.

* `digitOfChar?`, `digitOfByte?`;
* `readDecimal? bound digit? xs`;
* `readDecimal?_lt`: what is read lies below the bound.
-/

universe u

namespace Coop

/-- The value of an ASCII digit. -/
def digitOfByte? (b : UInt8) : Option Nat :=
  if 0x30 ≤ b.toNat ∧ b.toNat ≤ 0x39 then some (b.toNat - 0x30) else none

/-- The value of an ASCII digit. -/
def digitOfChar? (c : Char) : Option Nat :=
  if 0x30 ≤ c.toNat ∧ c.toNat ≤ 0x39 then some (c.toNat - 0x30) else none

section Read

variable {α : Type u} (bound : Nat) (digit? : α → Option Nat)

/-- Appends one digit, as long as the number stays below the bound. -/
def pushDigit? (n : Nat) (x : α) : Option Nat :=
  match digit? x with
  | none => none
  | some d => if 10 * n + d < bound then some (10 * n + d) else none

/-- The number that a non-empty run of digits stands for, if it lies below the bound. -/
def readDecimal? (xs : List α) : Option Nat :=
  if xs.isEmpty then none else xs.foldlM (pushDigit? bound digit?) 0

variable {bound digit?}

theorem pushDigit?_lt {n m : Nat} {x : α} (h : pushDigit? bound digit? n x = some m) :
    m < bound := by
  unfold pushDigit? at h
  split at h
  · simp at h
  · split at h <;> simp_all

theorem foldlM_pushDigit?_lt {xs : List α} {n m : Nat} (hn : n < bound)
    (h : xs.foldlM (pushDigit? bound digit?) n = some m) : m < bound := by
  induction xs generalizing n with
  | nil => simp_all
  | cons x xs ih =>
    rw [List.foldlM_cons] at h
    cases hx : pushDigit? bound digit? n x with
    | none => simp [hx] at h
    | some k => exact ih (pushDigit?_lt hx) (by simpa [hx] using h)

theorem readDecimal?_lt {xs : List α} {m : Nat} (hb : 0 < bound)
    (h : readDecimal? bound digit? xs = some m) : m < bound := by
  unfold readDecimal? at h
  split at h
  · simp at h
  · exact foldlM_pushDigit?_lt hb h

end Read

end Coop
