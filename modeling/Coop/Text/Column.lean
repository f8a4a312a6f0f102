/-!
# Columns and hexadecimal

Fixed-width fields of dumps: text padded on the right, and numbers in lower-case hexadecimal padded
with zeros on the left.
-/

namespace Coop

/-- A text followed by as many spaces as bring it to `width` characters. -/
def padRight (width : Nat) (s : String) : String :=
  s ++ String.ofList (List.replicate (width - s.length) ' ')

/-- At least `width` lower-case hexadecimal digits of a number. -/
def hexPadded (width n : Nat) : String :=
  let digits := Nat.toDigits 16 n
  String.ofList (List.replicate (width - digits.length) '0' ++ digits)

end Coop
