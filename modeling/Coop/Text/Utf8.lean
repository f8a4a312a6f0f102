/-!
# Reading bytes as text

`String.fromUTF8?` of the core library reads well-formed UTF-8. `textLossy` reads anything: each
maximal ill-formed stretch becomes one replacement character.

* `Utf8.scan`: the next character, or the length of the ill-formed stretch in front;
* `textLossy`: well-formed bytes are themselves, all others are scanned;
* `fromUTF8?_toByteArray`, `textLossy_toByteArray`: the bytes of a text read back as that text.
-/

namespace Coop

namespace Utf8

/-- The character that stands for ill-formed bytes. -/
def replacement : Char := Char.ofNat 0xfffd

/-- Whether a byte lies in a range. -/
def within (lo hi : Nat) (b : UInt8) : Bool := lo ≤ b.toNat && b.toNat ≤ hi

/-- Whether a byte continues a character. -/
def continues (b : UInt8) : Bool := within 0x80 0xbf b

/-- The six payload bits of a continuing byte. -/
def payload (b : UInt8) : Nat := b.toNat % 0x40

/-- Which second bytes may follow the first byte of a three-byte character. -/
def second3 (first : UInt8) : UInt8 → Bool :=
  if first = 0xe0 then within 0xa0 0xbf
  else if first = 0xed then within 0x80 0x9f
  else continues

/-- Which second bytes may follow the first byte of a four-byte character. -/
def second4 (first : UInt8) : UInt8 → Bool :=
  if first = 0xf0 then within 0x90 0xbf
  else if first = 0xf4 then within 0x80 0x8f
  else continues

/-- The next character of a byte string that starts with `b`, or the replacement of the maximal
ill-formed stretch in front, and the bytes after it. -/
def scan (b : UInt8) (rest : List UInt8) : Char × List UInt8 :=
  if b.toNat < 0x80 then (Char.ofNat b.toNat, rest)
  else if within 0xc2 0xdf b then
    match rest with
    | b₁ :: r =>
      if continues b₁ then (Char.ofNat (b.toNat % 0x20 * 0x40 + payload b₁), r)
      else (replacement, rest)
    | [] => (replacement, rest)
  else if within 0xe0 0xef b then
    match rest with
    | b₁ :: r₁ =>
      if second3 b b₁ then
        match r₁ with
        | b₂ :: r₂ =>
          if continues b₂ then
            (Char.ofNat ((b.toNat % 0x10 * 0x40 + payload b₁) * 0x40 + payload b₂), r₂)
          else (replacement, r₁)
        | [] => (replacement, r₁)
      else (replacement, rest)
    | [] => (replacement, rest)
  else if within 0xf0 0xf4 b then
    match rest with
    | b₁ :: r₁ =>
      if second4 b b₁ then
        match r₁ with
        | b₂ :: r₂ =>
          if continues b₂ then
            match r₂ with
            | b₃ :: r₃ =>
              if continues b₃ then
                (Char.ofNat (((b.toNat % 0x08 * 0x40 + payload b₁) * 0x40 + payload b₂) * 0x40 +
                  payload b₃), r₃)
              else (replacement, r₂)
            | [] => (replacement, r₂)
          else (replacement, r₁)
        | [] => (replacement, r₁)
      else (replacement, rest)
    | [] => (replacement, rest)
  else (replacement, rest)

theorem length_scan_le (b : UInt8) (rest : List UInt8) : (scan b rest).2.length ≤ rest.length := by
  unfold scan
  repeat' split
  all_goals simp
  all_goals omega

/-- Scans a whole byte string; `done` holds the characters so far, last one first. -/
def scanAll (done : List Char) : List UInt8 → List Char
  | [] => done.reverse
  | b :: rest =>
    have := length_scan_le b rest
    scanAll ((scan b rest).1 :: done) (scan b rest).2
  termination_by bytes => bytes.length
  decreasing_by simp; omega

end Utf8

/-- The text of a byte string, with one replacement character for each maximal ill-formed stretch.
-/
def textLossy (bytes : ByteArray) : String :=
  match String.fromUTF8? bytes with
  | some s => s
  | none => String.ofList (Utf8.scanAll [] bytes.data.toList)

theorem fromUTF8?_toByteArray (s : String) : String.fromUTF8? s.toByteArray = some s := by
  simp [String.fromUTF8?, s.isValidUTF8, String.fromUTF8]

/-- Reading the bytes of a text loses nothing. -/
theorem textLossy_toByteArray (s : String) : textLossy s.toByteArray = s := by
  simp [textLossy, fromUTF8?_toByteArray]

end Coop
