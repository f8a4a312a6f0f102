import Coop.Fault

/-!
# Image files

An image is a program in executable form: the eight bytes `RITE0300`, the length of the body as a
32-bit big-endian number, the body, and possibly more bytes that are ignored.

* `Image.isImage`: the magic is all that makes a file an image;
* `Image.build`, `Image.body`: wrapping a body, and finding it again;
* `Image.body_build_append`: the body found is the body wrapped.
-/

namespace Coop

namespace Image

/-- The eight bytes every image starts with. -/
def magic : ByteArray := "RITE0300".toByteArray

/-- The offset of the body. -/
def headerLen : Nat := 12

/-- Whether a byte string opens with the magic of an image. -/
def isImage (bytes : ByteArray) : Bool := decide (bytes.extract 0 8 = magic)

/-- The image with a given body. -/
def build (body : ByteArray) : ByteArray := magic ++ be32 body.size ++ body

/-- The body of an image. -/
def body (image : ByteArray) : Except ImageError ByteArray :=
  if isImage image then
    match be32At? image 8 with
    | none => .error .truncatedHeader
    | some len =>
      match slice? image headerLen len with
      | none => .error .truncatedBody
      | some b => .ok b
  else .error .badMagic

@[simp] theorem size_magic : magic.size = 8 := by
  rw [magic, String.size_toByteArray]
  decide

@[simp] theorem size_build (b : ByteArray) : (build b).size = headerLen + b.size := by
  simp [build, headerLen]

theorem isImage_magic_append (rest : ByteArray) : isImage (magic ++ rest) = true := by
  rw [isImage, ByteArray.extract_append_eq_left size_magic.symm, decide_eq_true rfl]

theorem isImage_iff {bytes : ByteArray} :
    isImage bytes = true ↔ ∃ rest, bytes = magic ++ rest := by
  constructor
  · intro h
    refine ⟨bytes.extract 8 bytes.size, ?_⟩
    have hmagic : bytes.extract 0 8 = magic := of_decide_eq_true h
    have hsize : 8 ≤ bytes.size := by
      have := congrArg ByteArray.size hmagic
      rw [size_magic, ByteArray.size_extract] at this
      omega
    rw [← hmagic, ByteArray.extract_append_extract, Nat.zero_min, Nat.max_eq_right hsize,
      ByteArray.extract_zero_size]
  · rintro ⟨rest, rfl⟩
    exact isImage_magic_append rest

theorem isImage_build (b : ByteArray) : isImage (build b) = true := by
  rw [build, ByteArray.append_assoc]
  exact isImage_magic_append _

/-- The body of a built image is the one it was built from, whatever follows the image. -/
theorem body_build_append {b : ByteArray} (h : b.size < 0x100000000) (rest : ByteArray) :
    body (build b ++ rest) = .ok b := by
  have hm : build b ++ rest = magic ++ (be32 b.size ++ (b ++ rest)) := by
    rw [build, ByteArray.append_assoc, ByteArray.append_assoc]
  have h8 : 8 = magic.size + 0 := by rw [size_magic]
  have hl : be32At? (build b ++ rest) 8 = some b.size := by
    rw [hm, h8, be32At?_append_right, be32At?_append_left (by simp), be32At?_be32 h]
  have h12 : headerLen = magic.size + ((be32 b.size).size + 0) := by
    rw [size_magic, size_be32, headerLen]
  have hb : slice? (build b ++ rest) headerLen b.size = some b := by
    rw [hm, h12, slice?_append_right, slice?_append_right, slice?_append_left]
  have hi : isImage (build b ++ rest) = true := by
    rw [hm, isImage_magic_append]
  rw [body, if_pos hi, hl]
  dsimp only
  rw [hb]

end Image

end Coop
