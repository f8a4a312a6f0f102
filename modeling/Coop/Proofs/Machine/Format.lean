import Coop.Proofs.Machine.Guarded

/-!
# The format of images

An image comes from a file, and its length field may say anything. A body is found exactly in the
byte strings that start with a built image; every other byte string is refused, for one reason.

* `be32_number`, `extract_of_be32At?`: the length field is what is written for its number;
* `Image.Verdict`, `Image.verdict_body`: what a byte string can be found to be;
* **`Image.body_iff_build`**: what is found, and what is said otherwise.
-/

namespace Coop

theorem be32_number (b₀ b₁ b₂ b₃ : UInt8) :
    be32 ((b₀.toNat * 0x100 + b₁.toNat) * 0x10000 + (b₂.toNat * 0x100 + b₃.toNat)) =
      ⟨#[b₀, b₁, b₂, b₃]⟩ := by
  have := b₀.toNat_lt
  have := b₁.toNat_lt
  have := b₂.toNat_lt
  have := b₃.toNat_lt
  have hbyte {n : Nat} {b : UInt8} (h : n % 2 ^ 8 = b.toNat) : UInt8.ofNat n = b := by
    rwa [← UInt8.toNat_inj, UInt8.toNat_ofNat']
  rw [be32, hbyte (b := b₀) (by omega), hbyte (b := b₁) (by omega), hbyte (b := b₂) (by omega),
    hbyte (b := b₃) (by omega)]

theorem extract_of_be32At? {b : ByteArray} {i n : Nat} (h : be32At? b i = some n) :
    b.extract i (i + 4) = be32 n := by
  have hend : i + 4 ≤ b.size := Guarded.end_be32At? h
  have hbyte (k : Nat) (hk : k < b.size) : byteAt? b k = some b[k] := dif_pos hk
  rw [be32At?, be16At?, be16At?, hbyte i (by omega), hbyte (i + 1) (by omega),
    hbyte (i + 2) (by omega), hbyte (i + 3) (by omega)] at h
  rw [ByteArray.extract_add_four hend, ← Option.some.inj h]
  exact (be32_number _ _ _ _).symm

namespace Image

variable {x y b : ByteArray}

/-- What a byte string can be found to be, and what is said of it. -/
inductive Verdict (x : ByteArray) : Except ImageError ByteArray → Prop
  | stranger (hx : ∀ rest, x ≠ magic ++ rest) : Verdict x (.error .badMagic)
  /-- It ends before its length does. -/
  | stub {rest : ByteArray} (hx : x = magic ++ rest) (hsize : x.size < headerLen) :
    Verdict x (.error .truncatedHeader)
  /-- There are fewer bytes behind the header than it says. -/
  | cut {len : Nat} {rest : ByteArray} (hlen : len < 0x100000000)
    (hx : x = magic ++ be32 len ++ rest) (hsize : rest.size < len) :
    Verdict x (.error .truncatedBody)
  | whole {b rest : ByteArray} (hb : b.size < 0x100000000) (hx : x = build b ++ rest) :
    Verdict x (.ok b)

/-- **One of these is said of every byte string.** -/
theorem verdict_body (x : ByteArray) : Verdict x (body x) := by
  by_cases hm : isImage x = true
  · obtain ⟨rest, hrest⟩ := isImage_iff.mp hm
    rw [body, if_pos hm]
    cases hlen : be32At? x 8 with
    | none =>
      refine .stub hrest (Nat.lt_of_not_le fun hle => ?_)
      obtain ⟨n, -, hn⟩ := Guarded.number32_extract (b := x) (i := 8) hle
      rw [hlen] at hn
      cases hn
    | some len =>
      have hlt := be32At?_lt hlen
      have hend : 12 ≤ x.size := Guarded.end_be32At? hlen
      have hhead : x.extract 0 12 = magic ++ be32 len := by
        rw [ByteArray.extract_eq_extract_append_extract 8 (by decide) (by decide),
          extract_of_be32At? hlen, of_decide_eq_true hm]
      have hsplit : x = magic ++ be32 len ++ x.extract 12 x.size := by
        rw [← hhead, ← ByteArray.extract_eq_extract_append_extract 12 (by decide) hend,
          ByteArray.extract_zero_size]
      have hrestSize : (x.extract 12 x.size).size = x.size - 12 := by
        rw [ByteArray.size_extract, Nat.min_self]
      dsimp only
      unfold slice? headerLen
      split_ifs with hle
      · have hsize : (x.extract 12 (12 + len)).size = len := by
          rw [ByteArray.size_extract]
          omega
        have hwhole : x = build (x.extract 12 (12 + len)) ++ x.extract (12 + len) x.size := by
          rw [build, hsize, ByteArray.append_assoc,
            ← ByteArray.extract_eq_extract_append_extract (12 + len) (by omega) hle]
          exact hsplit
        exact .whole (by omega) hwhole
      · exact .cut hlt hsplit (by omega)
  · rw [body, if_neg hm]
    exact .stranger fun rest hx => hm (isImage_iff.mpr ⟨rest, hx⟩)

theorem exists_build_of_body (h : body x = .ok b) :
    b.size < 0x100000000 ∧ ∃ rest, x = build b ++ rest := by
  have hverdict := verdict_body x
  rw [h] at hverdict
  cases hverdict with
  | whole hb hx => exact ⟨hb, _, hx⟩

theorem body_build_of_lt (hb : b.size < 0x100000000) : body (build b) = .ok b := by
  rw [← ByteArray.append_empty (b := build b)]
  exact body_build_append hb ByteArray.empty

/-- An image with something cut off is refused. -/
theorem exists_error_of_front {front rest : ByteArray} (hb : b.size < 0x100000000)
    (hx : build b = front ++ rest) (hrest : rest ≠ ByteArray.empty) :
    ∃ e, body front = .error e := by
  cases hbody : body front with
  | error e => exact ⟨e, rfl⟩
  | ok c =>
    exfalso
    obtain ⟨hc, tail, rfl⟩ := exists_build_of_body hbody
    -- what is found in the front part is found in the whole, and so it is all there is
    rw [ByteArray.append_assoc] at hx
    have hsame : b = c := by
      have hfound := body_build_append hc (tail ++ rest)
      rw [← hx, body_build_of_lt hb] at hfound
      exact Except.ok.inj hfound
    have hsize := congrArg ByteArray.size hx
    rw [← hsame, ByteArray.size_append, ByteArray.size_append] at hsize
    exact hrest (ByteArray.size_eq_zero_iff.mp (by omega))

theorem size_header (len : Nat) (rest : ByteArray) :
    headerLen ≤ (magic ++ be32 len ++ rest).size := by
  simp [headerLen]

/-- The three refusals, each with its reason. -/
theorem body_eq_error_iff (x : ByteArray) :
    (body x = .error .badMagic ↔ ∀ rest, x ≠ magic ++ rest) ∧
    (body x = .error .truncatedHeader ↔ (∃ rest, x = magic ++ rest) ∧ x.size < headerLen) ∧
    (body x = .error .truncatedBody ↔ (∃ rest, x = magic ++ rest) ∧ headerLen ≤ x.size ∧
      ∀ c rest, c.size < 0x100000000 → x ≠ build c ++ rest) := by
  have hverdict := verdict_body x
  generalize hbody : body x = result at hverdict ⊢
  cases hverdict with
  | stranger hx =>
    refine ⟨iff_of_true rfl hx, iff_of_false (by simp) fun h => ?_,
      iff_of_false (by simp) fun h => ?_⟩
    · exact h.1.elim hx
    · exact h.1.elim hx
  | @stub rest hx hsize =>
    refine ⟨iff_of_false (by simp) fun h => h rest hx, iff_of_true rfl ⟨⟨rest, hx⟩, hsize⟩,
      iff_of_false (by simp) fun h => ?_⟩
    exact Nat.not_le_of_lt hsize h.2.1
  | @cut len rest hlen hx hsize =>
    have hmagic : x = magic ++ (be32 len ++ rest) := by rw [hx, ByteArray.append_assoc]
    have hheader : headerLen ≤ x.size := by
      rw [hx]
      exact size_header len rest
    refine ⟨iff_of_false (by simp) fun h => h _ hmagic, iff_of_false (by simp) fun h => ?_,
      iff_of_true rfl ⟨⟨_, hmagic⟩, hheader, fun c tail hc hbuild => ?_⟩⟩
    · exact Nat.not_le_of_lt h.2 hheader
    · rw [hbuild, body_build_append hc] at hbody
      cases hbody
  | @whole c rest hc hx =>
    have hmagic : x = magic ++ (be32 c.size ++ (c ++ rest)) := by
      rw [hx, build, ByteArray.append_assoc, ByteArray.append_assoc]
    have hheader : headerLen ≤ x.size := by
      rw [hx, build, ByteArray.append_assoc]
      exact size_header c.size (c ++ rest)
    refine ⟨iff_of_false (by simp) fun h => h _ hmagic, iff_of_false (by simp) fun h => ?_,
      iff_of_false (by simp) fun h => h.2.2 c rest hc hx⟩
    exact Nat.not_le_of_lt h.2 hheader

/-- **A body is found exactly in the byte strings that start with its image.** So a built image has
the body it was built from, nothing can be cut off it, and byte strings with the same body differ
only behind it. What is said otherwise tells how far the byte string is an image: not from the
start, to the end of the magic, or to the end of its header. On no board whose words hold the length
field does a sum overflow, whatever that field says. -/
theorem body_iff_build (x : ByteArray) (hb : b.size < 0x100000000) :
    (body x = .ok b ↔ ∃ rest, x = build b ++ rest) ∧
    body (build b) = .ok b ∧
    (∀ front rest, build b = front ++ rest → rest ≠ ByteArray.empty →
      ∃ e, body front = .error e) ∧
    (∀ y c, body x = .ok c → body y = .ok c →
      ∃ rest rest', x = build c ++ rest ∧ y = build c ++ rest') ∧
    (body x = .error .badMagic ↔ ∀ rest, x ≠ magic ++ rest) ∧
    (body x = .error .truncatedHeader ↔ (∃ rest, x = magic ++ rest) ∧ x.size < headerLen) ∧
    (body x = .error .truncatedBody ↔ (∃ rest, x = magic ++ rest) ∧ headerLen ≤ x.size ∧
      ∀ c rest, c.size < 0x100000000 → x ≠ build c ++ rest) ∧
    [ImageError.badMagic, .truncatedHeader, .truncatedBody].map ImageError.message =
      ["bad magic", "truncated header", "truncated body"] ∧
    ∀ limit, 0xffffffff ≤ limit → x.size ≤ limit → Guarded.body limit x = .ok (body x) := by
  obtain ⟨hmagic, hheader, hbody⟩ := body_eq_error_iff x
  refine ⟨⟨fun h => (exists_build_of_body h).2, ?_⟩, body_build_of_lt hb,
    fun front rest => exists_error_of_front hb, fun y c hx hy => ?_, hmagic, hheader, hbody, rfl,
    fun limit hword hsize => Guarded.body_eq hword hsize⟩
  · rintro ⟨rest, rfl⟩
    exact body_build_append hb rest
  · obtain ⟨-, rest, hrest⟩ := exists_build_of_body hx
    obtain ⟨-, rest', hrest'⟩ := exists_build_of_body hy
    exact ⟨rest, rest', hrest, hrest'⟩

/-- Three bytes with two more behind them, an image of which the last byte is missing, and one whose
length field is the largest there is, on words of 32 bits. -/
theorem body_iff_build_three : ∃ b tail cut last huge : ByteArray,
    b.size = 3 ∧ tail.size = 2 ∧ body (build b ++ tail) = .ok b ∧
    build b = cut ++ last ∧ last.size = 1 ∧ (∃ e, body cut = .error e) ∧
    be32At? huge 8 = some 0xffffffff ∧ body huge = .error .truncatedBody ∧
    Guarded.body 0xffffffff huge = .ok (body huge) := by
  let b : ByteArray := ⟨#[1, 2, 3]⟩
  let huge : ByteArray := magic ++ be32 0xffffffff ++ ⟨#[1, 0]⟩
  obtain ⟨hfound, -, hfront, -⟩ := body_iff_build (build b ++ ⟨#[9, 9]⟩) (b := b) (by decide)
  obtain ⟨-, -, -, -, -, -, -, -, hsafe⟩ := body_iff_build huge (b := b) (by decide)
  have hsplit : build b = (build b).extract 0 14 ++ ⟨#[3]⟩ := by decide +kernel
  have hmagic : isImage huge = true := by decide +kernel
  have hlen : be32At? huge 8 = some 0xffffffff := by decide +kernel
  have hslice : slice? huge headerLen 0xffffffff = none := by decide +kernel
  have hcut : body huge = .error .truncatedBody := by
    rw [body, if_pos hmagic, hlen]
    dsimp only
    rw [hslice]
  exact ⟨b, ⟨#[9, 9]⟩, (build b).extract 0 14, ⟨#[3]⟩, huge, rfl, rfl, hfound.mpr ⟨_, rfl⟩,
    hsplit, rfl, hfront _ _ hsplit (by decide), hlen, hcut,
    hsafe 0xffffffff (Nat.le_refl _) (by decide +kernel)⟩

end Image

end Coop
