import Coop.Config
import Mathlib.Data.List.DropRight
import Mathlib.Data.List.Forall2
import Mathlib.Data.List.TakeWhile
import Mathlib.Data.Nat.Digits.Defs

/-!
# What a line of settings says

The lines of a text, the key and the value of a line, and the number or the directories that a value
writes, each said without the function that finds it.

* `pieces_eq_splitOn`: the pieces between separators are those of the list library;
* `dropWhile_eq_iff`, `rdropWhile_eq_iff`: what is left when one end is taken off;
* `Trims`, `trims_iff`: a text without the margin at its ends;
* `Assigns`, `assignment?`, `assigns_iff`: the key before the first equals sign and the value
  behind it;
* `Writes`, `writes_iff`: a run of digits and its number below `2 ^ 32`;
* `Lists`, `lists_iff`: a load path and its directories.
-/

universe u

namespace Coop

namespace Config

/-! ## Separators -/

theorem pieces_eq_splitOn (sep : UInt8) (xs : List UInt8) :
    pieces (· == sep) xs = xs.splitOn sep := by
  induction xs with
  | nil => rfl
  | cons x xs ih =>
    have hcons := List.splitOnP_cons_eq_if_modifyHead (p := (· == sep)) x xs
    rw [← List.splitOn_eq_splitOnP, ← List.splitOn_eq_splitOnP] at hcons
    rw [pieces_cons, ih, hcons]
    cases hp : xs.splitOn sep with
    | nil => exact absurd (ih.trans hp) (pieces_ne_nil _ xs)
    | cons first rest => rfl

/-- A list is cut at its first separator. -/
theorem splitOnce_eq_some_iff {sep : UInt8} {xs before after : List UInt8} :
    splitOnce (· == sep) xs = some (before, after) ↔
      xs = before ++ sep :: after ∧ sep ∉ before := by
  constructor
  · intro h
    have hjoin := List.takeWhile_append_dropWhile (p := fun x => !(x == sep)) (l := xs)
    have hhead := List.head?_dropWhile_not (fun x => !(x == sep)) xs
    unfold splitOnce at h
    split at h
    · cases h
    · next s rest hdrop =>
      obtain ⟨rfl, rfl⟩ := Prod.mk.inj (Option.some.inj h)
      rw [hdrop] at hjoin hhead
      have hs : (s == sep) = true := by simpa using hhead
      obtain rfl : sep = s := (eq_of_beq hs).symm
      refine ⟨hjoin.symm, fun hmem => ?_⟩
      simpa using List.mem_takeWhile_imp hmem
  · rintro ⟨rfl, hsep⟩
    have hbefore : ∀ x ∈ before, (!(x == sep)) = true := by
      intro x hx
      have hne : x ≠ sep := fun h => hsep (h ▸ hx)
      simpa using hne
    simp [splitOnce, List.dropWhile_append_of_pos hbefore, List.takeWhile_append_of_pos hbefore]

/-! ## Ends -/

section Ends

variable {α : Type u} {p : α → Bool} {xs core : List α}

theorem dropWhile_eq_iff : xs.dropWhile p = core ↔
    (∃ left, (∀ x ∈ left, p x = true) ∧ xs = left ++ core) ∧
      ∀ x, core.head? = some x → p x = false := by
  constructor
  · rintro rfl
    refine ⟨⟨xs.takeWhile p, fun x hx => List.mem_takeWhile_imp hx,
      List.takeWhile_append_dropWhile.symm⟩, fun x hx => ?_⟩
    have hhead := List.head?_dropWhile_not p xs
    rwa [hx] at hhead
  · rintro ⟨⟨left, hleft, rfl⟩, hhead⟩
    rw [List.dropWhile_append_of_pos hleft]
    cases core with
    | nil => rfl
    | cons x core => simp [hhead x rfl]

theorem rdropWhile_eq_iff : xs.rdropWhile p = core ↔
    (∃ right, (∀ x ∈ right, p x = true) ∧ xs = core ++ right) ∧
      ∀ x, core.getLast? = some x → p x = false := by
  have hreverse : xs.rdropWhile p = core ↔ xs.reverse.dropWhile p = core.reverse := by
    rw [List.rdropWhile, ← List.reverse_inj, List.reverse_reverse]
  rw [hreverse, dropWhile_eq_iff, List.head?_reverse]
  refine and_congr_left fun _ => ⟨?_, ?_⟩
  · rintro ⟨left, hleft, hxs⟩
    refine ⟨left.reverse, fun x hx => hleft x (List.mem_reverse.mp hx), ?_⟩
    rw [← List.reverse_reverse xs, hxs, List.reverse_append, List.reverse_reverse]
  · rintro ⟨right, hright, rfl⟩
    exact ⟨right.reverse, fun x hx => hright x (List.mem_reverse.mp hx), List.reverse_append⟩

end Ends

/-- The core is what is left of a text when the spaces, tabs and carriage returns at both ends are
taken off. -/
structure Trims (raw core : List UInt8) : Prop where
  around : ∃ left right, (∀ b ∈ left, isMargin b = true) ∧ (∀ b ∈ right, isMargin b = true) ∧
    raw = left ++ (core ++ right)
  head : ∀ b, core.head? = some b → isMargin b = false
  last : ∀ b, core.getLast? = some b → isMargin b = false

variable {raw core line key value : List UInt8}

theorem Trims.of_strip (h : strip raw = core) : Trims raw core := by
  obtain ⟨⟨right, hright, hdrop⟩, hlast⟩ := rdropWhile_eq_iff.mp h
  obtain ⟨⟨left, hleft, hraw⟩, hhead⟩ := dropWhile_eq_iff.mp hdrop
  refine ⟨⟨left, right, hleft, hright, hraw⟩, fun b hb => hhead b ?_, hlast⟩
  rw [List.head?_append, hb]
  rfl

theorem Trims.strip_eq (h : Trims raw core) : strip raw = core := by
  obtain ⟨left, right, hleft, hright, hraw⟩ := h.around
  refine rdropWhile_eq_iff.mpr ⟨?_, h.last⟩
  cases core with
  | nil =>
    -- nothing but margin: all of it stands in front
    refine ⟨[], by simp, List.dropWhile_eq_nil_iff.mpr fun b hb => ?_⟩
    rw [hraw] at hb
    rcases List.mem_append.mp hb with hb | hb
    · exact hleft b hb
    · exact hright b hb
  | cons b core => exact ⟨right, hright, dropWhile_eq_iff.mpr ⟨⟨left, hleft, hraw⟩, h.head⟩⟩

theorem trims_iff : Trims raw core ↔ strip raw = core := ⟨Trims.strip_eq, Trims.of_strip⟩

/-! ## Keys and values -/

/-- The line gives the key the value: it is no comment, the key is what stands before its first
equals sign and the value what stands behind it. -/
def Assigns (line key value : List UInt8) : Prop :=
  ∃ core before after, Trims line core ∧ core.head? ≠ some 0x23 ∧
    core = before ++ 0x3d :: after ∧ 0x3d ∉ before ∧ Trims before key ∧ Trims after value

/-- The key and the value of a line, if it has them. -/
def assignment? (line : List UInt8) : Option (List UInt8 × List UInt8) :=
  if (strip line).head? = some 0x23 then none
  else (splitOnce (· == 0x3d) (strip line)).map fun sides => (strip sides.1, strip sides.2)

theorem assigns_iff : Assigns line key value ↔ assignment? line = some (key, value) := by
  constructor
  · rintro ⟨core, before, after, hcore, hhash, hsplit, hfirst, hkey, hvalue⟩
    rw [assignment?, hcore.strip_eq, if_neg hhash, splitOnce_eq_some_iff.mpr ⟨hsplit, hfirst⟩]
    simp [hkey.strip_eq, hvalue.strip_eq]
  · intro h
    unfold assignment? at h
    split_ifs at h with hhash
    obtain ⟨⟨before, after⟩, hsplit, hsides⟩ := Option.map_eq_some_iff.mp h
    obtain ⟨hkey, hvalue⟩ := Prod.mk.inj hsides
    obtain ⟨hcore, hfirst⟩ := splitOnce_eq_some_iff.mp hsplit
    exact ⟨strip line, before, after, .of_strip rfl, hhash, hcore, hfirst, .of_strip hkey,
      .of_strip hvalue⟩

theorem line_eq (c : Config) (raw : List UInt8) : c.line raw =
    match assignment? raw with
    | some sides => c.apply sides.1 sides.2
    | none => c := by
  unfold line assignment?
  dsimp only
  split_ifs with hhash
  · rfl
  · cases splitOnce (· == 0x3d) (strip raw) <;> rfl

/-! ## Numbers -/

/-- The text is a non-empty run of decimal digits, and the number they write lies below
`2 ^ 32`. -/
structure Writes (text : List UInt8) (n : Nat) : Prop where
  ne_nil : text ≠ []
  digits : ∀ b ∈ text, 0x30 ≤ b.toNat ∧ b.toNat ≤ 0x39
  value : Nat.ofDigits 10 (text.reverse.map fun b => b.toNat - 0x30) = n
  lt : n < 2 ^ 32

/-- The number so far with one more digit behind it. -/
def push (n : Nat) (b : UInt8) : Nat := 10 * n + (b.toNat - 0x30)

theorem ofDigits_reverse (text : List UInt8) :
    Nat.ofDigits 10 (text.reverse.map fun b => b.toNat - 0x30) = text.foldl push 0 := by
  rw [Nat.ofDigits_eq_foldr, List.foldr_map, List.foldr_reverse]
  simp only [Nat.cast_id, Nat.add_comm]
  rfl

theorem le_foldl_push (text : List UInt8) (n : Nat) : n ≤ text.foldl push n := by
  induction text generalizing n with
  | nil => exact le_rfl
  | cons b text ih =>
    refine le_trans ?_ (ih (push n b))
    unfold push
    omega

/-- The digits are read one by one, and the bound is kept all the way exactly if it is kept at the
end. -/
theorem foldlM_pushDigit?_eq_some_iff {bound n m : Nat} {text : List UInt8} (hn : n < bound) :
    text.foldlM (pushDigit? bound digitOfByte?) n = some m ↔
      (∀ b ∈ text, 0x30 ≤ b.toNat ∧ b.toNat ≤ 0x39) ∧ text.foldl push n = m ∧ m < bound := by
  induction text generalizing n with
  | nil =>
    simp only [List.foldlM_nil, List.foldl_nil, List.not_mem_nil, false_implies, implies_true,
      true_and, Option.pure_def, Option.some.injEq]
    exact ⟨fun h => ⟨h, h ▸ hn⟩, fun h => h.1⟩
  | cons b text ih =>
    rw [List.foldlM_cons, List.forall_mem_cons, List.foldl_cons]
    by_cases hdigit : 0x30 ≤ b.toNat ∧ b.toNat ≤ 0x39
    · have hpush : pushDigit? bound digitOfByte? n b =
          if push n b < bound then some (push n b) else none := by
        rw [pushDigit?, digitOfByte?, if_pos hdigit]
        rfl
      by_cases hlt : push n b < bound
      · rw [hpush, if_pos hlt, Option.bind_eq_bind, Option.bind_some, ih hlt]
        simp [hdigit]
      · -- from here on the number only grows
        have hgrows := le_foldl_push text (push n b)
        rw [hpush, if_neg hlt]
        simp only [Option.bind_eq_bind, Option.bind_none, reduceCtorEq, false_iff]
        omega
    · have hpush : pushDigit? bound digitOfByte? n b = none := by
        simp [pushDigit?, digitOfByte?, hdigit]
      simp [hpush, hdigit]

theorem writes_iff {n : Nat} : Writes value n ↔ readNumber? value = some n := by
  have hread : value.foldlM (pushDigit? 0x100000000 digitOfByte?) 0 = some n ↔ _ :=
    foldlM_pushDigit?_eq_some_iff (by decide)
  unfold readNumber? readDecimal?
  constructor
  · intro h
    rw [if_neg (by simpa using h.ne_nil)]
    exact hread.mpr ⟨h.digits, ofDigits_reverse value ▸ h.value, h.lt⟩
  · intro h
    split_ifs at h with hempty
    obtain ⟨hdigits, hvalue, hlt⟩ := hread.mp h
    exact ⟨by simpa using hempty, hdigits, (ofDigits_reverse value).trans hvalue, hlt⟩

/-! ## Directories -/

theorem fromUTF8?_eq_some_iff {bytes : ByteArray} {s : String} :
    String.fromUTF8? bytes = some s ↔ s.toByteArray = bytes := by
  constructor
  · intro h
    unfold String.fromUTF8? at h
    split_ifs at h with hvalid
    rw [← Option.some.inj h]
    rfl
  · rintro rfl
    exact fromUTF8?_toByteArray s

/-- The directory is the text without the slashes at its end. -/
def Unslashed (s dir : String) : Prop :=
  (∃ n, s.toList = dir.toList ++ List.replicate n '/') ∧ dir.toList.getLast? ≠ some '/'

theorem unslashed_iff {s dir : String} : Unslashed s dir ↔ dropSlashes s = dir := by
  have hdrop : dropSlashes s = dir ↔ s.toList.rdropWhile (· == '/') = dir.toList := by
    rw [dropSlashes, ← String.toList_inj, String.toList_ofList, List.rdropWhile]
  rw [hdrop, rdropWhile_eq_iff, Unslashed]
  refine and_congr ⟨?_, ?_⟩ ⟨?_, ?_⟩
  · rintro ⟨n, hs⟩
    exact ⟨_, fun c hc => by simpa using List.eq_of_mem_replicate hc, hs⟩
  · rintro ⟨right, hright, hs⟩
    refine ⟨right.length, ?_⟩
    rwa [← List.eq_replicate_of_mem fun c hc => by simpa using hright c hc]
  · intro hlast c hc
    have hne : c ≠ '/' := fun h => hlast (h ▸ hc)
    simpa using hne
  · intro hlast hslash
    simpa using hlast _ hslash

/-- The directories that some entries name: an entry that is text gives one, without its trailing
slashes, and any other none. -/
inductive Names : List (List UInt8) → List String → Prop
  | nil : Names [] []
  | text {entry entries s dir dirs} : s.toByteArray = entry.toByteArray → Unslashed s dir →
      Names entries dirs → Names (entry :: entries) (dir :: dirs)
  | skip {entry entries dirs} : (∀ s : String, s.toByteArray ≠ entry.toByteArray) →
      Names entries dirs → Names (entry :: entries) dirs

theorem names_iff {entries : List (List UInt8)} {dirs : List String} : Names entries dirs ↔
    entries.filterMap (fun e => (String.fromUTF8? e.toByteArray).map dropSlashes) = dirs := by
  constructor
  · intro h
    induction h with
    | nil => rfl
    | text htext hdir _ ih =>
      rw [List.filterMap_cons, fromUTF8?_eq_some_iff.mpr htext, Option.map_some,
        unslashed_iff.mp hdir, ih]
    | @skip entry _ _ hforeign _ ih =>
      have hnone : String.fromUTF8? entry.toByteArray = none :=
        Option.eq_none_iff_forall_ne_some.mpr fun s hs =>
          hforeign s (fromUTF8?_eq_some_iff.mp hs)
      rw [List.filterMap_cons, hnone, Option.map_none, ih]
  · rintro rfl
    induction entries with
    | nil => exact .nil
    | cons entry entries ih =>
      rw [List.filterMap_cons]
      cases hentry : String.fromUTF8? entry.toByteArray with
      | none => exact .skip (fun s hs => by simp [fromUTF8?_eq_some_iff.mpr hs] at hentry) ih
      | some s => exact .text (fromUTF8?_eq_some_iff.mp hentry) (unslashed_iff.mpr rfl) ih

/-- A load path lists the directories: it is cut at its colons, every entry is trimmed, and the
first four that are not empty name them. -/
def Lists (value : List UInt8) (dirs : List String) : Prop :=
  ∃ entries, List.Forall₂ Trims (value.splitOn 0x3a) entries ∧
    Names ((entries.filter (· ≠ [])).take 4) dirs

theorem lists_iff {dirs : List String} : Lists value dirs ↔ readPaths value = dirs := by
  have hentries : ∀ parts entries,
      List.Forall₂ Trims parts entries ↔ parts.map strip = entries := by
    intro parts entries
    rw [← List.forall₂_eq_eq_eq, List.forall₂_map_left_iff]
    exact ⟨List.Forall₂.imp fun _ _ => trims_iff.mp, List.Forall₂.imp fun _ _ => trims_iff.mpr⟩
  have hempty : (fun p : List UInt8 => decide (p ≠ [])) = fun p => !p.isEmpty := by
    funext p
    cases p <;> rfl
  simp only [Lists, hentries, exists_eq_left', names_iff, readPaths, pieces_eq_splitOn, hempty,
    maxLoadPaths]

end Config

end Coop
