import Coop.Proofs.Config.Reading
import Mathlib.Data.List.Induction
import Mathlib.Logic.Relation

/-!
# The last line for a key

For each setting the last line that says something about it counts, and lines for different keys do
not meet.

* `Says`, `said?`, `said?_eq_some_iff`: what a line says about a key;
* `Settles`, `settled`, `settles_settled`: what all the lines leave for a key;
* `line_eq_said`, `foldl_line`, `parse_eq`: what a line, all lines and a text do to every setting;
* `Idle`, `Edit`, `Rearranged`: lines that say nothing, and texts that differ in such lines and in
  the order of lines for different keys;
* **`parse_takes_last_lines`**: a text gives each setting its last value, brought into range, and
  so does every rearrangement of it.
-/

universe u

namespace Coop

namespace Config

variable {β : Type u} {lines lines' : List (List UInt8)} {l : List UInt8}

/-! ## What a line says about a key -/

/-- The bytes of a key. -/
def keyBytes (name : String) : List UInt8 := name.toByteArray.data.toList

/-- The line gives the key a value that reads as `v`. -/
def Says (name : String) (Reads : List UInt8 → β → Prop) (line : List UInt8) (v : β) : Prop :=
  ∃ value, Assigns line (keyBytes name) value ∧ Reads value v

/-- What the line says about the key, if it says anything. -/
def said? (name : String) (read : List UInt8 → Option β) (line : List UInt8) : Option β :=
  (assignment? line).bind fun sides =>
    if String.fromUTF8? sides.1.toByteArray = some name then read sides.2 else none

theorem fromUTF8?_eq_key_iff {name : String} {key : List UInt8} :
    String.fromUTF8? key.toByteArray = some name ↔ key = keyBytes name := by
  rw [fromUTF8?_eq_some_iff, keyBytes]
  constructor
  · intro h
    rw [h, List.data_toByteArray]
  · rintro rfl
    apply ByteArray.ext
    rw [List.data_toByteArray, Array.toArray_toList]

theorem keyBytes_inj {name name' : String} (h : keyBytes name = keyBytes name') : name = name' :=
  Option.some.inj ((fromUTF8?_eq_key_iff.mpr rfl).symm.trans (fromUTF8?_eq_key_iff.mpr h))

theorem said?_eq_some_iff {name : String} {read : List UInt8 → Option β} {v : β} :
    said? name read l = some v ↔
      ∃ value, Assigns l (keyBytes name) value ∧ read value = some v := by
  constructor
  · intro h
    obtain ⟨⟨key, value⟩, hline, hread⟩ := Option.bind_eq_some_iff.mp h
    dsimp only at hread
    split_ifs at hread with hkey
    obtain rfl := fromUTF8?_eq_key_iff.mp hkey
    exact ⟨value, assigns_iff.mpr hline, hread⟩
  · rintro ⟨value, hassigns, hread⟩
    rw [said?, assigns_iff.mp hassigns, Option.bind_some, if_pos (fromUTF8?_eq_key_iff.mpr rfl),
      hread]

theorem says_writes_iff (name : String) (l : List UInt8) (n : Nat) :
    Says name Writes l n ↔ said? name readNumber? l = some n := by
  simp only [Says, said?_eq_some_iff, writes_iff]

/-- What a line says about the load path. -/
def saidPath? : List UInt8 → Option (List String) :=
  said? "load_path" fun value => some (readPaths value)

theorem says_lists_iff (l : List UInt8) (dirs : List String) :
    Says "load_path" Lists l dirs ↔ saidPath? l = some dirs := by
  simp only [Says, saidPath?, said?_eq_some_iff, lists_iff, Option.some.injEq]

/-! ## What all the lines leave -/

/-- What some lines leave for a setting: what the last of them that says something says, or what it
was before where none does. -/
def Settles (Tells : List UInt8 → β → Prop) (lines : List (List UInt8)) (start v : β) : Prop :=
  (∃ before line after, lines = before ++ line :: after ∧ Tells line v ∧
    ∀ later ∈ after, ∀ w, ¬ Tells later w) ∨
  (∀ line ∈ lines, ∀ w, ¬ Tells line w) ∧ v = start

/-- The value that every line replaces by what it says. -/
def settled (said : List UInt8 → Option β) (lines : List (List UInt8)) (start : β) : β :=
  lines.foldl (fun v line => (said line).getD v) start

theorem settles_settled {Tells : List UInt8 → β → Prop} {said : List UInt8 → Option β}
    (h : ∀ line v, Tells line v ↔ said line = some v) (lines : List (List UInt8)) (start : β) :
    Settles Tells lines start (settled said lines start) := by
  -- from the back: the last line decides if it says something, and the lines before it otherwise
  induction lines using List.reverseRecOn with
  | nil => exact .inr ⟨by simp, rfl⟩
  | append_singleton lines line ih =>
    rw [settled, List.foldl_append]
    change Settles Tells _ start ((said line).getD (settled said lines start))
    cases hline : said line with
    | some v => exact .inl ⟨lines, line, [], rfl, (h line v).mpr hline, by simp⟩
    | none =>
      have hsilent : ∀ w, ¬ Tells line w := by
        intro w hw
        rw [h, hline] at hw
        cases hw
      rcases ih with ⟨before, last, after, rfl, hlast, hafter⟩ | ⟨hall, hstart⟩
      · refine .inl ⟨before, last, after ++ [line], by simp, hlast, ?_⟩
        exact List.forall_mem_append.mpr ⟨hafter, by simpa using hsilent⟩
      · exact .inr ⟨List.forall_mem_append.mpr ⟨hall, by simpa using hsilent⟩, hstart⟩

theorem settled_map {γ : Type u} (said : List UInt8 → Option β) (narrow : β → γ)
    (lines : List (List UInt8)) (start : β) :
    settled (fun line => (said line).map narrow) lines (narrow start) =
      narrow (settled said lines start) := by
  induction lines generalizing start with
  | nil => rfl
  | cons line lines ih =>
    rw [settled, List.foldl_cons, settled, List.foldl_cons, Option.getD_map]
    exact ih _

/-! ## Every setting -/

/-- What one line does: it replaces the one setting that it says something about. -/
theorem line_eq_said (c : Config) (raw : List UInt8) : c.line raw =
    { quantumMs := (said? "quantum_ms" readNumber? raw).getD c.quantumMs
      timeslice := ((said? "timeslice" readNumber? raw).map (min · 0xffff)).getD c.timeslice
      heapSize := (said? "heap_size" readNumber? raw).getD c.heapSize
      maxLoad := (said? "max_load" readNumber? raw).getD c.maxLoad
      priority := ((said? "priority" readNumber? raw).map
        fun n => UInt8.ofNat (min n 0xff)).getD c.priority
      loadPath := (saidPath? raw).getD c.loadPath } := by
  rw [line_eq]
  unfold saidPath? said?
  cases assignment? raw with
  | none => rfl
  | some sides =>
    simp only [Option.bind_some]
    unfold apply
    split
    case h_6 hkey => simp [hkey]
    case h_7 h₁ h₂ h₃ h₄ h₅ h₆ =>
      rw [if_neg h₁, if_neg h₂, if_neg h₃, if_neg h₄, if_neg h₅, if_neg h₆]
      rfl
    -- the five keys for numbers
    all_goals
      next hkey => cases readNumber? sides.2 <;> simp [hkey]

theorem foldl_line (lines : List (List UInt8)) (c : Config) : lines.foldl line c =
    { quantumMs := settled (said? "quantum_ms" readNumber?) lines c.quantumMs
      timeslice := settled (fun l => (said? "timeslice" readNumber? l).map (min · 0xffff)) lines
        c.timeslice
      heapSize := settled (said? "heap_size" readNumber?) lines c.heapSize
      maxLoad := settled (said? "max_load" readNumber?) lines c.maxLoad
      priority := settled (fun l => (said? "priority" readNumber? l).map
        fun n => UInt8.ofNat (min n 0xff)) lines c.priority
      loadPath := settled saidPath? lines c.loadPath } := by
  induction lines generalizing c with
  | nil => rfl
  | cons l lines ih =>
    rw [List.foldl_cons, ih, line_eq_said]
    rfl

/-- The number that some lines leave for a key. -/
def number (name : String) (lines : List (List UInt8)) (start : Nat) : Nat :=
  settled (said? name readNumber?) lines start

/-- The settings of a text, from what its lines leave for every key. That some numbers are narrowed
line by line makes no difference in the end. -/
theorem parse_eq {text : ByteArray} (h : text.data.toList.splitOn 0x0a = lines) : parse text =
    { quantumMs := max 1 (min (number "quantum_ms" lines default.quantumMs) 100)
      timeslice := max 1 (min (number "timeslice" lines default.timeslice) 1024)
      heapSize := max 1024 (min (number "heap_size" lines default.heapSize) 262144)
      maxLoad := min (number "max_load" lines default.maxLoad)
        (max 1024 (min (number "heap_size" lines default.heapSize) 262144))
      priority := UInt8.ofNat (min (number "priority" lines default.priority.toNat) 255)
      loadPath := settled saidPath? lines default.loadPath } := by
  have hslice : settled (fun l => (said? "timeslice" readNumber? l).map (min · 0xffff)) lines
      default.timeslice = min (number "timeslice" lines default.timeslice) 0xffff :=
    settled_map (said? "timeslice" readNumber?) (min · 0xffff) lines default.timeslice
  have hpriority : settled (fun l => (said? "priority" readNumber? l).map
      fun n => UInt8.ofNat (min n 0xff)) lines default.priority =
        UInt8.ofNat (min (number "priority" lines default.priority.toNat) 0xff) :=
    settled_map (said? "priority" readNumber?) (fun n => UInt8.ofNat (min n 0xff)) lines
      default.priority.toNat
  rw [parse, pieces_eq_splitOn, h, foldl_line, hslice, hpriority, sanitize]
  simp only [mk.injEq, number, true_and, and_true]
  omega

/-! ## Rearranging -/

/-- The keys whose values are numbers. -/
def numberKeys : List String := ["quantum_ms", "timeslice", "heap_size", "max_load", "priority"]

/-- The line says nothing: it is blank, a comment or without an equals sign, or its key is unknown,
or its value is not the number that the key wants. -/
inductive Idle (line : List UInt8) : Prop
  | blank : (∀ b ∈ line, isMargin b = true) → Idle line
  | comment {core} : Trims line core → core.head? = some 0x23 → Idle line
  | unassigned : 0x3d ∉ line → Idle line
  | unknown {key value} : Assigns line key value →
      (∀ name ∈ "load_path" :: numberKeys, key ≠ keyBytes name) → Idle line
  | malformed {name value} : Assigns line (keyBytes name) value → name ∈ numberKeys →
      (∀ n, ¬ Writes value n) → Idle line

/-- One change to the lines of a text: a line that says nothing put in, or two neighbours with
different keys exchanged. -/
inductive Edit : List (List UInt8) → List (List UInt8) → Prop
  | insert (front : List (List UInt8)) {line : List UInt8} (rest : List (List UInt8)) :
      Idle line → Edit (front ++ rest) (front ++ line :: rest)
  | exchange (front : List (List UInt8)) {a b key key' value value' : List UInt8}
      (rest : List (List UInt8)) : Assigns a key value → Assigns b key' value' → key ≠ key' →
      Edit (front ++ a :: b :: rest) (front ++ b :: a :: rest)

/-- The lines differ by any number of changes, made or undone. -/
def Rearranged : List (List UInt8) → List (List UInt8) → Prop := Relation.EqvGen Edit

theorem Assigns.unique {key key' value value' : List UInt8} (h : Assigns l key value)
    (h' : Assigns l key' value') : key = key' ∧ value = value' := by
  rw [assigns_iff] at h h'
  exact Prod.mk.inj (Option.some.inj (h.symm.trans h'))

theorem Assigns.equals_mem {key value : List UInt8} (h : Assigns l key value) : 0x3d ∈ l := by
  obtain ⟨core, before, after, hcore, -, rfl, -⟩ := h
  obtain ⟨left, right, -, -, rfl⟩ := hcore.around
  simp

/-- A line that says nothing gives no known key a value, unless it is the key of a number and the
value none. -/
theorem Idle.not_assigns (h : Idle l) {name : String} (hname : name ∈ "load_path" :: numberKeys)
    {value : List UInt8} (hl : Assigns l (keyBytes name) value) :
    name ∈ numberKeys ∧ ∀ n, ¬ Writes value n := by
  cases h with
  | blank hblank =>
    have hequals := hblank _ hl.equals_mem
    contradiction
  | comment hcore hhash =>
    obtain ⟨core', _, _, hcore', hne, -⟩ := hl
    rw [← hcore.strip_eq, hcore'.strip_eq] at hhash
    exact absurd hhash hne
  | unassigned hequals => exact absurd hl.equals_mem hequals
  | unknown hassigns hunknown => exact absurd (hassigns.unique hl).1 (hunknown name hname)
  | malformed hassigns hnumber hwrong =>
    obtain ⟨hkey, rfl⟩ := hassigns.unique hl
    exact ⟨keyBytes_inj hkey ▸ hnumber, hwrong⟩

theorem Idle.said?_number (h : Idle l) {name : String} (hname : name ∈ numberKeys) :
    said? name readNumber? l = none := by
  refine Option.eq_none_iff_forall_ne_some.mpr fun n hn => ?_
  obtain ⟨value, hassigns, hread⟩ := said?_eq_some_iff.mp hn
  exact (h.not_assigns (List.mem_cons_of_mem _ hname) hassigns).2 n (writes_iff.mpr hread)

theorem Idle.saidPath? (h : Idle l) : saidPath? l = none := by
  refine Option.eq_none_iff_forall_ne_some.mpr fun dirs hdirs => ?_
  obtain ⟨value, hassigns, -⟩ := said?_eq_some_iff.mp hdirs
  have hnumber := (h.not_assigns List.mem_cons_self hassigns).1
  contradiction

theorem said?_eq_none_or {a b key key' value value' : List UInt8} (ha : Assigns a key value)
    (hb : Assigns b key' value') (hne : key ≠ key') (name : String)
    (read : List UInt8 → Option β) : said? name read a = none ∨ said? name read b = none := by
  by_contra! hboth
  obtain ⟨v, hv⟩ := Option.ne_none_iff_exists'.mp hboth.1
  obtain ⟨w, hw⟩ := Option.ne_none_iff_exists'.mp hboth.2
  obtain ⟨_, hkey, -⟩ := said?_eq_some_iff.mp hv
  obtain ⟨_, hkey', -⟩ := said?_eq_some_iff.mp hw
  exact hne ((ha.unique hkey).1.trans (hb.unique hkey').1.symm)

/-- A change leaves what the lines leave for a key. -/
theorem Edit.settled_eq {name : String} {read : List UInt8 → Option β}
    (hidle : ∀ l, Idle l → said? name read l = none) (h : Edit lines lines') (start : β) :
    settled (said? name read) lines start = settled (said? name read) lines' start := by
  cases h with
  | insert front rest hl => simp [settled, hidle _ hl]
  | exchange front rest ha hb hne =>
    rcases said?_eq_none_or ha hb hne name read with hnone | hnone <;> simp [settled, hnone]

theorem Rearranged.settled_eq {name : String} {read : List UInt8 → Option β}
    (hidle : ∀ l, Idle l → said? name read l = none) (h : Rearranged lines lines') (start : β) :
    settled (said? name read) lines start = settled (said? name read) lines' start := by
  induction h with
  | rel _ _ hedit => exact hedit.settled_eq hidle start
  | refl _ => rfl
  | symm _ _ _ ih => exact ih.symm
  | trans _ _ _ _ _ ih₁ ih₂ => exact ih₁.trans ih₂

theorem Rearranged.number_eq (h : Rearranged lines lines') {name : String}
    (hname : name ∈ numberKeys) (start : Nat) :
    number name lines start = number name lines' start :=
  h.settled_eq (fun _ hl => hl.said?_number hname) start

theorem Rearranged.path_eq (h : Rearranged lines lines') (start : List String) :
    settled saidPath? lines start = settled saidPath? lines' start :=
  Rearranged.settled_eq (fun _ hl => hl.saidPath?) h start

/-! ## The settings of a text -/

/-- The settings that lines describe: for each key the last value, or the default, brought into its
range. -/
structure Described (lines : List (List UInt8)) (c : Config) : Prop where
  quantumMs : ∃ n, Settles (Says "quantum_ms" Writes) lines default.quantumMs n ∧
    c.quantumMs = max 1 (min n 100)
  timeslice : ∃ n, Settles (Says "timeslice" Writes) lines default.timeslice n ∧
    c.timeslice = max 1 (min n 1024)
  heapSize : ∃ n, Settles (Says "heap_size" Writes) lines default.heapSize n ∧
    c.heapSize = max 1024 (min n 262144)
  maxLoad : ∃ n, Settles (Says "max_load" Writes) lines default.maxLoad n ∧
    c.maxLoad = min n c.heapSize
  priority : ∃ n, Settles (Says "priority" Writes) lines default.priority.toNat n ∧
    c.priority.toNat = min n 255
  loadPath : Settles (Says "load_path" Lists) lines default.loadPath c.loadPath

theorem settles_number (name : String) (lines : List (List UInt8)) (start : Nat) :
    Settles (Says name Writes) lines start (number name lines start) :=
  settles_settled (says_writes_iff name) lines start

theorem described_parse {text : ByteArray} (h : text.data.toList.splitOn 0x0a = lines) :
    Described lines (parse text) := by
  rw [parse_eq h]
  constructor
  case loadPath => exact settles_settled says_lists_iff lines default.loadPath
  case priority =>
    refine ⟨_, settles_number _ lines _, ?_⟩
    have hlt : min (number "priority" lines default.priority.toNat) 255 < 2 ^ 8 := by omega
    exact UInt8.toNat_ofNat_of_lt' hlt
  all_goals exact ⟨_, settles_number _ lines _, rfl⟩

/-- **The last line for a key counts.** A text is cut at its line feeds; each setting gets the last
value that a line gives its key, or the default where none does, brought into its range. Lines that
say nothing may be put in or left out anywhere, and lines for different keys may change places. -/
theorem parse_takes_last_lines (text : ByteArray) :
    Described (text.data.toList.splitOn 0x0a) (parse text) ∧
    ∀ other : ByteArray,
      Rearranged (text.data.toList.splitOn 0x0a) (other.data.toList.splitOn 0x0a) →
      parse other = parse text := by
  refine ⟨described_parse rfl, fun other h => ?_⟩
  rw [parse_eq rfl, parse_eq rfl, h.path_eq, h.number_eq (by decide), h.number_eq (by decide),
    h.number_eq (by decide), h.number_eq (by decide), h.number_eq (by decide)]

theorem parse_takes_last_lines_swapped :
    let text := "heap_size = 2048\nmax_load=9000\npriority=300\npriority=x".toUTF8
    let other := "max_load=9000\n# swapped\nheap_size = 2048\npriority=300".toUTF8
    parse other = parse text ∧ (parse text).maxLoad = 2048 ∧ (parse text).priority = 255 := by
  intro text other
  have hheap : Assigns (keyBytes "heap_size = 2048") (keyBytes "heap_size") (keyBytes "2048") :=
    assigns_iff.mpr (by decide +kernel)
  have hload : Assigns (keyBytes "max_load=9000") (keyBytes "max_load") (keyBytes "9000") :=
    assigns_iff.mpr (by decide +kernel)
  have hcomment : Idle (keyBytes "# swapped") := .comment (.of_strip rfl) (by decide +kernel)
  have hvalue : Assigns (keyBytes "priority=x") (keyBytes "priority") (keyBytes "x") :=
    assigns_iff.mpr (by decide +kernel)
  have hnone : readNumber? (keyBytes "x") = none := by decide +kernel
  have hwrong : Idle (keyBytes "priority=x") :=
    .malformed hvalue (by decide) fun n hn => by simp [writes_iff, hnone] at hn
  refine ⟨(parse_takes_last_lines text).2 other ?_, by decide +kernel, by decide +kernel⟩
  have htext : text.data.toList.splitOn 0x0a = [keyBytes "heap_size = 2048",
      keyBytes "max_load=9000", keyBytes "priority=300", keyBytes "priority=x"] := by decide +kernel
  have hother : other.data.toList.splitOn 0x0a = [keyBytes "max_load=9000", keyBytes "# swapped",
      keyBytes "heap_size = 2048", keyBytes "priority=300"] := by decide +kernel
  rw [htext, hother]
  exact .trans _ _ _ (.rel _ _ (.exchange [] _ hheap hload (by decide +kernel)))
    (.trans _ _ _ (.rel _ _ (.insert [_] _ hcomment))
      (.symm _ _ (.rel _ _ (.insert [_, _, _, _] [] hwrong))))

end Config

end Coop
