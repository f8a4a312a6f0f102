import Coop.Proofs.Kernel.Loading
import Coop.Volume.Memory

/-!
# Files that are there

A volume may bring a file in stretches as short as it likes: read to its end, the file comes out
whole. What it holds and where it lies then decide by which route it gets into a task.

* `Volume.Brings`, `Serves`: a volume through which an open file can be read;
* `Volume.ReadsOn`, `fill_of_readsOn`, `drain_of_readsOn`: reading on, without a bound;
* **`Volume.readsOn_of_brings`**: reading on gives the whole file;
* `Volume.IsOpen`, `Volume.Yields`, **`readContents_of_isOpen`**: what comes of an open file;
* `Holds`, `routeOf`, `fetch_of_holds`: the file a name stands for, and the route it takes;
* `MemoryVolume.holds`: files of a volume in memory.
-/

namespace Coop

section Reading

variable {V : Type} [Volume V] {handle : Handle} {bytes : ByteArray}

/-- In the states `P` of a volume, every read of an open file brings a stretch of `bytes`, and an
empty one only if nothing was asked for or nothing is left. -/
def Volume.Brings (P : V → Prop) (handle : Handle) (bytes : ByteArray) : Prop :=
  ∀ vol, P vol → ∀ offset len, ∃ n vol', P vol' ∧
    Volume.read vol handle offset len = (.ok (bytes.extract offset (offset + n)), vol') ∧
    n ≤ bytes.size - offset ∧ (0 < len → offset < bytes.size → 0 < n)

/-- An open file with the given bytes, outside addressable memory. -/
structure Serves (vol : V) (handle : Handle) (bytes : ByteArray) : Prop where
  unmapped : Volume.mapped? vol handle = none
  size : Volume.size vol handle = .ok bytes.size
  extent : bytes.size ≤ Volume.extent vol handle
  reads : ∃ P, P vol ∧ Volume.Brings P handle bytes

namespace Volume

variable {P : V → Prop} {vol : V} {i : Nat}

theorem size_stretch {n : Nat} (hn : n ≤ bytes.size - i) :
    (bytes.extract i (i + n)).size = n := by
  rw [ByteArray.size_extract]
  omega

theorem append_stretch (n : Nat) :
    bytes.extract 0 i ++ bytes.extract i (i + n) = bytes.extract 0 (i + n) := by
  rw [ByteArray.extract_append_extract, Nat.zero_min, Nat.max_eq_right (Nat.le_add_right i n)]

/-- Reading on through a handle, without a bound on the number of reads: `want` says how much to ask
for next, if anything, given how much is there. A loop of `n` reads comes to the given end. -/
inductive ReadsOn (handle : Handle) (want : Nat → Option Nat) :
    (n : Nat) → V → ByteArray → Except StorageError ByteArray × V → Prop
  | enough {vol : V} {done : ByteArray} (hw : want done.size = none) :
    ReadsOn handle want 0 vol done (.ok done, vol)
  | failed {vol vol' : V} {done : ByteArray} {len : Nat} {e : StorageError}
    (hw : want done.size = some len) (hr : read vol handle done.size len = (.error e, vol')) :
    ReadsOn handle want 1 vol done (.error e, vol')
  /-- A read brings nothing. -/
  | ended {vol vol' : V} {done bytes : ByteArray} {len : Nat} (hw : want done.size = some len)
    (hr : read vol handle done.size len = (.ok bytes, vol')) (he : bytes.isEmpty = true) :
    ReadsOn handle want 1 vol done (.ok done, vol')
  | more {n : Nat} {vol vol' : V} {done bytes : ByteArray} {len : Nat}
    {r : Except StorageError ByteArray × V} (hw : want done.size = some len)
    (hr : read vol handle done.size len = (.ok bytes, vol')) (he : bytes.isEmpty = false)
    (h : ReadsOn handle want n vol' (done ++ bytes) r) : ReadsOn handle want (n + 1) vol done r

/-- Asks for all that is missing of `size` bytes. -/
def missing (size done : Nat) : Option Nat := if size ≤ done then none else some (size - done)

/-- Asks for a chunk, however much is there. -/
def chunks (chunk _done : Nat) : Option Nat := some chunk

section Loops

variable {n size chunk reads : Nat} {done : ByteArray} {r : Except StorageError ByteArray × V}

/-- The bound of `fill` is never felt: every read but the last brings something. -/
theorem fill_of_readsOn (h : ReadsOn handle (missing size) n vol done r)
    (hreads : size - done.size ≤ reads) : fill handle size reads vol done = r := by
  have hroom {i len : Nat} (hw : missing size i = some len) : i < size ∧ len = size - i := by
    unfold missing at hw
    split_ifs at hw
    cases hw
    omega
  induction h generalizing reads with
  | @enough vol done hw =>
    have hle : size ≤ done.size := by
      unfold missing at hw
      split_ifs at hw
      assumption
    cases reads with
    | zero => rfl
    | succ reads => rw [fill, if_pos hle]
  | failed hw hr =>
    obtain ⟨hlt, rfl⟩ := hroom hw
    obtain ⟨m, rfl⟩ : ∃ m, reads = m + 1 := Nat.exists_eq_add_one.mpr (by omega)
    rw [fill, if_neg (by omega), hr]
  | ended hw hr he =>
    obtain ⟨hlt, rfl⟩ := hroom hw
    obtain ⟨m, rfl⟩ : ∃ m, reads = m + 1 := Nat.exists_eq_add_one.mpr (by omega)
    rw [fill, if_neg (by omega), hr]
    exact if_pos he
  | @more n vol vol' done bytes len r hw hr he _ ih =>
    obtain ⟨hlt, rfl⟩ := hroom hw
    obtain ⟨m, rfl⟩ : ∃ m, reads = m + 1 := Nat.exists_eq_add_one.mpr (by omega)
    have hsome : bytes.size ≠ 0 := by simpa [ByteArray.isEmpty] using he
    rw [fill, if_neg (by omega), hr]
    dsimp only
    rw [he]
    refine ih ?_
    rw [ByteArray.size_append]
    omega

theorem drain_of_readsOn (h : ReadsOn handle (chunks chunk) n vol done r) (hreads : n ≤ reads) :
    drain handle chunk reads vol done = r := by
  induction h generalizing reads with
  | enough hw => cases hw
  | failed hw hr =>
    cases hw
    obtain ⟨m, rfl⟩ : ∃ m, reads = m + 1 := Nat.exists_eq_add_one.mpr hreads
    rw [drain, hr]
  | ended hw hr he =>
    cases hw
    obtain ⟨m, rfl⟩ : ∃ m, reads = m + 1 := Nat.exists_eq_add_one.mpr hreads
    rw [drain, hr]
    exact if_pos he
  | more hw hr he _ ih =>
    cases hw
    obtain ⟨m, rfl⟩ : ∃ m, reads = m + 1 := Nat.exists_eq_add_one.mpr (by omega)
    rw [drain, hr]
    dsimp only
    rw [he]
    exact ih (by omega)

end Loops

/-- **Reading on gives the whole file**, however the reads are split, and comes to an end. -/
theorem readsOn_of_brings (h : Brings P handle bytes) {want : Nat → Option Nat}
    (hwant : ∀ i < bytes.size, ∃ len, 0 < len ∧ want i = some len) (hvol : P vol)
    (hi : i ≤ bytes.size) : ∃ n vol', n ≤ bytes.size - i + 1 ∧
      ReadsOn handle want n vol (bytes.extract 0 i) (.ok bytes, vol') := by
  -- the induction is on what is left of the file
  obtain ⟨left, hleft⟩ : ∃ left, left = bytes.size - i := ⟨_, rfl⟩
  induction left using Nat.strongRecOn generalizing vol i with
  | _ left ih =>
    have hdone : (bytes.extract 0 i).size = i := by
      rw [ByteArray.size_extract]
      omega
    by_cases hend : i = bytes.size
    · subst hend
      cases hw : want bytes.size with
      | none =>
        refine ⟨0, vol, Nat.zero_le _, ?_⟩
        rw [ByteArray.extract_zero_size]
        exact .enough hw
      | some len =>
        obtain ⟨n, vol', -, hread, hn, -⟩ := h vol hvol bytes.size len
        obtain rfl : n = 0 := by omega
        refine ⟨1, vol', by omega, ?_⟩
        rw [ByteArray.extract_zero_size]
        refine .ended hw hread ?_
        rw [Nat.add_zero, ByteArray.extract_same]
        rfl
    · obtain ⟨len, hlen, hw⟩ := hwant i (by omega)
      obtain ⟨n, vol', hvol', hread, hn, hpos⟩ := h vol hvol i len
      have hpos := hpos hlen (by omega)
      obtain ⟨m, vol'', hm, hrest⟩ := ih (bytes.size - (i + n)) (by omega) hvol' (by omega) rfl
      rw [← append_stretch] at hrest
      rw [← hdone] at hw
      refine ⟨m + 1, vol'', by omega, .more hw ?_ ?_ hrest⟩
      · rw [hdone]
        exact hread
      · rw [ByteArray.isEmpty, size_stretch hn]
        exact beq_eq_false_iff_ne.mpr (by omega)

end Volume

/-! ## The route of a file -/

/-- A name stands for a file with the given bytes, in addressable memory or not. -/
inductive Holds (config : Config) (vol : V) (name : String) (bytes : ByteArray) : Bool → Prop
  | resident {handle : Handle} {path : String} {vol' : V}
    (found : (openFirst vol name (candidates config.loadPath name)).value =
      (.ok (handle, path), vol'))
    (lent : Volume.mapped? vol' handle = some bytes) : Holds config vol name bytes true
  | buffered {handle : Handle} {path : String} {vol' : V}
    (found : (openFirst vol name (candidates config.loadPath name)).value =
      (.ok (handle, path), vol'))
    (serves : Serves vol' handle bytes) : Holds config vol name bytes false

/-- The route of a file: `resident` says whether it lies in addressable memory. -/
def routeOf (maxLoad : Nat) (bytes : ByteArray) (resident : Bool) : Route :=
  if resident then if Image.isImage bytes then .mappedImage else .mappedSource
  else if bytes.size ≤ maxLoad ∧ Image.isImage bytes then .bufferedImage
  else .bufferedSource

/-- How much to ask for next of a file of the given size: a chunk if the file is over the limit, and
all that is missing otherwise. -/
def wanted (maxLoad size : Nat) : Nat → Option Nat :=
  if maxLoad < size then Volume.chunks readChunk else Volume.missing size

theorem exists_wanted (maxLoad : Nat) {size i : Nat} (hi : i < size) :
    ∃ len, 0 < len ∧ wanted maxLoad size i = some len := by
  unfold wanted Volume.chunks Volume.missing
  split_ifs
  · exact ⟨readChunk, by decide, rfl⟩
  · exact ⟨size - i, by omega, if_neg (by omega)⟩

/-- A file outside addressable memory is read to its end, and takes the route its bytes decide. -/
theorem readBuffered_of_serves {vol : V} (h : Serves vol handle bytes) (maxLoad : Nat)
    (path : String) : ∃ n vol', n ≤ bytes.size + 1 ∧
      Volume.ReadsOn handle (wanted maxLoad bytes.size) n vol .empty (.ok bytes, vol') ∧
      (readBuffered maxLoad vol handle path).value =
        (.ok ⟨routeOf maxLoad bytes false, bytes⟩, vol') := by
  obtain ⟨P, hvol, hbrings⟩ := h.reads
  obtain ⟨n, vol', hn, hreads⟩ := Volume.readsOn_of_brings hbrings
    (fun _ => exists_wanted maxLoad) hvol (Nat.zero_le _)
  rw [ByteArray.extract_same] at hreads
  refine ⟨n, vol', hn, hreads, ?_⟩
  unfold readBuffered routeOf
  unfold wanted at hreads
  simp only [h.size, Bool.false_eq_true, if_false]
  by_cases hlarge : maxLoad < bytes.size
  · have hextent := h.extent
    rw [if_pos hlarge] at hreads
    rw [if_pos hlarge, if_neg (by omega), Logged.value_bind,
      Volume.drain_of_readsOn hreads (by omega)]
    rfl
  · rw [if_neg hlarge] at hreads
    rw [if_neg hlarge, Volume.fill_of_readsOn hreads (Nat.sub_le _ _)]
    dsimp only
    by_cases himage : Image.isImage bytes = true
    · rw [if_pos himage, if_pos ⟨Nat.le_of_not_lt hlarge, himage⟩]
      rfl
    · rw [if_neg himage, if_neg (fun h => himage h.2)]
      rfl

/-- An open file whose bytes lie in addressable memory, or can be read. -/
inductive Volume.IsOpen (vol : V) (handle : Handle) : File → Prop
  | resident {bytes : ByteArray} (lent : mapped? vol handle = some bytes) :
    IsOpen vol handle ⟨bytes, true⟩
  | buffered {bytes : ByteArray} (serves : Serves vol handle bytes) :
    IsOpen vol handle ⟨bytes, false⟩

/-- The bytes of an open file come with `n` reads: with none if they lie in addressable memory, and
otherwise by reading on to the end. -/
inductive Volume.Yields (maxLoad : Nat) (handle : Handle) : File → (n : Nat) → V → V → Prop
  | resident {bytes : ByteArray} {vol : V} (lent : mapped? vol handle = some bytes) :
    Yields maxLoad handle ⟨bytes, true⟩ 0 vol vol
  | buffered {bytes : ByteArray} {n : Nat} {vol vol' : V} (hn : n ≤ bytes.size + 1)
    (hreads : ReadsOn handle (wanted maxLoad bytes.size) n vol .empty (.ok bytes, vol')) :
    Yields maxLoad handle ⟨bytes, false⟩ n vol vol'

/-- **What is read from an open file, and the route it takes.** -/
theorem readContents_of_isOpen {vol : V} {file : File} (hopen : Volume.IsOpen vol handle file)
    (maxLoad : Nat) (path : String) : ∃ n vol', Volume.Yields maxLoad handle file n vol vol' ∧
      (readContents maxLoad vol handle path).value =
        (.ok ⟨routeOf maxLoad file.bytes file.resident, file.bytes⟩, vol') := by
  unfold readContents
  cases hopen with
  | @resident bytes lent =>
    refine ⟨0, vol, .resident lent, ?_⟩
    unfold routeOf
    by_cases himage : Image.isImage bytes = true <;> simp [lent, himage]
  | @buffered bytes serves =>
    obtain ⟨n, vol', hn, hreads, hvalue⟩ := readBuffered_of_serves serves maxLoad path
    refine ⟨n, vol', .buffered hn hreads, ?_⟩
    rw [serves.unmapped]
    exact hvalue

theorem fetch_of_isOpen {config : Config} {vol vol₁ : V} {name path : String} {file : File}
    (found : (openFirst vol name (candidates config.loadPath name)).value =
      (.ok (handle, path), vol₁)) (hopen : Volume.IsOpen vol₁ handle file) :
    ∃ n vol₂, Volume.Yields config.maxLoad handle file n vol₁ vol₂ ∧ fetch config vol name =
      (.ok ⟨routeOf config.maxLoad file.bytes file.resident, file.bytes⟩,
        Volume.close vol₂ handle) := by
  obtain ⟨n, vol₂, hyields, hread⟩ := readContents_of_isOpen hopen config.maxLoad path
  refine ⟨n, vol₂, hyields, ?_⟩
  unfold fetch
  rw [found]
  simp only [hread]

theorem fetch_of_holds {config : Config} {vol : V} {name : String} {resident : Bool}
    (h : Holds config vol name bytes resident) :
    (fetch config vol name).1 = .ok ⟨routeOf config.maxLoad bytes resident, bytes⟩ := by
  cases h with
  | resident found lent =>
    obtain ⟨_, _, -, hfetch⟩ := fetch_of_isOpen found (.resident lent)
    rw [hfetch]
  | buffered found serves =>
    obtain ⟨_, _, -, hfetch⟩ := fetch_of_isOpen found (.buffered serves)
    rw [hfetch]

end Reading

/-! ## Volumes in memory -/

namespace MemoryVolume

variable {v : MemoryVolume} {path : String} {place slot : Nat} {file : File}

theorem serves {handle : Handle} (h : v.behind? handle = some file) (hr : file.resident = false) :
    Serves v handle file.bytes where
  unmapped := by
    change v.mapped? handle = none
    simp [mapped?, h, hr]
  size := by
    change v.size handle = _
    rw [size, h]
  extent := by simp [Volume.extent, h]
  reads := by
    refine ⟨fun w => w.behind? handle = some file, h, fun w hw offset len => ?_⟩
    have hread : w.read handle offset len =
        (.ok (file.bytes.extract offset (offset + min len (file.bytes.size - offset))),
          { w with
            bytesRead := w.bytesRead + .ofNat (min len (file.bytes.size - offset)) }) := by
      rcases Nat.le_total offset file.bytes.size with hle | hge
      · simp [read, show w.behind? handle = some file from hw, Nat.min_eq_left hle]
      · -- beyond the end there is nothing to bring
        simp [read, show w.behind? handle = some file from hw, Nat.min_eq_right hge,
          Nat.sub_eq_zero_of_le hge]
    refine ⟨_, _, ?_, hread, Nat.min_le_right _ _, fun hlen hlt => ?_⟩
    · exact hw
    · exact Nat.lt_min.mpr ⟨hlen, Nat.sub_pos_of_lt hlt⟩

theorem value_openFirst (hslot : v.slots.toList.findIdx? Option.isNone = some slot)
    (name : String) {paths : List String} (hpath : paths.find? v.has = some path)
    (hplace : v.place? path = some place) :
    (openFirst v name paths).value = (.ok (slot, path),
      { v with slots := v.slots.setIfInBounds slot (some place), opens := v.opens + 1 }) := by
  induction paths with
  | nil => cases hpath
  | cons p paths ih =>
    have hopen : (Volume.openPath v p).value = (v.openPath p).value := rfl
    unfold openFirst
    rw [Logged.value_bind, hopen]
    unfold openPath
    cases hp : v.place? p with
    | some _ =>
      rw [List.find?_cons_of_pos (by rw [has_eq, hp]; rfl)] at hpath
      cases hpath
      cases hp.symm.trans hplace
      simp only [hslot]
      rfl
    | none =>
      rw [List.find?_cons_of_neg (by rw [has_eq, hp]; exact Bool.false_ne_true)] at hpath
      exact ih hpath

theorem isOpen {handle : Handle} (h : v.behind? handle = some file) :
    Volume.IsOpen v handle file := by
  obtain ⟨bytes, resident⟩ := file
  cases resident with
  | true =>
    refine .resident ?_
    change v.mapped? handle = some bytes
    simp [mapped?, h]
  | false => exact .buffered (serves h rfl)

theorem behind?_taken (hslot : v.slots.toList.findIdx? Option.isNone = some slot)
    (hplace : v.place? path = some place) (opens : UInt32) :
    behind? { v with slots := v.slots.setIfInBounds slot (some place), opens := opens } slot =
      v.file? path := by
  have hlt : slot < maxOpen := by
    have := (List.findIdx?_eq_some_iff_findIdx_eq.mp hslot).1
    rwa [Vector.length_toList] at this
  rw [file?_eq, hplace]
  change ((v.slots.setIfInBounds slot (some place))[slot]?).join.bind v.fileAt? = v.fileAt? place
  rw [Vector.getElem?_setIfInBounds_self_of_lt hlt]
  rfl

theorem holds {config : Config} {name : String}
    (hpath : (candidates config.loadPath name).find? v.has = some path)
    (hfile : v.file? path = some file) (hroom : v.slots.toList.findIdx? Option.isNone ≠ none) :
    Holds config v name file.bytes file.resident := by
  obtain ⟨slot, hslot⟩ := Option.ne_none_iff_exists'.mp hroom
  obtain ⟨place, hplace⟩ := Option.isSome_iff_exists.mp
    ((v.has_eq path).symm.trans (List.find?_some hpath))
  have hopen := isOpen ((behind?_taken hslot hplace (v.opens + 1)).trans hfile)
  have hfound := value_openFirst hslot name hpath hplace
  cases hopen with
  | resident lent => exact .resident hfound lent
  | buffered serves => exact .buffered hfound serves

end MemoryVolume

end Coop
