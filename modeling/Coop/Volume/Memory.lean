import Coop.Volume

/-!
# Volumes in memory

A small table of files, resident ones in addressable memory and others in buffers of their own, with
four slots for open files. A slot holds the place of its file in the table, and what is read through
it is what stands at this place now.

* `File`, `MemoryVolume`;
* `MemoryVolume.addFile`, `MemoryVolume.addMapped`: replace the file at a path, or add one;
* the instance of `Volume`;
* `file?_eq`, `has_eq`: looking up a path finds what stands at its place.
-/

namespace Coop

/-- How many files may be open at a time. -/
def maxOpen : Nat := 4

/-- A file: its bytes, and whether they lie in addressable memory. -/
structure File where
  bytes : ByteArray
  resident : Bool
  deriving DecidableEq

/-- A volume in memory: files by path in order of their first arrival, the places of the open files
in this table, and counts of opens and of bytes read, which wrap around. -/
structure MemoryVolume where
  files : List (String × File)
  slots : Vector (Option Nat) maxOpen
  opens : UInt32
  bytesRead : UInt64
  deriving DecidableEq

namespace MemoryVolume

/-- A volume without files. -/
def empty : MemoryVolume := ⟨[], Vector.replicate maxOpen none, 0, 0⟩

/-- The file at a path. -/
def file? (v : MemoryVolume) (path : String) : Option File := v.files.lookup path

/-- Whether there is a file at a path. -/
def has (v : MemoryVolume) (path : String) : Bool := (v.file? path).isSome

/-- The paths, in order of their first arrival. -/
def paths (v : MemoryVolume) : List String := v.files.map Prod.fst

/-- The place of a path in the table of files. -/
def place? (v : MemoryVolume) (path : String) : Option Nat :=
  v.files.findIdx? fun e => e.1 == path

/-- Puts a file at a path: in the place the path has, or behind all others. -/
def insert (v : MemoryVolume) (path : String) (file : File) : MemoryVolume :=
  match v.place? path with
  | some place => { v with files := v.files.set place (path, file) }
  | none => { v with files := v.files ++ [(path, file)] }

/-- Puts bytes at a path. -/
def addFile (v : MemoryVolume) (path : String) (bytes : ByteArray) : MemoryVolume :=
  v.insert path ⟨bytes, false⟩

/-- Puts bytes in addressable memory at a path. -/
def addMapped (v : MemoryVolume) (path : String) (bytes : ByteArray) : MemoryVolume :=
  v.insert path ⟨bytes, true⟩

/-- How many files are open. -/
def openHandles (v : MemoryVolume) : Nat := (v.slots.toList.filter Option.isSome).length

/-- The file at a place in the table. -/
def fileAt? (v : MemoryVolume) (place : Nat) : Option File := (v.files[place]?).map Prod.snd

/-- The file behind a handle: the one at the place that its slot holds. -/
def behind? (v : MemoryVolume) (handle : Handle) : Option File :=
  (v.slots[handle]?).join.bind v.fileAt?

/-- Opens a path in the first free slot. -/
def openPath (v : MemoryVolume) (path : String) :
    Logged (Except StorageError Handle × MemoryVolume) := do
  match v.place? path with
  | none => return (.error .notFound, v)
  | some place =>
    match v.slots.toList.findIdx? Option.isNone with
    | none => return (.error .tooManyOpen, v)
    | some slot =>
      Logged.debug s!"volume: open {path} -> handle {slot}"
      return (.ok slot,
        { v with slots := v.slots.setIfInBounds slot (some place), opens := v.opens + 1 })

/-- The size of an open file. -/
def size (v : MemoryVolume) (handle : Handle) : Except StorageError Nat :=
  match v.behind? handle with
  | some f => .ok f.bytes.size
  | none => .error .badHandle

/-- The bytes of an open file, if they lie in addressable memory. -/
def mapped? (v : MemoryVolume) (handle : Handle) : Option ByteArray :=
  match v.behind? handle with
  | some f => if f.resident then some f.bytes else none
  | none => none

/-- At most `len` bytes of an open file from an offset on. -/
def read (v : MemoryVolume) (handle : Handle) (offset len : Nat) :
    Except StorageError ByteArray × MemoryVolume :=
  match v.behind? handle with
  | none => (.error .badHandle, v)
  | some f =>
    let start := min offset f.bytes.size
    let n := min len (f.bytes.size - start)
    (.ok (f.bytes.extract start (start + n)), { v with bytesRead := v.bytesRead + .ofNat n })

/-- Frees the slot of an open file. -/
def close (v : MemoryVolume) (handle : Handle) : MemoryVolume :=
  { v with slots := v.slots.setIfInBounds handle none }

instance : Volume MemoryVolume where
  openPath := openPath
  size := size
  mapped? := mapped?
  read := read
  close := close
  extent v handle := match v.behind? handle with
    | some f => f.bytes.size
    | none => 0

/-! ## Places in the table of files -/

variable {v : MemoryVolume} {path : String} {place : Nat}

theorem files_of_place? (h : v.place? path = some place) :
    ∃ file, v.files[place]? = some (path, file) := by
  obtain ⟨hlt, hpath, -⟩ := List.findIdx?_eq_some_iff_getElem.mp h
  exact ⟨v.files[place].2, by rw [List.getElem?_eq_getElem hlt, ← eq_of_beq hpath]⟩

theorem file?_eq (v : MemoryVolume) (path : String) :
    v.file? path = (v.place? path).bind v.fileAt? := by
  unfold file? place? fileAt?
  induction v.files with
  | nil => rfl
  | cons e files ih =>
    rw [List.lookup_cons, List.findIdx?_cons, ih, Bool.beq_comm (a := path)]
    cases e.1 == path with
    | true => rfl
    | false => cases files.findIdx? fun e => e.1 == path <;> rfl

theorem has_eq (v : MemoryVolume) (path : String) : v.has path = (v.place? path).isSome := by
  rw [has, file?_eq]
  cases hplace : v.place? path with
  | none => rfl
  | some place =>
    obtain ⟨file, hfile⟩ := files_of_place? hplace
    simp [fileAt?, hfile]

end MemoryVolume

end Coop
