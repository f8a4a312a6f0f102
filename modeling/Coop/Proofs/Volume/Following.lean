import Coop.Proofs.Machine.Guarded
import Coop.Proofs.Volume.Handles
import Mathlib.Data.List.Induction
import Mathlib.Data.List.Nodup

/-!
# Open files follow their paths

Files are opened and closed while others come, and while the file at a path is replaced by another
one. A slot holds the place that the path had in the table of files when it was opened. No path ever
moves in this table, so that until the handle is closed it shows what the path holds at the time.

* `paths_insert`, **`paths_prefix_insert`**, `file?_insert`: what putting a file at a path does to
  the table;
* `taken`, **`openPath_cases`**, `openPath_ok_iff`: the handles in use, and the ways in which an
  opening can go;
* `Call`, `latest?`: what can be done with a volume, and the file last put at a path;
* `Opening`, `Visit`: the handles that were given out and not closed since;
* `Visit.Sound`, **`Visit.sound_call`**, `Visit.sound_run`: the slots hold the places of the paths
  that were opened;
* `Visit.total`, `Visit.guardedCall`, **`Visit.guardedRun_eq`**: the counts, and calls that test
  them;
* `readInto_of_behind?`: what a read brings;
* **`open_files_follow`**.
-/

namespace Coop

namespace MemoryVolume

/-! ## Files by path -/

section Files

variable {v : MemoryVolume} {path : String} {place : Nat}

theorem paths_of_files {file : File} (h : v.files[place]? = some (path, file)) :
    v.paths[place]? = some path := by
  rw [paths, List.getElem?_map, h, Option.map_some]

theorem place?_eq (v : MemoryVolume) (path : String) :
    v.place? path = v.paths.findIdx? (· == path) := by
  rw [place?, paths, List.findIdx?_map]
  rfl

theorem place?_eq_none_iff : v.place? path = none ↔ path ∉ v.paths := by
  rw [place?_eq, List.findIdx?_eq_none_iff]
  constructor
  · intro h hmem
    simpa using h path hmem
  · rintro h p hp
    exact beq_eq_false_iff_ne.mpr fun hsame => h (hsame ▸ hp)

theorem insert_eq (v : MemoryVolume) (path : String) (file : File) :
    v.insert path file = { v with files := (v.insert path file).files } := by
  unfold insert
  cases v.place? path <;> rfl

theorem paths_insert (v : MemoryVolume) (path : String) (file : File) :
    (v.insert path file).paths = if path ∈ v.paths then v.paths else v.paths ++ [path] := by
  unfold insert
  cases hplace : v.place? path with
  | some place =>
    obtain ⟨old, hold⟩ := files_of_place? hplace
    obtain ⟨hlt, hpath⟩ := List.getElem?_eq_some_iff.mp (paths_of_files hold)
    rw [if_pos (List.mem_of_getElem? (paths_of_files hold))]
    change (v.files.set place (path, file)).map Prod.fst = v.paths
    rw [List.map_set]
    exact (congrArg (v.paths.set place) hpath).symm.trans (List.set_getElem_self hlt)
  | none =>
    rw [if_neg (place?_eq_none_iff.mp hplace)]
    exact List.map_append

theorem nodup_insert (h : v.paths.Nodup) (path : String) (file : File) :
    (v.insert path file).paths.Nodup := by
  rw [paths_insert]
  split_ifs with hmem
  · exact h
  · exact List.nodup_append.mpr ⟨h, List.nodup_singleton path, by grind⟩

/-- **A path keeps its place.** A file that is replaced stays where it is, and a new one comes
behind all others. -/
theorem paths_prefix_insert (v : MemoryVolume) (path : String) (file : File) :
    v.paths <+: (v.insert path file).paths := by
  rw [paths_insert]
  split_ifs
  · exact List.prefix_refl _
  · exact List.prefix_append _ _

theorem file?_eq_some_of_mem (h : v.paths.Nodup) {file : File} (hmem : (path, file) ∈ v.files) :
    v.file? path = some file := by
  obtain ⟨before, after, hsplit⟩ := List.append_of_mem hmem
  refine List.lookup_eq_some_iff.mpr ⟨before, after, hsplit, fun e he => ?_⟩
  rw [paths, hsplit, List.map_append, List.map_cons] at h
  have hne : e.1 ≠ path := by
    rintro rfl
    exact (List.nodup_append.mp h).2.2 e.1 (List.mem_map_of_mem he) e.1 List.mem_cons_self rfl
  simpa using hne.symm

theorem file?_insert (v : MemoryVolume) (path : String) (file : File) (p : String) :
    (v.insert path file).file? p = if path = p then some file else v.file? p := by
  have hpaths := v.paths_insert path file
  unfold insert at hpaths ⊢
  cases hplace : v.place? path with
  | some place =>
    obtain ⟨old, hold⟩ := files_of_place? hplace
    rw [hplace, if_pos (List.mem_of_getElem? (paths_of_files hold))] at hpaths
    have hlt := (List.getElem?_eq_some_iff.mp hold).1
    dsimp only at hpaths ⊢
    rw [file?_eq, place?_eq, hpaths, ← place?_eq]
    split_ifs with hp
    · subst hp
      rw [hplace, Option.bind_some, fileAt?, List.getElem?_set_self hlt, Option.map_some]
    · rw [file?_eq]
      cases hother : v.place? p with
      | none => rfl
      | some q =>
        have hne : place ≠ q := by
          rintro rfl
          obtain ⟨file', hfile'⟩ := files_of_place? hother
          exact hp (congrArg Prod.fst (Option.some.inj (hold.symm.trans hfile')))
        rw [Option.bind_some, Option.bind_some, fileAt?, List.getElem?_set_ne hne, fileAt?]
  | none =>
    have hnone : v.file? path = none := by rw [file?_eq, hplace, Option.bind_none]
    rw [file?] at hnone
    dsimp only
    rw [file?, List.lookup_append]
    split_ifs with hp
    · subst hp
      rw [hnone, Option.none_or, List.lookup_cons_self]
    · have hne : (p == path) = false := beq_eq_false_iff_ne.mpr (Ne.symm hp)
      rw [List.lookup_cons, hne, List.lookup_nil, Option.or_none, file?]

end Files

/-! ## Slots -/

section Slots

variable (v : MemoryVolume)

theorem openHandles_le : v.openHandles ≤ maxOpen := by
  have hle := List.length_filter_le Option.isSome v.slots.toList
  rwa [Vector.length_toList] at hle

theorem openHandles_lt_iff : v.openHandles < maxOpen ↔ ∃ slot ∈ v.slots.toList, slot = none := by
  have hlt := List.length_filter_lt_length_iff_exists (p := Option.isSome) (l := v.slots.toList)
  rw [Vector.length_toList] at hlt
  rw [openHandles, hlt]
  exact exists_congr fun slot => and_congr_right fun _ => Option.not_isSome_iff_eq_none

/-- The handles of the open files. -/
def taken (v : MemoryVolume) : List Handle :=
  (List.range maxOpen).filter fun handle => (v.slots[handle]?).join.isSome

theorem mem_taken_iff {v : MemoryVolume} {handle : Handle} :
    handle ∈ v.taken ↔ ∃ place, v.slots[handle]? = some (some place) := by
  rw [taken, List.mem_filter, List.mem_range, Option.isSome_iff_exists]
  constructor
  · rintro ⟨-, place, hplace⟩
    exact ⟨place, Option.join_eq_some_iff.mp hplace⟩
  · rintro ⟨place, hplace⟩
    exact ⟨(Vector.getElem?_eq_some_iff.mp hplace).1, place, Option.join_eq_some_iff.mpr hplace⟩

theorem length_taken : v.taken.length = v.openHandles := by
  have hslots : v.slots.toList =
      (List.range maxOpen).map fun handle => (v.slots[handle]?).join := by
    refine List.ext_getElem (by simp) fun i hi _ => ?_
    rw [Vector.length_toList] at hi
    simp [hi]
  rw [openHandles, hslots, List.filter_map, List.length_map, taken]
  rfl

/-- **What opening a path can do.** -/
theorem openPath_cases (path : String) :
    (path ∉ v.paths ∧ (v.openPath path).value = (.error .notFound, v)) ∨
    (path ∈ v.paths ∧ v.openHandles = maxOpen ∧
      (v.openPath path).value = (.error .tooManyOpen, v)) ∨
    ∃ slot place, v.paths[place]? = some path ∧ v.openHandles < maxOpen ∧
      v.slots[slot]? = some none ∧ (v.openPath path).value = (.ok slot,
        { v with slots := v.slots.setIfInBounds slot (some place), opens := v.opens + 1 }) := by
  have hvalue := value_openPath v path
  change (v.openPath path).value = _ at hvalue
  rw [hvalue]
  cases hplace : v.place? path with
  | none => exact .inl ⟨place?_eq_none_iff.mp hplace, rfl⟩
  | some place =>
    obtain ⟨file, hfile⟩ := files_of_place? hplace
    have hpath := paths_of_files hfile
    cases hslot : v.slots.toList.findIdx? Option.isNone with
    | none =>
      have hfull : ¬ v.openHandles < maxOpen := by
        rw [openHandles_lt_iff]
        rintro ⟨_, hmem, rfl⟩
        exact absurd (List.findIdx?_eq_none_iff.mp hslot none hmem) (by decide)
      exact .inr (.inl ⟨List.mem_of_getElem? hpath,
        Nat.le_antisymm v.openHandles_le (Nat.le_of_not_lt hfull), rfl⟩)
    | some slot =>
      obtain ⟨hlt, hnone, -⟩ := List.findIdx?_eq_some_iff_getElem.mp hslot
      have hfree : v.slots.toList[slot]? = some none := by
        rw [List.getElem?_eq_getElem hlt, Option.isNone_iff_eq_none.mp hnone]
      have hroom := v.openHandles_lt_iff.mpr ⟨none, List.mem_of_getElem? hfree, rfl⟩
      rw [Vector.getElem?_toList] at hfree
      exact .inr (.inr ⟨slot, place, hpath, hroom, hfree, rfl⟩)

theorem openPath_ok_iff (path : String) :
    (∃ handle w, (v.openPath path).value = (.ok handle, w)) ↔
      path ∈ v.paths ∧ v.openHandles < maxOpen := by
  rcases v.openPath_cases path with
    ⟨hno, hv⟩ | ⟨-, hfull, hv⟩ | ⟨slot, place, hpath, hroom, -, hv⟩
  · simp [hv, hno]
  · simp [hv, hfull]
  · rw [hv]
    exact iff_of_true ⟨slot, _, rfl⟩ ⟨List.mem_of_getElem? hpath, hroom⟩

theorem free_of_openPath {v w : MemoryVolume} {path : String} {handle : Handle}
    (h : (v.openPath path).value = (.ok handle, w)) : v.slots[handle]? = some none := by
  rcases v.openPath_cases path with ⟨-, hv⟩ | ⟨-, -, hv⟩ | ⟨slot, _, -, -, hfree, hv⟩
  · rw [hv] at h
    cases h
  · rw [hv] at h
    cases h
  · rw [hv] at h
    cases h
    exact hfree

end Slots

/-! ## Visits -/

/-- What can be done with a volume. To ask for the size of an open file or for its bytes in
addressable memory is no call, since it changes nothing. -/
inductive Call where
  | addFile (path : String) (bytes : ByteArray)
  | addMapped (path : String) (bytes : ByteArray)
  | openPath (path : String)
  | read (handle : Handle) (offset len : Nat)
  | close (handle : Handle)

/-- The file that a call puts at a path, if it does. -/
def Call.put? (path : String) : Call → Option File
  | addFile p bytes => if p = path then some ⟨bytes, false⟩ else none
  | addMapped p bytes => if p = path then some ⟨bytes, true⟩ else none
  | openPath _ | read _ _ _ | close _ => none

/-- The file that was last put at a path. -/
def latest? (path : String) (calls : List Call) : Option File :=
  (calls.filterMap (Call.put? path)).getLast?

/-- A path that was opened, and the handle that was given out for it. -/
structure Opening where
  handle : Handle
  path : String
  deriving DecidableEq

/-- A volume, and the handles that were given out and not closed since. -/
structure Visit where
  volume : MemoryVolume
  openings : List Opening

namespace Visit

/-- A volume without files. -/
def start : Visit := ⟨empty, []⟩

/-- Makes a call and keeps the books. -/
def call (s : Visit) : Call → Visit
  | .addFile path bytes => { s with volume := s.volume.addFile path bytes }
  | .addMapped path bytes => { s with volume := s.volume.addMapped path bytes }
  | .openPath path =>
    match (s.volume.openPath path).value with
    | (.error _, v) => { s with volume := v }
    | (.ok handle, v) => ⟨v, ⟨handle, path⟩ :: s.openings⟩
  | .read handle offset len => { s with volume := (s.volume.read handle offset len).2 }
  | .close handle => ⟨s.volume.close handle, s.openings.filter fun o => o.handle ≠ handle⟩

/-- Makes some calls. -/
def run (s : Visit) (calls : List Call) : Visit := calls.foldl call s

theorem run_concat (s : Visit) (calls : List Call) (c : Call) :
    s.run (calls ++ [c]) = (s.run calls).call c := by
  simp [run]

/-- The books are right. -/
structure Sound (s : Visit) : Prop where
  nodup : s.volume.paths.Nodup
  /-- A slot is taken only if its handle is out. -/
  taken : ∀ handle place, s.volume.slots[handle]? = some (some place) →
    ∃ o ∈ s.openings, o.handle = handle
  distinct : (s.openings.map Opening.handle).Nodup
  /-- The slot of a handle that is out holds the place of the path that was opened. -/
  placed : ∀ o ∈ s.openings, ∃ place, s.volume.slots[o.handle]? = some (some place) ∧
    s.volume.paths[place]? = some o.path

variable {s : Visit}

theorem sound_start : start.Sound where
  nodup := List.nodup_nil
  taken handle place h := by
    simp [start, empty, Vector.getElem?_replicate] at h
  distinct := List.nodup_nil
  placed := nofun

theorem Sound.insert (h : s.Sound) (path : String) (file : File) :
    Sound { s with volume := s.volume.insert path file } := by
  have hslots : (s.volume.insert path file).slots = s.volume.slots :=
    (congrArg slots (s.volume.insert_eq path file) :)
  refine ⟨nodup_insert h.nodup path file, ?_, h.distinct, fun o ho => ?_⟩
  · rw [hslots]
    exact h.taken
  · obtain ⟨place, hslot, hpath⟩ := h.placed o ho
    obtain ⟨rest, hrest⟩ := paths_prefix_insert s.volume path file
    have hlt := (List.getElem?_eq_some_iff.mp hpath).1
    refine ⟨place, ?_, ?_⟩
    · rw [hslots]
      exact hslot
    · rw [← hrest, List.getElem?_append_left hlt]
      exact hpath

theorem Sound.ne_of_free (h : s.Sound) {slot : Handle} (hfree : s.volume.slots[slot]? = some none)
    {o : Opening} (ho : o ∈ s.openings) : o.handle ≠ slot := by
  rintro rfl
  obtain ⟨place, hslot, -⟩ := h.placed o ho
  rw [hfree] at hslot
  cases hslot

theorem Sound.openPath (h : s.Sound) (path : String) : (s.call (.openPath path)).Sound := by
  rw [call]
  rcases s.volume.openPath_cases path with ⟨-, hv⟩ | ⟨-, -, hv⟩ | ⟨slot, place, hpath, -, hfree, hv⟩
  · rw [hv]
    exact h
  · rw [hv]
    exact h
  · rw [hv]
    have hlt : slot < maxOpen := (Vector.getElem?_eq_some_iff.mp hfree).1
    refine ⟨h.nodup, fun handle p hp => ?_, ?_, List.forall_mem_cons.mpr ⟨?_, fun o ho => ?_⟩⟩
    · by_cases hslot : slot = handle
      · exact ⟨_, List.mem_cons_self, hslot⟩
      · rw [Vector.getElem?_setIfInBounds_ne hslot] at hp
        obtain ⟨o, ho, hhandle⟩ := h.taken handle p hp
        exact ⟨o, List.mem_cons_of_mem _ ho, hhandle⟩
    · refine List.nodup_cons.mpr ⟨fun hmem => ?_, h.distinct⟩
      obtain ⟨o, ho, hhandle⟩ := List.mem_map.mp hmem
      exact h.ne_of_free hfree ho hhandle
    · exact ⟨place, Vector.getElem?_setIfInBounds_self_of_lt hlt, hpath⟩
    · obtain ⟨place', hslot, hpath'⟩ := h.placed o ho
      refine ⟨place', ?_, hpath'⟩
      rw [Vector.getElem?_setIfInBounds_ne (h.ne_of_free hfree ho).symm]
      exact hslot

theorem Sound.close (h : s.Sound) (handle : Handle) : (s.call (.close handle)).Sound := by
  have hof {o : Opening} : o ∈ (s.call (.close handle)).openings ↔
      o ∈ s.openings ∧ o.handle ≠ handle := by
    simp [call]
  refine ⟨h.nodup, fun u place hu => ?_, ?_, fun o ho => ?_⟩
  · change (s.volume.slots.setIfInBounds handle none)[u]? = _ at hu
    by_cases hsame : handle = u
    · subst hsame
      rw [Vector.getElem?_setIfInBounds_self] at hu
      split_ifs at hu
      cases hu
    · rw [Vector.getElem?_setIfInBounds_ne hsame] at hu
      obtain ⟨o, ho, hhandle⟩ := h.taken u place hu
      exact ⟨o, hof.mpr ⟨ho, fun hclosed => hsame (hclosed.symm.trans hhandle)⟩, hhandle⟩
  · exact h.distinct.sublist (List.filter_sublist.map Opening.handle)
  · obtain ⟨hmem, hne⟩ := hof.mp ho
    obtain ⟨place, hslot, hpath⟩ := h.placed o hmem
    refine ⟨place, ?_, hpath⟩
    change (s.volume.slots.setIfInBounds handle none)[o.handle]? = _
    rw [Vector.getElem?_setIfInBounds_ne hne.symm]
    exact hslot

/-- **The books stay right**, whatever is called. -/
theorem sound_call (h : s.Sound) (c : Call) : (s.call c).Sound := by
  cases c with
  | addFile path bytes => exact h.insert path ⟨bytes, false⟩
  | addMapped path bytes => exact h.insert path ⟨bytes, true⟩
  | openPath path => exact h.openPath path
  | close handle => exact h.close handle
  | read handle offset len =>
    rw [call, MemoryVolume.read]
    cases s.volume.behind? handle <;>
      exact ⟨h.nodup, h.taken, h.distinct, h.placed⟩

theorem sound_run (h : s.Sound) (calls : List Call) : (s.run calls).Sound := by
  induction calls using List.reverseRecOn with
  | nil => exact h
  | append_singleton calls c ih =>
    rw [run_concat]
    exact sound_call ih c

/-! ## What a path holds -/

theorem file?_call (s : Visit) (c : Call) (path : String) :
    (s.call c).volume.file? path = (c.put? path).or (s.volume.file? path) := by
  cases c with
  | addFile p bytes =>
    change (s.volume.insert p ⟨bytes, false⟩).file? path = _
    rw [file?_insert, Call.put?]
    split_ifs <;> simp
  | addMapped p bytes =>
    change (s.volume.insert p ⟨bytes, true⟩).file? path = _
    rw [file?_insert, Call.put?]
    split_ifs <;> simp
  | openPath p =>
    rw [call]
    rcases s.volume.openPath_cases p with ⟨-, hv⟩ | ⟨-, -, hv⟩ | ⟨_, _, -, -, -, hv⟩ <;>
    · rw [hv]
      rfl
  | read handle offset len =>
    rw [call, MemoryVolume.read]
    cases s.volume.behind? handle <;> rfl
  | close handle => rfl

theorem file?_run (calls : List Call) (path : String) :
    (start.run calls).volume.file? path = latest? path calls := by
  induction calls using List.reverseRecOn with
  | nil => rfl
  | append_singleton calls c ih =>
    rw [run_concat, file?_call, ih, latest?, latest?, List.filterMap_append, List.getLast?_append]
    cases hput : c.put? path <;> simp [hput]

/-! ## Open files -/

theorem Sound.length_openings (h : s.Sound) : s.openings.length = s.volume.openHandles := by
  have htaken : s.volume.taken.Nodup := List.nodup_range.filter _
  have hperm : (s.openings.map Opening.handle).Perm s.volume.taken := by
    refine (List.perm_ext_iff_of_nodup h.distinct htaken).mpr fun handle => ?_
    rw [mem_taken_iff, List.mem_map]
    constructor
    · rintro ⟨o, ho, rfl⟩
      obtain ⟨place, hslot, -⟩ := h.placed o ho
      exact ⟨place, hslot⟩
    · rintro ⟨place, hslot⟩
      exact h.taken handle place hslot
  rw [← length_taken, ← hperm.length_eq, List.length_map]

/-- An open file shows what its path holds, which is at the place in its slot. -/
theorem Sound.behind? (h : s.Sound) {o : Opening} (ho : o ∈ s.openings) : ∃ place file,
    s.volume.slots[o.handle]? = some (some place) ∧
    s.volume.files[place]? = some (o.path, file) ∧ s.volume.file? o.path = some file ∧
    s.volume.behind? o.handle = some file := by
  obtain ⟨place, hslot, hpath⟩ := h.placed o ho
  rw [paths, List.getElem?_map] at hpath
  obtain ⟨⟨path, file⟩, hfile, rfl⟩ := Option.map_eq_some_iff.mp hpath
  refine ⟨place, file, hslot, hfile, ?_, ?_⟩
  · exact file?_eq_some_of_mem h.nodup (List.mem_of_getElem? hfile)
  · rw [MemoryVolume.behind?, hslot, Option.join_some, Option.bind_some, fileAt?, hfile,
      Option.map_some]

/-! ## Counts -/

end Visit

/-- The openings that a call adds to the count of them. -/
def Call.opened (v : MemoryVolume) : Call → Nat
  | openPath path => if (v.openPath path).value.1.isOk then 1 else 0
  | addFile _ _ | addMapped _ _ | read _ _ _ | close _ => 0

/-- The bytes that a call adds to the count of bytes read. -/
def Call.copied (v : MemoryVolume) : Call → Nat
  | read handle offset len =>
    match (v.read handle offset len).1 with
    | .ok bytes => bytes.size
    | .error _ => 0
  | addFile _ _ | addMapped _ _ | openPath _ | close _ => 0

namespace Visit

/-- What some calls add to a count together. -/
def total (count : MemoryVolume → Call → Nat) : Visit → List Call → Nat
  | _, [] => 0
  | s, c :: calls => count s.volume c + total count (s.call c) calls

/-- Makes a call, with a test that neither count goes above the largest number of 32 bits or of 64
bits. -/
def guardedCall (s : Visit) (c : Call) : Checked Visit := do
  let _ ← Guarded.add (UInt32.size - 1) s.volume.opens.toNat (c.opened s.volume)
  let _ ← Guarded.add (UInt64.size - 1) s.volume.bytesRead.toNat (c.copied s.volume)
  return s.call c

theorem counts_call (s : Visit) (c : Call) :
    (s.call c).volume.opens = s.volume.opens + .ofNat (c.opened s.volume) ∧
    (s.call c).volume.bytesRead = s.volume.bytesRead + .ofNat (c.copied s.volume) := by
  have hnone : s.volume.opens = s.volume.opens + .ofNat 0 ∧
      s.volume.bytesRead = s.volume.bytesRead + .ofNat 0 :=
    ⟨(UInt32.add_zero _).symm, (UInt64.add_zero _).symm⟩
  cases c with
  | addFile path bytes =>
    rw [call, addFile, insert_eq]
    exact hnone
  | addMapped path bytes =>
    rw [call, addMapped, insert_eq]
    exact hnone
  | openPath path =>
    rw [call, Call.opened]
    rcases s.volume.openPath_cases path with ⟨-, hv⟩ | ⟨-, -, hv⟩ | ⟨_, _, -, -, -, hv⟩
    · rw [hv]
      exact hnone
    · rw [hv]
      exact hnone
    · rw [hv]
      exact ⟨rfl, hnone.2⟩
  | read handle offset len =>
    rw [call, Call.copied, MemoryVolume.read]
    cases s.volume.behind? handle with
    | none => exact hnone
    | some file =>
      refine ⟨hnone.1, congrArg (fun n => s.volume.bytesRead + UInt64.ofNat n) ?_⟩
      dsimp only
      rw [ByteArray.size_extract]
      omega
  | close handle => exact hnone

theorem opens_run (s : Visit) (calls : List Call) :
    (s.run calls).volume.opens = s.volume.opens + .ofNat (s.total Call.opened calls) := by
  induction calls generalizing s with
  | nil => exact (UInt32.add_zero _).symm
  | cons c calls ih =>
    rw [total, UInt32.ofNat_add, ← UInt32.add_assoc, ← (s.counts_call c).1]
    exact ih (s.call c)

theorem bytesRead_run (s : Visit) (calls : List Call) :
    (s.run calls).volume.bytesRead = s.volume.bytesRead + .ofNat (s.total Call.copied calls) := by
  induction calls generalizing s with
  | nil => exact (UInt64.add_zero _).symm
  | cons c calls ih =>
    rw [total, UInt64.ofNat_add, ← UInt64.add_assoc, ← (s.counts_call c).2]
    exact ih (s.call c)

/-- **Calls that test their counts come to the same** if both counts fit, and to an overflow
otherwise. -/
theorem guardedRun_eq (s : Visit) (calls : List Call) : calls.foldlM guardedCall s =
    if s.volume.opens.toNat + s.total Call.opened calls < UInt32.size ∧
        s.volume.bytesRead.toNat + s.total Call.copied calls < UInt64.size then
      .ok (s.run calls)
    else .error .overflow := by
  induction calls generalizing s with
  | nil => exact (if_pos ⟨UInt32.toNat_lt _, UInt64.toNat_lt _⟩).symm
  | cons c calls ih =>
    obtain ⟨hopens, hbytes⟩ := s.counts_call c
    rw [List.foldlM_cons, guardedCall, total, total]
    generalize c.opened s.volume = n at hopens ⊢
    generalize c.copied s.volume = m at hbytes ⊢
    rw [Guarded.add_below (by decide), Guarded.add_below (by decide)]
    by_cases hn : s.volume.opens.toNat + n < UInt32.size
    · rw [if_pos hn, Guarded.ok_bind]
      by_cases hm : s.volume.bytesRead.toNat + m < UInt64.size
      · rw [if_pos hm, Guarded.ok_bind, ← Nat.add_assoc, ← Nat.add_assoc, ← Guarded.toNat_sum32 hn,
          ← Guarded.toNat_sum64 hm, ← hopens, ← hbytes]
        exact ih (s.call c)
      · rw [if_neg hm]
        exact (if_neg fun hfit => hm (by omega)).symm
    · rw [if_neg hn]
      exact (if_neg fun hfit => hn (by omega)).symm

end Visit

/-! ## What a read brings -/

/-- A read into a buffer: how many bytes it brought, and the buffer with these over the front of it.
-/
def readInto (v : MemoryVolume) (handle : Handle) (offset : Nat) (buffer : ByteArray) :
    Except StorageError (Nat × ByteArray) :=
  (v.read handle offset buffer.size).1.map fun bytes => (bytes.size, overwrite buffer 0 bytes)

theorem readInto_of_behind? {v : MemoryVolume} {handle : Handle} {file : File}
    (h : v.behind? handle = some file) (offset : Nat) (buffer : ByteArray) :
    let n := min buffer.size (file.bytes.size - offset)
    v.readInto handle offset buffer =
      .ok (n, file.bytes.extract offset (offset + n) ++ buffer.extract n buffer.size) := by
  intro n
  have hn : min buffer.size (file.bytes.size - min offset file.bytes.size) = n := by omega
  have hbytes : file.bytes.extract (min offset file.bytes.size) (min offset file.bytes.size + n) =
      file.bytes.extract offset (offset + n) := by
    rcases Nat.le_total offset file.bytes.size with hle | hle
    · rw [Nat.min_eq_left hle]
    · -- past the end there is nothing to read
      have hzero : n = 0 := by omega
      rw [hzero, Nat.add_zero, Nat.add_zero, ByteArray.extract_same, ByteArray.extract_same]
  have hsize : (file.bytes.extract offset (offset + n)).size = n := by
    rw [ByteArray.size_extract]
    omega
  rw [readInto, read, h]
  dsimp only [Except.map]
  rw [hn, hbytes, hsize, overwrite_eq, hsize, ByteArray.extract_same, ByteArray.empty_append,
    Nat.zero_add]

/-- **Open files follow their paths.** Put files at paths of an empty volume, replace them, open
paths, read and close, in any order. Then no path is listed twice, and each holds what was last put
there. At most four handles are out; a path can be opened exactly if there is a file at it and fewer
than four are out, and the handle is none of those. The slot of every handle that is out holds a
place in the table of files, and at this place there still is the path that was opened, with the
file that it holds now. This file is what the handle shows: its size, its bytes if they lie in
addressable memory, and through a read as many bytes from the offset on as there are and the buffer
has room for, with the rest of the buffer as it was. The counts of opens and of bytes read wrap
around; if they are tested, all goes the same way as long as they fit. -/
theorem open_files_follow (calls : List Call) :
    let s := Visit.start.run calls
    let v := s.volume
    v.paths.Nodup ∧ (∀ path, v.file? path = latest? path calls) ∧
    s.openings.length = v.openHandles ∧ v.openHandles ≤ 4 ∧
    (∀ path, (∃ handle w, (v.openPath path).value = (.ok handle, w)) ↔
      path ∈ v.paths ∧ v.openHandles < 4) ∧
    (∀ path handle w, (v.openPath path).value = (.ok handle, w) →
      ∀ o ∈ s.openings, o.handle ≠ handle) ∧
    (∀ o ∈ s.openings, ∃ place file, v.slots[o.handle]? = some (some place) ∧
      v.files[place]? = some (o.path, file) ∧ latest? o.path calls = some file ∧
      v.size o.handle = .ok file.bytes.size ∧
      v.mapped? o.handle = (if file.resident then some file.bytes else none) ∧
      ∀ offset buffer,
        let n := min buffer.size (file.bytes.size - offset)
        v.readInto o.handle offset buffer =
          .ok (n, file.bytes.extract offset (offset + n) ++ buffer.extract n buffer.size)) ∧
    let opened := Visit.start.total Call.opened calls
    let copied := Visit.start.total Call.copied calls
    v.opens = .ofNat opened ∧ v.bytesRead = .ofNat copied ∧
    calls.foldlM Visit.guardedCall Visit.start =
      if opened < UInt32.size ∧ copied < UInt64.size then .ok s else .error .overflow := by
  intro s v
  have hs : s.Sound := Visit.sound_run Visit.sound_start calls
  have hlatest (path : String) : v.file? path = latest? path calls := Visit.file?_run calls path
  refine ⟨hs.nodup, hlatest, hs.length_openings, v.openHandles_le, v.openPath_ok_iff,
    fun path handle w hopen o ho => hs.ne_of_free (free_of_openPath hopen) ho, fun o ho => ?_,
    ?_, ?_, ?_⟩
  · obtain ⟨place, file, hslot, hplace, hfile, hbehind⟩ := hs.behind? ho
    refine ⟨place, file, hslot, hplace, (hlatest o.path).symm.trans hfile, ?_, ?_,
      readInto_of_behind? hbehind⟩
    · rw [size, hbehind]
    · rw [mapped?, hbehind]
  · exact (Visit.opens_run Visit.start calls).trans (UInt32.zero_add _)
  · exact (Visit.bytesRead_run Visit.start calls).trans (UInt64.zero_add _)
  · have hopens : Visit.start.volume.opens.toNat = 0 := rfl
    have hbytes : Visit.start.volume.bytesRead.toNat = 0 := rfl
    rw [Visit.guardedRun_eq, hopens, hbytes, Nat.zero_add, Nat.zero_add]

/-- The file at a path is replaced while it is open twice; one handle is closed, and given out again
for another path. -/
theorem open_files_follow_replaced :
    let v := (Visit.start.run [.addFile "a" ⟨#[1, 2, 3]⟩, .openPath "a", .openPath "a",
      .addFile "b" .empty, .addMapped "a" ⟨#[7, 8]⟩, .close 0, .openPath "b"]).volume
    v.openHandles = 2 ∧
    (∃ handle w, (v.openPath "a").value = (.ok handle, w) ∧ handle ≠ 0 ∧ handle ≠ 1) ∧
    v.size 1 = .ok 2 ∧ v.mapped? 1 = some ⟨#[7, 8]⟩ ∧
    v.readInto 1 1 ⟨#[9, 9, 9]⟩ = .ok (1, ⟨#[8, 9, 9]⟩) := by
  let calls : List Call := [.addFile "a" ⟨#[1, 2, 3]⟩, .openPath "a", .openPath "a",
    .addFile "b" .empty, .addMapped "a" ⟨#[7, 8]⟩, .close 0, .openPath "b"]
  let s := Visit.start.run calls
  have hopenings : s.openings = [⟨0, "b"⟩, ⟨1, "a"⟩] := by decide +kernel
  have hpath : "a" ∈ s.volume.paths := by decide +kernel
  have hlatest : latest? "a" calls = some ⟨⟨#[7, 8]⟩, true⟩ := by decide +kernel
  obtain ⟨-, -, hlength, -, hopen, hfresh, hshown, -⟩ := open_files_follow calls
  rw [hopenings] at hlength hfresh hshown
  have htwo : s.volume.openHandles = 2 := hlength.symm
  have hroom : s.volume.openHandles < 4 := by
    rw [htwo]
    decide
  obtain ⟨handle, w, hw⟩ := (hopen "a").mpr ⟨hpath, hroom⟩
  have hother := hfresh "a" handle w hw
  obtain ⟨place, file, -, -, hfile, hsize, hmapped, hread⟩ := hshown ⟨1, "a"⟩ (by simp)
  rw [hlatest] at hfile
  cases hfile
  refine ⟨htwo, ⟨handle, w, hw, ?_, ?_⟩, hsize, hmapped, hread 1 ⟨#[9, 9, 9]⟩⟩
  · exact (hother ⟨0, "b"⟩ (by simp)).symm
  · exact (hother ⟨1, "a"⟩ (by simp)).symm

end MemoryVolume

end Coop
