import Coop.Proofs.Volume.Handles
import Coop.Proofs.Volume.Reading

/-!
# The file a name stands for

A load takes the first file there is, all of its bytes however they come, and takes them for an
image or for a text by what they are and where they lie.

* `StandsFor`, `find?_candidates_iff`: the file a name stands for;
* `Volume.Shows`: a volume with given files, each of which can be opened and read;
* `openFirst_of_missing`, `openFirst_of_first`: the search among the paths of a name;
* `isImage_routeOf`: which bytes are taken for an image;
* `Volume.Counted`: counting the reads;
* `Kernel.Takes`: taking a file;
* **`load_takes_first`**: which file is taken, and how;
* `MemoryVolume.shows`, `FaultyVolume.shows`: volumes in memory, and short reads.
-/

namespace Coop

/-! ## Names and paths -/

section Names

variable {file? : String → Option File} {dirs : List String} {name path : String} {file : File}

/-- The file a name stands for, given the files by path: an absolute name stands for the file at
that very path, any other one for the file in the first directory that has it, and for the file at
the name itself only if no directory has it. -/
inductive StandsFor (file? : String → Option File) (dirs : List String) (name : String) :
    String → File → Prop
  | absolute {file : File} (hname : name.toList.head? = some '/') (hfile : file? name = some file) :
    StandsFor file? dirs name name file
  | listed {before after : List String} {dir : String} {file : File}
    (hname : name.toList.head? ≠ some '/') (hdirs : dirs = before ++ dir :: after)
    (hbefore : ∀ d ∈ before, file? (d ++ "/" ++ name) = none)
    (hfile : file? (dir ++ "/" ++ name) = some file) :
    StandsFor file? dirs name (dir ++ "/" ++ name) file
  | bare {file : File} (hname : name.toList.head? ≠ some '/')
    (hdirs : ∀ d ∈ dirs, file? (d ++ "/" ++ name) = none) (hfile : file? name = some file) :
    StandsFor file? dirs name name file

/-- Looking through the paths of a name finds the file it stands for. -/
theorem find?_candidates_iff : StandsFor file? dirs name path file ↔
    (candidates dirs name).find? (fun p => (file? p).isSome) = some path ∧
      file? path = some file := by
  unfold candidates
  constructor
  · intro h
    cases h with
    | absolute hname hfile => simp [hname, hfile]
    | @listed before after dir file hname hdirs hbefore hfile =>
      refine ⟨?_, hfile⟩
      rw [if_neg hname, List.find?_eq_some_iff_append]
      refine ⟨by simp [hfile], before.map (fun d => d ++ "/" ++ name),
        after.map (fun d => d ++ "/" ++ name) ++ [name], by simp [hdirs], ?_⟩
      intro p hp
      obtain ⟨d, hd, rfl⟩ := List.mem_map.mp hp
      simp [hbefore d hd]
    | bare hname hdirs hfile =>
      refine ⟨?_, hfile⟩
      rw [if_neg hname, List.find?_append, List.find?_eq_none.mpr]
      · simp [hfile]
      · intro p hp
        obtain ⟨d, hd, rfl⟩ := List.mem_map.mp hp
        simp [hdirs d hd]
  · rintro ⟨hfind, hfile⟩
    by_cases hname : name.toList.head? = some '/'
    · have hpath : path = name := by
        rw [if_pos hname] at hfind
        simpa using List.mem_of_find?_eq_some hfind
      subst hpath
      exact .absolute hname hfile
    · rw [if_neg hname, List.find?_append, List.find?_map] at hfind
      cases hdir : dirs.find? ((fun p => (file? p).isSome) ∘ fun d => d ++ "/" ++ name) with
      | some dir =>
        rw [hdir] at hfind
        cases hfind
        obtain ⟨-, before, after, hdirs, hbefore⟩ := List.find?_eq_some_iff_append.mp hdir
        exact .listed hname hdirs (fun d hd => by simpa using hbefore d hd) hfile
      | none =>
        have hpath : path = name := by
          rw [hdir] at hfind
          simpa using List.mem_of_find?_eq_some hfind
        subst hpath
        exact .bare hname (fun d hd => by simpa using List.find?_eq_none.mp hdir d hd) hfile

theorem find?_candidates_eq_none_iff :
    (candidates dirs name).find? (fun p => (file? p).isSome) = none ↔
      ∀ path file, ¬ StandsFor file? dirs name path file := by
  constructor
  · intro h path file hstands
    rw [(find?_candidates_iff.mp hstands).1] at h
    cases h
  · intro h
    by_contra hsome
    obtain ⟨path, hpath⟩ := Option.ne_none_iff_exists'.mp hsome
    have hfile := List.find?_some hpath
    obtain ⟨file, hfile⟩ := Option.isSome_iff_exists.mp hfile
    exact h path file (find?_candidates_iff.mpr ⟨hpath, hfile⟩)

end Names

/-! ## Volumes that show their files -/

section Search

variable {V : Type} [Volume V] {P : V → Prop} {file? : String → Option File} {vol : V}
  {path : String} {file : File}

/-- In the states `P` a volume has the given files: it finds no other one, and what it opens can be
read. -/
structure Volume.Shows (P : V → Prop) (file? : String → Option File) : Prop where
  missing {vol : V} {path : String} (hvol : P vol) (h : file? path = none) :
    ∃ vol', P vol' ∧ (openPath vol path).value = (.error .notFound, vol')
  found {vol : V} {path : String} {file : File} (hvol : P vol) (h : file? path = some file) :
    ∃ handle vol', (openPath vol path).value = (.ok handle, vol') ∧ IsOpen vol' handle file

theorem openFirst_cons_of_missing (hshows : Volume.Shows P file?) (hvol : P vol)
    (hpath : file? path = none) (name : String) (paths : List String) : ∃ vol', P vol' ∧
      Volume.Tried vol vol' ∧
      (openFirst vol name (path :: paths)).value = (openFirst vol' name paths).value := by
  obtain ⟨vol', hvol', hopen⟩ := hshows.missing hvol hpath
  refine ⟨vol', hvol', .single ⟨path, .notFound, hopen⟩, ?_⟩
  rw [openFirst, Logged.value_bind, hopen]

theorem openFirst_of_missing (hshows : Volume.Shows P file?) (hvol : P vol) (name : String)
    {paths : List String} (hpaths : paths.find? (fun p => (file? p).isSome) = none) :
    ∃ vol', (openFirst vol name paths).value = (.error (.notFound name), vol') := by
  induction paths generalizing vol with
  | nil => exact ⟨vol, rfl⟩
  | cons path paths ih =>
    have hnone := List.find?_eq_none.mp hpaths
    obtain ⟨vol', hvol', -, hopen⟩ := openFirst_cons_of_missing hshows hvol
      (by simpa using hnone path List.mem_cons_self) name paths
    rw [hopen]
    exact ih hvol' (List.find?_eq_none.mpr fun p hp => hnone p (List.mem_cons_of_mem _ hp))

/-- The search ends at the first path with a file, and opens it. -/
theorem openFirst_of_first (hshows : Volume.Shows P file?) (hvol : P vol) (name : String)
    {paths : List String} (hpaths : paths.find? (fun p => (file? p).isSome) = some path)
    (hfile : file? path = some file) : ∃ vol₀ handle vol₁, Volume.Tried vol vol₀ ∧
      (Volume.openPath vol₀ path).value = (.ok handle, vol₁) ∧ Volume.IsOpen vol₁ handle file ∧
      (openFirst vol name paths).value = (.ok (handle, path), vol₁) := by
  induction paths generalizing vol with
  | nil => cases hpaths
  | cons p paths ih =>
    cases hp : file? p with
    | some f =>
      rw [List.find?_cons_of_pos (by simp [hp])] at hpaths
      cases hpaths
      obtain ⟨handle, vol₁, hopen, hisOpen⟩ := hshows.found hvol hfile
      refine ⟨vol, handle, vol₁, .refl, hopen, hisOpen, ?_⟩
      rw [openFirst, Logged.value_bind, hopen]
      rfl
    | none =>
      rw [List.find?_cons_of_neg (by simp [hp])] at hpaths
      obtain ⟨vol', hvol', hpassed, hrest⟩ := openFirst_cons_of_missing hshows hvol hp name paths
      obtain ⟨vol₀, handle, vol₁, htried, hopen, hisOpen, hfirst⟩ := ih hvol' hpaths
      exact ⟨vol₀, handle, vol₁, hpassed.trans htried, hopen, hisOpen, hrest.trans hfirst⟩

end Search

/-! ## Getting at the bytes -/

theorem isImage_routeOf (maxLoad : Nat) (bytes : ByteArray) (resident : Bool) :
    (routeOf maxLoad bytes resident).isImage = true ↔
      (∃ rest, bytes = Image.magic ++ rest) ∧ (resident = true ∨ bytes.size ≤ maxLoad) := by
  rw [← Image.isImage_iff]
  unfold routeOf
  cases resident with
  | true => by_cases h : Image.isImage bytes = true <;> simp [h, Route.isImage]
  | false =>
    by_cases h : bytes.size ≤ maxLoad ∧ Image.isImage bytes = true
    · simp [h, Route.isImage]
    · simp only [Bool.false_eq_true, if_false, if_neg h, Route.isImage, false_or]
      exact ⟨nofun, fun hi => h hi.symm⟩

theorem isFast_routeOf (maxLoad : Nat) (bytes : ByteArray) (resident : Bool) :
    (routeOf maxLoad bytes resident).isFast = resident := by
  unfold routeOf
  cases resident <;> split_ifs <;> first | rfl | contradiction

section Taking

variable {V : Type} [Volume V] {file : File} {handle : Handle} {n : Nat} {vol vol' : V}

/-- A count of the reads of a volume. -/
structure Volume.Counted (count : V → Nat) : Prop where
  openPath (vol : V) (path : String) : count (openPath vol path).value.2 = count vol
  read (vol : V) (handle : Handle) (offset len : Nat) :
    count (read vol handle offset len).2 = count vol + 1
  close (vol : V) (handle : Handle) : count (close vol handle) = count vol

namespace Volume.Counted

variable {count : V → Nat} (h : Volume.Counted count)
include h

theorem tried (ht : Volume.Tried vol vol') : count vol' = count vol := by
  induction ht with
  | refl => rfl
  | @tail vol₁ vol₂ _ hs ih =>
    obtain ⟨path, e, ho⟩ := hs
    have hcount := h.openPath vol₁ path
    rw [ho] at hcount
    rw [← ih, ← hcount]

theorem readsOn {want : Nat → Option Nat} {done : ByteArray}
    {r : Except StorageError ByteArray × V} (hr : Volume.ReadsOn handle want n vol done r) :
    count r.2 = count vol + n := by
  induction hr with
  | enough => rfl
  | @failed vol vol' done len e _ hr | @ended vol vol' done bytes len _ hr _ =>
    have hcount := h.read vol handle done.size len
    rw [hr] at hcount
    exact hcount
  | @more n vol vol' done bytes len r _ hr _ _ ih =>
    have hcount := h.read vol handle done.size len
    rw [hr] at hcount
    rw [ih, show count vol' = count vol + 1 from hcount]
    omega

theorem yields {maxLoad : Nat} (hy : Volume.Yields maxLoad handle file n vol vol') :
    count vol' = count vol + n := by
  cases hy with
  | resident => rfl
  | buffered _ hreads => exact h.readsOn hreads

end Volume.Counted

namespace Kernel

variable {k : Kernel} {id : TaskId}

/-- A load takes the file at a path, by a route and with `n` reads. -/
structure Takes (k : Kernel) (vol : V) (id : TaskId) (name path : String) (file : File)
    (route : Route) (n : Nat) : Prop where
  /-- The path was opened, all bytes of the file were got at, the file was closed, and its bytes
  were put into the task. -/
  course : ∃ vol₀ handle vol₁ vol₂, Volume.Tried vol vol₀ ∧
    (Volume.openPath vol₀ path).value = (.ok handle, vol₁) ∧
    Volume.Yields k.config.maxLoad handle file n vol₁ vol₂ ∧
    (k.load vol id name).value = ((k.install id ⟨route, file.bytes⟩).value.1,
      (k.install id ⟨route, file.bytes⟩).value.2, Volume.close vol₂ handle)
  image : route.isImage = true ↔ (∃ rest, file.bytes = Image.magic ++ rest) ∧
    (file.resident = true ∨ file.bytes.size ≤ k.config.maxLoad)
  fast : route.isFast = file.resident
  /-- Every count of reads goes up by `n`. -/
  reads {count : V → Nat} (h : Volume.Counted count) :
    count (k.load vol id name).value.2.2 = count vol + n
  bound : n ≤ if file.resident then 0 else file.bytes.size + 1

theorem takes_of_standsFor (hd : k.phase? id = some .dormant) {P : V → Prop}
    {file? : String → Option File} (hshows : Volume.Shows P file?) (hvol : P vol)
    {name path : String} (hstands : StandsFor file? k.config.loadPath name path file) :
    ∃ route n, k.Takes vol id name path file route n := by
  obtain ⟨hfind, hfile⟩ := find?_candidates_iff.mp hstands
  obtain ⟨vol₀, handle, vol₁, htried, hopen, hisOpen, hfirst⟩ :=
    openFirst_of_first hshows hvol name hfind hfile
  obtain ⟨n, vol₂, hyields, hfetch⟩ := fetch_of_isOpen hfirst hisOpen
  have hload := value_load hd vol name
  rw [hfetch] at hload
  refine ⟨routeOf k.config.maxLoad file.bytes file.resident, n,
    ⟨vol₀, handle, vol₁, vol₂, htried, hopen, hyields, hload⟩,
    isImage_routeOf _ _ _, isFast_routeOf _ _ _, fun {count} hcount => ?_, ?_⟩
  · have hopened := hcount.openPath vol₀ path
    rw [hopen] at hopened
    rw [hload, hcount.close, hcount.yields hyields, show count vol₁ = count vol₀ from hopened,
      hcount.tried htried]
  · cases hyields with
    | resident => exact Nat.le_refl 0
    | buffered hn => exact hn

/-- **A load takes the first file there is, all of it.** On a volume that has the given files and
brings them in stretches of any length, it fails to find a file only if the name stands for none.
Otherwise it gets at exactly the bytes of the file the name stands for, after finitely many reads
and without any if the file lies in addressable memory; and it takes them for an image if and only
if they start with the magic and the file lies in addressable memory or keeps to the load limit. -/
theorem load_takes_first (hd : k.phase? id = some .dormant) {P : V → Prop}
    {file? : String → Option File} (hshows : Volume.Shows P file?) (hvol : P vol) (name : String) :
    ((∃ n, (k.load vol id name).value.1 = .error (.notFound n)) ↔
      ∀ path file, ¬ StandsFor file? k.config.loadPath name path file) ∧
    ∀ path file, StandsFor file? k.config.loadPath name path file →
      ∃ route n, k.Takes vol id name path file route n := by
  refine ⟨⟨fun ⟨n, hn⟩ path file hstands => ?_, fun hnone => ?_⟩,
    fun path file => takes_of_standsFor hd hshows hvol⟩
  · obtain ⟨route, m, htakes⟩ := takes_of_standsFor hd hshows hvol hstands
    obtain ⟨_, _, _, _, -, -, -, hload⟩ := htakes.course
    rw [hload] at hn
    have := install_error hd hn
    cases this
  · obtain ⟨vol', hmissing⟩ :=
      openFirst_of_missing hshows hvol name (find?_candidates_eq_none_iff.mpr hnone)
    refine ⟨name, ?_⟩
    rw [value_load hd, fetch, hmissing]

end Kernel

end Taking

/-! ## Volumes in memory, and short reads -/

theorem MemoryVolume.shows {v : MemoryVolume}
    (hroom : v.slots.toList.findIdx? Option.isNone ≠ none) : Volume.Shows (· = v) v.file? where
  missing {w path} hw h := by
    subst hw
    refine ⟨w, rfl, ?_⟩
    have hnone : w.place? path = none := by
      rw [← Option.not_isSome_iff_eq_none, ← has_eq, has, h]
      exact Bool.false_ne_true
    rw [value_openPath, hnone]
  found {w path file} hw h := by
    subst hw
    obtain ⟨slot, hslot⟩ := Option.ne_none_iff_exists'.mp hroom
    obtain ⟨place, hplace⟩ : ∃ place, w.place? path = some place := by
      rw [← Option.isSome_iff_exists, ← has_eq, has, h]
      rfl
    refine ⟨slot, _, ?_, isOpen ((behind?_taken hslot hplace (w.opens + 1)).trans h)⟩
    rw [value_openPath, hplace, hslot]

/-- Faults that leave files as they are: all that may happen is that reads come short. -/
structure Faults.OnlyShort (f : Faults) : Prop where
  brings : f.maxRead ≠ some 0
  size : f.sizeDelta = 0 ∧ f.failSize = false
  read : f.failRead = .none
  opens : f.failOpen = .none

namespace FaultyVolume

variable {V : Type} {v : FaultyVolume V} {handle : Handle}

theorem asked_pos (hf : v.faults.OnlyShort) {len : Nat} (hlen : 0 < len) : 0 < v.asked len := by
  have hmost := hf.brings
  unfold asked
  cases hm : v.faults.maxRead with
  | none => exact hlen
  | some most =>
    have : most ≠ 0 := fun h => hmost (by rw [hm, h])
    simp only [Option.elim_some]
    omega

variable [Volume V]

theorem serves (hf : v.faults.OnlyShort) {bytes : ByteArray}
    (h : Serves v.inner handle bytes) : Serves v handle bytes where
  unmapped := h.unmapped
  size := by
    change (if v.faults.failSize = true then _ else _ : Except StorageError Nat) = _
    simp [hf.size, h.size, Except.map]
  extent := h.extent
  reads := by
    obtain ⟨P, hv, hbrings⟩ := h.reads
    refine ⟨fun w => P w.inner ∧ w.faults.OnlyShort, ⟨hv, hf⟩, fun w hw offset len => ?_⟩
    obtain ⟨n, inner, hinner, hread, hn, hpos⟩ :=
      hbrings w.inner hw.1 offset (w.asked len)
    refine ⟨n, { w with inner := inner, reads := w.reads + 1 }, ⟨hinner, hw.2⟩, ?_, hn,
      fun hlen => hpos (asked_pos hw.2 hlen)⟩
    rw [read_eq, if_neg (by simp [hw.2.read]), hread]

theorem shows {P : V → Prop} {file? : String → Option File} (h : Volume.Shows P file?) :
    Volume.Shows (fun v : FaultyVolume V => P v.inner ∧ v.faults.OnlyShort) file? where
  missing {v path} hv hfile := by
    obtain ⟨inner, hinner, hopen⟩ := h.missing hv.1 hfile
    refine ⟨{ v with inner := inner }, ⟨hinner, hv.2⟩, ?_⟩
    rw [value_openPath, if_neg (by simp [hv.2.opens]), hopen]
  found {v path file} hv hfile := by
    obtain ⟨handle, inner, hopen, hisOpen⟩ := h.found hv.1 hfile
    refine ⟨handle, { v with inner := inner }, ?_, ?_⟩
    · rw [value_openPath, if_neg (by simp [hv.2.opens]), hopen]
    · cases hisOpen with
      | resident lent => exact .resident lent
      | buffered hserves =>
        exact .buffered (serves (v := { v with inner := inner }) hv.2 hserves)

theorem counted : Volume.Counted (V := FaultyVolume V) reads where
  openPath v path := by
    rw [value_openPath]
    split_ifs <;> rfl
  read v handle offset len := by
    rw [read_eq]
    split_ifs <;> rfl
  close v handle := rfl

end FaultyVolume

namespace Kernel

/-- A script in the second directory, with reads of at most three bytes: it takes five reads. -/
theorem load_takes_first_short : ∃ (k : Kernel) (vol : FaultyVolume MemoryVolume) (file : File)
    (route : Route), k.phase? ⟨1⟩ = some .dormant ∧ vol.faults.maxRead = some 3 ∧
      k.Takes vol ⟨1⟩ "hi.rb" "/bin/hi.rb" file route 5 := by
  let k := ((new .default).create none).value.2
  let file : File := ⟨"puts 'hi'\npass".toByteArray, false⟩
  let inner := (MemoryVolume.empty.addFile "/bin/hi.rb" file.bytes).addFile "hi.rb" .empty
  let vol : FaultyVolume MemoryVolume := ⟨inner, { Faults.none with maxRead := some 3 }, 0⟩
  have hd : k.phase? ⟨1⟩ = some .dormant := by decide +kernel
  have hshort : vol.faults.OnlyShort := ⟨by decide, ⟨rfl, rfl⟩, rfl, rfl⟩
  have hstands : StandsFor inner.file? k.config.loadPath "hi.rb" "/bin/hi.rb" file :=
    @StandsFor.listed _ _ _ ["/lib"] [] "/bin" file (by decide) (by decide) (by decide +kernel)
      (by decide +kernel)
  obtain ⟨-, htakes⟩ := load_takes_first hd
    (FaultyVolume.shows (MemoryVolume.shows (v := inner) (by decide +kernel))) ⟨rfl, hshort⟩ "hi.rb"
  obtain ⟨route, n, h⟩ := htakes _ _ hstands
  have hn : (k.load vol ⟨1⟩ "hi.rb").value.2.2.reads = 0 + n := h.reads FaultyVolume.counted
  obtain rfl : n = 5 := by
    have : (k.load vol ⟨1⟩ "hi.rb").value.2.2.reads = 5 := by decide +kernel
    omega
  exact ⟨k, vol, file, route, hd, rfl, h⟩

end Kernel

end Coop
