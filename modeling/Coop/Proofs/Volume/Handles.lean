import Coop.Proofs.Kernel.Drafts
import Coop.Proofs.Kernel.Installing
import Coop.Volume.Faulty

/-!
# Files are closed again

Whatever happens while a file is looked for and read, it is closed in the end, and a load that fails
before it comes to the task leaves the kernel as it was.

* `Volume.Tried`, `Volume.Later`: a volume after paths it could not open, and after some reads;
* `Fetched`, **`fetched`**: what fetching a file can do to a volume;
* `Volume.Tabled`: only an open file takes a place in the table of open files, with
  `MemoryVolume.tabled` and `FaultyVolume.tabled`;
* `LoadError.isEarly`, `install_error`: the failures before the task is touched;
* **`load_is_clean`**: open files, other tasks, and the task after a load.
-/

namespace Coop

/-! ## What fetching a file does to a volume -/

namespace Volume

variable {V : Type} [Volume V] {handle : Handle} {vol vol' : V}

/-- The volume after a number of paths it could not open. -/
abbrev Tried : V → V → Prop :=
  Relation.ReflTransGen fun vol vol' => ∃ path e, (openPath vol path).value = (.error e, vol')

/-- The volume after a number of reads through a handle. -/
abbrev Later (handle : Handle) : V → V → Prop :=
  Relation.ReflTransGen fun vol vol' => ∃ offset len, vol' = (read vol handle offset len).2

theorem later_of_read {offset len : Nat} {r : Except StorageError ByteArray}
    (h : read vol handle offset len = (r, vol')) : Later handle vol vol' :=
  .single ⟨offset, len, by rw [h]⟩

theorem later_fill (handle : Handle) (size reads : Nat) (vol : V) (done : ByteArray) :
    Later handle vol (fill handle size reads vol done).2 := by
  fun_induction fill handle size reads vol done with
  | case1 | case2 => exact .refl
  | case3 _ _ _ _ _ _ hr => exact later_of_read hr
  | case4 _ _ _ _ _ _ hr => exact later_of_read hr
  | case5 _ _ _ _ _ _ hr _ ih => exact (later_of_read hr).trans ih

theorem later_drain (handle : Handle) (chunk reads : Nat) (vol : V) (done : ByteArray) :
    Later handle vol (drain handle chunk reads vol done).2 := by
  fun_induction drain handle chunk reads vol done with
  | case1 => exact .refl
  | case2 _ _ _ _ _ hr => exact later_of_read hr
  | case3 _ _ _ _ _ hr => exact later_of_read hr
  | case4 _ _ _ _ _ hr _ ih => exact (later_of_read hr).trans ih

theorem later_readBuffered (maxLoad : Nat) (vol : V) (handle : Handle) (path : String) :
    Later handle vol (readBuffered maxLoad vol handle path).value.2 := by
  unfold readBuffered
  cases hs : Volume.size vol handle with
  | error e => exact .refl
  | ok size =>
    dsimp only
    split_ifs
    · have hdrain := later_drain handle readChunk (extent vol handle + 1) vol .empty
      rw [Logged.value_bind]
      generalize drain handle readChunk (extent vol handle + 1) vol .empty = r at hdrain ⊢
      obtain ⟨result, vol'⟩ := r
      cases result <;> exact hdrain
    · have hfill := later_fill handle size size vol .empty
      generalize fill handle size size vol .empty = r at hfill ⊢
      obtain ⟨result, vol'⟩ := r
      cases result with
      | error e => exact hfill
      | ok bytes =>
        dsimp only
        split_ifs <;> exact hfill

/-- Finding out what a file holds takes nothing but reads. -/
theorem later_readContents (maxLoad : Nat) (vol : V) (handle : Handle) (path : String) :
    Later handle vol (readContents maxLoad vol handle path).value.2 := by
  unfold readContents
  cases mapped? vol handle with
  | none => exact later_readBuffered maxLoad vol handle path
  | some bytes =>
    dsimp only
    split_ifs <;> exact .refl

end Volume

section Fetching

variable {V : Type} [Volume V]

/-- **What fetching a file can do**: what came of it, and the volume after it. -/
inductive Fetched (config : Config) (vol : V) : Except LoadError Contents × V → Prop
  /-- No path could be opened. -/
  | refused {e : LoadError} {vol' : V} (htried : Volume.Tried vol vol') :
    Fetched config vol (.error e, vol')
  /-- A path was opened, and the file was closed again after it had been looked into. -/
  | opened {handle : Handle} {path : String} {contents : Except LoadError Contents}
    {vol₀ vol₁ vol₂ : V} (htried : Volume.Tried vol vol₀)
    (hopen : (Volume.openPath vol₀ path).value = (.ok handle, vol₁))
    (hread : (readContents config.maxLoad vol₁ handle path).value = (contents, vol₂)) :
    Fetched config vol (contents, Volume.close vol₂ handle)

theorem openFirst_tried (vol : V) (name : String) (paths : List String) :
    match (openFirst vol name paths).value with
    | (.error _, vol') => Volume.Tried vol vol'
    | (.ok (handle, path), vol') => ∃ vol₀, Volume.Tried vol vol₀ ∧
        (Volume.openPath vol₀ path).value = (.ok handle, vol') := by
  induction paths generalizing vol with
  | nil => exact .refl
  | cons path rest ih =>
    unfold openFirst
    rw [Logged.value_bind]
    cases ho : (Volume.openPath vol path).value with
    | mk result vol' =>
      cases result with
      | ok handle => exact ⟨vol, .refl, ho⟩
      | error e =>
        have hfirst : Volume.Tried vol vol' := .single ⟨path, e, ho⟩
        cases e with
        | badHandle | tooManyOpen => exact hfirst
        | notFound =>
          have hrest := ih vol'
          dsimp only
          generalize (openFirst vol' name rest).value = r at hrest ⊢
          obtain ⟨found, vol₁⟩ := r
          cases found with
          | error e => exact hfirst.trans hrest
          | ok found =>
            obtain ⟨vol₀, htried, hopen⟩ := hrest
            exact ⟨vol₀, hfirst.trans htried, hopen⟩

theorem fetched (config : Config) (vol : V) (name : String) :
    Fetched config vol (fetch config vol name) := by
  have hsearch := openFirst_tried vol name (candidates config.loadPath name)
  unfold fetch
  generalize (openFirst vol name (candidates config.loadPath name)).value = r at hsearch ⊢
  obtain ⟨found, vol₁⟩ := r
  cases found with
  | error e => exact .refused hsearch
  | ok found =>
    obtain ⟨vol₀, htried, hopen⟩ := hsearch
    exact .opened htried hopen rfl

end Fetching

/-! ## Tables of open files -/

section Table

variable {V σ : Type} [Volume V] {table : V → σ}

/-- The table of open files of a volume: a path that cannot be opened and a read leave it alone, and
closing a file that was opened brings it back to what it was. -/
structure Volume.Tabled (table : V → σ) : Prop where
  refused {vol vol' : V} {path : String} {e : StorageError}
    (h : (openPath vol path).value = (.error e, vol')) : table vol' = table vol
  read (vol : V) (handle : Handle) (offset len : Nat) :
    table (read vol handle offset len).2 = table vol
  restored {vol vol₁ vol₂ : V} {path : String} {handle : Handle}
    (h : (openPath vol path).value = (.ok handle, vol₁)) (hsame : table vol₂ = table vol₁) :
    table (close vol₂ handle) = table vol

namespace Volume.Tabled

variable (h : Volume.Tabled table) {vol vol' : V}
include h

theorem tried (ht : Volume.Tried vol vol') : table vol' = table vol := by
  induction ht with
  | refl => rfl
  | tail _ hs ih =>
    obtain ⟨path, e, ho⟩ := hs
    rw [h.refused ho, ih]

theorem later {handle : Handle} (hl : Volume.Later handle vol vol') : table vol' = table vol := by
  induction hl with
  | refl => rfl
  | tail _ hs ih =>
    obtain ⟨offset, len, rfl⟩ := hs
    rw [h.read, ih]

/-- Fetching a file leaves no file open, and closes no other one. -/
theorem fetch (config : Config) (vol : V) (name : String) :
    table (Coop.fetch config vol name).2 = table vol := by
  have hcourse := fetched config vol name
  generalize Coop.fetch config vol name = r at hcourse
  cases hcourse with
  | refused htried => exact h.tried htried
  | @opened handle path contents vol₀ vol₁ vol₂ htried hopen hread =>
    have hlater := later_readContents config.maxLoad vol₁ handle path
    rw [hread] at hlater
    show table (close vol₂ handle) = table vol
    rw [h.restored hopen (h.later hlater), h.tried htried]

theorem load (k : Kernel) (vol : V) (id : TaskId) (name : String) :
    table (k.load vol id name).value.2.2 = table vol := by
  by_cases hd : k.phase? id = some .dormant
  · have hfetch := h.fetch k.config vol name
    rw [Kernel.value_load hd]
    generalize Coop.fetch k.config vol name = r at hfetch ⊢
    obtain ⟨contents, vol'⟩ := r
    cases contents <;> exact hfetch
  · obtain ⟨e, he⟩ := Kernel.value_load_of_ne hd vol name
    rw [he]

end Volume.Tabled

end Table

namespace MemoryVolume

variable {v : MemoryVolume} {path : String}

theorem value_openPath (v : MemoryVolume) (path : String) : (Volume.openPath v path).value =
    match v.place? path with
    | none => (.error .notFound, v)
    | some place =>
      match v.slots.toList.findIdx? Option.isNone with
      | none => (.error .tooManyOpen, v)
      | some slot => (.ok slot, { v with
          slots := v.slots.setIfInBounds slot (some place)
          opens := v.opens + 1 }) := by
  change (v.openPath path).value = _
  unfold openPath
  cases v.place? path with
  | none => rfl
  | some place => cases v.slots.toList.findIdx? Option.isNone <;> rfl

theorem slots_restored {slots : Vector (Option Nat) maxOpen} {i : Nat}
    (h : slots.toList.findIdx? Option.isNone = some i) (place : Nat) :
    (slots.setIfInBounds i (some place)).setIfInBounds i none = slots := by
  obtain ⟨hi, hnone, -⟩ := List.findIdx?_eq_some_iff_getElem.mp h
  rw [Vector.length_toList] at hi
  have hfree : slots[i] = none := by simpa using hnone
  rw [Vector.setIfInBounds_setIfInBounds]
  ext1 j hj
  rw [Vector.getElem_setIfInBounds]
  split_ifs with hij
  · subst hij
    exact hfree.symm
  · rfl

theorem tabled : Volume.Tabled slots where
  refused {v v' path e} h := by
    rw [value_openPath] at h
    cases hplace : v.place? path with
    | none =>
      rw [hplace] at h
      cases h
      rfl
    | some place =>
      cases hslot : v.slots.toList.findIdx? Option.isNone with
      | none =>
        rw [hplace, hslot] at h
        cases h
        rfl
      | some slot => simp [hplace, hslot] at h
  read v handle offset len := by
    change (v.read handle offset len).2.slots = v.slots
    unfold read
    cases v.behind? handle <;> rfl
  restored {v v₁ v₂ path handle} h hsame := by
    change v₂.slots.setIfInBounds handle none = v.slots
    rw [value_openPath] at h
    cases hplace : v.place? path with
    | none => simp [hplace] at h
    | some place =>
      cases hslot : v.slots.toList.findIdx? Option.isNone with
      | none => simp [hplace, hslot] at h
      | some slot =>
        rw [hplace, hslot] at h
        cases h
        rw [hsame]
        exact slots_restored hslot place

end MemoryVolume

namespace FaultyVolume

variable {V σ : Type} {table : V → σ}

/-- The bytes a read asks the inner volume for. -/
def asked (v : FaultyVolume V) (len : Nat) : Nat := v.faults.maxRead.elim len (min len)

theorem asked_le (v : FaultyVolume V) (len : Nat) : v.asked len ≤ len := by
  unfold asked
  cases v.faults.maxRead with
  | none => exact Nat.le_refl len
  | some most => exact Nat.min_le_left len most

variable [Volume V]

theorem value_openPath (v : FaultyVolume V) (path : String) : (Volume.openPath v path).value =
    if v.faults.failOpen = some path then (.error .tooManyOpen, v)
    else ((Volume.openPath v.inner path).value.1,
      { v with inner := (Volume.openPath v.inner path).value.2 }) := by
  change (if v.faults.failOpen = some path then _ else _ : Logged _).value = _
  split_ifs <;> rfl

theorem read_eq (v : FaultyVolume V) (handle : Handle) (offset len : Nat) :
    Volume.read v handle offset len =
      if v.faults.failRead = some (v.reads + 1) then
        (.error .badHandle, { v with reads := v.reads + 1 })
      else ((Volume.read v.inner handle offset (v.asked len)).1, { v with
        inner := (Volume.read v.inner handle offset (v.asked len)).2
        reads := v.reads + 1 }) := by
  change (if v.faults.failRead = some (v.reads + 1) then _ else _ : _ × FaultyVolume V) = _
  unfold asked
  cases v.faults.maxRead <;> rfl

theorem tabled (h : Volume.Tabled table) :
    Volume.Tabled fun v : FaultyVolume V => table v.inner where
  refused {v v' path e} ho := by
    rw [value_openPath] at ho
    split_ifs at ho
    · cases ho
      rfl
    · cases hopen : (Volume.openPath v.inner path).value with
      | mk result inner =>
        rw [hopen] at ho
        cases ho
        exact h.refused hopen
  read v handle offset len := by
    rw [read_eq]
    split_ifs
    · rfl
    · exact h.read _ _ _ _
  restored {v v₁ v₂ path handle} ho hsame := by
    rw [value_openPath] at ho
    split_ifs at ho
    · cases ho
    · cases hopen : (Volume.openPath v.inner path).value with
      | mk result inner =>
        rw [hopen] at ho
        cases ho
        exact h.restored hopen hsame

end FaultyVolume

/-! ## Loads that fail -/

/-- The load failed before it came to the task: there is no such task, it is not dormant, there is
no such file, or the volume refused. -/
def LoadError.isEarly : LoadError → Bool
  | .noSuchTask _ | .busy _ | .notFound _ | .storage _ => true
  | .compile _ | .heapExhausted _ | .registry _ => false

namespace Kernel

variable {k : Kernel} {id : TaskId} {V : Type} [Volume V]

theorem install_error (hd : k.phase? id = some .dormant) {c : Contents} {e : LoadError}
    (h : (k.install id c).value.1 = .error e) : e.isEarly = false := by
  obtain ⟨t, ht, -⟩ := (Scheduler.phase?_eq_some_iff _ _ _).mp hd
  have hinstalled := installed ht c
  generalize (k.install id c).value = r at h hinstalled
  cases hinstalled with
  | mapped | stored | compiled => cases h
  | exhausted | refused | binary =>
    cases h
    rfl

/-- A load that fails early leaves the kernel as it was. -/
theorem load_of_isEarly {vol : V} {name : String} {e : LoadError}
    (h : (k.load vol id name).value.1 = .error e) (he : e.isEarly = true) :
    (k.load vol id name).value.2.1 = k := by
  by_cases hd : k.phase? id = some .dormant
  · rw [value_load hd] at h ⊢
    generalize fetch k.config vol name = r at h ⊢
    obtain ⟨contents, vol'⟩ := r
    cases contents with
    | error e' => rfl
    | ok c =>
      rw [install_error hd h] at he
      cases he
  · obtain ⟨e', he'⟩ := value_load_of_ne hd vol name
    rw [he']

theorem others_load (vol : V) (id : TaskId) (name : String) :
    (k.load vol id name).value.2.1.others id = k.others id := by
  rcases load_eq_or vol id name with h | ⟨-, a, h⟩
  · rw [h]
  · rw [h, others_onTask]

/-- **A load leaves no file open and touches no other task.** However it ends, the open files of the
volume are those that were open before: on every volume that keeps a table of them, such as one in
memory with any files open, also if paths, sizes and reads fail and reads come short. If it fails
before it comes to the task, the kernel is as it was. In any case all other tasks are as they were,
and no task changes its phase. -/
theorem load_is_clean (k : Kernel) (id : TaskId) (name : String) :
    (∀ vol : MemoryVolume, (k.load vol id name).value.2.2.slots = vol.slots) ∧
    (∀ vol : FaultyVolume MemoryVolume,
      (k.load vol id name).value.2.2.inner.slots = vol.inner.slots) ∧
    ∀ {V : Type} [Volume V] (vol : V),
      (∀ {σ : Type} {table : V → σ}, Volume.Tabled table →
        table (k.load vol id name).value.2.2 = table vol) ∧
      (∀ e, (k.load vol id name).value.1 = .error e → e.isEarly = true →
        (k.load vol id name).value.2.1 = k) ∧
      (k.load vol id name).value.2.1.others id = k.others id ∧
      ∀ u, (k.load vol id name).value.2.1.phase? u = k.phase? u := by
  refine ⟨fun vol => MemoryVolume.tabled.load k vol id name,
    fun vol => (FaultyVolume.tabled MemoryVolume.tabled).load k vol id name, fun vol => ?_⟩
  refine ⟨fun htable => htable.load k vol id name, fun e h he => load_of_isEarly h he, ?_, ?_⟩
  · exact others_load vol id name
  · exact phase?_load vol id name

end Kernel

end Coop
