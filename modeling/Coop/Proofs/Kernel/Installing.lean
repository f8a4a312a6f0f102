import Coop.Proofs.Kernel.Compiled
import Coop.Proofs.Kernel.StaleCode

/-!
# Putting a file into a task

What was found in a file is mapped, stored or compiled, or it is refused. Everything that is known
about a load once the file was read comes from this list.

* **`Installed`**, `installed`: what putting the contents of a file into a task can do;
* `load_heapExhausted`: the only load that fails for want of memory;
* `Contents.Gives`, `Brought`, **`brought_of_load`**: the program a load puts into a task.
-/

namespace Coop

/-- Whether a route takes the bytes for an image. -/
def Route.isImage : Route → Bool
  | .mappedImage | .bufferedImage => true
  | .mappedSource | .bufferedSource => false

theorem Task.image?_of_loaded {t t' : Task} {bytes : ByteArray}
    (h : t.loadImage bytes = (.ok (), t')) : t'.image? = some bytes := by
  unfold loadImage at h
  dsimp only at h
  cases hs : t.dropImage.arena.storeImage bytes with
  | error e => simp [hs] at h
  | ok arena =>
    rw [hs] at h
    cases h
    exact congrArg some (Arena.image_storeImage hs)

namespace Kernel

variable {k : Kernel} {id : TaskId} {t : Task} {c : Contents}

/-- **What putting the contents of a file into a task can do**: the result, and the kernel after it.
-/
inductive Installed (k : Kernel) (id : TaskId) (t : Task) (c : Contents) :
    Except LoadError Route × Kernel → Prop
  | mapped (hr : c.route = .mappedImage) :
    Installed k id t c (.ok c.route, k.put (t.mapImage c.bytes))
  | stored {t' : Task} (hr : c.route = .bufferedImage) (hs : t.loadImage c.bytes = (.ok (), t')) :
    Installed k id t c (.ok c.route, k.put t')
  | exhausted {e : Exhausted} {t' : Task} (hr : c.route = .bufferedImage)
    (hs : t.loadImage c.bytes = (.error e, t')) :
    Installed k id t c (.error (.heapExhausted e), k.put t')
  | compiled {source : String} (hr : c.route.isImage = false)
    (htext : String.fromUTF8? c.bytes = some source) (hc : (k.compile id source).value.1 = true) :
    Installed k id t c (.ok c.route, (k.compile id source).value.2)
  | refused {source : String} {e : CompileError} (hr : c.route.isImage = false)
    (htext : String.fromUTF8? c.bytes = some source) (hc : (k.compile id source).value.1 = false) :
    Installed k id t c (.error (.compile e), (k.compile id source).value.2)
  /-- The file is no text. -/
  | binary (hr : c.route.isImage = false) (htext : String.fromUTF8? c.bytes = none) :
    Installed k id t c (.error (.compile ⟨0, .notText⟩), k)

theorem installed_source (t : Task) (hr : c.route.isImage = false) :
    Installed k id t c ((k.compileBytes id c.bytes).value.1.map fun _ => c.route,
      (k.compileBytes id c.bytes).value.2) := by
  cases hb : String.fromUTF8? c.bytes with
  | none =>
    rw [value_compileBytes_of_binary hb]
    exact .binary hr hb
  | some source =>
    rw [value_compileBytes_of_text hb]
    cases hc : (k.compile id source).value.1 with
    | true => exact .compiled hr hb hc
    | false => exact .refused hr hb hc

theorem installed (ht : k.task? id = some t) (c : Contents) :
    Installed k id t c (k.install id c).value := by
  obtain ⟨route, bytes⟩ := c
  unfold install
  cases route with
  | mappedImage =>
    simp only [ht]
    exact .mapped rfl
  | bufferedImage =>
    simp only [ht]
    cases hs : t.loadImage bytes with
    | mk result t' =>
      cases result with
      | ok u => exact .stored rfl hs
      | error e => exact .exhausted rfl hs
  | mappedSource | bufferedSource => exact installed_source t rfl

/-! ## Want of memory -/

variable {V : Type} [Volume V] {vol : V} {name : String}

/-- A load fails for want of memory only when an image from the load buffer is stored. -/
theorem load_heapExhausted {e : Exhausted}
    (h : (k.load vol id name).value.1 = .error (.heapExhausted e)) : ∃ bytes vol' t,
      fetch k.config vol name = (.ok ⟨.bufferedImage, bytes⟩, vol') ∧ k.task? id = some t ∧
        (t.loadImage bytes).1 = .error e := by
  by_cases hd : k.phase? id = some .dormant
  · obtain ⟨t, ht, -⟩ := (Scheduler.phase?_eq_some_iff _ _ _).mp hd
    have ht : k.task? id = some t := ht
    rw [value_load hd] at h
    cases hf : fetch k.config vol name with
    | mk contents vol' =>
      rw [hf] at h
      cases contents with
      | error e' =>
        cases h
        rcases fetch_error (congrArg Prod.fst hf) with he | ⟨s, he⟩ <;> cases he
      | ok c =>
        have hinstalled := installed ht c
        dsimp only at h
        generalize (k.install id c).value = r at h hinstalled
        cases hinstalled with
        | mapped | stored | compiled | refused | binary => cases h
        | @exhausted e' t' hr hs =>
          cases h
          obtain ⟨route, bytes⟩ := c
          cases hr
          exact ⟨bytes, vol', t, rfl, ht, by rw [hs]⟩
  · unfold load at h
    cases hp : k.phase? id with
    | none => simp [hp] at h
    | some p =>
      cases p with
      | dormant => exact absurd hp hd
      | ready | waiting | suspended => simp [hp] at h

end Kernel

/-! ## Programs -/

/-- What was found in a file gives an image: it is the image, or the text of a script. -/
inductive Contents.Gives (c : Contents) : (image : ByteArray) → Prop
  | image (hr : c.route.isImage = true) : Gives c c.bytes
  | source {image : ByteArray} {source : String} (hr : c.route.isImage = false)
    (htext : String.fromUTF8? c.bytes = some source) (hc : compile source = .ok image) :
    Gives c image

namespace Kernel

variable {k : Kernel} {id : TaskId} {V : Type} [Volume V] {vol : V} {name : String}

theorem exists_of_installed (hd : k.phase? id = some .dormant) {c : Contents} {route : Route}
    (h : (k.install id c).value.1 = .ok route) : ∃ image t, c.Gives image ∧
      (k.install id c).value.2.task? id = some t ∧ t.image? = some image ∧
      t.phase = .dormant := by
  obtain ⟨t, ht, htd⟩ := (Scheduler.phase?_eq_some_iff _ _ _).mp hd
  have ht : k.task? id = some t := ht
  have hinstalled := installed ht c
  generalize (k.install id c).value = r at h hinstalled ⊢
  cases hinstalled with
  | mapped hr =>
    exact ⟨c.bytes, t.mapImage c.bytes, .image (by rw [hr]; rfl), task?_put_self ht rfl, rfl, htd⟩
  | @stored t' hr hs =>
    have hid := t.id_loadImage c.bytes
    have hphase := t.phase_loadImage c.bytes
    rw [hs] at hid hphase
    exact ⟨c.bytes, t', .image (by rw [hr]; rfl), task?_put_self ht hid, Task.image?_of_loaded hs,
      hphase.trans htd⟩
  | compiled hr htext hc =>
    obtain ⟨image, t', hcompile, hrest⟩ := exists_of_compiled hc
    exact ⟨image, t', .source hr htext hcompile, hrest⟩
  | exhausted | refused | binary => cases h

/-- The image of the file that a load found is the image of the task after it. -/
structure Brought (k : Kernel) (vol : V) (id : TaskId) (name : String) (image : ByteArray)
    (t : Task) : Prop where
  contents : ∃ c, (fetch k.config vol name).1 = .ok c ∧ c.Gives image
  task : (k.load vol id name).value.2.1.task? id = some t
  image : t.image? = some image
  dormant : t.phase = .dormant

/-- **A load that succeeds brings a program.** -/
theorem brought_of_load {route : Route} (h : (k.load vol id name).value.1 = .ok route) :
    ∃ image t, k.Brought vol id name image t := by
  by_cases hd : k.phase? id = some .dormant
  · have hload := value_load hd vol name
    cases hf : fetch k.config vol name with
    | mk contents vol' =>
      rw [hf] at hload
      rw [hload] at h
      cases contents with
      | error e => cases h
      | ok c =>
        obtain ⟨image, t, hgives, ht, himage, hp⟩ := exists_of_installed hd h
        refine ⟨image, t, ⟨c, by rw [hf], hgives⟩, ?_, himage, hp⟩
        rw [hload]
        exact ht
  · obtain ⟨e, he⟩ := value_load_of_ne hd vol name
    rw [he] at h
    cases h

end Kernel

end Coop
