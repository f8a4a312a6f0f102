import Coop.Proofs.Kernel.Compiled
import Coop.Proofs.Kernel.StaleCode
import Coop.Proofs.Script.Heaps
import Coop.Proofs.Volume.Reading

/-!
# The routes of a file agree

A script gets into a task in four ways: as a text or as its image, and each of them from addressable
memory or through a buffer. Three of them leave the task in the same state. The fourth runs the
image where it is, on a heap that is otherwise empty, and it does not show.

* `Task.replies`: what a task shows, turn by turn;
* `Task.replies_launched`: it is what the slices of its image show;
* `Loaded`: a file was loaded and the task can be launched;
* **`load_routes_agree`**: the four routes.
-/

namespace Coop

theorem Arena.free_storeImage {a b : Arena} {bytes : ByteArray} (h : a.storeImage bytes = .ok b) :
    b.free = a.capacity - bytes.size := by
  have hcapacity := capacity_storeImage h
  unfold storeImage at h
  split_ifs at h
  cases h
  rw [free, hcapacity]

namespace Task

variable {t : Task} {image : ByteArray}

/-- What a task shows from here on, given a budget for every turn: the text it writes and what it
hands back. -/
def replies (t : Task) : (budgets : List Nat) → List (String × Handback)
  | [] => []
  | budget :: budgets =>
    let d := step { t with timeslice := budget }
    (d.output, d.handback) :: d.task.replies budgets

theorem step_eq {pc : Nat} (hfiber : t.fiber = some ⟨pc⟩) (himage : t.image? = some image) :
    t.step =
      let slice := runImage image t.timeslice ⟨pc, t.arena, ""⟩
      ⟨slice.handback, { t with
        fiber := some ⟨slice.machine.pc⟩
        arena := slice.machine.arena
        timeslice := slice.budget }, slice.machine.output⟩ := by
  unfold step
  rw [hfiber, himage]

theorem replies_eq {pc : Nat} (hfiber : t.fiber = some ⟨pc⟩) (himage : t.image? = some image)
    (hheap : t.arena.Valid) (out : String) (budgets : List Nat) :
    t.replies budgets = (Script.runSlices image ⟨pc, t.arena, out⟩ budgets).map Slice.shown := by
  induction budgets generalizing t pc out with
  | nil => rfl
  | cons budget budgets ih =>
    have hkept := Machine.kept_runImage (m := ⟨pc, t.arena, ""⟩) hheap image budget
    have hstep := step_eq (t := { t with timeslice := budget }) hfiber himage
    rw [replies, hstep, Script.runSlices, List.map_cons]
    refine congrArg₂ List.cons rfl (ih rfl ?_ hkept.valid _)
    -- the image is below everything that is written
    rw [← himage]
    unfold image?
    cases t.code with
    | absent | mapped => rfl
    | pinned => exact congrArg some hkept.image

theorem replies_launched {body : ByteArray} (hd : t.phase = .dormant)
    (himage : t.image? = some image) (hbody : Image.body image = .ok body)
    (hheap : t.arena.Valid) (budgets : List Nat) :
    t.launched.replies budgets =
      (Script.runSlices image ⟨0, t.arena, ""⟩ budgets).map Slice.shown := by
  have hlaunched : t.launched = { t with
      fiber := some ⟨0⟩
      phase := .ready
      error := none
      started := true
      interrupt := false
      suspend := false
      waitReason := .nothing } := by
    simp only [launched_eq, if_pos hd, himage, hbody]
  have himage' : t.launched.image? = some image := by
    rw [hlaunched]
    exact himage
  have hfiber : t.launched.fiber = some ⟨0⟩ := by rw [hlaunched]
  rw [replies_eq hfiber himage' (by rwa [hlaunched]) "", hlaunched]

end Task

namespace Kernel

variable {k : Kernel} {id : TaskId} {t u : Task} {V : Type} [Volume V]

/-- A file was loaded by the given route, which put the task into the state `u` and left all else as
it was; launched from there, it starts. -/
structure Loaded (k : Kernel) (vol : V) (id : TaskId) (name : String) (route : Route) (u : Task) :
    Prop where
  result : (k.load vol id name).value.1 = .ok route
  kernel : (k.load vol id name).value.2.1 = k.put u
  task : (k.load vol id name).value.2.1.task? id = some u
  starts : ((k.load vol id name).value.2.1.execute id).value.1 = true
  started : ((k.load vol id name).value.2.1.execute id).value.2.task? id = some u.launched

theorem loaded_of_install {vol : V} {name : String} {bytes image body : ByteArray}
    {resident : Bool} {route : Route} (ht : k.task? id = some t) (hd : t.phase = .dormant)
    (h : Holds k.config vol name bytes resident)
    (hinstall : (k.install id ⟨routeOf k.config.maxLoad bytes resident, bytes⟩).value =
      (.ok route, k.put u))
    (hid : u.id = t.id) (hu : u.phase = .dormant) (himage : u.image? = some image)
    (hbody : Image.body image = .ok body) : k.Loaded vol id name route u := by
  have hload : (k.load vol id name).value.1 = .ok route ∧
      (k.load vol id name).value.2.1 = k.put u := by
    have hfetch := fetch_of_holds h
    rw [value_load (by rw [phase?_of_task? ht, hd])]
    cases hf : fetch k.config vol name with
    | mk contents vol' =>
      rw [hf] at hfetch
      cases hfetch
      dsimp only
      rw [hinstall]
      exact ⟨rfl, rfl⟩
  have htask : (k.put u).task? id = some u := task?_put_self ht hid
  have hlaunch : u.launch.value.1 = true := by
    simp only [Task.value_launch, if_pos hu, himage, hbody]
  refine ⟨hload.1, hload.2, ?_, ?_, ?_⟩
  all_goals rw [hload.2]
  · exact htask
  · rw [execute_fst htask, hlaunch]
  · have hfind := Scheduler.find?_launch (k.put u).scheduler id id
    rw [if_pos rfl, show (k.put u).scheduler.find? id = some u from htask] at hfind
    exact hfind

theorem value_install_source {route : Route} {bytes : ByteArray} {k' : Kernel}
    (hr : route = .mappedSource ∨ route = .bufferedSource)
    (h : (k.compileBytes id bytes).value = (.ok (), k')) :
    (k.install id ⟨route, bytes⟩).value = (.ok route, k') := by
  rcases hr with rfl | rfl
  all_goals
    simp only [install, Logged.value_bind, h]
    rfl

/-- **The four routes agree.** A script whose image keeps to the load limit can be loaded into every
dormant task with a heap of that size. As a text, from either kind of memory and however long, and
as an image through a buffer, it leaves the task in one and the same state, with the image at the
base of the heap; as an image in addressable memory it leaves the heap empty. Launched, the task
shows the same turn by turn, as long as what is printed fits on the heap above the image. -/
theorem load_routes_agree (h : Reachable k) (ht : k.task? id = some t) (hd : t.phase = .dormant)
    {source : String} {image : ByteArray} (hc : Coop.compile source = .ok image)
    (hload : image.size ≤ k.config.maxLoad) (hheap : k.config.maxLoad ≤ t.arena.capacity) :
    ∃ u p, Script.readLines source = some p ∧ u.arena.image = image ∧
      (∀ {V : Type} [Volume V] (vol : V) (name : String),
        (Holds k.config vol name source.toByteArray true → k.Loaded vol id name .mappedSource u) ∧
        (Holds k.config vol name source.toByteArray false →
          k.Loaded vol id name .bufferedSource u) ∧
        (Holds k.config vol name image false → k.Loaded vol id name .bufferedImage u) ∧
        (Holds k.config vol name image true →
          k.Loaded vol id name .mappedImage (t.mapImage image))) ∧
      (t.mapImage image).arena.used = 0 ∧ (t.mapImage image).arena.image = .empty ∧
      ((∀ text, .puts text ∈ p → text.utf8ByteSize < t.arena.capacity - image.size) →
        ∀ budgets, u.launched.replies budgets = (t.mapImage image).launched.replies budgets) := by
  have hsize : image.size ≤ t.arena.clear.capacity := Nat.le_trans hload hheap
  obtain ⟨arena, hstore⟩ : ∃ arena, t.arena.clear.storeImage image = .ok arena := ⟨_, if_pos hsize⟩
  obtain ⟨p, body, hread, hbody, hample⟩ := Script.ample_of_compile hc
  have hvalid : arena.Valid := (h.coherent ht).heap.clear.storeImage hstore
  have hpinned : arena.image = image := Arena.image_storeImage hstore
  let u : Task := { t.dropImage with arena := arena, code := .pinned }
  have hu : u.image? = some image := congrArg some hpinned
  have hsource : Image.isImage source.toByteArray = false := Script.isImage_of_source hc
  have himage : Image.isImage image = true := isImage_of_compile hc
  have hcompile : (k.compile id source).value = (true, k.put u) := by
    rw [compile, ht]
    simp only [Logged.value_bind, Task.value_compile, if_pos hd, hc, hstore]
    rfl
  have hbytes : (k.compileBytes id source.toByteArray).value = (.ok (), k.put u) := by
    rw [value_compileBytes_of_text (fromUTF8?_toByteArray source), hcompile]
    rfl
  refine ⟨u, p, hread, hpinned, fun vol name => ⟨?_, ?_, ?_, ?_⟩, rfl, t.arena.image_clear,
    fun hputs budgets => ?_⟩
  · intro hholds
    have hroute : routeOf k.config.maxLoad source.toByteArray true = .mappedSource := by
      simp [routeOf, hsource]
    refine loaded_of_install ht hd hholds ?_ rfl hd hu hbody
    rw [hroute]
    exact value_install_source (.inl rfl) hbytes
  · intro hholds
    have hroute : routeOf k.config.maxLoad source.toByteArray false = .bufferedSource := by
      simp [routeOf, hsource]
    refine loaded_of_install ht hd hholds ?_ rfl hd hu hbody
    rw [hroute]
    exact value_install_source (.inr rfl) hbytes
  · intro hholds
    have hroute : routeOf k.config.maxLoad image false = .bufferedImage := by
      simp [routeOf, himage, hload]
    refine loaded_of_install ht hd hholds ?_ rfl hd hu hbody
    have hstored : t.loadImage image = (.ok (), u) := by
      simp only [Task.loadImage, Task.dropImage, hstore]
      rfl
    rw [hroute, install, ht]
    simp only [hstored]
    rfl
  · intro hholds
    have hroute : routeOf k.config.maxLoad image true = .mappedImage := by
      simp [routeOf, himage]
    refine loaded_of_install ht hd hholds ?_ rfl hd rfl hbody
    rw [hroute, install, ht]
    rfl
  · have hfree : arena.free = t.arena.capacity - image.size := Arena.free_storeImage hstore
    have hclear : t.arena.clear.free = t.arena.capacity := rfl
    rw [Task.replies_launched (t := u) hd hu hbody hvalid,
      Task.replies_launched (t := t.mapImage image) hd rfl hbody (h.coherent ht).heap.clear]
    have hstored : Ample body arena := by
      refine hample arena hvalid fun text htext => ?_
      rw [hfree]
      exact hputs text htext
    have hempty : Ample body t.arena.clear := by
      refine hample t.arena.clear (h.coherent ht).heap.clear fun text htext => ?_
      have := hputs text htext
      rw [hclear]
      omega
    have halike : Machine.Alike ⟨0, arena, ""⟩ ⟨0, t.arena.clear, ""⟩ := ⟨rfl, rfl⟩
    exact Script.runSlices_alike hbody halike .start hstored hempty budgets

/-- A script that is longer than the load limit, and its image, each from both kinds of memory. -/
theorem load_routes_agree_greeting : ∃ (k : Kernel) (vol : MemoryVolume) (u v : Task),
    Reachable k ∧ k.Loaded vol ⟨1⟩ "/lent.rb" .mappedSource u ∧
      k.Loaded vol ⟨1⟩ "/long.rb" .bufferedSource u ∧ k.Loaded vol ⟨1⟩ "/long" .bufferedImage u ∧
      k.Loaded vol ⟨1⟩ "/lent" .mappedImage v ∧ v.arena.used = 0 ∧
      ∀ budgets, u.launched.replies budgets = v.launched.replies budgets := by
  let source := "# longer than the load limit\nputs 'hi'\npass"
  let image := Image.build (assemble [.puts "hi", .pass])
  let vol := (((MemoryVolume.empty.addMapped "/lent.rb" source.toByteArray).addFile "/long.rb"
    source.toByteArray).addFile "/long" image).addMapped "/lent" image
  let k := ((new { Config.default with heapSize := 24, maxLoad := 20 }).create none).value.2
  have hk : Reachable k := .create (.new _) none (by decide +kernel)
  have hc : Coop.compile source = .ok image := by decide +kernel
  obtain ⟨t, ht, hd⟩ :=
    (Scheduler.phase?_eq_some_iff k.scheduler ⟨1⟩ .dormant).mp (by decide +kernel)
  have hheap : t.arena.capacity = 24 := by
    have : (k.task? ⟨1⟩).map (fun t => t.arena.capacity) = some 24 := by decide +kernel
    rw [show k.task? ⟨1⟩ = some t from ht] at this
    exact Option.some.inj this
  obtain ⟨u, p, hread, -, hroutes, hempty, -, hreplies⟩ :=
    load_routes_agree hk ht hd hc (by decide +kernel) (by rw [hheap]; decide +kernel)
  have hp : p = [.blank, .puts "hi", .pass] := by
    have : Script.readLines source = some [.blank, .puts "hi", .pass] := by decide +kernel
    rw [this] at hread
    exact (Option.some.inj hread).symm
  have holds (path : String) (file : File)
      (hpath : (candidates k.config.loadPath path).find? vol.has = some path)
      (hfile : vol.file? path = some file) := MemoryVolume.holds hpath hfile (by decide +kernel)
  refine ⟨k, vol, u, t.mapImage image, hk, ?_, ?_, ?_, ?_, hempty, hreplies fun text htext => ?_⟩
  · exact (hroutes vol "/lent.rb").1 (holds _ ⟨_, true⟩ (by decide +kernel) (by decide +kernel))
  · exact (hroutes vol "/long.rb").2.1 (holds _ ⟨_, false⟩ (by decide +kernel) (by decide +kernel))
  · exact (hroutes vol "/long").2.2.1 (holds _ ⟨_, false⟩ (by decide +kernel) (by decide +kernel))
  · exact (hroutes vol "/lent").2.2.2 (holds _ ⟨_, true⟩ (by decide +kernel) (by decide +kernel))
  · have htext : text = "hi" := by simpa [hp] using htext
    rw [hheap, htext]
    decide +kernel

end Kernel

end Coop
