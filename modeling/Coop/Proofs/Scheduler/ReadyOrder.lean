import Coop.Proofs.Scheduler.Dispatch
import Coop.Proofs.Scheduler.Effect

/-!
# The order of the ready bucket

The ready bucket is kept in order one insertion at a time. A change of priority leaves a task where
it is, so that the order may be lost; one turn puts every ready task in anew and so restores it.

* `byKey`: the stable sort of a list, with `eq_byKey`;
* `placed`: a number put in behind those with a key that is not larger;
* **`Mending`**: the bucket while a turn goes through it: those that are through are in order, and
  each comes behind all with a larger key, with `Mending.erase` and `Mending.placed`;
* `Scheduler.ready_moveTo`, `Scheduler.ready_dispatch`: the bucket when a task is moved or
  dispatched;
* `Scheduler.priorityOf`, `priorityOf_apply`: what the bucket is ordered by;
* `Scheduler.yielded`, **`ready_runTick`**: the bucket after a turn;
* `Arrivals`, `Action.note`, `arrivals`: the ready tasks in the order of their arrival;
* **`ready_order`**.
-/

namespace Coop

/-! ## Stable order -/

section Order

variable {key : TaskId → UInt8}

/-- The stable sort of a list: smaller keys first, and the order of the list among equals. -/
def byKey (key : TaskId → UInt8) (l : List TaskId) : List TaskId :=
  l.mergeSort fun a b => key a ≤ key b

theorem decide_le_trans (key : TaskId → UInt8) (a b c : TaskId)
    (hab : decide (key a ≤ key b) = true) (hbc : decide (key b ≤ key c) = true) :
    decide (key a ≤ key c) = true :=
  decide_eq_true (UInt8.le_trans (of_decide_eq_true hab) (of_decide_eq_true hbc))

theorem decide_le_total (key : TaskId → UInt8) (a b : TaskId) :
    (decide (key a ≤ key b) || decide (key b ≤ key a)) = true := by
  simpa using UInt8.le_total (key a) (key b)

theorem byKey_perm (l : List TaskId) : (byKey key l).Perm l := List.mergeSort_perm _ _

theorem pairwise_byKey (l : List TaskId) : (byKey key l).Pairwise fun a b => key a ≤ key b := by
  have h : (byKey key l).Pairwise fun a b => decide (key a ≤ key b) = true :=
    List.pairwise_mergeSort (decide_le_trans key) (decide_le_total key) l
  exact h.imp fun hab => of_decide_eq_true hab

/-- Sorting leaves the order among equals as it is. -/
theorem filter_byKey (q : UInt8) (l : List TaskId) :
    (byKey key l).filter (fun a => key a = q) = l.filter fun a => key a = q := by
  have hsub : (l.filter fun a => key a = q).Sublist (byKey key l) := by
    refine List.sublist_mergeSort (decide_le_trans key) (decide_le_total key) ?_
      List.filter_sublist
    refine List.pairwise_of_forall_mem_list fun a ha b hb => ?_
    have hqa : key a = q := by simpa using (List.mem_filter.mp ha).2
    have hqb : key b = q := by simpa using (List.mem_filter.mp hb).2
    simp [hqa, hqb]
  have hsub' := hsub.filter fun a => key a = q
  simp only [List.filter_filter, Bool.and_self] at hsub'
  exact (hsub'.eq_of_length ((byKey_perm l).filter _).length_eq.symm).symm

/-- Two lists in order with the same order among equals are the same. -/
theorem eq_of_filter_eq {l l' : List TaskId} (hl : l.Pairwise fun a b => key a ≤ key b)
    (hl' : l'.Pairwise fun a b => key a ≤ key b)
    (h : ∀ q, l.filter (fun a => key a = q) = l'.filter fun a => key a = q) : l = l' := by
  have hmem : ∀ a, a ∈ l ↔ a ∈ l' := by
    intro a
    have := congrArg (a ∈ ·) (h (key a))
    simpa using this
  induction l generalizing l' with
  | nil =>
    cases l' with
    | nil => rfl
    | cons b bs => exact absurd ((hmem b).mpr List.mem_cons_self) List.not_mem_nil
  | cons a as ih =>
    cases l' with
    | nil => exact absurd ((hmem a).mp List.mem_cons_self) List.not_mem_nil
    | cons b bs =>
      obtain ⟨ha, has⟩ := List.pairwise_cons.mp hl
      obtain ⟨hb, hbs⟩ := List.pairwise_cons.mp hl'
      -- each head is in the other list, so neither key is larger
      have hab : key a ≤ key b := by
        rcases List.mem_cons.mp ((hmem b).mpr List.mem_cons_self) with e | hm
        · rw [e]; exact UInt8.le_refl _
        · exact ha b hm
      have hba : key b ≤ key a := by
        rcases List.mem_cons.mp ((hmem a).mp List.mem_cons_self) with e | hm
        · rw [e]; exact UInt8.le_refl _
        · exact hb a hm
      have hkey : key b = key a := UInt8.le_antisymm hba hab
      have hhead := h (key a)
      rw [List.filter_cons_of_pos (by simp), List.filter_cons_of_pos (by simpa using hkey)] at hhead
      obtain rfl : a = b := (List.cons.inj hhead).1
      have htail (q : UInt8) : as.filter (fun c => key c = q) = bs.filter fun c => key c = q := by
        have hq := h q
        by_cases haq : key a = q
        · rw [List.filter_cons_of_pos (by simpa using haq),
            List.filter_cons_of_pos (by simpa using haq)] at hq
          exact (List.cons.inj hq).2
        · rwa [List.filter_cons_of_neg (by simpa using haq),
            List.filter_cons_of_neg (by simpa using haq)] at hq
      refine congrArg (a :: ·) (ih has hbs htail fun c => ?_)
      have := congrArg (c ∈ ·) (htail (key c))
      simpa using this

/-- **The stable sort is the one list in order with the same order among equals.** -/
theorem eq_byKey {l queue : List TaskId} (hl : l.Pairwise fun a b => key a ≤ key b)
    (h : ∀ q, l.filter (fun a => key a = q) = queue.filter fun a => key a = q) :
    l = byKey key queue :=
  eq_of_filter_eq hl (pairwise_byKey queue) fun q => (h q).trans (filter_byKey q queue).symm

theorem byKey_congr {key' : TaskId → UInt8} {l : List TaskId} (h : ∀ a ∈ l, key a = key' a) :
    byKey key l = byKey key' l := by
  have hmem : ∀ a ∈ byKey key l, key a = key' a := fun a ha => h a ((byKey_perm l).mem_iff.mp ha)
  refine eq_byKey ?_ fun q => ?_
  · refine (pairwise_byKey l).imp_of_mem ?_
    intro a b ha hb hab
    rwa [← hmem a ha, ← hmem b hb]
  · calc (byKey key l).filter (fun a => key' a = q)
        = (byKey key l).filter fun a => key a = q :=
          List.filter_congr fun a ha => by rw [hmem a ha]
      _ = l.filter fun a => key a = q := filter_byKey q l
      _ = l.filter fun a => key' a = q := List.filter_congr fun a ha => by rw [h a ha]

theorem byKey_erase {l : List TaskId} (hn : l.Nodup) (x : TaskId) :
    (byKey key l).erase x = byKey key (l.erase x) := by
  refine eq_byKey ((pairwise_byKey l).sublist List.erase_sublist) fun q => ?_
  rw [((byKey_perm l).nodup_iff.mpr hn).erase_eq_filter, hn.erase_eq_filter,
    List.filter_comm, filter_byKey, List.filter_comm]

/-! ## Putting in -/

/-- A number put in behind every number up to the first with a larger key. -/
def placed (key : TaskId → UInt8) (x : TaskId) (l : List TaskId) : List TaskId :=
  l.takeWhile (fun a => key a ≤ key x) ++ x :: l.dropWhile fun a => key a ≤ key x

theorem placed_eq {x : TaskId} {l : List TaskId} (hl : l.Pairwise fun a b => key a ≤ key b) :
    placed key x l =
      l.filter (fun a => key a ≤ key x) ++ x :: l.filter fun a => key x < key a := by
  have hlt (a : TaskId) : decide (key x < key a) = !decide (key a ≤ key x) := by
    rw [← decide_not]
    exact decide_eq_decide.mpr UInt8.not_le.symm
  simp only [hlt]
  induction l with
  | nil => rfl
  | cons a as ih =>
    obtain ⟨ha, has⟩ := List.pairwise_cons.mp hl
    by_cases hax : key a ≤ key x
    · have := ih has
      simp_all [placed]
    · have hgt : ∀ b ∈ as, ¬ key b ≤ key x := fun b hb hbx =>
        hax (UInt8.le_trans (ha b hb) hbx)
      have hnone : as.filter (fun b => key b ≤ key x) = [] :=
        List.filter_eq_nil_iff.mpr (by simpa using hgt)
      have hall : as.filter (fun b => !decide (key b ≤ key x)) = as :=
        List.filter_eq_self.mpr (by simpa using hgt)
      simp [placed, hax, hnone, hall]

/-- **The bucket while a turn goes through it.** The numbers in `rest` are still where they were,
whatever their keys have become. The others were put in since, in the order of `queue`. -/
structure Mending (key : TaskId → UInt8) (rest queue ready : List TaskId) : Prop where
  /-- No number that was put in has one with a larger key before it, done or not. -/
  sorted : ready.Pairwise fun a b => b ∉ rest → key a ≤ key b
  /-- Among equals the numbers that were put in are in the order of the queue. -/
  fifo : ∀ q, ready.filter (fun a => a ∉ rest ∧ key a = q) = queue.filter fun a => key a = q

namespace Mending

variable {rest queue ready : List TaskId} {x : TaskId}

theorem start (ready : List TaskId) : Mending key ready [] ready where
  sorted := List.pairwise_of_forall_mem_list fun _ _ b hb hn => absurd hb hn
  fifo q := by
    refine List.filter_eq_nil_iff.mpr fun a ha => ?_
    simp [ha]

/-- At the end the bucket is the stable sort of the queue. -/
theorem eq_byKey (h : Mending key [] queue ready) : ready = byKey key queue := by
  refine Coop.eq_byKey (h.sorted.imp fun hab => hab List.not_mem_nil) fun q => ?_
  have := h.fifo q
  simpa using this

theorem of_byKey (queue : List TaskId) : Mending key [] queue (byKey key queue) where
  sorted := by
    refine (pairwise_byKey queue).imp ?_
    intro a b hab _
    exact hab
  fifo q := by
    rw [← filter_byKey q queue]
    simp

theorem erase (h : Mending key (x :: rest) queue ready) (hn : ready.Nodup) :
    Mending key rest queue (ready.erase x) := by
  have hx : x ∉ ready.erase x := hn.not_mem_erase
  -- what is left was through before exactly if it is through now
  have hrest : ∀ a ∈ ready.erase x, a ∉ rest → a ∉ x :: rest := by
    intro a ha har
    rw [List.mem_cons, not_or]
    exact ⟨fun e => hx (e ▸ ha), har⟩
  constructor
  · refine (h.sorted.sublist List.erase_sublist).imp_of_mem ?_
    intro a b _ hb hab hbr
    exact hab (hrest b hb hbr)
  · intro q
    rw [← h.fifo q, hn.erase_eq_filter, List.filter_filter]
    refine List.filter_congr fun a _ => ?_
    by_cases hax : a = x <;> simp [hax]

theorem placed (h : Mending key rest queue ready) (hx : x ∉ rest) :
    Mending key rest (queue ++ [x]) (placed key x ready) := by
  set l₁ := ready.takeWhile fun a => key a ≤ key x with hl₁
  set l₂ := ready.dropWhile fun a => key a ≤ key x with hl₂
  have hsplit : l₁ ++ l₂ = ready := List.takeWhile_append_dropWhile
  have hle : ∀ a ∈ l₁, key a ≤ key x := fun a ha => by
    have := List.all_takeWhile (p := fun a => decide (key a ≤ key x)) (l := ready)
    simpa using List.all_eq_true.mp this a ha
  obtain ⟨h₁, h₂, h₁₂⟩ := List.pairwise_append.mp (hsplit ▸ h.sorted)
  -- behind the place of `x` everything that is through has a larger key, as the first there has
  have hgt : ∀ b ∈ l₂, b ∉ rest → key x < key b := by
    intro b hb hbr
    cases hc : l₂ with
    | nil => rw [hc] at hb; cases hb
    | cons c cs =>
      have hxc : key x < key c := by
        have := List.head?_dropWhile_not (fun a => decide (key a ≤ key x)) ready
        rw [← hl₂, hc] at this
        simpa [UInt8.not_le] using this
      rw [hc] at hb h₂
      rcases List.mem_cons.mp hb with rfl | hb
      · exact hxc
      · exact UInt8.lt_of_lt_of_le hxc ((List.pairwise_cons.mp h₂).1 b hb hbr)
  constructor
  · refine List.pairwise_append.mpr ⟨h₁, List.pairwise_cons.mpr ⟨?_, h₂⟩, ?_⟩
    · exact fun b hb hbr => UInt8.le_of_lt (hgt b hb hbr)
    · intro a ha b hb hbr
      rcases List.mem_cons.mp hb with rfl | hb
      · exact hle a ha
      · exact h₁₂ a ha b hb hbr
  · intro q
    have hfifo := h.fifo q
    rw [← hsplit, List.filter_append] at hfifo
    rw [List.filter_append, ← hfifo]
    change (l₁ ++ x :: l₂).filter _ = _
    rw [List.filter_append, List.append_assoc]
    refine congrArg _ ?_
    by_cases hq : key x = q
    · have hnone : l₂.filter (fun a => a ∉ rest ∧ key a = q) = [] := by
        refine List.filter_eq_nil_iff.mpr fun b hb => ?_
        simp only [decide_eq_true_eq, not_and]
        intro hbr hbq
        exact absurd (hgt b hb hbr) (by rw [hq, hbq]; exact UInt8.lt_irrefl _)
      rw [List.filter_cons_of_pos (by simpa using ⟨hx, hq⟩), hnone]
      simp [hq]
    · rw [List.filter_cons_of_neg (by simp [hq])]
      simp [hq]

end Mending

end Order

/-! ## Priorities -/

namespace Task

variable (t : Task)

theorem priority_step : t.step.task.priority = t.priority := by
  unfold step
  split <;> rfl

theorem suspend_step : t.step.task.suspend = t.suspend := by
  unfold step
  split <;> rfl

theorem priority_settled (c : Clock) (h : Handback) : (t.settled c h).priority = t.priority := by
  cases h <;> rfl

theorem priority_dispatched (c : Clock) : (t.dispatched c).priority = t.priority := by
  unfold dispatched
  split_ifs
  · exact (priority_settled _ c _).trans (priority_step _)
  · rfl

theorem priority_turn (c : Clock) : (t.turn c).priority = t.priority := by
  have hi : t.interrupted.priority = t.priority := by
    unfold interrupted
    split_ifs <;> rfl
  have hw : (t.interrupted.woken c).priority = t.interrupted.priority := by
    unfold woken
    split_ifs <;> rfl
  exact (priority_dispatched _ c).trans (hw.trans hi)

theorem priority_launch : t.launch.value.2.priority = t.priority := by
  rw [value_launch]
  repeat' split
  all_goals rfl

theorem priority_apply {a : Task.Action} (h : ∀ p, a ≠ .setPriority p) :
    (a.apply t).priority = t.priority := by
  cases a with
  | compile source =>
    change (t.compile source).value.2.priority = _
    rw [value_compile]
    repeat' split
    all_goals rfl
  | loadImage bytes =>
    change (t.loadImage bytes).2.priority = _
    unfold loadImage
    dsimp only
    split <;> rfl
  | mapImage bytes => rfl
  | setPriority p => exact absurd rfl (h p)
  | interrupt =>
    change t.requestInterrupt.value.2.priority = _
    unfold requestInterrupt
    split <;> rfl
  | suspend =>
    change t.requestSuspend.2.priority = _
    unfold requestSuspend
    split <;> rfl

/-- The task yields when it gets control, and is not parked for it. -/
def yields (t : Task) : Bool := t.step.handback = .yield && !t.suspend

theorem phase_settled_eq_ready_iff (c : Clock) :
    (t.step.task.settled c t.step.handback).phase = .ready ↔ t.yields = true := by
  unfold yields
  cases t.step.handback with
  | yield =>
    cases hs : t.suspend with
    | true => simp [settled, suspend_step, hs]
    | false => simp [settled, suspend_step, hs]
  | sleep | suspend | done | fault => simp [settled]

end Task

namespace Scheduler

variable {s : Scheduler}

/-- The priority of a task; the smallest if there is no such task. -/
def priorityOf (s : Scheduler) (id : TaskId) : UInt8 := ((s.find? id).map Task.priority).getD 0

theorem priorityOf_of_find? {id : TaskId} {t : Task} (h : s.find? id = some t) :
    s.priorityOf id = t.priority := by
  rw [priorityOf, h]
  rfl

theorem priorityOf_of_map {s' : Scheduler} {u : TaskId} {f : Task → Task}
    (h : s'.find? u = (s.find? u).map f) (hf : ∀ t, (f t).priority = t.priority) :
    s'.priorityOf u = s.priorityOf u := by
  rw [priorityOf, h, priorityOf]
  cases s.find? u with
  | none => rfl
  | some t => exact hf t

theorem priorityOf_put {t u : Task} (h : s.find? t.id = some u) (hp : t.priority = u.priority) :
    (s.put t).priorityOf = s.priorityOf := by
  funext id
  by_cases hid : t.id = id
  · subst hid
    rw [priorityOf_of_find? (find?_put_self t h), priorityOf_of_find? h, hp]
  · rw [priorityOf, find?_put_of_ne s t hid, priorityOf]

theorem priorityOf_apply (hs : s.Partitioned) {a : Action} (ha : a.Returns s) {u : TaskId}
    (hu : (s.find? u).isSome = true) (hne : a ≠ .remove u)
    (hset : ∀ p, a ≠ .on u (.setPriority p)) : (a.apply s).priorityOf u = s.priorityOf u := by
  obtain ⟨t, ht⟩ := Option.isSome_iff_exists.mp hu
  rw [priorityOf_of_find? (find?_apply hs ha hne ht), priorityOf_of_find? ht]
  cases a with
  | spawn | remove => rfl
  | launch id =>
    rw [Action.effect, Task.launched]
    split_ifs
    · exact t.priority_launch
    · exact t.priority_launch
    · rfl
  | resume id =>
    rw [Action.effect, Task.resumed]
    split_ifs <;> rfl
  | tick => exact t.priority_turn _
  | on id a =>
    rw [Action.effect]
    split_ifs with hid
    · refine t.priority_apply fun p hp => hset p ?_
      rw [hid, hp]
    · rfl

theorem priorityOf_dispatch (turn : Turn) (id : TaskId) :
    (turn.dispatch id).value.scheduler.priorityOf = turn.scheduler.priorityOf := by
  funext u
  have h := find?_dispatch turn id u
  split_ifs at h
  · exact priorityOf_of_map h fun t => t.priority_dispatched _
  · rw [priorityOf, h, priorityOf]

/-- A task is put into the ready bucket behind the tasks up to the first with a larger priority. -/
theorem enqueue_eq {id : TaskId} {t : Task} (h : s.find? id = some t) (l : List TaskId) :
    s.enqueue t.priority l id = placed s.priorityOf id l := by
  have hrun (o : TaskId) :
      (!s.runsAfter t.priority o) = decide (s.priorityOf o ≤ s.priorityOf id) := by
    rw [priorityOf_of_find? h, runsAfter, priorityOf]
    cases s.find? o with
    | none => simp
    | some u =>
      change (!decide (t.priority < u.priority)) = decide (u.priority ≤ t.priority)
      rw [← decide_not]
      exact decide_eq_decide.mpr UInt8.not_lt
  rw [enqueue, placed]
  simp only [hrun]

/-! ## The ready bucket, move by move -/

theorem not_mem_ready (hs : s.Partitioned) {id : TaskId} {t : Task} (h : s.find? id = some t)
    (hp : t.phase ≠ .ready) : id ∉ s.buckets.ready := by
  intro hm
  have := (hs.mem_bucket_iff id .ready).mp hm
  rw [phase?, h] at this
  exact hp (Option.some.inj this)

theorem ready_unlink (hs : s.Partitioned) {id : TaskId} {t : Task} (h : s.find? id = some t) :
    (s.buckets.unlink t.phase id).ready = s.buckets.ready.erase id := by
  by_cases hp : t.phase = .ready
  · rw [hp]
    rfl
  · rw [List.erase_of_not_mem (not_mem_ready hs h hp)]
    exact Buckets.get_set_of_ne s.buckets (Ne.symm hp) _

theorem ready_moveTo (hs : s.Partitioned) {id : TaskId} {t : Task} (h : s.find? id = some t)
    (p : Phase) : (s.moveTo id p).buckets.ready =
      if p = .ready then placed s.priorityOf id (s.buckets.ready.erase id)
      else s.buckets.ready.erase id := by
  rw [moveTo, h]
  dsimp only
  cases p with
  | ready =>
    rw [if_pos rfl, ← ready_unlink hs h]
    exact enqueue_eq h _
  | dormant | waiting | suspended => exact ready_unlink hs h

theorem ready_put_moveTo (hs : s.Partitioned) {id : TaskId} {t u : Task} (h : s.find? id = some u)
    (hid : t.id = u.id) (hp : t.phase = u.phase) (hprio : t.priority = u.priority) (p : Phase) :
    ((s.put t).moveTo id p).buckets.ready =
      if p = .ready then placed s.priorityOf id (s.buckets.ready.erase id)
      else s.buckets.ready.erase id := by
  obtain rfl := id_of_find? h
  have hfind : s.find? t.id = some u := hid ▸ h
  rw [← hid, ready_moveTo (hs.put h hid hp) (find?_put_self t hfind), priorityOf_put hfind hprio]
  rfl

/-- Whatever a task handed back, it is replaced within its phase and then moved to the new one. -/
theorem ready_settle (hs : s.Partitioned) {t u : Task} (h : s.find? t.id = some u)
    (hp : t.phase = u.phase) (hprio : t.priority = u.priority) (hb : Handback) :
    (s.settle t hb).value.buckets.ready =
      if (t.settled s.clock hb).phase = .ready
      then placed s.priorityOf t.id (s.buckets.ready.erase t.id)
      else s.buckets.ready.erase t.id := by
  have hid : t.id = u.id := (id_of_find? h).symm
  cases hb with
  | yield | sleep | suspend | done | fault =>
    change ((s.put _).moveTo _ _).buckets.ready = _
    refine ready_put_moveTo hs h ?_ ?_ ?_ _
    · exact hid
    · exact hp
    · exact hprio

theorem id_of_given? {turn : Turn} {id : TaskId} {t : Task} (h : turn.given? id = some t) :
    t.id = id := by
  obtain ⟨u, hu, -, rfl⟩ := Turn.given?_eq_some_iff.mp h
  have hid : u.id = id := id_of_find? hu
  exact hid

theorem ready_dispatch {turn : Turn} (hs : turn.scheduler.Partitioned) {id : TaskId} {t : Task}
    (h : turn.given? id = some t) : (turn.dispatch id).value.scheduler.buckets.ready =
      if t.yields then placed turn.scheduler.priorityOf id (turn.scheduler.buckets.ready.erase id)
      else turn.scheduler.buckets.ready.erase id := by
  rw [Turn.value_dispatch_of_given h]
  obtain ⟨u, hu, -, ht⟩ := Turn.given?_eq_some_iff.mp h
  have hid : t.step.task.id = id := t.id_step.trans (id_of_given? h)
  have hphase : t.step.task.phase = u.phase := by rw [Task.phase_step, ht]
  have hprio : t.step.task.priority = u.priority := by rw [Task.priority_step, ht]
  have hready := ready_settle hs (hid ▸ hu) hphase hprio t.step.handback
  simp only [t.phase_settled_eq_ready_iff, hid] at hready
  exact hready

/-! ## The ready bucket after a turn -/

/-- The tasks of a list, put in anew one by one, are in order at the end. -/
theorem mending_foldl {ids queue : List TaskId} (hn : ids.Nodup) (turn : Turn)
    (hs : turn.scheduler.Partitioned)
    (h : Mending turn.scheduler.priorityOf ids queue turn.scheduler.buckets.ready) :
    Mending turn.scheduler.priorityOf []
      (queue ++ ((turn.given ids).filter Task.yields).map Task.id)
      (ids.foldl (fun turn id => (turn.dispatch id).value) turn).scheduler.buckets.ready := by
  induction ids generalizing turn queue with
  | nil => simpa [Turn.given] using h
  | cons id ids ih =>
    obtain ⟨hid, hn⟩ := List.nodup_cons.mp hn
    have herase := h.erase (hs.nodup_bucket .ready)
    have hdone := hs.dispatch id
    rw [List.foldl_cons, Turn.given, ← priorityOf_dispatch turn id]
    rw [← priorityOf_dispatch turn id] at herase
    cases hg : turn.given? id with
    | none =>
      have hmem : id ∉ turn.scheduler.buckets.ready := by
        intro hm
        obtain ⟨t, ht, hp⟩ :=
          (phase?_eq_some_iff _ _ _).mp ((hs.mem_bucket_iff id .ready).mp hm)
        rw [Turn.given?_eq_some_iff.mpr ⟨t, ht, hp, rfl⟩] at hg
        cases hg
      rw [List.erase_of_not_mem hmem] at herase
      refine ih hn _ hdone ?_
      rwa [Turn.value_dispatch_of_none hg] at herase ⊢
    | some t =>
      have htid : t.id = id := id_of_given? hg
      have hready := ready_dispatch hs hg
      rw [← priorityOf_dispatch turn id] at hready
      by_cases hy : t.yields = true
      · rw [if_pos hy] at hready
        have hnext := ih hn _ hdone (hready ▸ herase.placed hid)
        rw [← htid] at hnext
        simpa [hy, ← htid] using hnext
      · rw [if_neg hy] at hready
        have hnext := ih hn _ hdone (hready ▸ herase)
        simpa [hy] using hnext

/-- The tasks that yield during a turn and are not parked, in the order they get control. -/
def yielded (s : Scheduler) : List TaskId := (s.dispatches.filter Task.yields).map Task.id

/-- **A turn restores the order**, whatever the order was before. -/
theorem ready_runTick (hs : s.Partitioned) : s.runTick.value.scheduler.buckets.ready =
    byKey s.runTick.value.scheduler.priorityOf s.yielded := by
  have hr := hs.roundStart
  have hprio : s.runTick.value.scheduler.priorityOf = s.roundStart.priorityOf := by
    funext u
    rw [value_runTick]
    exact priorityOf_of_map (find?_dispatchReady hr u) fun t => t.priority_dispatched _
  have hmend := mending_foldl (hr.nodup_bucket .ready) ⟨s.roundStart, "", 0⟩ hr (.start _)
  rw [hprio, value_runTick, value_dispatchReady]
  exact hmend.eq_byKey

/-! ## The ready bucket after a call -/

theorem fst_launch {id : TaskId} {t : Task} (h : s.find? id = some t) :
    (s.launch id).value.1 = t.launch.value.1 := by
  unfold launch
  simp only [h, Logged.value_bind]
  cases t.launch.value.1 <;> rfl

theorem isSome_of_launch {id : TaskId} (h : (s.launch id).value.1 = true) :
    (s.find? id).isSome = true := by
  cases hf : s.find? id with
  | none =>
    unfold launch at h
    rw [hf] at h
    cases h
  | some t => rfl

theorem isSome_of_resume {id : TaskId} (h : (s.resume id).1 = true) :
    (s.find? id).isSome = true := by
  cases hf : s.find? id with
  | none =>
    rw [resume, phase?, hf] at h
    cases h
  | some t => rfl

theorem ready_launch (hs : s.Partitioned) {id : TaskId} (h : (s.launch id).value.1 = true) :
    (s.launch id).value.2.buckets.ready = placed s.priorityOf id s.buckets.ready := by
  obtain ⟨t, hf⟩ := Option.isSome_iff_exists.mp (isSome_of_launch h)
  rw [fst_launch hf] at h
  have hp : t.phase = .dormant := by
    by_contra hp
    rw [Task.value_launch, if_neg hp] at h
    cases h
  have hmem := not_mem_ready hs hf (by rw [hp]; exact Phase.noConfusion)
  rw [value_launch s hf, if_pos h,
    ready_put_moveTo hs hf t.id_launch t.phase_launch t.priority_launch, if_pos rfl,
    List.erase_of_not_mem hmem]

theorem ready_launch_of_refused {id : TaskId} (h : (s.launch id).value.1 = false) :
    (s.launch id).value.2.buckets.ready = s.buckets.ready := by
  cases hf : s.find? id with
  | none =>
    unfold launch
    rw [hf]
    rfl
  | some t =>
    rw [fst_launch hf] at h
    rw [value_launch s hf, h]
    rfl

theorem ready_resume (hs : s.Partitioned) {id : TaskId} (h : (s.resume id).1 = true) :
    (s.resume id).2.buckets.ready = placed s.priorityOf id s.buckets.ready := by
  unfold resume at h ⊢
  by_cases hp : s.phase? id = some .suspended
  · obtain ⟨t, ht, htp⟩ := (phase?_eq_some_iff _ _ _).mp hp
    have hmem := not_mem_ready hs ht (by rw [htp]; exact Phase.noConfusion)
    rw [if_pos hp, ready_moveTo hs ht, if_pos rfl, List.erase_of_not_mem hmem]
  · rw [if_neg hp] at h
    cases h

theorem ready_resume_of_refused {id : TaskId} (h : (s.resume id).1 = false) :
    (s.resume id).2.buckets.ready = s.buckets.ready := by
  unfold resume at h ⊢
  split_ifs at h ⊢
  rfl

theorem ready_remove (hs : s.Partitioned) (id : TaskId) :
    (s.remove id).value.buckets.ready = s.buckets.ready.erase id := by
  unfold remove
  cases h : s.find? id with
  | none =>
    refine (List.erase_of_not_mem fun hm => ?_).symm
    have := hs.find?_isSome_of_mem (p := .ready) hm
    rw [h] at this
    cases this
  | some t => exact ready_unlink hs h

/-! ## The order at every moment -/

/-- What a history says about the ready bucket: the ready tasks in the order of their arrival, and
whether the priority of a ready task was set since the last turn. -/
structure Arrivals where
  queue : List TaskId
  changed : Bool

/-- What a call adds to the record. A task arrives when it is launched, when it is resumed, and
anew with every turn it yields in. -/
def Action.note (s : Scheduler) (r : Arrivals) : Action → Arrivals
  | .spawn _ _ _ => r
  | .remove id => { r with queue := r.queue.erase id }
  | .launch id => if (s.launch id).value.1 then { r with queue := r.queue ++ [id] } else r
  | .resume id => if (s.resume id).1 then { r with queue := r.queue ++ [id] } else r
  | .tick => ⟨s.yielded, false⟩
  | .on id (.setPriority _) => { r with changed := r.changed || s.phase? id = some .ready }
  | .on _ _ => r

/-- The record after a history of calls. -/
def arrivals : Scheduler → Arrivals → List Action → Arrivals
  | _, r, [] => r
  | s, r, a :: as => arrivals (a.apply s) (a.note s r) as

/-- The ready bucket is the stable sort of the queue by the priorities of the moment. -/
def InOrder (s : Scheduler) (queue : List TaskId) : Prop :=
  s.buckets.ready = byKey s.priorityOf queue

namespace InOrder

variable {queue : List TaskId}

theorem nodup (h : s.InOrder queue) (hs : s.Partitioned) : queue.Nodup := by
  have hready : s.buckets.ready.Perm queue := h ▸ byKey_perm queue
  exact hready.nodup_iff.mp (hs.nodup_bucket .ready)

theorem mem_iff (h : s.InOrder queue) (id : TaskId) : id ∈ s.buckets.ready ↔ id ∈ queue := by
  rw [h]
  exact (byKey_perm queue).mem_iff

theorem append (h : s.InOrder queue) {s' : Scheduler} {id : TaskId}
    (hready : s'.buckets.ready = placed s.priorityOf id s.buckets.ready)
    (hprio : ∀ u ∈ queue ++ [id], s'.priorityOf u = s.priorityOf u) :
    s'.InOrder (queue ++ [id]) := by
  have hmend : Mending s.priorityOf [] queue s.buckets.ready := h ▸ Mending.of_byKey queue
  rw [InOrder, hready, (hmend.placed List.not_mem_nil).eq_byKey]
  exact byKey_congr fun u hu => (hprio u hu).symm

theorem erase (h : s.InOrder queue) (hs : s.Partitioned) {s' : Scheduler} {id : TaskId}
    (hready : s'.buckets.ready = s.buckets.ready.erase id)
    (hprio : ∀ u ∈ queue.erase id, s'.priorityOf u = s.priorityOf u) :
    s'.InOrder (queue.erase id) := by
  rw [InOrder, hready, h, byKey_erase (h.nodup hs)]
  exact byKey_congr fun u hu => (hprio u hu).symm

theorem keep (h : s.InOrder queue) {s' : Scheduler} (hready : s'.buckets.ready = s.buckets.ready)
    (hprio : ∀ u ∈ queue, s'.priorityOf u = s.priorityOf u) : s'.InOrder queue := by
  rw [InOrder, hready, h]
  exact byKey_congr fun u hu => (hprio u hu).symm

end InOrder

/-- **One call keeps the order**, unless it sets the priority of a ready task; and a turn restores
it. -/
theorem inOrder_note (hs : s.Partitioned) {a : Action} (ha : a.Returns s) {r : Arrivals}
    (h : r.changed = false → s.InOrder r.queue) (hc : (a.note s r).changed = false) :
    (a.apply s).InOrder (a.note s r).queue := by
  have hlive (hr : s.InOrder r.queue) : ∀ u ∈ r.queue, (s.find? u).isSome = true :=
    fun u hu => hs.find?_isSome_of_mem (p := .ready) ((hr.mem_iff u).mpr hu)
  have hprio {u : TaskId} (hu : (s.find? u).isSome = true) (hne : a ≠ .remove u)
      (hset : ∀ p, a ≠ .on u (.setPriority p)) := priorityOf_apply hs ha hu hne hset
  cases a with
  | spawn name heapSize priority =>
    have hr := h hc
    exact hr.keep rfl fun u hu => hprio (hlive hr u hu) nofun nofun
  | remove id =>
    have hr := h hc
    refine hr.erase hs (ready_remove hs id) fun u hu => ?_
    refine hprio (hlive hr u (List.mem_of_mem_erase hu)) (fun e => ?_) nofun
    cases e
    exact (hr.nodup hs).not_mem_erase hu
  | launch id =>
    by_cases hl : (s.launch id).value.1 = true
    · rw [Action.note, if_pos hl] at hc ⊢
      have hr := h hc
      refine hr.append (ready_launch hs hl) fun u hu => ?_
      rcases List.mem_append.mp hu with hu | hu
      · exact hprio (hlive hr u hu) nofun nofun
      · rw [List.mem_singleton.mp hu]
        exact hprio (isSome_of_launch hl) nofun nofun
    · rw [Action.note, if_neg hl] at hc ⊢
      have hr := h hc
      exact hr.keep (ready_launch_of_refused (Bool.eq_false_iff.mpr hl)) fun u hu =>
        hprio (hlive hr u hu) nofun nofun
  | resume id =>
    by_cases hl : (s.resume id).1 = true
    · rw [Action.note, if_pos hl] at hc ⊢
      have hr := h hc
      refine hr.append (ready_resume hs hl) fun u hu => ?_
      rcases List.mem_append.mp hu with hu | hu
      · exact hprio (hlive hr u hu) nofun nofun
      · rw [List.mem_singleton.mp hu]
        exact hprio (isSome_of_resume hl) nofun nofun
    · rw [Action.note, if_neg hl] at hc ⊢
      have hr := h hc
      exact hr.keep (ready_resume_of_refused (Bool.eq_false_iff.mpr hl)) fun u hu =>
        hprio (hlive hr u hu) nofun nofun
  | tick => exact ready_runTick hs
  | on id a =>
    have hready : (s.modify id a.apply).buckets.ready = s.buckets.ready := by
      unfold modify
      cases s.find? id <;> rfl
    cases a with
    | setPriority p =>
      obtain ⟨hc, hp⟩ : r.changed = false ∧ s.phase? id ≠ some .ready := by
        simpa [Action.note] using hc
      have hr := h hc
      refine hr.keep hready fun u hu => hprio (hlive hr u hu) nofun fun q e => ?_
      cases e
      exact hp ((hs.mem_bucket_iff _ .ready).mp ((hr.mem_iff _).mpr hu))
    | compile | loadImage | mapImage | interrupt | suspend =>
      have hr := h hc
      exact hr.keep hready fun u hu => hprio (hlive hr u hu) nofun nofun

/-- A whole history keeps the order. -/
theorem inOrder_arrivals (as : List Action) (hs : s.Partitioned) (ha : s.Returning as)
    {r : Arrivals} (h : r.changed = false → s.InOrder r.queue) :
    (s.arrivals r as).changed = false → (s.run as).InOrder (s.arrivals r as).queue := by
  induction as generalizing s r with
  | nil => exact h
  | cons a as ih => exact ih (hs.apply ha.1) ha.2 (inOrder_note hs ha.1 h)

/-- **The ready order.** After a turn in any reachable state, the ready bucket is the stable sort,
by the priorities of the moment, of the tasks that yielded during the turn and were not parked, in
the order they got control. If the bucket is in order, a task that is launched or resumed comes in
behind every ready task whose priority is not larger and before the rest. So along every history the
bucket is the stable sort of the ready tasks in the order of their arrival, by the priorities of the
moment, except between a call that sets the priority of a ready task and the end of the next turn.
-/
theorem ready_order (h : Reachable s) :
    s.runTick.value.scheduler.buckets.ready =
      byKey s.runTick.value.scheduler.priorityOf s.yielded ∧
    (s.buckets.ready.Pairwise (fun a b => s.priorityOf a ≤ s.priorityOf b) → ∀ id,
      ((s.launch id).value.1 = true → (s.launch id).value.2.buckets.ready =
        s.buckets.ready.filter (fun a => s.priorityOf a ≤ s.priorityOf id) ++
          id :: s.buckets.ready.filter (fun a => s.priorityOf id < s.priorityOf a)) ∧
      ((s.resume id).1 = true → (s.resume id).2.buckets.ready =
        s.buckets.ready.filter (fun a => s.priorityOf a ≤ s.priorityOf id) ++
          id :: s.buckets.ready.filter (fun a => s.priorityOf id < s.priorityOf a))) ∧
    ∀ tickMs timeslice as, (new tickMs timeslice).Returning as →
      (new tickMs timeslice).run as = s →
      ((new tickMs timeslice).arrivals ⟨[], false⟩ as).changed = false →
      s.buckets.ready =
        byKey s.priorityOf ((new tickMs timeslice).arrivals ⟨[], false⟩ as).queue ∧
      s.buckets.ready.Pairwise fun a b => s.priorityOf a ≤ s.priorityOf b := by
  have hs := h.partitioned
  refine ⟨ready_runTick hs, fun hsorted id => ⟨fun hl => ?_, fun hl => ?_⟩, ?_⟩
  · rw [ready_launch hs hl, placed_eq hsorted]
  · rw [ready_resume hs hl, placed_eq hsorted]
  · rintro tickMs timeslice as ha rfl hc
    have horder := inOrder_arrivals as (.new tickMs timeslice) ha
      (fun _ => (by simp [InOrder, byKey, new, Buckets.empty])) hc
    refine ⟨horder, ?_⟩
    rw [horder]
    exact pairwise_byKey _

/-- Three tasks of one priority are ready when the first is set behind the others: it stays in front
until the next turn is over. A fourth task comes in between then. -/
theorem ready_order_four : ∃ s : Scheduler, Reachable s ∧ s.buckets.ready = [⟨1⟩, ⟨2⟩, ⟨3⟩] ∧
    s.buckets.ready.map s.priorityOf = [9, 0, 0] ∧
    s.runTick.value.scheduler.buckets.ready = [⟨2⟩, ⟨3⟩, ⟨1⟩] ∧
    s.runTick.value.scheduler.buckets.ready =
      byKey s.runTick.value.scheduler.priorityOf [⟨1⟩, ⟨2⟩, ⟨3⟩] ∧
    ∃ s' : Scheduler, Reachable s' ∧ s'.buckets.ready = [⟨2⟩, ⟨3⟩, ⟨4⟩, ⟨1⟩] ∧
      s'.buckets.ready = byKey s'.priorityOf [⟨1⟩, ⟨2⟩, ⟨3⟩, ⟨4⟩] := by
  let image := Image.build (Instr.pass.encode ++ Instr.pass.encode)
  let as : List Action := [.spawn none 64 0, .on ⟨1⟩ (.mapImage image), .launch ⟨1⟩,
    .spawn none 64 0, .on ⟨2⟩ (.mapImage image), .launch ⟨2⟩, .spawn none 64 0,
    .on ⟨3⟩ (.mapImage image), .launch ⟨3⟩, .on ⟨1⟩ (.setPriority 9)]
  let bs : List Action := as ++ [.tick, .spawn none 64 0, .on ⟨4⟩ (.mapImage image), .launch ⟨4⟩]
  have h := Reachable.run (.new 10 1) as (by decide +kernel)
  have h' := Reachable.run (.new 10 1) bs (by decide +kernel)
  have hqueue : ((new 10 1).arrivals ⟨[], false⟩ bs).queue = [⟨1⟩, ⟨2⟩, ⟨3⟩, ⟨4⟩] := by
    decide +kernel
  obtain ⟨horder, -, -⟩ := ready_order h
  obtain ⟨-, -, hall⟩ := ready_order h'
  refine ⟨_, h, by decide +kernel, by decide +kernel, by decide +kernel, ?_, _,
    h', by decide +kernel, ?_⟩
  · rw [horder]
    refine congrArg _ ?_
    decide +kernel
  · rw [← hqueue]
    exact (hall 10 1 bs (by decide +kernel) rfl (by decide +kernel)).1

end Scheduler

end Coop
