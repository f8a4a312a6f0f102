import Coop.Wait
import Mathlib.Tactic.SplitIfs

/-!
# The books of a host

A host keeps books of everything that is done to it: each act changes a few of its fields, and the
others stay what they are.

* `Receiver.readings`, `Receiver.after`: what a number of looks at the console bring;
* `Batch`, **`Drain.run_counts`**: a batch of events, event by event;
* `Host.Handed`: events handed over, batch by batch;
* `Host.seesInterrupt_eq`, `Host.handed_pump`, `Host.disableWatchdog_eq`: what one act does.
-/

namespace Coop

variable {ι C : Type}

/-! ## Looks at the console -/

namespace Receiver

variable [Receiver ι]

/-- What a number of looks bring, in order. -/
def readings : Nat → ι → List Reading
  | 0, _ => []
  | n + 1, i => (look i).1.2 :: readings n (look i).2

/-- The receiving side after a number of looks. -/
def after : Nat → ι → ι
  | 0, i => i
  | n + 1, i => after n (look i).2

theorem after_succ (n : Nat) (i : ι) : after (n + 1) i = (look (after n i)).2 := by
  induction n generalizing i with
  | zero => rfl
  | succ n ih => exact ih (look i).2

theorem readings_succ (n : Nat) (i : ι) :
    readings (n + 1) i = readings n i ++ [(look (after n i)).1.2] := by
  induction n generalizing i with
  | zero => rfl
  | succ n ih =>
    rw [readings, ih, readings, List.cons_append]
    rfl

theorem mem_readings_iff (n : Nat) (i : ι) (r : Reading) :
    r ∈ readings n i ↔ ∃ j < n, (look (after j i)).1.2 = r := by
  induction n with
  | zero => simp [readings]
  | succ n ih =>
    rw [readings_succ, List.mem_append, List.mem_singleton, ih]
    constructor
    · rintro (⟨j, hj, rfl⟩ | rfl)
      · exact ⟨j, Nat.lt_succ_of_lt hj, rfl⟩
      · exact ⟨n, Nat.lt_succ_self n, rfl⟩
    · rintro ⟨j, hj, rfl⟩
      rcases Nat.lt_succ_iff_lt_or_eq.mp hj with hj | rfl
      · exact .inl ⟨j, hj, rfl⟩
      · exact .inr rfl

end Receiver

/-! ## Batches of events -/

/-- A batch of events: the handler calls made, and how many events found no handler. -/
structure Batch (C : Type) where
  calls : List (Delivery C)
  discarded : Nat

/-- How many events a batch had. -/
def Batch.size (b : Batch C) : Nat := b.calls.length + b.discarded

/-- How many events of some batches found no handler. -/
def Batch.lost : List (Batch C) → Nat
  | [] => 0
  | b :: bs => b.discarded + lost bs

theorem Batch.lost_append (bs bs' : List (Batch C)) : lost (bs ++ bs') = lost bs + lost bs' := by
  induction bs with
  | nil => exact (Nat.zero_add _).symm
  | cons b bs ih => rw [List.cons_append, lost, ih, lost, Nat.add_assoc]

theorem Drain.deliver_counts (d : Drain C) (id : IrqId) (kind : EventKind) :
    (∃ call, (d.deliver id kind).deliveries = d.deliveries.push call ∧
      (d.deliver id kind).hub.discarded = d.hub.discarded) ∨
    ((d.deliver id kind).deliveries = d.deliveries ∧
      (d.deliver id kind).hub.discarded = d.hub.discarded + 1) := by
  unfold deliver
  cases d.hub.find? id with
  | none => exact .inr ⟨rfl, rfl⟩
  | some r =>
    dsimp only
    cases r.enabled with
    | false => exact .inr ⟨rfl, rfl⟩
    | true =>
      refine .inl ⟨_, rfl, ?_⟩
      simp only [if_true]
      cases ((r.handler ⟨id, r.source, kind⟩ r.capture).perform d.lines).failure <;> rfl

theorem Hub.discarded_pollFrom (n : Nat) (h : Hub C) (lines : Lines) :
    (pollFrom n h lines).2.1.discarded = h.discarded := by
  induction n generalizing h with
  | zero => rfl
  | succ n ih =>
    unfold pollFrom
    dsimp only
    split
    · rfl
    · split
      · exact ih _
      · rfl

/-- **A batch has at most as many events as were asked for.** -/
theorem Drain.run_counts (max : Nat) (d : Drain C) : ∃ b : Batch C, b.size ≤ max ∧
    (Drain.run max d).deliveries = d.deliveries ++ b.calls.toArray ∧
    (Drain.run max d).hub.discarded = d.hub.discarded + .ofNat b.discarded := by
  induction max generalizing d with
  | zero => exact ⟨⟨[], 0⟩, Nat.le_refl 0, by simp [Drain.run], (UInt32.add_zero _).symm⟩
  | succ max ih =>
    have hpoll := Hub.discarded_pollFrom d.hub.backends.length d.hub d.lines
    unfold Drain.run Hub.poll
    split
    · rename_i hub lines hfound
      rw [hfound] at hpoll
      exact ⟨⟨[], 0⟩, Nat.zero_le _, by simp, hpoll.trans (UInt32.add_zero _).symm⟩
    · rename_i id kind hub lines hfound
      rw [hfound] at hpoll
      dsimp only at hpoll
      obtain ⟨b, hsize, hcalls, hdiscarded⟩ :=
        ih ({ d with hub := hub, lines := lines }.deliver id kind)
      unfold Batch.size at hsize
      rcases deliver_counts { d with hub := hub, lines := lines } id kind with
        ⟨call, hpush, hsame⟩ | ⟨hsame, hone⟩
      · refine ⟨⟨call :: b.calls, b.discarded⟩, ?_, ?_, ?_⟩
        · simp only [Batch.size, List.length_cons]
          omega
        · rw [hcalls, hpush]
          simp
        · rw [hdiscarded, hsame, hpoll]
      · refine ⟨⟨b.calls, b.discarded + 1⟩, ?_, ?_, ?_⟩
        · simp only [Batch.size]
          omega
        · rw [hcalls, hsame]
        · rw [hdiscarded, hone, hpoll, UInt32.add_assoc, Nat.add_comm, UInt32.ofNat_add]
          rfl

namespace Host

/-- Between two states of a host, `n` batches of at most `max` events were handed over. The count of
discarded events has 32 bits and wraps around. -/
def Handed (max n : Nat) (h h' : Host ι C) : Prop :=
  ∃ bs : List (Batch C), bs.length = n ∧ (∀ b ∈ bs, b.size ≤ max) ∧
    h'.batches = h.batches + n ∧
    h'.deliveries = h.deliveries ++ (bs.flatMap Batch.calls).toArray ∧
    h'.events.map Hub.discarded = h.events.map fun hub => hub.discarded + .ofNat (Batch.lost bs)

theorem Handed.refl (max : Nat) (h : Host ι C) : Handed max 0 h h := by
  refine ⟨[], rfl, nofun, rfl, by simp, ?_⟩
  exact congrArg (Option.map · h.events) (funext fun hub => (UInt32.add_zero _).symm)

theorem Handed.trans {max m n : Nat} {h h' h'' : Host ι C} (hm : Handed max m h h')
    (hn : Handed max n h' h'') : Handed max (m + n) h h'' := by
  obtain ⟨bs, hlen, hsize, hcount, hcalls, hlost⟩ := hm
  obtain ⟨bs', hlen', hsize', hcount', hcalls', hlost'⟩ := hn
  refine ⟨bs ++ bs', ?_, ?_, ?_, ?_, ?_⟩
  · rw [List.length_append, hlen, hlen']
  · intro b hb
    exact (List.mem_append.mp hb).elim (hsize b) (hsize' b)
  · rw [hcount', hcount, Nat.add_assoc]
  · rw [hcalls', hcalls]
    simp
  · have hmap : h'.events.map (fun hub => hub.discarded + .ofNat (Batch.lost bs')) =
        (h'.events.map Hub.discarded).map (· + .ofNat (Batch.lost bs')) := by
      rw [Option.map_map]
      rfl
    rw [hlost', hmap, hlost, Option.map_map, Batch.lost_append, UInt32.ofNat_add]
    refine congrArg (Option.map · h.events) (funext fun hub => ?_)
    exact UInt32.add_assoc _ _ _

/-! ## Acts on a host -/

theorem read_eq [Receiver ι] (h : Host ι C) : ∃ lines, h.read =
    ((Receiver.look h.input).1.2,
      { h with input := (Receiver.look h.input).2, reads := h.reads + 1, lines := lines }) := by
  have hfire : ∀ (fired : List Signal) (h : Host ι C),
      ∃ lines, fired.foldl fire h = { h with lines := lines } := by
    intro fired
    induction fired with
    | nil => exact fun h => ⟨h.lines, rfl⟩
    | cons s fired ih => exact fun h => ih (h.fire s)
  obtain ⟨lines, hlines⟩ := hfire (Receiver.look h.input).1.1
    { h with input := (Receiver.look h.input).2, reads := h.reads + 1 }
  exact ⟨lines, congrArg _ hlines⟩

theorem seesInterrupt_eq [Receiver ι] (signal : Bool) (h : Host ι C) : ∃ lines journal,
    h.seesInterrupt signal =
      (signal && decide ((Receiver.look h.input).1.2 = .byte ctrlC),
        { h with
          input := Receiver.after (if signal then 1 else 0) h.input
          reads := h.reads + if signal then 1 else 0
          lines := lines
          journal := journal }) := by
  cases signal with
  | false => exact ⟨h.lines, h.journal, rfl⟩
  | true =>
    obtain ⟨lines, hread⟩ := h.read_eq
    rw [seesInterrupt, if_pos rfl, hread]
    cases (Receiver.look h.input).1.2 with
    | byte b =>
      refine ⟨lines, h.journal, Prod.ext ?_ rfl⟩
      simp only [Bool.true_and, Reading.byte.injEq]
      rfl
    | nothing => exact ⟨lines, h.journal, rfl⟩
    | failed detail => exact ⟨lines, _, rfl⟩

/-- A batch is handed over if there is a hub, and nothing else happens. -/
theorem handed_pump (max : Nat) (h : Host ι C) :
    Handed max (if h.events.isSome then 1 else 0) h (h.pump max).2 ∧
    ∃ events lines batches deliveries journal, (h.pump max).2 = { h with
      events := events
      lines := lines
      batches := batches
      deliveries := deliveries
      journal := journal } := by
  unfold pump
  cases he : h.events with
  | none => exact ⟨.refl max h, _, _, _, _, _, rfl⟩
  | some hub =>
    obtain ⟨b, hsize, hcalls, hdiscarded⟩ := Drain.run_counts max ⟨hub, h.lines, #[], #[]⟩
    refine ⟨⟨[b], rfl, by simpa using hsize, rfl, ?_, ?_⟩, _, _, _, _, _, rfl⟩
    · have hprocess : (hub.process h.lines max).value.deliveries = b.calls := by
        change (Drain.run max ⟨hub, h.lines, #[], #[]⟩).deliveries.toList = b.calls
        rw [hcalls]
        simp
      change h.deliveries ++ (hub.process h.lines max).value.deliveries.toArray = _
      rw [hprocess]
      simp
    · rw [he]
      exact congrArg some hdiscarded

theorem Handed.isSome {max n : Nat} {h h' : Host ι C} (hh : Handed max n h h') :
    h'.events.isSome = h.events.isSome := by
  obtain ⟨bs, -, -, -, -, hlost⟩ := hh
  rw [← Option.isSome_map, hlost, Option.isSome_map]

theorem disableWatchdog_eq (h : Host ι C) : ∃ journal, h.disableWatchdog.2 = { h with
    watchdog := h.watchdog.map fun d => { d with attempts := d.attempts + 1 }
    journal := journal } := by
  unfold disableWatchdog
  cases hw : h.watchdog with
  | none =>
    refine ⟨(h.note .info "no watchdog to disable").journal, ?_⟩
    rw [Option.map_none, note, hw]
  | some d =>
    dsimp only
    split_ifs
    · exact ⟨_, rfl⟩
    · exact ⟨_, rfl⟩

end Host

end Coop
