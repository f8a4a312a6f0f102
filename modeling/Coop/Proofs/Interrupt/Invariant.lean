import Coop.Proofs.Interrupt.Lines
import Coop.Proofs.Interrupt.Trace
import Coop.Proofs.Interrupt.Wiring

/-!
# The wiring in an orderly run

As long as every peripheral is attached once, on a line of its own, and no backend runs out of
numbers, the wiring of a station and the trace behind it agree.

* `Trace.Orderly`: such runs;
* `Ports`, `Numbers`, `Arms`, `Queues`: the parts of the agreement, about the attached peripherals,
  the numbers drawn, the armed channels and the queued events;
* **`Wired`**: all of it, with one lemma for every kind of elementary change;
* `Wired.step`, **`Wired.chain`**: any change, and any number of changes.
-/

namespace Coop

open Trace Wiring

/-- How many numbers a backend can draw before it comes back to the first. -/
def numberLimit : Nat := 0xffff

/-- The peripheral that was attached, and its line. -/
def Incident.attachment? : Incident → Option (Peripheral × LineId)
  | attached kind line => some (kind, line)
  | _ => none

/-- Every peripheral is attached at most once, on a line of its own that is there, and no backend
runs out of numbers. -/
structure Trace.Orderly (n : Nat) (tr : Trace) : Prop where
  apart : (tr.filterMap Incident.attachment?).Pairwise fun x y => x.1 ≠ y.1 ∧ x.2 ≠ y.2
  inRange : ∀ x ∈ tr.filterMap Incident.attachment?, x.2 < n
  drawn : ∀ kind, Trace.drawn kind tr ≤ numberLimit

/-- The attached peripherals and their lines. -/
def Wiring.wires (w : Wiring) : List (Peripheral × LineId) := w.ports.map fun p => (p.kind, p.line)

namespace Trace

variable {tr : Trace} {x : Incident}

theorem sent_snoc (line : LineId) (tr : Trace) (x : Incident) :
    sent line (tr ++ [x]) = sent line tr ++ (x.sent? line).toList := by
  unfold sent
  rw [List.filterMap_append]
  cases h : x.sent? line <;> simp [h]

theorem taken_snoc (kind : Peripheral) (tr : Trace) (x : Incident) :
    taken kind (tr ++ [x]) = taken kind tr ++ (x.taken? kind).toList := by
  unfold taken
  rw [List.filterMap_append]
  cases h : x.taken? kind <;> simp [h]

theorem drawn_snoc (kind : Peripheral) (tr : Trace) (x : Incident) :
    drawn kind (tr ++ [x]) = drawn kind tr + if x.draws kind then 1 else 0 := by
  unfold drawn
  rw [List.countP_append, List.countP_singleton]

theorem sent_snoc_of_none {line : LineId} (h : x.sent? line = none) :
    sent line (tr ++ [x]) = sent line tr := by
  rw [sent_snoc, h, Option.toList_none, List.append_nil]

theorem taken_snoc_of_none {kind : Peripheral} (h : x.taken? kind = none) :
    taken kind (tr ++ [x]) = taken kind tr := by
  rw [taken_snoc, h, Option.toList_none, List.append_nil]

theorem Orderly.front {n : Nat} {rest : Trace} (h : Orderly n (tr ++ rest)) : Orderly n tr where
  apart := by
    have := h.apart
    rw [List.filterMap_append] at this
    exact (List.pairwise_append.mp this).1
  inRange x hx := by
    refine h.inRange x ?_
    rw [List.filterMap_append]
    exact List.mem_append_left _ hx
  drawn kind := by
    have := h.drawn kind
    unfold Trace.drawn at this ⊢
    rw [List.countP_append] at this
    omega

/-- A number that is drawn in an orderly trace was left to draw. -/
theorem Orderly.drawn_lt {n : Nat} {kind : Peripheral} (h : Orderly n (tr ++ [x]))
    (hx : x.draws kind = true) : Trace.drawn kind tr < numberLimit := by
  have := h.drawn kind
  rwa [drawn_snoc, if_pos hx] at this

theorem mem_attachments {kind : Peripheral} {line : LineId} (h : .attached kind line ∈ tr) :
    (kind, line) ∈ tr.filterMap Incident.attachment? :=
  List.mem_filterMap.mpr ⟨_, h, rfl⟩

theorem Orderly.allowed {n : Nat} {kind : Peripheral} {line : LineId}
    (h : Orderly n (tr ++ [.attached kind line])) : Allowed tr (.attached kind line) := by
  have hearlier {kind' : Peripheral} {line' : LineId} (hm : .attached kind' line' ∈ tr) :
      kind' ≠ kind ∧ line' ≠ line := by
    have hpair := h.apart
    rw [List.filterMap_append] at hpair
    exact (List.pairwise_append.mp hpair).2.2 _ (mem_attachments hm) (kind, line)
      (List.mem_singleton_self _)
  exact ⟨fun l hl => (hearlier hl).1 rfl, fun k hk => (hearlier hk).2 rfl⟩

end Trace

/-! ## The parts of the agreement -/

/-- What is attached was attached in the trace. -/
structure Ports (n : Nat) (tr : Trace) (wires : List (Peripheral × LineId)) : Prop where
  attached : ∀ kind line, (kind, line) ∈ wires → .attached kind line ∈ tr
  inRange : ∀ kind line, (kind, line) ∈ wires → line < n

/-- The numbers are drawn one after the other, from one on. -/
structure Numbers (tr : Trace) (ports : List Port) : Prop where
  next : ∀ p ∈ ports, drawn p.kind tr < numberLimit → p.next.toNat = drawn p.kind tr + 1
  idle : ∀ kind, (∀ p ∈ ports, p.kind ≠ kind) → drawn kind tr = 0
  issued : ∀ id s m, .registered id s m ∈ tr → id.raw.toNat ≤ drawn id.kind tr

/-- Every armed channel has a registration, and every registration is in the trace. -/
structure Arms (tr : Trace) (wires : List (Peripheral × LineId))
    (known : IrqId → Option (Source × EventMask)) (lines : Lines) : Prop where
  registered : ∀ id s m, known id = some (s, m) → .registered id s m ∈ tr
  armed : ∀ line channel a, (lines.get line).armedAt channel = some a →
    ∃ kind, (kind, line) ∈ wires ∧ known ⟨kind, a.raw⟩ = some (⟨kind, channel⟩, a.mask)

/-- What was queued on the line of a peripheral and not taken yet is in the queue. -/
structure Queues (tr : Trace) (wires : List (Peripheral × LineId)) (lines : Lines) : Prop where
  waiting : ∀ kind line, (kind, line) ∈ wires →
    sent line tr = taken kind tr ++ (lines.get line).queue
  idleLine : ∀ line, (∀ kind, (kind, line) ∉ wires) →
    sent line tr = [] ∧ (lines.get line).queue = []
  idleKind : ∀ kind, (∀ line, (kind, line) ∉ wires) → taken kind tr = []

/-- **The wiring agrees with the trace.** -/
structure Wired (n : Nat) (tr : Trace) (w : Wiring) : Prop where
  sound : Sound tr
  size : w.lines.all.size = n
  ports : Ports n tr w.wires
  numbers : Numbers tr w.ports
  arms : Arms tr w.wires w.known w.lines
  queues : Queues tr w.wires w.lines

section Parts

variable {n : Nat} {tr : Trace} {x : Incident} {wires : List (Peripheral × LineId)}
  {ports : List Port} {known : IrqId → Option (Source × EventMask)} {lines lines' : Lines}

theorem Ports.snoc (h : Ports n tr wires) (x : Incident) : Ports n (tr ++ [x]) wires :=
  ⟨fun kind line hm => List.mem_append_left _ (h.attached kind line hm), h.inRange⟩

theorem Numbers.snoc (h : Numbers tr ports) (hx : ∀ kind, x.draws kind = false) :
    Numbers (tr ++ [x]) ports := by
  have hdrawn (kind : Peripheral) : drawn kind (tr ++ [x]) = drawn kind tr := by
    rw [drawn_snoc, hx kind]
    rfl
  refine ⟨fun p hp => ?_, fun kind hk => ?_, fun id s m hm => ?_⟩
  · rw [hdrawn]
    exact h.next p hp
  · rw [hdrawn]
    exact h.idle kind hk
  · rw [hdrawn]
    rcases List.mem_append.mp hm with hm | hm
    · exact h.issued id s m hm
    · have := hx id.kind
      rw [← List.mem_singleton.mp hm] at this
      simp [Incident.draws] at this

theorem Arms.snoc (h : Arms tr wires known lines) (x : Incident) :
    Arms (tr ++ [x]) wires known lines :=
  ⟨fun id s m hk => List.mem_append_left _ (h.registered id s m hk), h.armed⟩

theorem Arms.of_lines (h : Arms tr wires known lines)
    (hl : ∀ line c, (lines'.get line).armedAt c = (lines.get line).armedAt c) :
    Arms tr wires known lines' where
  registered := h.registered
  armed line c a ha := by
    rw [hl] at ha
    exact h.armed line c a ha

theorem Arms.register (h : Arms tr wires known lines) {id : IrqId} {line : LineId}
    {source : Source} {mask : EventMask} {l : SignalLine} (hw : (id.kind, line) ∈ wires)
    (hs : source.kind = id.kind) (hnew : ∀ s m, .registered id s m ∉ tr)
    (hr : line < lines.all.size)
    (ha : (lines.get line).arm source.channel id.raw mask = .ok l) :
    Arms (tr ++ [.registered id source mask]) wires
      (Function.update known id (some (source, mask))) (lines.set line l) := by
  obtain ⟨-, -, hat⟩ := SignalLine.armedAt_arm ha
  have hold {line : LineId} {c : UInt8} {a : Armed} (hac : (lines.get line).armedAt c = some a) :
      ∃ kind, (kind, line) ∈ wires ∧
        Function.update known id (some (source, mask)) ⟨kind, a.raw⟩ =
          some (⟨kind, c⟩, a.mask) := by
    obtain ⟨kind, hk, hknown⟩ := h.armed line c a hac
    have hne : (⟨kind, a.raw⟩ : IrqId) ≠ id := by
      rintro rfl
      exact hnew _ _ (h.registered _ _ _ hknown)
    exact ⟨kind, hk, by rw [Function.update_of_ne hne, hknown]⟩
  refine ⟨fun id' s m hk => ?_, fun line' c a hac => ?_⟩
  · rw [Function.update_apply] at hk
    split_ifs at hk with hid
    · cases hk
      rw [hid]
      exact List.mem_append_right _ (List.mem_singleton_self _)
    · exact List.mem_append_left _ (h.registered id' s m hk)
  · rw [Lines.get_set hr] at hac
    split_ifs at hac with hl
    · subst hl
      rw [hat] at hac
      split_ifs at hac with hc
      · cases hac
        exact ⟨id.kind, hw, by rw [Function.update_self, hc, ← hs]⟩
      · exact hold hac
    · exact hold hac

theorem Arms.remove (h : Arms tr wires known lines) {id : IrqId}
    (hl : ∀ line c a, (lines'.get line).armedAt c = some a →
      (lines.get line).armedAt c = some a ∧ ∀ kind, (kind, line) ∈ wires → ⟨kind, a.raw⟩ ≠ id) :
    Arms tr wires (Function.update known id none) lines' := by
  refine ⟨fun id' s m hk => ?_, fun line c a hac => ?_⟩
  · rw [Function.update_apply] at hk
    split_ifs at hk
    exact h.registered id' s m hk
  · obtain ⟨hac, hne⟩ := hl line c a hac
    obtain ⟨kind, hk, hknown⟩ := h.armed line c a hac
    exact ⟨kind, hk, by rw [Function.update_of_ne (hne kind hk), hknown]⟩

theorem Queues.snoc (h : Queues tr wires lines) (hs : ∀ line, x.sent? line = none)
    (ht : ∀ kind, x.taken? kind = none) : Queues (tr ++ [x]) wires lines := by
  refine ⟨fun kind line hm => ?_, fun line hl => ?_, fun kind hk => ?_⟩
  · rw [sent_snoc_of_none (hs line), taken_snoc_of_none (ht kind)]
    exact h.waiting kind line hm
  · rw [sent_snoc_of_none (hs line)]
    exact h.idleLine line hl
  · rw [taken_snoc_of_none (ht kind)]
    exact h.idleKind kind hk

theorem Queues.of_lines (h : Queues tr wires lines)
    (hl : ∀ line, (lines'.get line).queue = (lines.get line).queue) : Queues tr wires lines' := by
  refine ⟨fun kind line hm => ?_, fun line hi => ?_, h.idleKind⟩
  · rw [hl]
    exact h.waiting kind line hm
  · rw [hl]
    exact h.idleLine line hi

theorem Queues.push (h : Queues tr wires lines) {kind : Peripheral} {line : LineId}
    {channel : UInt8} {k : EventKind} {a : Armed} (hw : (kind, line) ∈ wires)
    (hq : ((lines.get line).raise channel k).2.queue = (lines.get line).queue ++ [(a.raw, k)]) :
    Queues (tr ++ [.raised line channel k (some a) true]) wires (lines.raise line channel k).2 := by
  have hother {l : LineId} (hl : line ≠ l) :
      sent l (tr ++ [.raised line channel k (some a) true]) = sent l tr :=
    sent_snoc_of_none (if_neg hl)
  have htaken (kind : Peripheral) :
      taken kind (tr ++ [.raised line channel k (some a) true]) = taken kind tr :=
    taken_snoc_of_none rfl
  refine ⟨fun kind' l hm => ?_, fun l hl => ?_, fun kind' hk => ?_⟩
  · rw [htaken, Lines.get_raise]
    split_ifs with hl
    · subst hl
      rw [hq, sent_snoc, Incident.sent?, if_pos rfl, h.waiting kind' line hm, List.append_assoc]
      rfl
    · rw [hother hl]
      exact h.waiting kind' l hm
  · have hne : line ≠ l := by
      rintro rfl
      exact hl kind hw
    rw [hother hne, Lines.get_raise, if_neg hne]
    exact h.idleLine l hl
  · rw [htaken]
    exact h.idleKind kind' hk

theorem toNat_nextRaw {m : UInt16} (h : m.toNat < numberLimit) :
    (nextRaw m).toNat = m.toNat + 1 := by
  have hadd : (m + 1).toNat = m.toNat + 1 := by
    rw [UInt16.toNat_add]
    exact Nat.mod_eq_of_lt (Nat.succ_lt_succ h)
  have hne : m + 1 ≠ 0 := by
    intro h0
    rw [h0] at hadd
    cases hadd
  rw [nextRaw, if_neg hne, hadd]

theorem Numbers.draw (h : Numbers tr ports) {p : Port} (hp : p ∈ ports)
    (hd : drawn p.kind tr < numberLimit) (hx : ∀ kind, x.draws kind = decide (p.kind = kind))
    (hid : ∀ id s m, x = .registered id s m → id = ⟨p.kind, p.next⟩) :
    Numbers (tr ++ [x])
      (ports.map fun q => if q.kind = p.kind then ⟨p.kind, p.line, nextRaw p.next⟩ else q) := by
  have hnext := h.next p hp hd
  have hself : drawn p.kind (tr ++ [x]) = drawn p.kind tr + 1 := by
    simp [drawn_snoc, hx]
  have hother {kind : Peripheral} (hk : p.kind ≠ kind) :
      drawn kind (tr ++ [x]) = drawn kind tr := by
    simp [drawn_snoc, hx, hk]
  refine ⟨fun q hq hlt => ?_, fun kind hk => ?_, fun id s m hm => ?_⟩
  · obtain ⟨q₀, hq₀, rfl⟩ := List.mem_map.mp hq
    by_cases hk : q₀.kind = p.kind
    · rw [if_pos hk] at hlt ⊢
      rw [hself] at hlt ⊢
      rw [toNat_nextRaw (by omega), hnext]
    · rw [if_neg hk] at hlt ⊢
      rw [hother (Ne.symm hk)] at hlt ⊢
      exact h.next q₀ hq₀ hlt
  · have hne : p.kind ≠ kind := by
      have := hk _ (List.mem_map_of_mem hp)
      rwa [if_pos rfl] at this
    rw [hother hne]
    refine h.idle kind fun q hq => ?_
    by_cases hqk : q.kind = p.kind
    · rwa [hqk]
    · exact hk q (List.mem_map.mpr ⟨q, hq, if_neg hqk⟩)
  · rcases List.mem_append.mp hm with hm | hm
    · have hle := h.issued id s m hm
      rw [drawn_snoc]
      omega
    · refine Nat.le_of_eq ?_
      rw [hid id s m (List.mem_singleton.mp hm).symm, hself, hnext]

end Parts

namespace Wired

variable {n : Nat} {tr : Trace} {w : Wiring} {p : Port}

theorem mem_wires (hp : p ∈ w.ports) : (p.kind, p.line) ∈ w.wires :=
  List.mem_map.mpr ⟨p, hp, rfl⟩

/-- A peripheral has one line, and a line one peripheral. -/
theorem apart (h : Wired n tr w) {kind kind' : Peripheral} {line line' : LineId}
    (hw : (kind, line) ∈ w.wires) (hw' : (kind', line') ∈ w.wires) :
    kind = kind' ↔ line = line' :=
  h.sound.attached_unique (h.ports.attached kind line hw) (h.ports.attached kind' line' hw')

theorem wires_putPort (h : Wired n tr w) (hp : p ∈ w.ports) (next : UInt16) :
    (w.putPort ⟨p.kind, p.line, next⟩).map (fun q => (q.kind, q.line)) = w.wires := by
  unfold putPort wires
  rw [List.map_map]
  refine List.map_congr_left fun q hq => ?_
  rw [Function.comp_apply]
  dsimp only
  split_ifs with hk
  · rw [← hk, (h.apart (mem_wires hq) (mem_wires hp)).mp hk]
  · rfl

/-! ## One change -/

theorem attach (h : Wired n tr w) {kind : Peripheral} {line : LineId}
    (ho : Orderly n (tr ++ [.attached kind line])) :
    Wired n (tr ++ [.attached kind line])
      { w with ports := w.ports.filter (fun p => p.kind ≠ kind) ++ [⟨kind, line, 1⟩] } := by
  obtain ⟨hnewKind, hnewLine⟩ := ho.allowed
  have hkind (l : LineId) : (kind, l) ∉ w.wires := fun hm => hnewKind l (h.ports.attached _ _ hm)
  have hline (k : Peripheral) : (k, line) ∉ w.wires :=
    fun hm => hnewLine k (h.ports.attached _ _ hm)
  have hports (p : Port) (hp : p ∈ w.ports) : p.kind ≠ kind := by
    rintro rfl
    exact hkind p.line (mem_wires hp)
  have hfilter : w.ports.filter (fun p => p.kind ≠ kind) = w.ports :=
    List.filter_eq_self.mpr fun p hp => decide_eq_true (hports p hp)
  have hwires : Wiring.wires { w with ports := w.ports ++ [⟨kind, line, 1⟩] } =
      w.wires ++ [(kind, line)] := List.map_append
  have hnumbers := h.numbers.snoc (x := .attached kind line) fun _ => rfl
  have hqueues := h.queues.snoc (x := .attached kind line) (fun _ => rfl) fun _ => rfl
  rw [hfilter]
  refine ⟨h.sound.snoc ho.allowed, h.size, ?_, ?_, ?_, ?_⟩
  · rw [hwires]
    refine ⟨fun k l hm => ?_, fun k l hm => ?_⟩
    all_goals rcases List.mem_append.mp hm with hm | hm
    · exact (h.ports.snoc _).attached k l hm
    · cases List.mem_singleton.mp hm
      exact List.mem_append_right _ (List.mem_singleton_self _)
    · exact h.ports.inRange k l hm
    · cases List.mem_singleton.mp hm
      exact ho.inRange _ (mem_attachments (List.mem_append_right _ (List.mem_singleton_self _)))
  · refine ⟨fun p hp hlt => ?_, fun k hk => ?_, hnumbers.issued⟩
    · rcases List.mem_append.mp hp with hp | hp
      · exact hnumbers.next p hp hlt
      · cases List.mem_singleton.mp hp
        rw [hnumbers.idle kind hports]
        rfl
    · exact hnumbers.idle k fun p hp => hk p (List.mem_append_left _ hp)
  · rw [hwires]
    refine ⟨(h.arms.snoc _).registered, fun l c a ha => ?_⟩
    obtain ⟨k, hk, hknown⟩ := h.arms.armed l c a ha
    exact ⟨k, List.mem_append_left _ hk, hknown⟩
  · rw [hwires]
    refine ⟨fun k l hm => ?_, fun l hl => ?_, fun k hk => ?_⟩
    · rcases List.mem_append.mp hm with hm | hm
      · exact hqueues.waiting k l hm
      · cases List.mem_singleton.mp hm
        obtain ⟨hsent, hqueue⟩ := hqueues.idleLine line hline
        rw [hsent, hqueues.idleKind kind hkind]
        exact hqueue.symm
    · exact hqueues.idleLine l fun k hm => hl k (List.mem_append_left _ hm)
    · exact hqueues.idleKind k fun l hm => hk l (List.mem_append_left _ hm)

theorem touch (h : Wired n tr w) (hp : p ∈ w.ports) :
    Wired n tr { w with ports := w.putPort p } := by
  have hwires : Wiring.wires { w with ports := w.putPort p } = w.wires := h.wires_putPort hp p.next
  have hmem {q : Port} (hq : q ∈ w.putPort p) : q ∈ w.ports := by
    obtain ⟨q₀, hq₀, rfl⟩ := List.mem_map.mp hq
    split_ifs
    · exact hp
    · exact hq₀
  refine ⟨h.sound, h.size, ?_, ⟨fun q hq => h.numbers.next q (hmem hq), fun kind hk => ?_,
    h.numbers.issued⟩, ?_, ?_⟩
  · rw [hwires]
    exact h.ports
  · refine h.numbers.idle kind fun q hq => ?_
    have := hk _ (List.mem_map_of_mem hq)
    split_ifs at this with hqk
    · rwa [hqk]
    · exact this
  · rw [hwires]
    exact h.arms
  · rw [hwires]
    exact h.queues

theorem fresh (h : Wired n tr w) (hp : p ∈ w.ports) (hd : drawn p.kind tr < numberLimit) :
    freshRaw (w.lines.get p.line) rawTries p.next = (p.next, nextRaw p.next) := by
  have hnext := h.numbers.next p hp hd
  have hne : p.next ≠ 0 := by
    intro h0
    rw [h0] at hnext
    cases hnext
  have hfree : (w.lines.get p.line).isArmed p.next = false := by
    refine Bool.eq_false_iff.mpr fun harmed => ?_
    obtain ⟨c, a, ha, hraw⟩ := SignalLine.isArmed_iff.mp harmed
    obtain ⟨kind, hkind, hknown⟩ := h.arms.armed p.line c a ha
    obtain rfl : kind = p.kind := (h.apart hkind (mem_wires hp)).mpr rfl
    have hle := h.numbers.issued _ _ _ (h.arms.registered _ _ _ hknown)
    rw [hraw] at hle
    dsimp only at hle
    omega
  exact if_pos ⟨hne, hfree⟩

theorem waste (h : Wired n tr w) (hp : p ∈ w.ports) {source : Source} (hs : source.kind = p.kind)
    {raw next : UInt16} (hd : freshRaw (w.lines.get p.line) rawTries p.next = (raw, next))
    (ho : Orderly n (tr ++ [.wasted source])) :
    Wired n (tr ++ [.wasted source]) { w with ports := w.putPort ⟨p.kind, p.line, next⟩ } := by
  have hlimit : drawn p.kind tr < numberLimit := ho.drawn_lt (decide_eq_true hs)
  rw [h.fresh hp hlimit] at hd
  cases hd
  have hwires := h.wires_putPort hp (nextRaw p.next)
  refine ⟨h.sound.snoc trivial, h.size, ?_, ?_, ?_, ?_⟩
  · rw [Wiring.wires, hwires]
    exact h.ports.snoc _
  · refine h.numbers.draw hp hlimit (fun kind => ?_) fun _ _ _ hx => by cases hx
    rw [← hs]
    rfl
  · rw [Wiring.wires, hwires]
    exact h.arms.snoc _
  · rw [Wiring.wires, hwires]
    exact h.queues.snoc (fun _ => rfl) fun _ => rfl

theorem register (h : Wired n tr w) (hp : p ∈ w.ports) {source : Source}
    (hs : source.kind = p.kind) {raw next : UInt16}
    (hd : freshRaw (w.lines.get p.line) rawTries p.next = (raw, next)) {mask : EventMask}
    {line : SignalLine} (ha : (w.lines.get p.line).arm source.channel raw mask = .ok line)
    (ho : Orderly n (tr ++ [.registered ⟨p.kind, raw⟩ source mask])) :
    Wired n (tr ++ [.registered ⟨p.kind, raw⟩ source mask])
      { ports := w.putPort ⟨p.kind, p.line, next⟩
        known := Function.update w.known ⟨p.kind, raw⟩ (some (source, mask))
        lines := w.lines.set p.line line } := by
  have hlimit : drawn p.kind tr < numberLimit := ho.drawn_lt (decide_eq_true rfl)
  rw [h.fresh hp hlimit] at hd
  cases hd
  have hwires := h.wires_putPort hp (nextRaw p.next)
  have hnew : Allowed tr (.registered ⟨p.kind, p.next⟩ source mask) := by
    intro s m hm
    have hle := h.numbers.issued _ _ _ hm
    rw [h.numbers.next p hp hlimit] at hle
    exact absurd hle (Nat.not_succ_le_self _)
  have hrange : p.line < w.lines.all.size := h.size ▸ h.ports.inRange _ _ (mem_wires hp)
  obtain ⟨-, hqueue, -⟩ := SignalLine.armedAt_arm ha
  refine ⟨h.sound.snoc hnew, ?_, ?_, ?_, ?_, ?_⟩
  · rw [Lines.size_set, h.size]
  · rw [Wiring.wires, hwires]
    exact h.ports.snoc _
  · exact h.numbers.draw hp hlimit (fun _ => rfl) fun _ _ _ hx => by cases hx; rfl
  · rw [Wiring.wires, hwires]
    exact h.arms.register (mem_wires hp) hs hnew hrange ha
  · rw [Wiring.wires, hwires]
    have hquiet := h.queues.snoc (x := .registered ⟨p.kind, p.next⟩ source mask) (fun _ => rfl)
      fun _ => rfl
    exact hquiet.of_lines (Lines.apply_get_set SignalLine.queue hqueue)

theorem forget (h : Wired n tr w) {id : IrqId} (hp : ∀ p ∈ w.ports, p.kind ≠ id.kind) :
    Wired n tr { w with known := w.without id } := by
  refine ⟨h.sound, h.size, h.ports, h.numbers, h.arms.remove fun line c a ha => ⟨ha, ?_⟩, h.queues⟩
  rintro kind hk rfl
  obtain ⟨p, hmem, hpk⟩ := List.mem_map.mp hk
  exact hp p hmem (congrArg Prod.fst hpk)

theorem unregister (h : Wired n tr w) (hp : p ∈ w.ports) {id : IrqId} (hk : p.kind = id.kind) :
    Wired n tr { w with
      known := w.without id
      lines := w.lines.set p.line ((w.lines.get p.line).disarm id.raw) } := by
  refine ⟨h.sound, ?_, h.ports, h.numbers, h.arms.remove fun line c a ha => ?_,
    h.queues.of_lines (Lines.apply_get_set SignalLine.queue rfl)⟩
  · rw [Lines.size_set, h.size]
  · rw [Lines.get_disarm] at ha
    split_ifs at ha with hl
    · subst hl
      rw [SignalLine.armedAt_disarm] at ha
      split_ifs at ha with hholds
      refine ⟨ha, ?_⟩
      rintro kind - rfl
      rw [ha] at hholds
      exact hholds (beq_self_eq_true a.raw)
    · refine ⟨ha, ?_⟩
      rintro kind hw rfl
      exact hl ((h.apart (mem_wires hp) hw).mp hk)

theorem disarmAll (h : Wired n tr w) (line : LineId) :
    Wired n tr { w with lines := w.lines.set line (w.lines.get line).disarmAll } := by
  refine ⟨h.sound, ?_, h.ports, h.numbers, ⟨h.arms.registered, fun l c a ha => ?_⟩,
    h.queues.of_lines (Lines.apply_get_set SignalLine.queue rfl)⟩
  · rw [Lines.size_set, h.size]
  · rw [Lines.get_disarmAll] at ha
    split_ifs at ha with hl
    · rw [SignalLine.armedAt_disarmAll] at ha
      cases ha
    · exact h.arms.armed l c a ha

theorem raise (h : Wired n tr w) (line : LineId) (channel : UInt8) (kind : EventKind) :
    Wired n (tr ++ [w.lines.incident line channel kind])
      { w with lines := (w.lines.raise line channel kind).2 } := by
  have harms : Arms tr w.wires w.known (w.lines.raise line channel kind).2 :=
    h.arms.of_lines fun l c =>
      Lines.apply_get_set (fun l => l.armedAt c) (SignalLine.armedAt_raise _ channel kind c) l
  have hsize : (w.lines.raise line channel kind).2.all.size = n := by
    rw [Lines.size_raise, h.size]
  unfold Lines.incident
  cases hq : (w.lines.raise line channel kind).1 with
  | false =>
    have hqueue : Queues tr w.wires (w.lines.raise line channel kind).2 :=
      h.queues.of_lines
        (Lines.apply_get_set SignalLine.queue (SignalLine.queue_raise_of_false hq))
    cases (w.lines.get line).armedAt channel <;>
      exact ⟨h.sound.snoc trivial, hsize, h.ports.snoc _, h.numbers.snoc fun _ => rfl,
        harms.snoc _, hqueue.snoc (fun _ => rfl) fun _ => rfl⟩
  | true =>
    obtain ⟨a, ha, hmask, hqueue⟩ := SignalLine.queue_raise_of_true hq
    obtain ⟨k, hk, hknown⟩ := h.arms.armed line channel a ha
    rw [ha]
    refine ⟨h.sound.snoc ?_, hsize, h.ports.snoc _, h.numbers.snoc fun _ => rfl, harms.snoc _, ?_⟩
    · exact ⟨k, a.raw, a.mask, rfl, hmask, h.ports.attached k line hk,
        h.arms.registered _ _ _ hknown⟩
    · exact h.queues.push hk hqueue

theorem take (h : Wired n tr w) (hp : p ∈ w.ports) {raw : UInt16} {kind : EventKind}
    {rest : SignalLine} (ht : (w.lines.get p.line).take? = some ((raw, kind), rest)) {x : Incident}
    (hx : Allowed tr x) (hs : ∀ line, x.sent? line = none) (hd : ∀ kind, x.draws kind = false)
    (htaken : ∀ k, x.taken? k = if p.kind = k then some (raw, kind) else none) :
    Wired n (tr ++ [x]) { w with lines := w.lines.set p.line rest } := by
  obtain ⟨hqueue, harmed⟩ := SignalLine.take?_eq_some ht
  have hrange : p.line < w.lines.all.size := h.size ▸ h.ports.inRange _ _ (mem_wires hp)
  have harms : Arms tr w.wires w.known (w.lines.set p.line rest) :=
    h.arms.of_lines fun l c => Lines.apply_get_set (fun l => l.armedAt c) (harmed c) l
  refine ⟨h.sound.snoc hx, ?_, h.ports.snoc _, h.numbers.snoc hd, harms.snoc _, ?_⟩
  · rw [Lines.size_set, h.size]
  · have hsent (l : LineId) : sent l (tr ++ [x]) = sent l tr := sent_snoc_of_none (hs l)
    have hother {k : Peripheral} (hk : p.kind ≠ k) : taken k (tr ++ [x]) = taken k tr :=
      taken_snoc_of_none (by rw [htaken, if_neg hk])
    refine ⟨fun k l hm => ?_, fun l hl => ?_, fun k hk => ?_⟩
    · have hwaiting := h.queues.waiting k l hm
      rw [hsent, Lines.get_set hrange, hwaiting]
      by_cases hl : p.line = l
      · obtain rfl : p.kind = k := (h.apart (mem_wires hp) hm).mpr hl
        rw [if_pos hl, ← hl, hqueue, taken_snoc, htaken, if_pos rfl]
        simp
      · rw [if_neg hl, hother fun hk => hl ((h.apart (mem_wires hp) hm).mp hk)]
    · have hne : p.line ≠ l := by
        rintro rfl
        exact hl p.kind (mem_wires hp)
      rw [hsent, Lines.get_set hrange, if_neg hne]
      exact h.queues.idleLine l hl
    · have hne : p.kind ≠ k := by
        rintro rfl
        exact hk p.line (mem_wires hp)
      rw [hother hne]
      exact h.queues.idleKind k hk

/-! ## Any number of changes -/

theorem step (h : Wired n tr w) {xs : Trace} {w' : Wiring} (hs : Step w xs w')
    (ho : Orderly n (tr ++ xs)) : Wired n (tr ++ xs) w' := by
  cases hs with
  | attach kind line => exact h.attach ho
  | touch hp => exact (List.append_nil tr).symm ▸ h.touch hp
  | waste hp hs hd => exact h.waste hp hs hd ho
  | register hp hs hd ha => exact h.register hp hs hd ha ho
  | forget hp => exact (List.append_nil tr).symm ▸ h.forget hp
  | unregister hp hk => exact (List.append_nil tr).symm ▸ h.unregister hp hk
  | raise line channel kind => exact h.raise line channel kind
  | disarmAll line => exact (List.append_nil tr).symm ▸ h.disarmAll line
  | @call p hp raw kind rest ht source mask hk =>
    have hattached := h.ports.attached _ _ (mem_wires hp)
    have hqueue := (SignalLine.take?_eq_some ht).1
    refine h.take hp ht ⟨⟨mask, h.arms.registered _ _ _ hk⟩, p.line, hattached, rest.queue, ?_⟩
      (fun _ => rfl) (fun _ => rfl) fun _ => rfl
    rw [h.queues.waiting _ _ (mem_wires hp), hqueue, List.append_assoc]
    rfl
  | discard hp ht => exact h.take hp ht trivial (fun _ => rfl) (fun _ => rfl) fun _ => rfl

/-- **The agreement holds all along an orderly run.** -/
theorem chain (h : Wired n tr w) {xs : Trace} {w' : Wiring} (hc : Chain w xs w')
    (ho : Orderly n (tr ++ xs)) : Wired n (tr ++ xs) w' := by
  induction hc generalizing tr with
  | nil => exact (List.append_nil tr).symm ▸ h
  | cons hs _ ih =>
    rw [← List.append_assoc] at ho ⊢
    exact ih (h.step hs ho.front) ho

end Wired

end Coop
