import Coop.Proofs.Interrupt.Registration
import Coop.Proofs.Interrupt.Watches
import Mathlib.Data.List.Defs
import Mathlib.Data.List.Induction

/-!
# Edges are threshold crossings

As long as a registration for a channel of the converter has its channel, the watch there remembers
on which side of the threshold the last reading was, whatever else is done to the hub and the lines.
So a reading makes an edge exactly if it is on the other side than the reading before it.

* `crossing?`, `edge?`, `edges`: the edges that readings make;
* `Call.reading?`, `readings`: the readings of a channel in a run;
* `Reported`, `SignalLine.reported_raise`: what comes of an edge;
* `Station.Watched`, `Watched.step`, **`Watched.run`**: the watch while other things happen;
* `Station.offers`: the edges that are queued or lost in a run;
* `Crossings`, **`edges_are_crossings`**: both are the same.
-/

namespace Coop

variable {C : Type}

/-! ## Edges -/

/-- The edge that a reading makes behind another one. -/
def crossing? (t was mv : Nat) : Option EventKind :=
  if t ≤ mv ↔ t ≤ was then none else some (if t ≤ mv then .rising else .falling)

/-- The edge that a reading makes behind those before it: the first one makes none. -/
def edge? (t : Nat) (earlier : List Nat) (mv : Nat) : Option EventKind :=
  earlier.getLast?.bind fun was => crossing? t was mv

/-- The edges between one reading and the next. -/
def edges (t : Nat) (s : List Nat) : List EventKind :=
  s.consecutivePairs.filterMap fun p => crossing? t p.1 p.2

theorem edges_cons_cons (t x y : Nat) (s : List Nat) :
    edges t (x :: y :: s) = (crossing? t x y).toList ++ edges t (y :: s) :=
  filterMap_cons_append _ (x, y) _

theorem edges_snoc (t : Nat) (s : List Nat) (mv : Nat) :
    edges t (s ++ [mv]) = edges t s ++ (edge? t s mv).toList := by
  induction s with
  | nil => rfl
  | cons x s ih =>
    cases s with
    | nil => exact (edges_cons_cons t x mv []).trans (List.append_nil _)
    | cons y s =>
      have hlast : edge? t (x :: y :: s) mv = edge? t (y :: s) mv := by
        unfold edge?
        rw [List.getLast?_cons_cons]
      rw [List.cons_append, List.cons_append, edges_cons_cons, ← List.cons_append, ih,
        edges_cons_cons, hlast, List.append_assoc]

/-- The watch with a threshold after some readings. -/
def Watch.behind (raw : UInt16) (t : Nat) (s : List Nat) : Watch :=
  ⟨raw, t, s.getLast?.map fun was => decide (t ≤ was)⟩

theorem Watch.sample_behind (raw : UInt16) (t : Nat) (s : List Nat) (mv : Nat) :
    (behind raw t s).sample mv = (edge? t s mv, behind raw t (s ++ [mv])) := by
  unfold Watch.sample behind edge? crossing?
  rw [List.getLast?_concat]
  cases s.getLast? with
  | none => rfl
  | some was =>
    by_cases hnow : t ≤ mv
    · by_cases hwas : t ≤ was <;> simp [hnow, hwas]
    · by_cases hwas : t ≤ was <;> simp [hnow, hwas]

/-- The reading of a channel that a call takes in. -/
def Call.reading? (channel : UInt8) : Call C → Option Nat
  | sample c mv => if channel = c then some mv else none
  | _ => none

theorem Call.reading?_eq_some {c : Call C} {channel : UInt8} {mv : Nat}
    (h : c.reading? channel = some mv) : c = .sample channel mv := by
  unfold reading? at h
  split at h
  · split_ifs at h with heq
    rw [heq, Option.some.inj h]
  · cases h

/-- The readings of a channel in some calls. -/
def readings (channel : UInt8) (cs : List (Call C)) : List Nat :=
  cs.filterMap (Call.reading? channel)

/-! ## What comes of an edge -/

/-- What comes of an event for a registration: it is queued last, or lost and counted if there is no
room. -/
inductive Reported (raw : UInt16) (l : SignalLine) : Option EventKind → Bool → SignalLine → Prop
  | nothing : Reported raw l none false l
  | queued {kind : EventKind} (hroom : l.queue.length < lineCapacity) :
    Reported raw l (some kind) true { l with queue := l.queue ++ [(raw, kind)] }
  | lost {kind : EventKind} (hfull : lineCapacity ≤ l.queue.length) :
    Reported raw l (some kind) false { l with dropped := l.dropped + 1 }

theorem SignalLine.reported_raise {l : SignalLine} {channel : UInt8} {raw : UInt16}
    {mask : EventMask} (harmed : l.armedAt channel = some ⟨raw, mask⟩) (kind : EventKind) :
    Reported raw l ((some kind).filter mask.contains) (l.raise channel kind).1
      (l.raise channel kind).2 := by
  unfold raise
  rw [harmed, Option.filter_some]
  dsimp only
  split_ifs with hm hroom
  · exact .queued hroom
  · exact .lost (Nat.le_of_not_lt hroom)
  · exact .nothing

/-! ## The watch -/

namespace Station

variable {st : Station C} {c : Call C} {cs : List (Call C)} {channel : UInt8} {line : LineId}
  {mask : EventMask} {w : Watch}

/-- A channel of the converter is watched, and the line is armed for the same registration there. -/
structure Watched (st : Station C) (channel : UInt8) (line : LineId) (mask : EventMask)
    (w : Watch) : Prop where
  wired : (st.hub.backend? .adc).map Backend.line = some line
  watch : st.hub.watch? channel = some w
  armed : (st.lines.get line).armedAt channel = some ⟨w.raw, mask⟩

theorem line_after (hs : st.hub.Single) (hc : c.attaches = false) (kind : Peripheral) :
    ((c.after st).hub.backend? kind).map Backend.line =
      (st.hub.backend? kind).map Backend.line := by
  have hwires (h : Hub C) : (h.backend? kind).map Backend.line =
      (h.wires.find? fun w => w.1 == kind).map Prod.snd := by
    unfold Hub.wires Hub.backend?
    rw [List.find?_map, Option.map_map]
    rfl
  rw [hwires, hwires, wires_after hs hc]

/-- A watched channel cannot be registered again, and whoever takes its watch away takes the channel
as well. -/
theorem Watched.step (h : st.Watched channel line mask w) (hs : st.hub.Single)
    (hc : c.attaches = false) (hholds : (c.after st).Holds ⟨.adc, w.raw⟩ channel mask) :
    (c.after st).Watched channel line mask
      ((c.reading? channel).elim w fun mv => (w.sample mv).2) := by
  have hline := (line_after hs hc .adc).trans h.wired
  have harmed : ((c.after st).lines.get line).armedAt channel = some ⟨w.raw, mask⟩ := by
    obtain ⟨b, hb, harmed⟩ := hholds
    rw [hb] at hline
    rwa [Option.some.inj hline] at harmed
  have hraw : ((c.reading? channel).elim w fun mv => (w.sample mv).2).raw = w.raw := by
    cases c.reading? channel <;> rfl
  refine ⟨hline, ?_, by rw [hraw, harmed]⟩
  obtain ⟨b, hb, hbline⟩ := Option.map_eq_some_iff.mp h.wired
  rw [Call.watch?_after]
  unfold Call.watchAfter?
  cases c with
  | attachGpio | attachAdc => cases hc
  | register source mask' options handler =>
    dsimp only
    split
    · rename_i id hok
      rw [if_neg, h.watch]
      · rfl
      · rintro rfl
        rcases b.register_outcomes st.lines channel mask' options.threshold with
          ⟨e, -, hreg⟩ | ⟨raw, next, -, hreg | ⟨l, mv, harm, -, -⟩⟩
        · rw [Hub.value_register_of_error hb hreg] at hok
          cases hok
        · rw [Hub.value_register_of_error hb hreg] at hok
          cases hok
        · have hfree := (SignalLine.armedAt_arm harm).1
          rw [hbline, h.armed] at hfree
          cases hfree
    · exact h.watch
  | unregister id =>
    dsimp only
    rw [if_neg, h.watch]
    · rfl
    · rintro ⟨hkind, hfound, hown⟩
      rw [h.watch] at hown
      obtain ⟨r, hr⟩ := Option.isSome_iff_exists.mp hfound
      have hbid : st.hub.backend? id.kind = some b := hkind ▸ hb
      have hraw : w.raw = id.raw := eq_of_beq hown
      change ((st.hub.unregister st.lines id).value.2.2.get line).armedAt channel = _ at harmed
      rw [Hub.value_unregister hr hbid, (b.port_unregister st.lines id.raw).2, hbline,
        Lines.get_disarm, if_pos rfl, SignalLine.armedAt_disarm, h.armed, hraw, Armed.holds,
        if_pos (beq_self_eq_true id.raw)] at harmed
      cases harmed
  | sample c mv =>
    dsimp only
    rw [h.watch]
    by_cases heq : channel = c
    · rw [if_pos heq]
      simp [Call.reading?, heq]
    · rw [if_neg heq]
      simp [Call.reading?, heq]
  | setEnabled | process | look | raise | disarmAll => exact h.watch

/-- **A watch remembers the last reading of its channel**, as long as the registration has the
channel. -/
theorem Watched.run {raw : UInt16} {t : Nat} {s : List Nat}
    (h : st.Watched channel line mask (.behind raw t s)) (hs : st.hub.Single)
    (hcs : ∀ c ∈ cs, c.attaches = false)
    (hholds : ∀ pre, pre <+: cs → (st.run pre).Holds ⟨.adc, raw⟩ channel mask) :
    (st.run cs).Watched channel line mask (.behind raw t (s ++ readings channel cs)) := by
  induction cs generalizing st s with
  | nil =>
    rw [readings, List.filterMap_nil, List.append_nil]
    exact h
  | cons c cs ih =>
    have hstep := h.step hs (hcs c List.mem_cons_self) (hholds [c] ⟨cs, rfl⟩)
    have hread : (c.reading? channel).elim (Watch.behind raw t s)
        (fun mv => ((Watch.behind raw t s).sample mv).2) =
          .behind raw t (s ++ (c.reading? channel).toList) := by
      cases c.reading? channel with
      | none => simp
      | some mv =>
        rw [Option.elim_some, Watch.sample_behind]
        rfl
    have hrest := ih (hread ▸ hstep) (single_after hs c)
      (fun d hd => hcs d (List.mem_cons_of_mem c hd))
      (fun pre hpre => hholds (c :: pre) (List.cons_prefix_cons.mpr ⟨rfl, hpre⟩))
    rw [readings, filterMap_cons_append, ← List.append_assoc]
    exact hrest

end Station

/-! ## Readings -/

/-- An event that was raised for a channel that takes it: it was queued or, if not, lost. -/
def Incident.offered? : Incident → Option (EventKind × Bool)
  | raised _ _ kind (some a) queued => if a.mask.contains kind then some (kind, queued) else none
  | _ => none

/-- What the readings of a channel are reported as in some calls: the edges, and whether each was
queued or lost. -/
def Station.offers (channel : UInt8) : Station C → List (Call C) → List (EventKind × Bool)
  | _, [] => []
  | st, c :: cs =>
    (if (c.reading? channel).isSome then (c.incidents st).filterMap Incident.offered? else []) ++
      offers channel (c.after st) cs

theorem Station.offers_append (channel : UInt8) (st : Station C) (cs ds : List (Call C)) :
    st.offers channel (cs ++ ds) = st.offers channel cs ++ (st.run cs).offers channel ds := by
  induction cs generalizing st with
  | nil => rfl
  | cons c cs ih =>
    rw [List.cons_append, offers, ih, offers, List.append_assoc]
    rfl

namespace Backend

variable {b : Backend} {channel : UInt8} {w : Watch}

theorem sample_of_none (hw : b.watch? channel = some w) {mv : Nat} (he : (w.sample mv).1 = none)
    (lines : Lines) : b.sampled lines channel mv = [] ∧
      b.sample lines channel mv = (false, b.watching channel (w.sample mv).2, lines) := by
  cases b with
  | gpio => cases hw
  | adc l next watches =>
    have hw : (watches[channel.toNat]?).join = some w := hw
    unfold sampled sample
    simp only [hw, he]
    exact ⟨trivial, rfl⟩

theorem sample_of_some (hw : b.watch? channel = some w) {mv : Nat} {kind : EventKind}
    (he : (w.sample mv).1 = some kind) (lines : Lines) :
    b.sampled lines channel mv = [lines.incident b.line channel kind] ∧
      b.sample lines channel mv = ((lines.raise b.line channel kind).1,
        b.watching channel (w.sample mv).2, (lines.raise b.line channel kind).2) := by
  cases b with
  | gpio => cases hw
  | adc l next watches =>
    have hw : (watches[channel.toNat]?).join = some w := hw
    unfold sampled sample
    simp only [hw, he]
    exact ⟨rfl, rfl⟩

end Backend

/-! ## The losses of all lines -/

theorem foldl_of_line {ls : List LineId} (hls : ls.Nodup) {line : LineId} (hline : line ∈ ls)
    {f g : LineId → UInt32} {d : UInt32} (hat : g line = f line + d)
    (hother : ∀ l, l ≠ line → g l = f l) (n : UInt32) :
    (ls.map g).foldl (· + ·) n = (ls.map f).foldl (· + ·) n + d := by
  induction ls generalizing n with
  | nil => cases hline
  | cons l ls ih =>
    obtain ⟨hl, hls⟩ := List.nodup_cons.mp hls
    rw [List.map_cons, List.map_cons, List.foldl_cons, List.foldl_cons]
    by_cases heq : l = line
    · subst heq
      have hrest : ls.map g = ls.map f :=
        List.map_congr_left fun l' hl' => hother l' fun heq => hl (heq ▸ hl')
      rw [hrest, hat, ← UInt32.add_assoc, UInt32.add_comm _ d, List.foldl_assoc, UInt32.add_comm]
    · rw [hother l heq, ih hls ((List.mem_cons.mp hline).resolve_left (Ne.symm heq))]

theorem Hub.dropped_eq_foldl (h : Hub C) (lines : Lines) : h.dropped lines =
    ((h.wires.map Prod.snd).map fun l => (lines.get l).dropped).foldl (· + ·) 0 := by
  rw [dropped, wires, List.map_map, List.map_map, List.foldl_map]
  rfl

/-- The losses are counted once, if no two backends share the line. -/
theorem Hub.dropped_of_reported {h h' : Hub C} (hs : h.Single) (ha : h.Apart)
    (hwires : h'.wires = h.wires) {lines lines' : Lines} {line : LineId}
    (hline : line ∈ h.wires.map Prod.snd) {raw : UInt16} {event : Option EventKind} {ok : Bool}
    (hrep : Reported raw (lines.get line) event ok (lines'.get line))
    (hother : ∀ other, other ≠ line → lines'.get other = lines.get other) :
    h'.dropped lines' =
      h.dropped lines + if event.isSome = true ∧ ok = false then 1 else 0 := by
  rw [dropped_eq_foldl, dropped_eq_foldl, hwires]
  refine foldl_of_line (ha.nodup_lines hs) hline ?_ (fun l hl => by rw [hother l hl]) 0
  generalize lines'.get line = l' at hrep
  cases hrep with
  | nothing => simp
  | queued hroom => simp
  | lost hfull => simp

theorem Hub.sample_of_backend? {h : Hub C} {b : Backend} (hb : h.backend? .adc = some b)
    (lines : Lines) (channel : UInt8) (mv : Nat) : h.sample lines channel mv =
      ((b.sample lines channel mv).1, h.putBackend (b.sample lines channel mv).2.1,
        (b.sample lines channel mv).2.2) := by
  rw [sample, hb]

/-- What comes of a reading: the event it makes for a registration is queued or lost on the line,
which the answer tells, and nothing happens to other lines. -/
structure Sampling (st : Station C) (channel : UInt8) (mv : Nat) (line : LineId) (raw : UInt16)
    (event : Option EventKind) : Prop where
  /-- The answer is `true` exactly if the event is queued. -/
  reported : Reported raw (st.lines.get line) event (st.hub.sample st.lines channel mv).1
    ((st.hub.sample st.lines channel mv).2.2.get line)
  others : ∀ other, other ≠ line →
    (st.hub.sample st.lines channel mv).2.2.get other = st.lines.get other
  offered : st.offers channel [.sample channel mv] =
    event.toList.map fun kind => (kind, (st.hub.sample st.lines channel mv).1)
  /-- The hub counts a loss once, if no two backends share a line. -/
  dropped : st.hub.Apart → (st.hub.sample st.lines channel mv).2.1.dropped
      (st.hub.sample st.lines channel mv).2.2 =
    st.hub.dropped st.lines +
      if event.isSome = true ∧ (st.hub.sample st.lines channel mv).1 = false then 1 else 0

namespace Station

variable {st : Station C} {channel : UInt8} {line : LineId} {mask : EventMask}

theorem Watched.reading {raw : UInt16} {t : Nat} {s : List Nat}
    (h : st.Watched channel line mask (.behind raw t s)) (hs : st.hub.Single) (mv : Nat) :
    Sampling st channel mv line raw ((edge? t s mv).filter mask.contains) := by
  obtain ⟨b, hb, hline⟩ := Option.map_eq_some_iff.mp h.wired
  have hmem := (Hub.backend?_eq_some hb).1
  have hw : b.watch? channel = some (.behind raw t s) := by
    rw [← Hub.watch?_of_backend? hb, h.watch]
  have hedge : ((Watch.behind raw t s).sample mv).1 = edge? t s mv := by
    rw [Watch.sample_behind]
  have harmed : (st.lines.get line).armedAt channel = some ⟨raw, mask⟩ := h.armed
  have hsample := st.hub.sample_of_backend? hb st.lines channel mv
  obtain ⟨hkind, hline'⟩ := b.sample_same st.lines channel mv
  have hwires := hs.wires_putBackend hmem hkind hline'
  have hoffers : st.offers channel [.sample channel mv] =
      (b.sampled st.lines channel mv).filterMap Incident.offered? := by
    simp [offers, Call.reading?, Call.incidents, hb]
  have hwire : line ∈ st.hub.wires.map Prod.snd :=
    List.mem_map.mpr ⟨_, List.mem_map.mpr ⟨b, hmem, rfl⟩, hline⟩
  -- a reading without an edge leaves the lines alone; an edge is raised on the line of the watch
  suffices hcore : Reported raw (st.lines.get line) ((edge? t s mv).filter mask.contains)
        (b.sample st.lines channel mv).1 ((b.sample st.lines channel mv).2.2.get line) ∧
      (∀ other, other ≠ line →
        (b.sample st.lines channel mv).2.2.get other = st.lines.get other) ∧
      (b.sampled st.lines channel mv).filterMap Incident.offered? =
        ((edge? t s mv).filter mask.contains).toList.map
          fun kind => (kind, (b.sample st.lines channel mv).1) by
    obtain ⟨hreported, hothers, hoffered⟩ := hcore
    refine ⟨?_, ?_, ?_, fun ha => ?_⟩
    · rwa [hsample]
    · rwa [hsample]
    · rw [hoffers, hsample, hoffered]
    · rw [hsample]
      exact Hub.dropped_of_reported hs ha hwires hwire hreported hothers
  cases he : edge? t s mv with
  | none =>
    obtain ⟨hsampled, heq⟩ := Backend.sample_of_none hw (hedge.trans he) st.lines
    rw [hsampled, heq]
    exact ⟨.nothing, fun _ _ => rfl, rfl⟩
  | some kind =>
    obtain ⟨hsampled, heq⟩ := Backend.sample_of_some hw (hedge.trans he) st.lines
    rw [hsampled, heq, hline]
    refine ⟨?_, fun other hne => ?_, ?_⟩
    · dsimp only
      rw [Lines.get_raise, if_pos rfl]
      exact SignalLine.reported_raise harmed kind
    · dsimp only
      rw [Lines.get_raise, if_neg (Ne.symm hne)]
    · rw [Lines.incident, harmed, Option.filter_some]
      cases hm : mask.contains kind <;> simp [Incident.offered?, hm]

theorem Watched.reading_run {raw : UInt16} {t : Nat} {pre : List (Call C)}
    (h : st.Watched channel line mask (.behind raw t [])) (hs : st.hub.Single)
    (hpre : ∀ c ∈ pre, c.attaches = false)
    (hholds : ∀ front, front <+: pre → (st.run front).Holds ⟨.adc, raw⟩ channel mask) (mv : Nat) :
    ((st.run pre).hub.backend? .adc).map Backend.line = some line ∧
      Sampling (st.run pre) channel mv line raw
        ((edge? t (readings channel pre) mv).filter mask.contains) := by
  have hrun := h.run hs hpre hholds
  rw [List.nil_append] at hrun
  exact ⟨hrun.wired, hrun.reading (single_of_run hs pre) mv⟩

/-- The edges of a run are offered one after the other. -/
theorem Watched.offers_run {raw : UInt16} {t : Nat} {cs : List (Call C)}
    (h : st.Watched channel line mask (.behind raw t [])) (hs : st.hub.Single)
    (hcs : ∀ c ∈ cs, c.attaches = false)
    (hholds : ∀ pre, pre <+: cs → (st.run pre).Holds ⟨.adc, raw⟩ channel mask) :
    (st.offers channel cs).map Prod.fst =
      (edges t (readings channel cs)).filter mask.contains := by
  induction cs using List.reverseRecOn with
  | nil => rfl
  | append_singleton ds c ih =>
    have hds : ∀ c ∈ ds, c.attaches = false := fun d hd => hcs d (List.mem_append_left _ hd)
    have hfront (pre : List (Call C)) (hpre : pre <+: ds) :=
      hholds pre (hpre.trans (List.prefix_append ds [c]))
    have hreadings : readings channel (ds ++ [c]) =
        readings channel ds ++ (c.reading? channel).toList := by
      rw [readings, List.filterMap_append, filterMap_cons_append, List.filterMap_nil,
        List.append_nil]
      rfl
    rw [offers_append, List.map_append, ih hds hfront, hreadings]
    cases hread : c.reading? channel with
    | none =>
      have hnone : (st.run ds).offers channel [c] = [] := by simp [offers, hread]
      rw [hnone, Option.toList_none, List.append_nil]
      exact List.append_nil _
    | some mv =>
      obtain rfl := Call.reading?_eq_some hread
      rw [(h.reading_run hs hds hfront mv).2.offered, Option.toList_some, edges_snoc,
        List.filter_append]
      cases edge? t (readings channel ds) mv with
      | none => rfl
      | some kind => cases hm : mask.contains kind <;> simp [Option.filter_some, hm]

end Station

/-! ## A registration and its edges -/

/-- The edges on a channel of the converter, in the calls after it was registered with a threshold.
-/
structure Crossings (st : Station C) (id : IrqId) (channel : UInt8) (t : Nat) (mask : EventMask)
    (cs : List (Call C)) : Prop where
  /-- A reading makes an edge if it is on the other side of the threshold than the one before; if
  the kind of the edge is in the mask, it is queued or lost. -/
  reading : ∀ pre mv post, cs = pre ++ .sample channel mv :: post →
    ∃ line, ((st.run pre).hub.backend? .adc).map Backend.line = some line ∧
      Sampling (st.run pre) channel mv line id.raw
        ((edge? t (readings channel pre) mv).filter mask.contains)
  /-- What is queued or lost are the edges with a kind in the mask, in their order. -/
  inOrder : (st.offers channel cs).map Prod.fst =
    (edges t (readings channel cs)).filter mask.contains

open Station

/-- **The edges on a channel of the converter are the crossings of its threshold.** After a
registration for a channel, with a threshold and a mask, and as long as the registration has its
channel, whatever else is done to the hub and the lines: a reading makes an edge exactly if there
was one before it on the other side of the threshold, a rising one if it is not below the threshold
itself; the edges with a kind in the mask are, in this order, those that are queued for the
registration and those that are lost and counted since the queue is full; and the answer tells
whether an event was queued. -/
theorem edges_are_crossings {n : Nat} {earlier cs : List (Call C)} {channel : UInt8}
    {mask : EventMask} {options : IrqOptions C} {handler : Handler C} {id : IrqId} {t : Nat}
    {st : Station C} (ht : options.threshold = some t)
    (hreg : (((start n).run earlier).hub.register ((start n).run earlier).lines ⟨.adc, channel⟩ mask
      options handler).value.1 = .ok id)
    (hst : st = (start n).run (earlier ++ [.register ⟨.adc, channel⟩ mask options handler]))
    (hcs : ∀ c ∈ cs, c.attaches = false)
    (hholds : ∀ pre, pre <+: cs → (st.run pre).Holds id channel mask) :
    Crossings st id channel t mask cs := by
  have hs : st.hub.Single := hst ▸ single_run n _
  have hkind : id.kind = .adc := by
    obtain ⟨_, _, _, _, hid, _⟩ := Hub.register_ok hreg
    rw [hid]
  obtain ⟨kind, raw⟩ := id
  subst hkind
  obtain ⟨b, hb, harmed⟩ := hholds [] List.nil_prefix
  have hwatched : st.Watched channel b.line mask (.behind raw t []) := by
    refine ⟨congrArg (Option.map Backend.line) hb, ?_, harmed⟩
    rw [hst, run_append]
    change (Call.after _ (.register ⟨.adc, channel⟩ mask options handler)).hub.watch? channel = _
    rw [Call.watch?_after]
    unfold Call.watchAfter?
    dsimp only
    rw [hreg]
    dsimp only
    rw [if_pos rfl, ht]
    rfl
  refine ⟨fun pre mv post heq => ⟨b.line, ?_⟩, hwatched.offers_run hs hcs hholds⟩
  subst heq
  have hpre : ∀ c ∈ pre, c.attaches = false := fun c hc => hcs c (List.mem_append_left _ hc)
  exact hwatched.reading_run hs hpre
    (fun front hfront => hholds front (hfront.trans (List.prefix_append _ _))) mv

/-- Readings at the threshold and next to it, with others in between and for rising edges only: the
first edge is the last event for which there is room, the falling edge is not asked for, and the
next rising one is lost. -/
theorem edges_are_crossings_full : ∃ (st : Station Unit) (cs : List (Call Unit)),
    readings 2 cs = [400, 1000, 999, 1400] ∧
      st.offers 2 cs = [(.rising, true), (.rising, false)] ∧
      (st.offers 2 cs).map Prod.fst =
        (edges 1000 (readings 2 cs)).filter (EventMask.only .rising).contains := by
  let quiet : Handler Unit := fun _ c => .finish c none
  let options : IrqOptions Unit := ⟨true, some 1000, ()⟩
  let earlier : List (Call Unit) := [.attachGpio 0, .attachAdc 1]
  let st : Station Unit :=
    (start 2).run (earlier ++ [.register ⟨.adc, 2⟩ (.only .rising) options quiet])
  let cs : List (Call Unit) := [.sample 2 400, .sample 3 1400, .process 1] ++
    List.replicate 15 (.raise 1 2 .rising) ++
    [.sample 2 1000, .register ⟨.adc, 3⟩ .edges options quiet, .sample 2 999, .sample 2 1400]
  have harmed : ∀ k < 23, ((st.run (cs.take k)).hub.backend? .adc).map
      (fun b => ((st.run (cs.take k)).lines.get b.line).armedAt 2) =
        some (some ⟨1, .only .rising⟩) := by decide +kernel
  have hholds (pre : List (Call Unit)) (hpre : pre <+: cs) :
      (st.run pre).Holds ⟨.adc, 1⟩ 2 (.only .rising) := by
    have hlen : pre.length < 23 := Nat.lt_succ_of_le hpre.length_le
    have hat := harmed pre.length hlen
    rw [← List.prefix_iff_eq_take.mp hpre] at hat
    exact Option.map_eq_some_iff.mp hat
  have hcrossings : Crossings st ⟨.adc, 1⟩ 2 1000 (.only .rising) cs :=
    @edges_are_crossings Unit 2 earlier cs 2 (.only .rising) options quiet ⟨.adc, 1⟩ 1000 st rfl
      (by decide +kernel) rfl (by decide +kernel) hholds
  exact ⟨st, cs, by decide +kernel, by decide +kernel, hcrossings.inOrder⟩

end Coop
