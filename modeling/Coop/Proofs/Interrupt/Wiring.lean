import Coop.Proofs.Interrupt.History
import Mathlib.Logic.Function.Basic
import Mathlib.Tactic.SplitIfs

/-!
# The wiring of a station

Of a hub and its lines, only a part decides which events are queued and whom they come to: the lines
themselves, where each backend's line is and which number it will draw, and what the registered
handlers are for. Every call changes this part in a few elementary ways, each of which leaves at
most one incident.

* `Port`, `Wiring`, `Station.wiring`: that part;
* **`Wiring.Step`**, `Wiring.Chain`: the elementary changes, one and many;
* `known_putHandler`, `known_remove`, `known_insert`, `ports_putBackend`: what is done to a hub;
* `pollFrom_cases`, `chain_raises`, `chain_hand`, **`chain_drain`**: handing over events.
-/

namespace Coop

variable {C : Type}

/-- The line of a backend, and the number it will try next. -/
structure Port where
  kind : Peripheral
  line : LineId
  next : UInt16

/-- The port of a backend: all of it but the watches of a converter. -/
def Backend.port : Backend → Port
  | gpio line next => ⟨.gpio, line, next⟩
  | adc line next _ => ⟨.adc, line, next⟩

@[simp] theorem Backend.kind_port (b : Backend) : b.port.kind = b.kind := by cases b <;> rfl

@[simp] theorem Backend.line_port (b : Backend) : b.port.line = b.line := by cases b <;> rfl

/-- The part of a station that decides where events go. -/
structure Wiring where
  ports : List Port
  /-- What the handler with a number is for. -/
  known : IrqId → Option (Source × EventMask)
  lines : Lines

namespace Hub

/-- The ports of the backends, in the order of the backends. -/
def ports (h : Hub C) : List Port := h.backends.map Backend.port

/-- What the handlers are for: the source and the events each was registered for. -/
def known (h : Hub C) (id : IrqId) : Option (Source × EventMask) :=
  (h.find? id).map fun r => (r.source, r.mask)

end Hub

/-- The wiring of a station. -/
def Station.wiring (st : Station C) : Wiring := ⟨st.hub.ports, st.hub.known, st.lines⟩

namespace Wiring

/-- The ports with the one of the same kind replaced. -/
def putPort (w : Wiring) (p : Port) : List Port :=
  w.ports.map fun q => if q.kind = p.kind then p else q

/-- What is known without a number. -/
def without (w : Wiring) (id : IrqId) : IrqId → Option (Source × EventMask) :=
  Function.update w.known id none

/-- One elementary change, and the incident it leaves. -/
inductive Step (w : Wiring) : List Incident → Wiring → Prop
  | attach (kind : Peripheral) (line : LineId) :
    Step w [.attached kind line]
      { w with ports := w.ports.filter (fun p => p.kind ≠ kind) ++ [⟨kind, line, 1⟩] }
  /-- A backend was put back as it was. -/
  | touch {p : Port} (hp : p ∈ w.ports) : Step w [] { w with ports := w.putPort p }
  | waste {p : Port} (hp : p ∈ w.ports) {source : Source} (hs : source.kind = p.kind)
    {raw next : UInt16} (hd : freshRaw (w.lines.get p.line) rawTries p.next = (raw, next)) :
    Step w [.wasted source] { w with ports := w.putPort ⟨p.kind, p.line, next⟩ }
  | register {p : Port} (hp : p ∈ w.ports) {source : Source} (hs : source.kind = p.kind)
    {raw next : UInt16} (hd : freshRaw (w.lines.get p.line) rawTries p.next = (raw, next))
    {mask : EventMask} {line : SignalLine}
    (ha : (w.lines.get p.line).arm source.channel raw mask = .ok line) :
    Step w [.registered ⟨p.kind, raw⟩ source mask]
      { ports := w.putPort ⟨p.kind, p.line, next⟩
        known := Function.update w.known ⟨p.kind, raw⟩ (some (source, mask))
        lines := w.lines.set p.line line }
  /-- A registration whose backend is gone. -/
  | forget {id : IrqId} (hp : ∀ p ∈ w.ports, p.kind ≠ id.kind) :
    Step w [] { w with known := w.without id }
  | unregister {p : Port} (hp : p ∈ w.ports) {id : IrqId} (hk : p.kind = id.kind) :
    Step w [] { w with
      known := w.without id
      lines := w.lines.set p.line ((w.lines.get p.line).disarm id.raw) }
  | raise (line : LineId) (channel : UInt8) (kind : EventKind) :
    Step w [w.lines.incident line channel kind]
      { w with lines := (w.lines.raise line channel kind).2 }
  | disarmAll (line : LineId) :
    Step w [] { w with lines := w.lines.set line (w.lines.get line).disarmAll }
  | call {p : Port} (hp : p ∈ w.ports) {raw : UInt16} {kind : EventKind} {rest : SignalLine}
    (ht : (w.lines.get p.line).take? = some ((raw, kind), rest)) {source : Source}
    {mask : EventMask} (hk : w.known ⟨p.kind, raw⟩ = some (source, mask)) :
    Step w [.called ⟨⟨p.kind, raw⟩, source, kind⟩] { w with lines := w.lines.set p.line rest }
  | discard {p : Port} (hp : p ∈ w.ports) {raw : UInt16} {kind : EventKind} {rest : SignalLine}
    (ht : (w.lines.get p.line).take? = some ((raw, kind), rest)) :
    Step w [.discarded ⟨p.kind, raw⟩ kind] { w with lines := w.lines.set p.line rest }

/-- Elementary changes, one after the other. -/
inductive Chain : Wiring → List Incident → Wiring → Prop
  | nil (w : Wiring) : Chain w [] w
  | cons {w w' w'' : Wiring} {xs ys : List Incident} (h : Step w xs w') (hc : Chain w' ys w'') :
    Chain w (xs ++ ys) w''

namespace Chain

variable {w w' w'' : Wiring} {xs ys : List Incident}

theorem one (h : Step w xs w') : Chain w xs w' := by
  have := Chain.cons h (.nil w')
  rwa [List.append_nil] at this

theorem trans (h : Chain w xs w') (h' : Chain w' ys w'') : Chain w (xs ++ ys) w'' := by
  induction h with
  | nil => exact h'
  | cons hs _ ih =>
    rw [List.append_assoc]
    exact .cons hs (ih h')

end Chain

end Wiring

open Wiring

/-! ## Parts of a hub -/

namespace Hub

variable {h : Hub C} {id : IrqId}

theorem mem_ports_of_backend? {kind : Peripheral} {b : Backend} (hb : h.backend? kind = some b) :
    b.port ∈ h.ports ∧ b.port.kind = kind := by
  have hkind := List.find?_some (p := fun b : Backend => b.kind == kind) hb
  rw [Backend.kind_port]
  exact ⟨List.mem_map_of_mem (List.mem_of_find?_eq_some hb), eq_of_beq hkind⟩

theorem ports_putBackend (h : Hub C) (b : Backend) :
    (h.putBackend b).ports = h.ports.map fun q => if q.kind = b.kind then b.port else q := by
  unfold ports putBackend
  rw [List.map_map, List.map_map]
  refine List.map_congr_left fun o _ => ?_
  simp only [Function.comp_apply, Backend.kind_port]
  split_ifs <;> rfl

theorem lookup_put {handlers : List (IrqId × Registration C)} (r : Registration C) (id' : IrqId) :
    (handlers.map fun e => if e.1 = id then (id, r) else e).lookup id' =
      if id' = id then (handlers.lookup id).map fun _ => r else handlers.lookup id' := by
  induction handlers with
  | nil => simp
  | cons e handlers ih =>
    obtain ⟨id₀, r₀⟩ := e
    rw [List.map_cons]
    by_cases h₀ : id₀ = id
    · rw [if_pos h₀, h₀]
      by_cases h' : id' = id
      · simp [h']
      · have hne : (id' == id) = false := beq_eq_false_iff_ne.mpr h'
        rw [if_neg h'] at ih ⊢
        rw [List.lookup_cons, List.lookup_cons, hne, ih]
    · rw [if_neg h₀]
      have hne : (id == id₀) = false := beq_eq_false_iff_ne.mpr (Ne.symm h₀)
      rw [List.lookup_cons, List.lookup_cons, List.lookup_cons, hne, ih]
      cases hid : id' == id₀ with
      | false => rfl
      | true =>
        have hne' : id' ≠ id := fun h => h₀ ((eq_of_beq hid).symm.trans h)
        exact (if_neg hne').symm

theorem lookup_remove {handlers : List (IrqId × Registration C)} (id' : IrqId) :
    (handlers.filter fun e => e.1 ≠ id).lookup id' =
      if id' = id then none else handlers.lookup id' := by
  induction handlers with
  | nil => simp
  | cons e handlers ih =>
    obtain ⟨id₀, r₀⟩ := e
    by_cases h₀ : id₀ = id
    · rw [List.filter_cons_of_neg (by simp [h₀]), ih, List.lookup_cons, h₀]
      split_ifs with h'
      · rfl
      · rw [beq_eq_false_iff_ne.mpr h']
    · rw [List.filter_cons_of_pos (by simp [h₀]), List.lookup_cons, List.lookup_cons, ih]
      cases hid : id' == id₀ with
      | false => rfl
      | true =>
        have hne' : id' ≠ id := fun h => h₀ ((eq_of_beq hid).symm.trans h)
        exact (if_neg hne').symm

/-- The hub without the handler with a number. -/
def remove (h : Hub C) (id : IrqId) : Hub C :=
  { h with handlers := h.handlers.filter (fun e => e.1 ≠ id) }

/-- The hub with a handler in place of any other with its number. -/
def insert (h : Hub C) (id : IrqId) (r : Registration C) : Hub C :=
  { h with handlers := h.handlers.filter (fun e => e.1 ≠ id) ++ [(id, r)] }

theorem find?_insert (h : Hub C) (id : IrqId) (r : Registration C) (other : IrqId) :
    (h.insert id r).find? other = if other = id then some r else h.find? other := by
  unfold find? insert
  rw [List.lookup_append, lookup_remove]
  split_ifs with hid
  · simp [hid]
  · simp [beq_eq_false_iff_ne.mpr hid, List.lookup_cons]

theorem known_putHandler {r : Registration C} (hr : h.find? id = some r) (r' : Registration C)
    (hs : r'.source = r.source) (hm : r'.mask = r.mask) : (h.putHandler id r').known = h.known := by
  funext id'
  unfold known find? putHandler
  rw [lookup_put]
  split_ifs with hid
  · have hr : h.handlers.lookup id = some r := hr
    rw [hid, hr]
    simp [hs, hm]
  · rfl

theorem known_remove (h : Hub C) (id : IrqId) :
    (h.remove id).known = Function.update h.known id none := by
  funext id'
  unfold known find? remove
  rw [lookup_remove, Function.update_apply]
  split_ifs <;> rfl

theorem known_insert (h : Hub C) (id : IrqId) (r : Registration C) :
    (h.insert id r).known = Function.update h.known id (some (r.source, r.mask)) := by
  funext id'
  rw [known, find?_insert, Function.update_apply]
  split_ifs <;> rfl

/-- A look at the backends finds the oldest event of one of them, or none at all. -/
theorem pollFrom_cases (n : Nat) (h : Hub C) (lines : Lines) :
    (∃ h', pollFrom n h lines = (none, h', lines) ∧ h'.ports = h.ports ∧ h'.known = h.known) ∨
      ∃ h' p raw kind rest,
        pollFrom n h lines = (some (⟨p.kind, raw⟩, kind), h', lines.set p.line rest) ∧
        h'.ports = h.ports ∧ h'.known = h.known ∧ p ∈ h.ports ∧
        (lines.get p.line).take? = some ((raw, kind), rest) := by
  induction n generalizing h with
  | zero => exact .inl ⟨h, rfl, rfl, rfl⟩
  | succ n ih =>
    unfold pollFrom
    dsimp only
    cases hb : h.backends[h.cursor % h.backends.length]? with
    | none => exact .inl ⟨_, rfl, rfl, rfl⟩
    | some b =>
      dsimp only
      cases ht : (lines.get b.line).take? with
      | none => exact ih _
      | some e =>
        obtain ⟨⟨raw, kind⟩, rest⟩ := e
        refine .inr ⟨{ h with cursor := (h.cursor % h.backends.length + 1) % h.backends.length },
          b.port, raw, kind, rest, ?_, rfl, rfl, ?_, ?_⟩
        · rw [Backend.kind_port, Backend.line_port]
        · exact List.mem_map_of_mem (List.mem_of_getElem? hb)
        · rw [Backend.line_port]
          exact ht

end Hub

/-! ## Handing over events -/

theorem Reaction.chain_raises (r : Reaction C) (w : Wiring) :
    Chain w (r.raises w.lines) { w with lines := (r.perform w.lines).lines } := by
  induction r generalizing w with
  | finish => exact .nil w
  | raise line channel kind next ih =>
    have hrest := ih (w.lines.raise line channel kind).1
      { w with lines := (w.lines.raise line channel kind).2 }
    exact .cons (.raise line channel kind) hrest
  | log entry next ih => exact ih w

namespace Station

variable {st : Station C} {w : Wiring} {p : Port} {raw : UInt16} {kind : EventKind}
  {rest : SignalLine}

theorem wiring_hand_of_none {id : IrqId} (hr : st.hub.find? id = none) :
    (st.hand id kind).wiring = st.wiring := by
  unfold hand Drain.deliver
  simp only [hr]
  rfl

theorem wiring_hand_of_disabled {id : IrqId} {r : Registration C} (hr : st.hub.find? id = some r)
    (he : r.enabled = false) : (st.hand id kind).wiring = st.wiring := by
  unfold hand Drain.deliver
  simp only [hr, he]
  rfl

theorem wiring_hand {id : IrqId} {r : Registration C} (hr : st.hub.find? id = some r)
    (he : r.enabled = true) : (st.hand id kind).wiring = { st.wiring with
      lines := ((r.handler ⟨id, r.source, kind⟩ r.capture).perform st.lines).lines } := by
  unfold hand Drain.deliver
  simp only [hr, he, if_true]
  generalize (r.handler ⟨id, r.source, kind⟩ r.capture).perform st.lines = done
  have hknown := Hub.known_putHandler hr { r with enabled := true, capture := done.capture } rfl rfl
  cases done.failure with
  | none => exact congrArg (Wiring.mk _ · _) hknown
  | some message => exact congrArg (Wiring.mk _ · _) hknown

theorem chain_hand (hp : p ∈ w.ports)
    (ht : (w.lines.get p.line).take? = some ((raw, kind), rest))
    (hst : st.wiring = { w with lines := w.lines.set p.line rest }) :
    Chain w (st.handed ⟨p.kind, raw⟩ kind) (st.hand ⟨p.kind, raw⟩ kind).wiring := by
  have hdiscard : Chain w [.discarded ⟨p.kind, raw⟩ kind] st.wiring := by
    rw [hst]
    exact .one (.discard hp ht)
  unfold handed
  cases hr : st.hub.find? ⟨p.kind, raw⟩ with
  | none =>
    rw [wiring_hand_of_none hr]
    exact hdiscard
  | some r =>
    dsimp only
    cases he : r.enabled with
    | false =>
      rw [wiring_hand_of_disabled hr he]
      exact hdiscard
    | true =>
      have hknown : w.known ⟨p.kind, raw⟩ = some (r.source, r.mask) := by
        have hk : st.hub.known = w.known := congrArg known hst
        rw [← hk, Hub.known, hr]
        rfl
      rw [wiring_hand hr he]
      refine .cons (.call hp ht hknown) ?_
      rw [← hst]
      exact Reaction.chain_raises _ st.wiring

theorem chain_poll (n : Nat) (st : Station C) :
    (∃ hub, Hub.pollFrom n st.hub st.lines = (none, hub, st.lines) ∧
      Station.wiring ⟨hub, st.lines⟩ = st.wiring) ∨
    ∃ id kind hub lines, Hub.pollFrom n st.hub st.lines = (some (id, kind), hub, lines) ∧
      Chain st.wiring (handed ⟨hub, lines⟩ id kind) (hand ⟨hub, lines⟩ id kind).wiring := by
  rcases st.hub.pollFrom_cases n st.lines with
    ⟨hub, hpoll, hports, hknown⟩ | ⟨hub, p, raw, kind, rest, hpoll, hports, hknown, hp, ht⟩
  · refine .inl ⟨hub, hpoll, ?_⟩
    rw [wiring, wiring, hports, hknown]
  · refine .inr ⟨_, kind, hub, _, hpoll, chain_hand (w := st.wiring) hp ht ?_⟩
    rw [wiring, hports, hknown]
    rfl

theorem chain_drain (max : Nat) (d : Drain C) :
    Chain d.station.wiring (d.station.batch max) (Drain.run max d).station.wiring := by
  induction max generalizing d with
  | zero => exact .nil _
  | succ max ih =>
    unfold Drain.run batch Hub.poll
    rcases chain_poll d.hub.backends.length d.station with
      ⟨hub, hpoll, hsame⟩ | ⟨id, kind, hub, lines, hpoll, hchain⟩
    · simp only [Drain.station] at hpoll hsame ⊢
      rw [hpoll, ← hsame]
      exact .nil _
    · have hrest := ih (Drain.deliver { d with hub := hub, lines := lines } id kind)
      rw [Drain.station_deliver] at hrest
      simp only [Drain.station] at hpoll hchain hrest ⊢
      rw [hpoll]
      exact hchain.trans hrest

end Station

end Coop
