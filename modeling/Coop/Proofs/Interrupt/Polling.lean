import Coop.Proofs.Interrupt.History
import Mathlib.Logic.Function.Iterate

/-!
# Looking for events

The backends take turns: one look is at the backend in turn, and then it is the next one's turn. A
search for an event is a number of looks at empty queues, at most one round of them, and possibly a
last look that finds the oldest event of a queue.

* `Hub.turn?`, `Hub.advance`, `Hub.Idle`: the backend in turn, and the hub after its turn;
* `wrapped`, `advance_round`: after a whole round the turn is where it was;
* `Handover`, `Station.Finds`: an event that is found;
* **`empty_or_finds`**, `poll_of_empty`, `poll_of_finds`: a search, look by look;
* `Drain.run_add`: a search in vain changes nothing for the next one, and so a batch may be cut in
  two.
-/

namespace Coop

/-- Whoever goes around a circle comes by every place. -/
theorem exists_add_mod_eq {n place : Nat} (start : Nat) (hplace : place < n) :
    ∃ i < n, (start + i) % n = place := by
  have hstart := Nat.mod_lt start (Nat.zero_lt_of_lt hplace)
  rcases Nat.lt_or_ge place (start % n) with hbehind | hahead
  · refine ⟨place + (n - start % n), by omega, ?_⟩
    have hsum : start % n + (place + (n - start % n)) = place + n := by omega
    rw [← Nat.mod_add_mod, hsum, Nat.add_mod_right, Nat.mod_eq_of_lt hplace]
  · refine ⟨place - start % n, by omega, ?_⟩
    rw [← Nat.mod_add_mod, Nat.add_sub_cancel' hahead, Nat.mod_eq_of_lt hplace]

variable {C : Type}

namespace Hub

variable {h : Hub C} {lines : Lines}

/-! ## Turns -/

/-- The backend in turn. -/
def turn? (h : Hub C) : Option Backend := h.backends[h.cursor % h.backends.length]?

/-- The hub when the backend in turn has had its turn. -/
def advance (h : Hub C) : Hub C :=
  { h with cursor := (h.cursor % h.backends.length + 1) % h.backends.length }

@[simp] theorem find?_advance (h : Hub C) (id : IrqId) : h.advance.find? id = h.find? id := rfl

@[simp] theorem discarded_advance (h : Hub C) : h.advance.discarded = h.discarded := rfl

@[simp] theorem faults_advance (h : Hub C) : h.advance.faults = h.faults := rfl

/-- The backend in turn has no event. -/
def Idle (h : Hub C) (lines : Lines) : Prop :=
  ∀ b, h.turn? = some b → (lines.get b.line).queue = []

/-- No backend has an event. -/
def Empty (h : Hub C) (lines : Lines) : Prop := ∀ b ∈ h.backends, (lines.get b.line).queue = []

theorem mem_of_turn? {b : Backend} (hb : h.turn? = some b) : b ∈ h.backends :=
  List.mem_of_getElem? hb

theorem Empty.idle (he : h.Empty lines) : h.Idle lines := fun b hb => he b (mem_of_turn? hb)

theorem advance_iterate_succ (h : Hub C) (i : Nat) :
    advance^[i + 1] h = { h with cursor := (h.cursor + (i + 1)) % h.backends.length } := by
  induction i with
  | zero => rw [Function.iterate_one, advance, Nat.mod_add_mod]
  | succ i ih =>
    rw [Function.iterate_succ_apply', ih, advance, Nat.mod_mod, Nat.mod_add_mod]
    rfl

theorem advance_iterate (h : Hub C) (i : Nat) :
    ∃ cursor, advance^[i] h = { h with cursor := cursor } ∧
      cursor % h.backends.length = (h.cursor + i) % h.backends.length := by
  cases i with
  | zero => exact ⟨h.cursor, rfl, rfl⟩
  | succ i => exact ⟨_, h.advance_iterate_succ i, Nat.mod_mod _ _⟩

theorem turn?_advance_iterate (h : Hub C) (i : Nat) :
    (advance^[i] h).turn? = h.backends[(h.cursor + i) % h.backends.length]? := by
  obtain ⟨cursor, hi, hmod⟩ := h.advance_iterate i
  rw [hi, ← hmod]
  rfl

theorem Empty.advance_iterate (he : h.Empty lines) (i : Nat) : (advance^[i] h).Empty lines := by
  obtain ⟨cursor, hi, -⟩ := h.advance_iterate i
  rw [hi]
  exact he

/-- The hub with the cursor wrapped around the backends: the same backend is in turn. -/
def wrapped (h : Hub C) : Hub C := { h with cursor := h.cursor % h.backends.length }

theorem wrapped_wrapped (h : Hub C) : h.wrapped.wrapped = h.wrapped := by
  simp only [wrapped, Nat.mod_mod]

theorem Empty.wrapped (he : h.Empty lines) : h.wrapped.Empty lines := he

/-- **After a whole round it is the same backend's turn.** -/
theorem advance_round (h : Hub C) : advance^[h.backends.length] h = h.wrapped := by
  unfold wrapped
  cases hlen : h.backends.length with
  | zero => rw [Function.iterate_zero_apply, Nat.mod_zero]
  | succ n => rw [advance_iterate_succ, hlen, Nat.add_mod_right]

theorem exists_turn {b : Backend} (hb : b ∈ h.backends) :
    ∃ i < h.backends.length, (advance^[i] h).turn? = some b := by
  obtain ⟨place, hplace, rfl⟩ := List.mem_iff_getElem.mp hb
  obtain ⟨i, hlt, hi⟩ := exists_add_mod_eq h.cursor hplace
  refine ⟨i, hlt, ?_⟩
  rw [turn?_advance_iterate, hi, List.getElem?_eq_getElem hplace]

theorem empty_of_idle (hidle : ∀ i < h.backends.length, (advance^[i] h).Idle lines) :
    h.Empty lines := by
  intro b hb
  obtain ⟨i, hi, hturn⟩ := exists_turn hb
  exact hidle i hi b hturn

end Hub

/-! ## Finding an event -/

/-- An event that a look finds: the station at that moment, the backend in turn, and the oldest
event of its queue. -/
structure Handover (C : Type) where
  before : Station C
  backend : Backend
  raw : UInt16
  kind : EventKind
  rest : List (UInt16 × EventKind)
  inTurn : before.hub.turn? = some backend
  oldest : (before.lines.get backend.line).queue = (raw, kind) :: rest

namespace Handover

variable (e : Handover C)

/-- The number the event was queued under. -/
def id : IrqId := ⟨e.backend.kind, e.raw⟩

/-- The lines without the event. -/
def lines : Lines := e.before.lines.set e.backend.line
  { e.before.lines.get e.backend.line with queue := e.rest }

end Handover

/-- The search of a station finds this event, after `i` looks at empty queues. -/
structure Station.Finds (st : Station C) (i : Nat) (e : Handover C) : Prop where
  within : i < st.hub.backends.length
  idle : ∀ j < i, (Hub.advance^[j] st.hub).Idle st.lines
  before : e.before = ⟨Hub.advance^[i] st.hub, st.lines⟩

namespace Hub

variable {h : Hub C} {lines : Lines}

/-- A look finds nothing, or the event to hand over. -/
theorem idle_or_handover (h : Hub C) (lines : Lines) :
    h.Idle lines ∨ ∃ e : Handover C, e.before = ⟨h, lines⟩ := by
  cases hb : h.turn? with
  | none => exact .inl fun b hb' => by simp [hb] at hb'
  | some b =>
    cases hq : (lines.get b.line).queue with
    | nil =>
      refine .inl fun b' hb' => ?_
      rw [hb] at hb'
      cases hb'
      exact hq
    | cons event rest => exact .inr ⟨⟨⟨h, lines⟩, b, event.1, event.2, rest, hb, hq⟩, rfl⟩

/-- **A search for an event**: all queues are empty, or after less than a round of looks at empty
queues comes one that finds the oldest event of the backend in turn. -/
theorem empty_or_finds (h : Hub C) (lines : Lines) :
    h.Empty lines ∨ ∃ i e, Station.Finds ⟨h, lines⟩ i e := by
  suffices hn : ∀ n ≤ h.backends.length, (∀ j < n, (advance^[j] h).Idle lines) ∨
      ∃ i e, Station.Finds ⟨h, lines⟩ i e by
    exact (hn _ (Nat.le_refl _)).imp_left empty_of_idle
  intro n hn
  induction n with
  | zero => exact .inl nofun
  | succ n ih =>
    rcases ih (Nat.le_of_succ_le hn) with hidle | hfinds
    · rcases (advance^[n] h).idle_or_handover lines with hlast | ⟨e, he⟩
      · refine .inl fun j hj => ?_
        rcases Nat.lt_succ_iff_lt_or_eq.mp hj with hj | rfl
        · exact hidle j hj
        · exact hlast
      · exact .inr ⟨n, e, hn, hidle, he⟩
    · exact .inr hfinds

/-! ## Looks -/

theorem pollFrom_handover (n : Nat) (e : Handover C) :
    pollFrom (n + 1) e.before.hub e.before.lines =
      (some (e.id, e.kind), e.before.hub.advance, e.lines) := by
  have hturn : e.before.hub.backends[e.before.hub.cursor % e.before.hub.backends.length]? =
      some e.backend := e.inTurn
  unfold pollFrom
  simp only [hturn, SignalLine.take?, e.oldest]
  rfl

theorem pollFrom_succ_of_idle (hpos : 0 < h.backends.length) (hidle : h.Idle lines) (n : Nat) :
    pollFrom (n + 1) h lines = pollFrom n h.advance lines := by
  have hturn := List.getElem?_eq_getElem (Nat.mod_lt h.cursor hpos)
  have hqueue := hidle _ hturn
  rw [pollFrom]
  simp only [hturn, SignalLine.take?, hqueue]
  rfl

theorem pollFrom_one_of_idle (hidle : h.Idle lines) :
    pollFrom 1 h lines = (none, h.advance, lines) := by
  rcases Nat.eq_zero_or_pos h.backends.length with hnone | hpos
  · have hturn : h.backends[h.cursor % h.backends.length]? = none := by
      rw [List.length_eq_zero_iff.mp hnone, List.getElem?_nil]
    simp only [pollFrom, hturn]
    rfl
  · exact pollFrom_succ_of_idle hpos hidle 0

theorem pollFrom_of_idle {i : Nat} (hpos : 0 < h.backends.length)
    (hidle : ∀ j < i, (advance^[j] h).Idle lines) (n : Nat) :
    pollFrom (i + n) h lines = pollFrom n (advance^[i] h) lines := by
  induction i generalizing h with
  | zero => rw [Nat.zero_add, Function.iterate_zero_apply]
  | succ i ih =>
    rw [Nat.add_right_comm, pollFrom_succ_of_idle hpos (hidle 0 (Nat.succ_pos i)),
      ih (h := h.advance) hpos fun j hj => hidle (j + 1) (Nat.succ_lt_succ hj)]
    rfl

/-- If all queues are empty, a whole round finds nothing, and it is the same backend's turn again.
-/
theorem poll_of_empty (he : h.Empty lines) :
    h.poll lines = (none, h.wrapped, lines) := by
  rw [← advance_round]
  rcases Nat.eq_zero_or_pos h.backends.length with hnone | hpos
  · rw [poll, hnone]
    rfl
  · have hidle (j : Nat) (_ : j < h.backends.length) : (advance^[j] h).Idle lines :=
      (he.advance_iterate j).idle
    exact pollFrom_of_idle hpos hidle 0

theorem poll_of_finds {st : Station C} {i : Nat} {e : Handover C} (hf : st.Finds i e) :
    st.hub.poll st.lines = (some (e.id, e.kind), e.before.hub.advance, e.lines) := by
  obtain ⟨n, hn⟩ := Nat.exists_eq_add_of_lt hf.within
  have hpoll := pollFrom_handover n e
  rw [hf.before] at hpoll ⊢
  rw [poll, hn, Nat.add_assoc, pollFrom_of_idle (Nat.zero_lt_of_lt hf.within) hf.idle]
  exact hpoll

end Hub

namespace Drain

variable (max : Nat) (deliveries : Array (Delivery C)) (log : Array Entry)

theorem run_of_empty {h : Hub C} {lines : Lines} (he : h.Empty lines) :
    run (max + 1) ⟨h, lines, deliveries, log⟩ = ⟨h.wrapped, lines, deliveries, log⟩ := by
  rw [run, Hub.poll_of_empty he]

theorem run_of_finds {st : Station C} {i : Nat} {e : Handover C} (hf : st.Finds i e) :
    run (max + 1) ⟨st.hub, st.lines, deliveries, log⟩ =
      run max (deliver ⟨e.before.hub.advance, e.lines, deliveries, log⟩ e.id e.kind) := by
  rw [run, Hub.poll_of_finds hf]

/-- **A batch may be cut in two anywhere.** If the first part ends with a search in vain, so does
the second, and both leave the turn where it was. -/
theorem run_add (a b : Nat) (d : Drain C) : run (a + b) d = run b (run a d) := by
  induction a generalizing d with
  | zero => rw [Nat.zero_add, run]
  | succ a ih =>
    obtain ⟨hub, lines, deliveries, log⟩ := d
    rw [Nat.add_right_comm]
    rcases hub.empty_or_finds lines with he | ⟨i, e, hf⟩
    · rw [run_of_empty _ _ _ he, run_of_empty _ _ _ he]
      cases b with
      | zero => rfl
      | succ b => rw [run_of_empty _ _ _ he.wrapped, Hub.wrapped_wrapped]
    · rw [run_of_finds _ _ _ hf, run_of_finds _ _ _ hf]
      exact ih _

end Drain

end Coop
