import Coop.Proofs.Interrupt.History
import Mathlib.Tactic.Choose
import Mathlib.Tactic.SplitIfs

/-!
# Traces that make sense

What may stand where in a trace, and what follows for the handler calls in it: each goes back to an
event that was raised and queued before, no two to the same one, and those on one line come in the
order of the events.

* `Trace.sent`, `Trace.taken`, `Trace.drawn`: the queued events, those taken out again, and the
  numbers drawn;
* `Trace.Allowed`, `Trace.Sound`: what may stand behind a trace, and traces made of such incidents;
* `registered_unique`, `attached_unique`: numbers and lines are given once;
* `Trace.Caused`: the event a call goes back to;
* **`Sound.exists_cause`**: there is one for every call.
-/

namespace Coop

namespace Incident

/-- The event that was queued on a line, as it stands in the queue. -/
def sent? (line : LineId) : Incident → Option (UInt16 × EventKind)
  | raised l _ kind (some a) true => if l = line then some (a.raw, kind) else none
  | _ => none

/-- The event that was taken from the queue of a peripheral. -/
def taken? (kind : Peripheral) : Incident → Option (UInt16 × EventKind)
  | called e => if e.id.kind = kind then some (e.id.raw, e.kind) else none
  | discarded id k => if id.kind = kind then some (id.raw, k) else none
  | _ => none

/-- Whether a backend drew a number. -/
def draws (kind : Peripheral) : Incident → Bool
  | registered id _ _ => id.kind = kind
  | wasted source => source.kind = kind
  | _ => false

theorem sent?_eq_some {line : LineId} {x : Incident} {raw : UInt16} {kind : EventKind}
    (h : x.sent? line = some (raw, kind)) :
    ∃ channel mask, x = .raised line channel kind (some ⟨raw, mask⟩) true := by
  unfold sent? at h
  split at h
  · split_ifs at h with hl
    cases h
    cases hl
    exact ⟨_, _, rfl⟩
  · cases h

end Incident

/-- What happened in a run, in order. -/
abbrev Trace := List Incident

namespace Trace

variable {tr : Trace} {x : Incident}

/-- The events queued on a line, in order, each under its number. -/
def sent (line : LineId) (tr : Trace) : List (UInt16 × EventKind) :=
  tr.filterMap (Incident.sent? line)

/-- The events taken from the queues for a kind of peripheral, in order. -/
def taken (kind : Peripheral) (tr : Trace) : List (UInt16 × EventKind) :=
  tr.filterMap (Incident.taken? kind)

/-- How many numbers were drawn for a kind of peripheral. -/
def drawn (kind : Peripheral) (tr : Trace) : Nat := tr.countP (Incident.draws kind)

/-- What may stand behind a trace. -/
def Allowed (tr : Trace) : Incident → Prop
  | .attached kind line => (∀ l, .attached kind l ∉ tr) ∧ ∀ k, .attached k line ∉ tr
  | .registered id _ _ => ∀ s m, .registered id s m ∉ tr
  | .raised line channel kind armed true => ∃ k raw mask, armed = some ⟨raw, mask⟩ ∧
    mask.contains kind = true ∧ .attached k line ∈ tr ∧
    .registered ⟨k, raw⟩ ⟨k, channel⟩ mask ∈ tr
  | .called e => (∃ mask, .registered e.id e.source mask ∈ tr) ∧
    ∃ line, .attached e.id.kind line ∈ tr ∧
      (taken e.id.kind tr ++ [(e.id.raw, e.kind)]) <+: sent line tr
  | _ => True

/-- A trace in which everything stands where it may. -/
def Sound (tr : Trace) : Prop := ∀ j x, tr[j]? = some x → Allowed (tr.take j) x

theorem Sound.snoc (h : Sound tr) (hx : Allowed tr x) : Sound (tr ++ [x]) := by
  intro j y hj
  rcases Nat.lt_or_ge j tr.length with hlt | hge
  · rw [List.getElem?_append_left hlt] at hj
    rw [List.take_append_of_le_length (Nat.le_of_lt hlt)]
    exact h j y hj
  · have hlen := (List.getElem?_eq_some_iff.mp hj).1
    rw [List.length_append, List.length_singleton] at hlen
    obtain rfl : j = tr.length := by omega
    rw [List.take_left]
    simp at hj
    rwa [← hj]

/-! ## Places in a trace -/

theorem exists_of_mem_take {i : Nat} (h : x ∈ tr.take i) : ∃ k < i, tr[k]? = some x := by
  obtain ⟨k, hk, rfl⟩ := List.mem_iff_getElem.mp h
  rw [List.length_take] at hk
  refine ⟨k, by omega, ?_⟩
  rw [List.getElem_take, List.getElem?_eq_getElem]

theorem mem_take_of_lt {i k : Nat} (h : tr[k]? = some x) (hk : k < i) : x ∈ tr.take i := by
  refine List.mem_of_getElem? (i := k) ?_
  rw [List.getElem?_take_of_lt hk, h]

section Counting

variable {α : Type} {f : Incident → Option α}

theorem exists_place {n : Nat} {v : α} (h : (tr.filterMap f)[n]? = some v) :
    ∃ i y, tr[i]? = some y ∧ f y = some v ∧ ((tr.take i).filterMap f).length = n := by
  induction tr generalizing n with
  | nil => simp at h
  | cons y tr ih =>
    cases hy : f y with
    | none =>
      rw [List.filterMap_cons_none hy] at h
      obtain ⟨i, z, hi, hz, hn⟩ := ih h
      exact ⟨i + 1, z, hi, hz, by rw [List.take_succ_cons, List.filterMap_cons_none hy, hn]⟩
    | some w =>
      rw [List.filterMap_cons_some hy] at h
      cases n with
      | zero =>
        cases h
        exact ⟨0, y, rfl, hy, rfl⟩
      | succ n =>
        obtain ⟨i, z, hi, hz, hn⟩ := ih h
        refine ⟨i + 1, z, hi, hz, ?_⟩
        rw [List.take_succ_cons, List.filterMap_cons_some hy, List.length_cons, hn]

theorem count_mono (tr : Trace) (f : Incident → Option α) {i j : Nat} (h : i ≤ j) :
    ((tr.take i).filterMap f).length ≤ ((tr.take j).filterMap f).length :=
  ((List.take_prefix_take_left h).filterMap f).length_le

theorem count_lt {i j : Nat} (h : i < j) (hx : tr[i]? = some x) (hf : (f x).isSome = true) :
    ((tr.take i).filterMap f).length < ((tr.take j).filterMap f).length := by
  have hstep : ((tr.take (i + 1)).filterMap f).length = ((tr.take i).filterMap f).length + 1 := by
    obtain ⟨v, hv⟩ := Option.isSome_iff_exists.mp hf
    rw [List.take_add_one, hx, List.filterMap_append]
    simp [hv]
  have := count_mono tr f (show i + 1 ≤ j from h)
  omega

end Counting

/-! ## Causes -/

/-- The event raised at place `i` is the one a handler was called with at place `j`: it was queued
on the line of the peripheral, on the channel of the registration and with a kind in its mask, while
the channel was armed for that registration. -/
structure Caused (tr : Trace) (i j : Nat) (e : Event) : Prop where
  before : i < j
  raised : ∃ line mask k, .attached e.id.kind line ∈ tr ∧ k < i ∧
    tr[k]? = some (.registered e.id e.source mask) ∧
    (∀ k' s m, tr[k']? = some (.registered e.id s m) → k' = k) ∧
    mask.contains e.kind = true ∧
    tr[i]? = some (.raised line e.source.channel e.kind (some ⟨e.id.raw, mask⟩) true)

/-- A call is made for an event at the same place in its queue. -/
structure Matched (tr : Trace) (i j : Nat) (e : Event) (line : LineId) : Prop where
  attached : .attached e.id.kind line ∈ tr
  sent : ∃ y, tr[i]? = some y ∧ (y.sent? line).isSome = true
  place : (Trace.sent line (tr.take i)).length = (taken e.id.kind (tr.take j)).length

namespace Sound

variable {i j : Nat}

theorem registered_unique (h : Sound tr) {id : IrqId} {s s' : Source} {m m' : EventMask}
    (hi : tr[i]? = some (.registered id s m)) (hj : tr[j]? = some (.registered id s' m')) :
    i = j := by
  rcases Nat.lt_trichotomy i j with hlt | heq | hgt
  · exact absurd (mem_take_of_lt hi hlt) (h j _ hj s m)
  · exact heq
  · exact absurd (mem_take_of_lt hj hgt) (h i _ hi s' m')

theorem attached_unique (h : Sound tr) {kind kind' : Peripheral} {line line' : LineId}
    (hmem : .attached kind line ∈ tr) (hmem' : .attached kind' line' ∈ tr) :
    kind = kind' ↔ line = line' := by
  have later {kind kind' : Peripheral} {line line' : LineId} {i j : Nat} (hlt : i < j)
      (hi : tr[i]? = some (.attached kind line)) (hj : tr[j]? = some (.attached kind' line')) :
      kind ≠ kind' ∧ line ≠ line' := by
    obtain ⟨hkind, hline⟩ := h j _ hj
    have htake := mem_take_of_lt hi hlt
    constructor
    · rintro rfl
      exact hkind line htake
    · rintro rfl
      exact hline kind htake
  obtain ⟨i, hi⟩ := List.mem_iff_getElem?.mp hmem
  obtain ⟨j, hj⟩ := List.mem_iff_getElem?.mp hmem'
  rcases Nat.lt_trichotomy i j with hlt | rfl | hgt
  · obtain ⟨hkind, hline⟩ := later hlt hi hj
    exact iff_of_false hkind hline
  · rw [hi] at hj
    cases hj
    exact iff_of_true rfl rfl
  · obtain ⟨hkind, hline⟩ := later hgt hj hi
    exact iff_of_false hkind.symm hline.symm

theorem exists_caused (h : Sound tr) {e : Event} (hj : tr[j]? = some (.called e)) :
    ∃ i, Caused tr i j e ∧ ∃ line, Matched tr i j e line := by
  obtain ⟨⟨mask, hreg⟩, line, hatt, hfront⟩ := h j _ hj
  obtain ⟨k, -, hk⟩ := exists_of_mem_take hreg
  have hattached : .attached e.id.kind line ∈ tr := List.mem_of_mem_take hatt
  -- the event stands behind all that were taken before
  obtain ⟨rest, hsent⟩ := hfront
  have hat : (Trace.sent line (tr.take j))[(taken e.id.kind (tr.take j)).length]? =
      some (e.id.raw, e.kind) := by
    rw [← hsent]
    simp
  obtain ⟨i, y, hi, hy, hplace⟩ := exists_place hat
  have hij : i < j := by
    have := (List.getElem?_eq_some_iff.mp hi).1
    rw [List.length_take] at this
    omega
  rw [List.getElem?_take_of_lt hij] at hi
  rw [List.take_take, Nat.min_eq_left (Nat.le_of_lt hij)] at hplace
  obtain ⟨channel, mask', rfl⟩ := Incident.sent?_eq_some hy
  obtain ⟨kind, raw, mask'', harmed, hmask, hatt', hreg'⟩ := h i _ hi
  cases harmed
  obtain rfl : kind = e.id.kind :=
    (h.attached_unique (List.mem_of_mem_take hatt') hattached).mpr rfl
  obtain ⟨k', hk', hreg'⟩ := exists_of_mem_take hreg'
  -- the registration the event was queued for is the one the handler was called for
  obtain rfl : k' = k := h.registered_unique hreg' hk
  rw [hk] at hreg'
  injection Option.some.inj hreg' with _ hsource hsame
  subst hsame
  refine ⟨i, ⟨hij, line, mask, k', hattached, hk', hk, ?_, hmask, ?_⟩, line, hattached, ?_, hplace⟩
  · intro l s m hl
    exact h.registered_unique hl hk
  · rw [hi, hsource]
  · exact ⟨_, hi, by rw [hy]; rfl⟩

theorem matched_lt (h : Sound tr) {i₁ i₂ j₁ j₂ : Nat} {e₁ e₂ : Event} {line₁ line₂ : LineId}
    (hj : j₁ < j₂) (hc : tr[j₁]? = some (.called e₁)) (h₁ : Matched tr i₁ j₁ e₁ line₁)
    (h₂ : Matched tr i₂ j₂ e₂ line₂) (hk : e₁.id.kind = e₂.id.kind) : i₁ < i₂ := by
  obtain rfl : line₁ = line₂ := (h.attached_unique h₁.attached h₂.attached).mp hk
  have htaken : (taken e₁.id.kind (tr.take j₁)).length < (taken e₁.id.kind (tr.take j₂)).length :=
    count_lt hj hc (by simp [Incident.taken?])
  rw [← h₁.place, hk, ← h₂.place] at htaken
  by_contra hge
  have := count_mono tr (Incident.sent? line₁) (Nat.le_of_not_lt hge)
  exact absurd htaken (Nat.not_lt_of_le this)

theorem matched_ne (h : Sound tr) {i₁ i₂ j₁ j₂ : Nat} {e₁ e₂ : Event} {line₁ line₂ : LineId}
    (h₁ : Matched tr i₁ j₁ e₁ line₁) (h₂ : Matched tr i₂ j₂ e₂ line₂)
    (hk : e₁.id.kind ≠ e₂.id.kind) : i₁ ≠ i₂ := by
  rintro rfl
  obtain ⟨y, hy, hs₁⟩ := h₁.sent
  obtain ⟨y', hy', hs₂⟩ := h₂.sent
  rw [hy] at hy'
  cases hy'
  obtain ⟨⟨raw₁, kind₁⟩, hv₁⟩ := Option.isSome_iff_exists.mp hs₁
  obtain ⟨⟨raw₂, kind₂⟩, hv₂⟩ := Option.isSome_iff_exists.mp hs₂
  obtain ⟨_, _, rfl⟩ := Incident.sent?_eq_some hv₁
  obtain ⟨_, _, hsame⟩ := Incident.sent?_eq_some hv₂
  cases hsame
  exact hk ((h.attached_unique h₁.attached h₂.attached).mpr rfl)

/-- **Every handler call goes back to an event of its own**, and calls for one peripheral come in
the order of the events. -/
theorem exists_cause (h : Sound tr) : ∃ cause : Nat → Nat,
    (∀ j e, tr[j]? = some (.called e) → Caused tr (cause j) j e) ∧
    ∀ j₁ j₂ e₁ e₂, j₁ < j₂ → tr[j₁]? = some (.called e₁) → tr[j₂]? = some (.called e₂) →
      cause j₁ ≠ cause j₂ ∧ (e₁.id.kind = e₂.id.kind → cause j₁ < cause j₂) := by
  have hall (j : Nat) : ∃ i, ∀ e, tr[j]? = some (.called e) →
      Caused tr i j e ∧ ∃ line, Matched tr i j e line := by
    by_cases hj : ∃ e, tr[j]? = some (.called e)
    · obtain ⟨e, hj⟩ := hj
      obtain ⟨i, hi⟩ := h.exists_caused hj
      refine ⟨i, fun e' hj' => ?_⟩
      rw [hj] at hj'
      cases hj'
      exact hi
    · exact ⟨0, fun e he => absurd ⟨e, he⟩ hj⟩
  choose cause hcause using hall
  refine ⟨cause, fun j e hj => (hcause j e hj).1, fun j₁ j₂ e₁ e₂ hlt h₁ h₂ => ?_⟩
  obtain ⟨-, line₁, hm₁⟩ := hcause j₁ e₁ h₁
  obtain ⟨-, line₂, hm₂⟩ := hcause j₂ e₂ h₂
  by_cases hk : e₁.id.kind = e₂.id.kind
  · have := h.matched_lt hlt h₁ hm₁ hm₂ hk
    exact ⟨Nat.ne_of_lt this, fun _ => this⟩
  · exact ⟨h.matched_ne hm₁ hm₂ hk, fun hk' => absurd hk' hk⟩

end Sound

end Trace

end Coop
