import Coop.Proofs.Interrupt.Registration

/-!
# The numbers on a line

A backend that draws a number looks at one after the other until one is neither zero nor armed on
its line, and nothing bounds how often it looks. A line has few channels, so it need not look often.
Whoever draws, and however often the count has gone round, no two channels of a line are armed under
the same number.

* `Searches`, `Searches.unique`, `exists_searches`: the search without a bound, and how soon it
  ends;
* `SignalLine.Numbered`, `Lines.Numbered`: the numbers on a line, with one lemma for each thing done
  to a line;
* `Wiring.Step.numbered`, `Wiring.Chain.numbered`: elementary changes, one and many;
* `Panel`, `Panel.run`, **`Panel.numbered_run`**: several hubs on the same lines;
* **`fresh_and_distinct`**.
-/

namespace Coop

variable {C : Type}

/-! ## The search -/

/-- Looks at a number, and at the next one if it is zero or armed on the line, for as long as it
takes: how many numbers were looked at from `n` on, the one that was drawn and the one to go on
from. -/
inductive Searches (line : SignalLine) : UInt16 → Nat → UInt16 × UInt16 → Prop
  | found {n : UInt16} (h : n ≠ 0 ∧ line.isArmed n = false) : Searches line n 1 (n, nextRaw n)
  | next {n : UInt16} (h : ¬ (n ≠ 0 ∧ line.isArmed n = false)) {looks : Nat}
    {drawn : UInt16 × UInt16} (hs : Searches line (nextRaw n) looks drawn) :
    Searches line n (looks + 1) drawn

section Search

variable {line : SignalLine} {n : UInt16}

theorem Searches.unique {looks looks' : Nat} {drawn drawn' : UInt16 × UInt16}
    (hs : Searches line n looks drawn) (hs' : Searches line n looks' drawn') :
    looks' = looks ∧ drawn' = drawn := by
  induction hs generalizing looks' drawn' with
  | found h =>
    cases hs' with
    | found => exact ⟨rfl, rfl⟩
    | next h' => exact absurd h h'
  | next h _ ih =>
    cases hs' with
    | found h' => exact absurd h' h
    | next _ hs' =>
      obtain ⟨rfl, rfl⟩ := ih hs'
      exact ⟨rfl, rfl⟩

/-- If the number that was drawn in so many tries is free, then the search without a bound draws it
too, and in no more tries. -/
theorem searches_of_freshRaw {tries : Nat} (hzero : (freshRaw line tries n).1 ≠ 0)
    (hfree : line.isArmed (freshRaw line tries n).1 = false) :
    ∃ looks ≤ tries + 1, Searches line n looks (freshRaw line tries n) := by
  induction tries generalizing n with
  | zero => exact ⟨1, Nat.le_refl _, .found ⟨hzero, hfree⟩⟩
  | succ tries ih =>
    by_cases h : n ≠ 0 ∧ line.isArmed n = false
    · rw [freshRaw, if_pos h]
      exact ⟨1, by omega, .found h⟩
    · rw [freshRaw, if_neg h] at hzero hfree ⊢
      obtain ⟨looks, hlooks, hs⟩ := ih hzero hfree
      exact ⟨looks + 1, by omega, .next h hs⟩

/-- **The search ends** after thirty-four looks at the latest, with the number a backend draws. -/
theorem exists_searches (line : SignalLine) (n : UInt16) :
    ∃ looks ≤ 34, Searches line n looks (freshRaw line rawTries n) := by
  obtain ⟨hzero, hfree⟩ := freshRaw_free line n
  exact searches_of_freshRaw hzero hfree

end Search

/-- A count at zero, and on the channels the thirty-two numbers that follow: it takes all of the
thirty-four looks. -/
example :
    let line : SignalLine :=
      { SignalLine.new with armed := .ofFn fun i => some ⟨.ofNat (i + 1), .only .rising⟩ }
    freshRaw line rawTries 0 = (33, 34) := by
  decide +kernel

/-! ## One line -/

/-- The numbers on a line: none of them is zero, and no two channels have the same. -/
structure SignalLine.Numbered (l : SignalLine) : Prop where
  ne_zero : ∀ c a, l.armedAt c = some a → a.raw ≠ 0
  distinct : ∀ c c' a a', l.armedAt c = some a → l.armedAt c' = some a' → c ≠ c' → a.raw ≠ a'.raw

namespace SignalLine.Numbered

variable {l l' : SignalLine}

theorem of_armed (h : l.Numbered) (hl : ∀ c a, l'.armedAt c = some a → l.armedAt c = some a) :
    l'.Numbered where
  ne_zero c a ha := h.ne_zero c a (hl c a ha)
  distinct c c' a a' ha ha' := h.distinct c c' a a' (hl c a ha) (hl c' a' ha')

theorem new : SignalLine.new.Numbered where
  ne_zero c a ha := by simp at ha
  distinct c c' a a' ha := by simp at ha

theorem arm (h : l.Numbered) {channel : UInt8} {raw : UInt16} {mask : EventMask} (hzero : raw ≠ 0)
    (hfree : l.isArmed raw = false) (ha : l.arm channel raw mask = .ok l') : l'.Numbered := by
  obtain ⟨-, -, hat⟩ := armedAt_arm ha
  have hother {c : UInt8} {a : Armed} (hc : l.armedAt c = some a) : a.raw ≠ raw := by
    intro hraw
    rw [isArmed_iff.mpr ⟨c, a, hc, hraw⟩] at hfree
    cases hfree
  refine ⟨fun c a hc => ?_, fun c c' a a' hc hc' hne => ?_⟩
  · rw [hat] at hc
    split_ifs at hc
    · cases hc
      exact hzero
    · exact h.ne_zero c a hc
  · rw [hat] at hc hc'
    split_ifs at hc hc' with hchannel hchannel'
    · exact absurd (hchannel.trans hchannel'.symm) hne
    · cases hc
      exact (hother hc').symm
    · cases hc'
      exact hother hc
    · exact h.distinct c c' a a' hc hc' hne

theorem disarm (h : l.Numbered) (raw : UInt16) : (l.disarm raw).Numbered := by
  refine h.of_armed fun c a ha => ?_
  rw [armedAt_disarm] at ha
  split_ifs at ha
  exact ha

/-- A number stands for one channel, and disarming it leaves every other channel alone. -/
theorem armedAt_disarm_eq (h : l.Numbered) {channel : UInt8} {a : Armed}
    (ha : l.armedAt channel = some a) (c : UInt8) :
    (l.disarm a.raw).armedAt c = if c = channel then none else l.armedAt c := by
  rw [armedAt_disarm]
  split_ifs with hholds hc hc
  · rfl
  · cases hat : l.armedAt c with
    | none => rfl
    | some a' =>
      rw [hat] at hholds
      exact absurd (eq_of_beq hholds) (h.distinct c channel a' a hat ha hc)
  · rw [hc, ha] at hholds
    exact absurd (beq_self_eq_true a.raw) hholds
  · rfl

end SignalLine.Numbered

/-- The numbers on all lines of a board. -/
def Lines.Numbered (ls : Lines) : Prop := ∀ i, (ls.get i).Numbered

namespace Lines.Numbered

theorem new (n : Nat) : (Lines.new n).Numbered := by
  intro i
  rw [get_new]
  exact .new

theorem set {ls : Lines} (h : ls.Numbered) {l : SignalLine} (hl : l.Numbered) (i : LineId) :
    (ls.set i l).Numbered := by
  intro j
  rcases Nat.lt_or_ge i ls.all.size with hlt | hge
  · rw [get_set hlt]
    split_ifs
    · exact hl
    · exact h j
  · rw [set_of_le hge]
    exact h j

end Lines.Numbered

/-! ## Elementary changes -/

namespace Wiring

variable {w w' : Wiring} {xs : List Incident}

/-- **One change.** A number is armed only after it was drawn, and everything else leaves the armed
channels alone or disarms some. -/
theorem Step.numbered (hs : Step w xs w') (h : w.lines.Numbered) : w'.lines.Numbered := by
  cases hs with
  | attach | touch | waste | forget => exact h
  | @register p hp source hs raw next hd mask line ha =>
    obtain ⟨hzero, hfree⟩ := freshRaw_free (w.lines.get p.line) p.next
    rw [hd] at hzero hfree
    exact h.set ((h p.line).arm hzero hfree ha) p.line
  | @unregister p hp id hk => exact h.set ((h p.line).disarm id.raw) p.line
  | raise line channel kind =>
    have hsame := SignalLine.armedAt_raise (w.lines.get line) channel kind
    exact h.set ((h line).of_armed fun c a ha => hsame c ▸ ha) line
  | disarmAll line =>
    refine h.set ((h line).of_armed fun c a ha => ?_) line
    rw [SignalLine.armedAt_disarmAll] at ha
    cases ha
  | @call p hp raw kind rest ht | @discard p hp raw kind rest ht =>
    obtain ⟨-, hsame⟩ := SignalLine.take?_eq_some ht
    exact h.set ((h p.line).of_armed fun c a ha => hsame c ▸ ha) p.line

theorem Chain.numbered (hc : Chain w xs w') (h : w.lines.Numbered) : w'.lines.Numbered := by
  induction hc with
  | nil => exact h
  | cons hs _ ih => exact ih (hs.numbered h)

end Wiring

/-! ## Any number of calls -/

/-- Some hubs on the same lines. -/
structure Panel (C : Type) where
  hubs : List (Hub C)
  lines : Lines

namespace Panel

/-- The hub with a place makes a call. -/
def after (p : Panel C) (i : Nat) (c : Call C) : Panel C :=
  match p.hubs[i]? with
  | none => p
  | some hub =>
    let st := c.after ⟨hub, p.lines⟩
    ⟨p.hubs.set i st.hub, st.lines⟩

/-- The panel after some calls, each of them made by one of its hubs. -/
def run (p : Panel C) (calls : List (Nat × Call C)) : Panel C :=
  calls.foldl (fun p c => p.after c.1 c.2) p

theorem numbered_after {p : Panel C} (h : p.lines.Numbered) (i : Nat) (c : Call C) :
    (p.after i c).lines.Numbered := by
  unfold after
  cases p.hubs[i]? with
  | none => exact h
  | some hub => exact (c.chain ⟨hub, p.lines⟩).numbered h

/-- **No call spoils the numbers**, whichever hub makes it. -/
theorem numbered_run {p : Panel C} (h : p.lines.Numbered) (calls : List (Nat × Call C)) :
    (p.run calls).lines.Numbered := by
  induction calls generalizing p with
  | nil => exact h
  | cons c calls ih => exact ih (numbered_after h c.1 c.2)

end Panel

/-- **Fresh and distinct numbers.** On any line, and from any count on, the search for a number ends
after thirty-four looks at the latest, and in one way only. The number is not zero and not armed on
the line, and the count goes on from a number that is not zero. Now take lines with nothing armed
and any number of hubs, whose backends may share lines and stand at any count, and let the hubs make
any calls in any order. Then on every line no channel is armed under zero and no two channels under
the same number, so that to disarm a number frees one channel and no other. -/
theorem fresh_and_distinct :
    (∀ (line : SignalLine) (n : UInt16), ∃ looks ≤ 34, ∃ raw next,
      (∀ k drawn, Searches line n k drawn ↔ k = looks ∧ drawn = (raw, next)) ∧
      freshRaw line rawTries n = (raw, next) ∧
      raw ≠ 0 ∧ line.isArmed raw = false ∧ next ≠ 0) ∧
    ∀ (hubs : List (Hub C)) (n : Nat) (calls : List (Nat × Call C)) (i : LineId),
      let line := ((Panel.mk hubs (.new n)).run calls).lines.get i
      (∀ c a, line.armedAt c = some a → a.raw ≠ 0) ∧
      (∀ c c' a a', line.armedAt c = some a → line.armedAt c' = some a' → c ≠ c' →
        a.raw ≠ a'.raw) ∧
      ∀ c a, line.armedAt c = some a → ∀ c',
        (line.disarm a.raw).armedAt c' = if c' = c then none else line.armedAt c' := by
  refine ⟨fun line n => ?_, fun hubs n calls i => ?_⟩
  · obtain ⟨looks, hlooks, hsearch⟩ := exists_searches line n
    obtain ⟨hzero, hfree⟩ := freshRaw_free line n
    refine ⟨looks, hlooks, _, _, fun k drawn => ⟨hsearch.unique, ?_⟩, rfl, hzero, hfree,
      freshRaw_snd_ne_zero line rawTries n⟩
    rintro ⟨rfl, rfl⟩
    exact hsearch
  · have hline := Panel.numbered_run (p := ⟨hubs, .new n⟩) (.new n) calls i
    exact ⟨hline.ne_zero, hline.distinct, fun c a ha => hline.armedAt_disarm_eq ha⟩

/-- Pins and a converter on the same line, each at the last number there is: the pins draw that, the
converter the first one and the pins then the second. To disarm the first leaves the pins alone. -/
theorem fresh_and_distinct_shared :
    let pins : Hub Unit := { Hub.empty with backends := [.gpio 0 0xffff] }
    let converter : Hub Unit :=
      { Hub.empty with backends := [.adc 0 0xffff (Vector.replicate adcChannels none)] }
    let register (source : Source) : Call Unit :=
      .register source .edges ⟨true, some 1500, ()⟩ fun _ c => .finish c none
    let calls := [(0, register ⟨.gpio, 3⟩), (1, register ⟨.adc, 2⟩), (0, register ⟨.gpio, 5⟩)]
    let line := ((Panel.mk [pins, converter] (.new 1)).run calls).lines.get 0
    line.armedAt 3 = some ⟨0xffff, .edges⟩ ∧ line.armedAt 2 = some ⟨1, .edges⟩ ∧
    line.armedAt 5 = some ⟨2, .edges⟩ ∧
    ∀ c, (line.disarm 1).armedAt c = if c = 2 then none else line.armedAt c := by
  intro pins converter register calls line
  have hlast : line.armedAt 3 = some ⟨0xffff, .edges⟩ := by decide +kernel
  have hfirst : line.armedAt 2 = some ⟨1, .edges⟩ := by decide +kernel
  have hsecond : line.armedAt 5 = some ⟨2, .edges⟩ := by decide +kernel
  obtain ⟨-, -, hdisarm⟩ := fresh_and_distinct.2 [pins, converter] 1 calls 0
  exact ⟨hlast, hfirst, hsecond, hdisarm 2 ⟨1, .edges⟩ hfirst⟩

end Coop
