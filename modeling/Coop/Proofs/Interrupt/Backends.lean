import Coop.Proofs.Interrupt.Accounts
import Coop.Proofs.Interrupt.Calls
import Mathlib.Data.List.Nodup

/-!
# The backends of a hub

A hub has at most one backend for each kind of peripheral. Only attaching one changes the kinds and
their lines; every other call leaves each backend at its place and on its line.

* `Hub.wires`, `Hub.Single`, `Hub.Apart`: the kinds and lines of the backends, that no kind comes
  twice and no line does;
* `backend?_putBackend`, `map_putBackend`, `putBackend_self`: a backend put in place of another;
* `Call.attaches`, `wires_after`, `wires_run`: what calls do to the wires;
* `Station.single_of_run`, **`Station.single_run`**: every hub has one backend for each kind.
-/

namespace Coop

variable {C : Type}

namespace Hub

variable {h : Hub C} {b b' : Backend} {kind : Peripheral}

/-- The kinds of the backends and their lines, in their order. -/
def wires (h : Hub C) : List (Peripheral × LineId) := h.backends.map fun b => (b.kind, b.line)

/-- No kind of peripheral has two backends. -/
def Single (h : Hub C) : Prop := (h.wires.map Prod.fst).Nodup

@[simp] theorem length_wires (h : Hub C) : h.wires.length = h.backends.length :=
  List.length_map _

theorem Single.nodup_kinds (hs : h.Single) : (h.backends.map Backend.kind).Nodup := by
  have := hs
  rwa [Single, wires, List.map_map] at this

theorem Single.eq_of_kind (hs : h.Single) (hb : b ∈ h.backends) (hb' : b' ∈ h.backends)
    (hk : b.kind = b'.kind) : b = b' := List.inj_on_of_nodup_map hs.nodup_kinds hb hb' hk

/-- Every backend has a line of its own. -/
def Apart (h : Hub C) : Prop := ∀ b ∈ h.backends, ∀ b' ∈ h.backends, b.line = b'.line → b = b'

theorem Apart.nodup_lines (ha : h.Apart) (hs : h.Single) : (h.wires.map Prod.snd).Nodup := by
  rw [wires, List.map_map]
  exact hs.nodup_kinds.of_map.map_on ha

theorem Apart.own (ha : h.Apart) {b : Backend} (hb : b ∈ h.backends) (k : Peripheral)
    (hk : (k, b.line) ∈ h.wires) : k = b.kind := by
  obtain ⟨b', hb', hwire⟩ := List.mem_map.mp hk
  obtain rfl := ha b' hb' b hb (congrArg Prod.snd hwire)
  exact (congrArg Prod.fst hwire).symm

theorem backend?_eq_some (hb : h.backend? kind = some b) : b ∈ h.backends ∧ b.kind = kind :=
  ⟨List.mem_of_find?_eq_some hb,
    eq_of_beq (List.find?_some (p := fun b : Backend => b.kind == kind) hb)⟩

theorem backend?_putBackend (h : Hub C) (b : Backend) (kind : Peripheral) :
    (h.putBackend b).backend? kind =
      if kind = b.kind then (h.backend? kind).map fun _ => b else h.backend? kind := by
  unfold backend? putBackend
  dsimp only
  induction h.backends with
  | nil => simp
  | cons o os ih =>
    rw [List.map_cons, List.find?_cons, List.find?_cons, ih]
    by_cases ho : o.kind = b.kind
    · rw [if_pos ho, ho]
      by_cases hk : kind = b.kind
      · simp [hk]
      · have hne : (b.kind == kind) = false := beq_eq_false_iff_ne.mpr (Ne.symm hk)
        simp [hk, hne]
    · rw [if_neg ho]
      by_cases hk : o.kind = kind
      · have hne : kind ≠ b.kind := hk ▸ ho
        simp [hk, hne]
      · rw [beq_eq_false_iff_ne.mpr hk]

/-- What a backend has in common with the one in whose place it is put is the same everywhere. -/
theorem Single.map_putBackend {α : Type} (hs : h.Single) (hb : b ∈ h.backends)
    (hk : b'.kind = b.kind) {f : Backend → α} (hf : f b' = f b) :
    (h.putBackend b').backends.map f = h.backends.map f := by
  unfold putBackend
  rw [List.map_map]
  refine List.map_congr_left fun o ho => ?_
  rw [Function.comp_apply]
  split_ifs with hkind
  · rw [hf, hs.eq_of_kind ho hb (hkind.trans hk)]
  · rfl

theorem Single.wires_putBackend (hs : h.Single) (hb : b ∈ h.backends) (hk : b'.kind = b.kind)
    (hl : b'.line = b.line) : (h.putBackend b').wires = h.wires :=
  hs.map_putBackend hb hk (by rw [hk, hl])

theorem Single.ports_putBackend (hs : h.Single) (hb : b ∈ h.backends) (hport : b'.port = b.port) :
    (h.putBackend b').ports = h.ports := by
  have hk : b'.kind = b.kind := by rw [← b'.kind_port, hport, b.kind_port]
  exact hs.map_putBackend hb hk hport

theorem Single.putBackend_self (hs : h.Single) (hb : b ∈ h.backends) : h.putBackend b = h := by
  have hsame : (h.putBackend b).backends = h.backends := by
    have := hs.map_putBackend hb rfl (f := id) rfl
    rwa [List.map_id, List.map_id] at this
  exact congrArg (fun backends => { h with backends := backends }) hsame

end Hub

/-! ## Calls -/

/-- Whether a call attaches a backend. -/
def Call.attaches : Call C → Bool
  | attachGpio _ | attachAdc _ => true
  | _ => false

namespace Backend

variable (b : Backend) (lines : Lines)

theorem same_of_port {b b' : Backend} (hk : b'.port.kind = b.port.kind)
    (hl : b'.port.line = b.port.line) : b'.kind = b.kind ∧ b'.line = b.line := by
  rw [b'.kind_port, b.kind_port] at hk
  rw [b'.line_port, b.line_port] at hl
  exact ⟨hk, hl⟩

theorem register_same (channel : UInt8) (mask : EventMask) (threshold : Option Nat) :
    (b.register lines channel mask threshold).2.1.kind = b.kind ∧
      (b.register lines channel mask threshold).2.1.line = b.line := by
  rcases b.register_cases lines channel mask threshold with
    ⟨e, -, h⟩ | ⟨b', raw, next, -, hport, h | ⟨line, -, h⟩⟩
  · rw [h]
    exact ⟨rfl, rfl⟩
  · rw [h]
    exact same_of_port (by rw [hport]) (by rw [hport])
  · rw [h]
    exact same_of_port (by rw [hport]) (by rw [hport])

theorem unregister_same (raw : UInt16) : (b.unregister lines raw).2.1.kind = b.kind ∧
    (b.unregister lines raw).2.1.line = b.line := by
  obtain ⟨hport, -⟩ := b.port_unregister lines raw
  exact same_of_port (by rw [hport]) (by rw [hport])

theorem sample_same (channel : UInt8) (mv : Nat) : (b.sample lines channel mv).2.1.kind = b.kind ∧
    (b.sample lines channel mv).2.1.line = b.line := by
  obtain ⟨hport, -⟩ := b.sample_cases lines channel mv
  exact same_of_port (by rw [hport]) (by rw [hport])

end Backend

namespace Station

variable {st : Station C}

theorem backends_look (st : Station C) : st.look.hub.backends = st.hub.backends := by
  rcases st.hub.idle_or_handover st.lines with hidle | ⟨e, he⟩
  · rw [look_of_idle hidle]
    rfl
  · have hlook := e.look_before
    rw [he] at hlook
    rw [hlook, e.backends_after, he]

theorem backends_process (st : Station C) (max : Nat) :
    (Call.after st (.process max)).hub.backends = st.hub.backends := by
  obtain ⟨k, es, st', h⟩ := exists_drains max st
  rw [Call.after, h.process_eq]
  exact h.backends

/-- **Only attaching a backend changes the wires.** -/
theorem wires_after (hs : st.hub.Single) {c : Call C} (hc : c.attaches = false) :
    (c.after st).hub.wires = st.hub.wires := by
  cases c with
  | attachGpio | attachAdc => cases hc
  | raise | disarmAll => rfl
  | process max => rw [Hub.wires, backends_process, Hub.wires]
  | look => exact congrArg (List.map _) st.backends_look
  | register source mask options handler =>
    unfold Call.after
    dsimp only
    cases hb : st.hub.backend? source.kind with
    | none => rw [Hub.value_register_of_none hb]
    | some b =>
      obtain ⟨hk, hl⟩ := b.register_same st.lines source.channel mask options.threshold
      have hmem := (Hub.backend?_eq_some hb).1
      rcases hreg : b.register st.lines source.channel mask options.threshold with
        ⟨e | raw, b', lines⟩
      · rw [Hub.value_register_of_error hb hreg]
        rw [hreg] at hk hl
        exact hs.wires_putBackend hmem hk hl
      · rw [Hub.value_register_of_ok hb hreg]
        rw [hreg] at hk hl
        exact hs.wires_putBackend hmem hk hl
  | unregister id =>
    unfold Call.after
    dsimp only
    cases hr : st.hub.find? id with
    | none =>
      rw [Hub.unregister, hr]
      rfl
    | some r =>
      cases hb : st.hub.backend? id.kind with
      | none =>
        rw [Hub.value_unregister_of_lost hr hb]
        rfl
      | some b =>
        obtain ⟨hk, hl⟩ := b.unregister_same st.lines id.raw
        rw [Hub.value_unregister hr hb]
        exact hs.wires_putBackend (Hub.backend?_eq_some hb).1 hk hl
  | setEnabled id enabled =>
    unfold Call.after Hub.setEnabled
    dsimp only
    split <;> rfl
  | sample channel mv =>
    unfold Call.after Hub.sample
    dsimp only
    cases hb : st.hub.backend? .adc with
    | none => rfl
    | some b =>
      obtain ⟨hk, hl⟩ := b.sample_same st.lines channel mv
      exact hs.wires_putBackend (Hub.backend?_eq_some hb).1 hk hl

theorem single_attach (hs : st.hub.Single) (b : Backend) : (st.hub.attach b).value.Single := by
  have hkinds : (st.hub.attach b).value.wires.map Prod.fst =
      (st.hub.wires.map Prod.fst).filter (· ≠ b.kind) ++ [b.kind] := by
    change List.map Prod.fst (List.map _ (st.hub.backends.filter _ ++ [b])) = _
    simp [Hub.wires, List.filter_map, Function.comp_def]
  unfold Hub.Single
  rw [hkinds, List.nodup_append_comm]
  refine List.nodup_cons.mpr ⟨?_, hs.filter _⟩
  simp

theorem single_after (hs : st.hub.Single) (c : Call C) : (c.after st).hub.Single := by
  cases hc : c.attaches with
  | false =>
    unfold Hub.Single
    rw [wires_after hs hc]
    exact hs
  | true =>
    cases c with
    | attachGpio line => exact single_attach hs (.newGpio line)
    | attachAdc line => exact single_attach hs (.newAdc line)
    | _ => cases hc

theorem wires_run (hs : st.hub.Single) {cs : List (Call C)} (hcs : ∀ c ∈ cs, c.attaches = false) :
    (st.run cs).hub.wires = st.hub.wires := by
  induction cs generalizing st with
  | nil => rfl
  | cons c cs ih =>
    have hrest := ih (single_after hs c) fun d hd => hcs d (List.mem_cons_of_mem c hd)
    exact hrest.trans (wires_after hs (hcs c List.mem_cons_self))

theorem single_of_run (hs : st.hub.Single) (cs : List (Call C)) : (st.run cs).hub.Single := by
  induction cs generalizing st with
  | nil => exact hs
  | cons c cs ih => exact ih (single_after hs c)

/-- **Every hub has at most one backend for each kind of peripheral.** -/
theorem single_run (n : Nat) (cs : List (Call C)) : ((start n).run cs).hub.Single := by
  have hnone : (start n : Station C).hub.Single := List.nodup_nil
  exact single_of_run hnone cs

end Station

end Coop
