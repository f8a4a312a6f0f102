import Coop.Proofs.Interrupt.Backends

/-!
# Who is served

In a run, every event that is taken from a queue is taken by one backend. This module tells by which
one, call by call: a look serves the backend in turn or nobody, a batch serves those whose events it
hands over, and a batch is nothing but a row of looks.

* `Incident.server?`, `Station.served`: the backends that are served in a run;
* `served_look_of_idle`, `Handover.served_before`, `Drains.served`: looks and batches;
* **`Drains.trace_looks`**, `exists_looks`: a batch is a row of looks;
* `served_of_quiet`, `undisturbed_of_quiet`: every other call serves nobody;
* `queue_call`, **`queue_run`**: an event waits until its backend is served.
-/

namespace Coop

variable {C : Type}

/-- The kind of peripheral from whose backend an event was taken. -/
def Incident.server? : Incident → Option Peripheral
  | called e => some e.id.kind
  | discarded id _ => some id.kind
  | _ => none

/-- The backends that are served in some calls, by their kinds and in this order. -/
def Station.served (st : Station C) (cs : List (Call C)) : List Peripheral :=
  (st.trace cs).filterMap Incident.server?

theorem Reaction.servers_raises (r : Reaction C) (lines : Lines) :
    (r.raises lines).filterMap Incident.server? = [] := by
  induction r generalizing lines with
  | finish => rfl
  | raise line channel kind next ih =>
    rw [raises, List.filterMap_cons, ih]
    rfl
  | log entry next ih => exact ih lines

namespace Station

variable {st : Station C} {cs ds : List (Call C)}

theorem served_append (st : Station C) (cs ds : List (Call C)) :
    st.served (cs ++ ds) = st.served cs ++ (st.run cs).served ds := by
  rw [served, trace_append, List.filterMap_append]
  rfl

theorem served_cons (st : Station C) (c : Call C) (cs : List (Call C)) :
    st.served (c :: cs) = st.served [c] ++ (c.after st).served cs :=
  served_append st [c] cs

theorem trace_singleton (st : Station C) (c : Call C) : st.trace [c] = c.incidents st :=
  List.append_nil _

theorem servers_handed (st : Station C) (id : IrqId) (kind : EventKind) :
    (st.handed id kind).filterMap Incident.server? = [id.kind] := by
  unfold handed
  cases st.hub.find? id with
  | none => rfl
  | some r =>
    dsimp only
    split_ifs
    · rw [List.filterMap_cons, Reaction.servers_raises]
      rfl
    · rfl

/-! ## Looks -/

theorem trace_look_of_idle (hidle : st.hub.Idle st.lines) : st.trace [.look] = [] := by
  rw [trace_singleton, Call.incidents, Hub.pollFrom_one_of_idle hidle]

theorem served_look_of_idle (hidle : st.hub.Idle st.lines) : st.served [.look] = [] := by
  rw [served, trace_look_of_idle hidle]
  rfl

end Station

namespace Handover

theorem trace_before (e : Handover C) :
    e.before.trace [.look] = Station.handed ⟨e.before.hub.advance, e.lines⟩ e.id e.kind := by
  rw [Station.trace_singleton, Call.incidents, Hub.pollFrom_handover]

theorem served_before (e : Handover C) : e.before.served [.look] = [e.backend.kind] := by
  rw [Station.served, e.trace_before, Station.servers_handed]
  rfl

theorem cursor_after (e : Handover C) : e.after.hub.cursor = e.before.hub.advance.cursor := by
  unfold after
  cases e.taker? <;> rfl

theorem hand_eq (e : Handover C) :
    Station.hand ⟨e.before.hub.advance, e.lines⟩ e.id e.kind = e.after := by
  rw [Station.hand, e.deliver_eq]
  rfl

end Handover

/-! ## Batches -/

namespace Station

theorem run_looks (st : Station C) (i : Nat) :
    st.run (List.replicate i .look) = look^[i] st := by
  induction i generalizing st with
  | zero => rfl
  | succ i ih =>
    rw [List.replicate_succ, Function.iterate_succ_apply]
    exact ih _

theorem trace_looks_of_idle {st : Station C} {i : Nat}
    (hidle : ∀ j < i, (Hub.advance^[j] st.hub).Idle st.lines) :
    st.trace (List.replicate i .look) = [] := by
  induction i with
  | zero => rfl
  | succ i ih =>
    have hfront (j : Nat) (hj : j < i) := hidle j (Nat.lt_succ_of_lt hj)
    rw [List.replicate_succ', trace_append, ih hfront, run_looks, look_iterate_of_idle hfront,
      trace_look_of_idle (hidle i (Nat.lt_succ_self i))]
    rfl

end Station

namespace Drains

variable {max k : Nat} {st st' : Station C} {es : List (Handover C)}

/-- **A batch is a row of looks**: nothing else happens in it. -/
theorem trace_looks (h : Drains max st k es st') :
    st.trace (List.replicate k .look) = st.batch max := by
  induction h with
  | full st => rfl
  | @idle max st he =>
    rw [Station.trace_looks_of_idle fun j _ => (he.advance_iterate j).idle, Station.batch,
      Hub.poll_of_empty he]
  | @event max i k st st' e es hf hrest ih =>
    have hreach : st.run (List.replicate i .look) = e.before := by
      rw [Station.run_looks, Station.look_iterate_of_idle hf.idle, hf.before]
    have hafter : Call.after e.before .look = e.after := e.look_before
    rw [Nat.add_assoc, List.replicate_add, Station.trace_append,
      Station.trace_looks_of_idle hf.idle, List.nil_append, hreach, Nat.add_comm,
      List.replicate_succ, ← List.singleton_append, Station.trace_append, e.trace_before,
      Station.batch, Hub.poll_of_finds hf]
    dsimp only
    rw [e.hand_eq, ← ih, ← hafter]
    rfl

theorem served (h : Drains max st k es st') :
    st.served [.process max] = es.map fun e => e.backend.kind := by
  rw [Station.served, Station.trace_singleton, Call.incidents]
  induction h with
  | full st => rfl
  | idle he =>
    rw [Station.batch, Hub.poll_of_empty he]
    rfl
  | @event max i k st st' e es hf hrest ih =>
    rw [Station.batch, Hub.poll_of_finds hf]
    dsimp only
    rw [List.filterMap_append, Station.servers_handed, e.hand_eq, ih]
    rfl

end Drains

/-! ## Other calls -/

theorem Lines.queue_prefix_set {ls : Lines} {i : LineId} {l : SignalLine}
    (h : l.queue = (ls.get i).queue) (line : LineId) :
    (ls.get line).queue <+: ((ls.set i l).get line).queue := by
  refine ⟨[], ?_⟩
  rw [List.append_nil, apply_get_set SignalLine.queue h]

/-- Whether a call takes events from queues. -/
def Call.serves : Call C → Bool
  | process _ | look => true
  | _ => false

namespace Station

variable {st : Station C} {c : Call C}

theorem served_of_quiet (st : Station C) (hc : c.serves = false) : st.served [c] = [] := by
  rw [served, trace_singleton]
  cases c with
  | process | look => cases hc
  | attachGpio | attachAdc | unregister | setEnabled | raise | disarmAll => rfl
  | register source mask options handler =>
    unfold Call.incidents
    dsimp only
    split <;> rfl
  | sample channel mv =>
    unfold Call.incidents
    dsimp only
    cases st.hub.backend? .adc with
    | none => rfl
    | some b =>
      dsimp only
      obtain ⟨-, ⟨hnone, -⟩ | ⟨line, kind, hone, -⟩⟩ := b.sample_cases st.lines channel mv
      · rw [hnone]
        rfl
      · rw [hone]
        rfl

/-- The turn is the same, and nothing was taken out of a queue. -/
structure Undisturbed (st st' : Station C) : Prop where
  cursor : st'.hub.cursor = st.hub.cursor
  queue : ∀ line, (st.lines.get line).queue <+: (st'.lines.get line).queue

/-- Nobody but a batch or a look goes on to the next turn or takes anything out of a queue. -/
theorem undisturbed_of_quiet (st : Station C) (hc : c.serves = false) :
    Undisturbed st (c.after st) := by
  cases c with
  | process | look => cases hc
  | attachGpio | attachAdc => exact ⟨rfl, fun _ => List.prefix_rfl⟩
  | register source mask options handler =>
    unfold Call.after
    dsimp only
    cases hb : st.hub.backend? source.kind with
    | none =>
      rw [Hub.value_register_of_none hb]
      exact ⟨rfl, fun _ => List.prefix_rfl⟩
    | some b =>
      rcases b.register_outcomes st.lines source.channel mask options.threshold with
        ⟨e, -, hreg⟩ | ⟨raw, next, -, hreg | ⟨l, mv, harm, -, hreg⟩⟩
      · rw [Hub.value_register_of_error hb hreg]
        exact ⟨rfl, fun _ => List.prefix_rfl⟩
      · rw [Hub.value_register_of_error hb hreg]
        exact ⟨rfl, fun _ => List.prefix_rfl⟩
      · rw [Hub.value_register_of_ok hb hreg]
        exact ⟨rfl, Lines.queue_prefix_set (SignalLine.armedAt_arm harm).2.1⟩
  | unregister id =>
    unfold Call.after
    dsimp only
    cases hr : st.hub.find? id with
    | none =>
      rw [Hub.unregister, hr]
      exact ⟨rfl, fun _ => List.prefix_rfl⟩
    | some r =>
      cases hb : st.hub.backend? id.kind with
      | none =>
        rw [Hub.value_unregister_of_lost hr hb]
        exact ⟨rfl, fun _ => List.prefix_rfl⟩
      | some b =>
        rw [Hub.value_unregister hr hb, (b.port_unregister st.lines id.raw).2]
        exact ⟨rfl, Lines.queue_prefix_set (SignalLine.queue_disarm _ _)⟩
  | setEnabled id enabled =>
    refine ⟨?_, fun _ => List.prefix_rfl⟩
    unfold Call.after Hub.setEnabled
    dsimp only
    split <;> rfl
  | sample channel mv =>
    unfold Call.after Hub.sample
    dsimp only
    cases st.hub.backend? .adc with
    | none => exact ⟨rfl, fun _ => List.prefix_rfl⟩
    | some b =>
      obtain ⟨-, ⟨-, hlines⟩ | ⟨l, kind, -, hlines⟩⟩ := b.sample_cases st.lines channel mv
      · dsimp only
        rw [hlines]
        exact ⟨rfl, fun _ => List.prefix_rfl⟩
      · dsimp only
        rw [hlines]
        refine ⟨rfl, fun line => ?_⟩
        rw [Lines.queue_raise]
        exact List.prefix_append _ _
  | raise l channel kind =>
    refine ⟨rfl, fun line => ?_⟩
    unfold Call.after
    rw [Lines.queue_raise]
    exact List.prefix_append _ _
  | disarmAll l => exact ⟨rfl, Lines.queue_prefix_set (SignalLine.queue_disarmAll _)⟩

/-! ## Runs -/

/-- Every run is one without batches, in which somebody looks for each event. -/
theorem exists_looks (st : Station C) {cs : List (Call C)} (hcs : ∀ c ∈ cs, c.attaches = false) :
    ∃ fine : List (Call C), (∀ c ∈ fine, c.attaches = false ∧ ∀ max, c ≠ .process max) ∧
      st.run fine = st.run cs ∧ st.trace fine = st.trace cs := by
  induction cs generalizing st with
  | nil => exact ⟨[], by simp, rfl, rfl⟩
  | cons c cs ih =>
    obtain ⟨fine, hfine, hrun, htrace⟩ := ih (c.after st) fun d hd =>
      hcs d (List.mem_cons_of_mem c hd)
    by_cases hc : ∃ max, c = .process max
    · obtain ⟨max, rfl⟩ := hc
      obtain ⟨k, es, st', h⟩ := exists_drains max st
      have hafter : Call.after st (.process max) = st' := by
        rw [Call.after, h.process_eq]
      have hlooks : st.run (List.replicate k .look) = st' := by rw [run_looks, h.looks]
      refine ⟨List.replicate k .look ++ fine, ?_, ?_, ?_⟩
      · intro d hd
        rcases List.mem_append.mp hd with hd | hd
        · rw [(List.mem_replicate.mp hd).2]
          exact ⟨rfl, by simp⟩
        · exact hfine d hd
      · rw [run_append, hlooks, ← hafter, hrun]
        rfl
      · rw [trace_append, hlooks, ← hafter, htrace, h.trace_looks]
        rfl
    · refine ⟨c :: fine, ?_, hrun, congrArg (c.incidents st ++ ·) htrace⟩
      intro d hd
      rcases List.mem_cons.mp hd with rfl | hd
      · exact ⟨hcs d List.mem_cons_self, fun max hmax => hc ⟨max, hmax⟩⟩
      · exact hfine d hd

/-- An event waits until its backend is served, if no other backend is on its line. -/
theorem queue_call {kind : Peripheral} {line : LineId}
    (hown : ∀ k, (k, line) ∈ st.hub.wires → k = kind) (hnot : kind ∉ st.served [c]) :
    (st.lines.get line).queue <+: ((c.after st).lines.get line).queue := by
  have hother (b : Backend) (hb : b ∈ st.hub.backends) (hk : b.kind ∈ st.served [c]) :
      b.line ≠ line := by
    rintro rfl
    have := hown b.kind (List.mem_map.mpr ⟨b, hb, rfl⟩)
    exact hnot (this ▸ hk)
  cases c with
  | look =>
    rcases st.hub.idle_or_handover st.lines with hidle | ⟨e, he⟩
    · have hlook : Call.after st .look = ⟨st.hub.advance, st.lines⟩ := look_of_idle hidle
      simp only [hlook, List.prefix_rfl]
    · have hserved := e.served_before
      have hmem := Hub.mem_of_turn? e.inTurn
      have hqueue := e.queue_before line
      have hlook := e.look_before
      rw [he] at hserved hmem hqueue hlook
      have hline := hother e.backend hmem (by rw [hserved]; exact List.mem_singleton_self _)
      rw [Handover.takenFrom?, if_neg hline, Option.toList_none, List.nil_append] at hqueue
      rw [show Call.after st .look = st.look from rfl, hlook, e.queue_after, ← hqueue]
      exact List.prefix_append _ _
  | process max =>
    obtain ⟨k, es, st', h⟩ := exists_drains max st
    have hnone : es.filterMap (Handover.takenFrom? line) = [] := by
      refine List.filterMap_eq_nil_iff.mpr fun e he => if_neg (hother e.backend ?_ ?_)
      · exact h.mem_backends he
      · rw [h.served]
        exact List.mem_map.mpr ⟨e, he, rfl⟩
    have hqueue := h.queues line
    rw [hnone, List.nil_append] at hqueue
    rw [Call.after, h.process_eq, hqueue]
    exact List.prefix_append _ _
  | _ => exact (st.undisturbed_of_quiet rfl).queue line

theorem queue_run {cs : List (Call C)} {kind : Peripheral} {line : LineId} (hs : st.hub.Single)
    (hcs : ∀ c ∈ cs, c.attaches = false) (hown : ∀ k, (k, line) ∈ st.hub.wires → k = kind)
    (hnot : kind ∉ st.served cs) :
    (st.lines.get line).queue <+: ((st.run cs).lines.get line).queue := by
  induction cs generalizing st with
  | nil => exact List.prefix_rfl
  | cons c cs ih =>
    rw [served_cons, List.mem_append, not_or] at hnot
    have hwires := wires_after hs (hcs c List.mem_cons_self)
    have hrest := ih (single_after hs c) (fun d hd => hcs d (List.mem_cons_of_mem c hd))
      (by rwa [hwires]) hnot.2
    exact (queue_call hown hnot.1).trans hrest

end Station

end Coop
