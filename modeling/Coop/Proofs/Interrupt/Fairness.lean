import Coop.Proofs.Interrupt.Serving
import Mathlib.Data.Nat.ModEq

/-!
# No backend starves

A backend whose queue is not empty is less than a round away from its turn. Whoever is served before
it has had a turn, and every turn brings it nearer to its own; so at most as many others are served
before it as there are turns to wait. This holds across the ends of batches, since the turn is kept
from one batch to the next.

* `Hub.TurnIn`: how many turns a backend has to wait;
* **`Nears`**: who is served while a backend waits, and `Nears.append`;
* `Handover.nears`, `nears_look`, `nears_of_quiet`, `Drains.nears`: looks, batches and other calls;
* `nears_run`, `nears_of_apart`, `nears_of_shared`: runs;
* **`Fair`**, `no_backend_starves`: every backend is served in time.
-/

namespace Coop

variable {C : Type}

/-! ## Turns -/

namespace Hub

variable {h h' : Hub C} {place d : Nat} {kind : Peripheral} {line : LineId}

/-- It is the turn of the backend at a place after `d` more turns, less than a round. -/
structure TurnIn (h : Hub C) (place d : Nat) : Prop where
  within : d < h.backends.length
  reaches : (h.cursor + d) % h.backends.length = place

theorem exists_turnIn (hplace : place < h.backends.length) : ∃ d, h.TurnIn place d := by
  obtain ⟨d, hlt, hd⟩ := exists_add_mod_eq h.cursor hplace
  exact ⟨d, hlt, hd⟩

theorem TurnIn.advance (ht : h.TurnIn place (d + 1)) : h.advance.TurnIn place d where
  within := Nat.lt_of_succ_lt ht.within
  reaches := by
    have hreaches := ht.reaches
    unfold Hub.advance
    dsimp only
    rwa [Nat.mod_add_mod, Nat.add_assoc, Nat.mod_add_mod, Nat.add_comm 1 d]

theorem TurnIn.congr (ht : h.TurnIn place d) (hlen : h'.backends.length = h.backends.length)
    (hcursor : h'.cursor % h.backends.length = h.cursor % h.backends.length) :
    h'.TurnIn place d where
  within := by
    rw [hlen]
    exact ht.within
  reaches := by
    rw [hlen, ← Nat.mod_add_mod, hcursor, Nat.mod_add_mod]
    exact ht.reaches

theorem TurnIn.turn? (ht : h.TurnIn place 0) : h.turn? = h.backends[place]? := by
  rw [Hub.turn?, ← ht.reaches, Nat.add_zero]

theorem TurnIn.unique {d' : Nat} (ht : h.TurnIn place d) (ht' : h.TurnIn place d') : d = d' := by
  have hsame : h.cursor + d ≡ h.cursor + d' [MOD h.backends.length] :=
    ht.reaches.trans ht'.reaches.symm
  have hmod : d % h.backends.length = d' % h.backends.length := Nat.ModEq.add_left_cancel' _ hsame
  rwa [Nat.mod_eq_of_lt ht.within, Nat.mod_eq_of_lt ht'.within] at hmod

theorem getElem?_wires (h : Hub C) (place : Nat) :
    h.wires[place]? = h.backends[place]?.map fun b => (b.kind, b.line) := List.getElem?_map

theorem exists_place {b : Backend} (hb : b ∈ h.backends) :
    ∃ place < h.backends.length, h.wires[place]? = some (b.kind, b.line) := by
  obtain ⟨place, hplace, rfl⟩ := List.mem_iff_getElem.mp hb
  refine ⟨place, hplace, ?_⟩
  rw [getElem?_wires, List.getElem?_eq_getElem hplace]
  rfl

theorem Single.eq_of_wires {place' : Nat} {line' : LineId} (hs : h.Single)
    (hp : h.wires[place]? = some (kind, line)) (hp' : h.wires[place']? = some (kind, line')) :
    place = place' := by
  obtain ⟨hlt, -⟩ := List.getElem?_eq_some_iff.mp hp
  refine (List.getElem?_inj (by rwa [List.length_map]) hs).mp ?_
  rw [List.getElem?_map, List.getElem?_map, hp, hp']
  rfl

/-- There are only two kinds of backends, and so they are all on one line if two of them are. -/
theorem Single.apart_or_shared (hs : h.Single) :
    h.Apart ∨ ∃ line, ∀ b ∈ h.backends, b.line = line := by
  by_cases hpair : ∃ b ∈ h.backends, ∃ b' ∈ h.backends, b.line = b'.line ∧ b ≠ b'
  · obtain ⟨b, hb, b', hb', hline, hne⟩ := hpair
    have hkind : b.kind ≠ b'.kind := fun hk => hne (hs.eq_of_kind hb hb' hk)
    refine .inr ⟨b.line, fun o ho => ?_⟩
    have honly : o.kind = b.kind ∨ o.kind = b'.kind := by
      cases o <;> cases b <;> cases b' <;> simp_all [Backend.kind]
    rcases honly with hk | hk
    · rw [hs.eq_of_kind ho hb hk]
    · rw [hs.eq_of_kind ho hb' hk, hline]
  · refine .inl fun b hb b' hb' hline => ?_
    by_contra hne
    exact hpair ⟨b, hb, b', hb', hline, hne⟩

end Hub

/-! ## Waiting for a turn -/

/-- Who is served, when it is a backend's turn after `d` more turns: the backend is among the first
`d + 1`, or it has come nearer to its turn by as many turns as others were served. -/
inductive Nears (kind : Peripheral) (place d : Nat) (xs : List Peripheral) (h' : Hub C) : Prop
  | served (hmem : kind ∈ xs.take (d + 1))
  | nearer (d' : Nat) (hnot : kind ∉ xs) (ht : h'.TurnIn place d') (hle : d' + xs.length ≤ d)

namespace Nears

variable {kind : Peripheral} {place d : Nat} {xs ys : List Peripheral} {h' h'' : Hub C}

theorem append (h : Nears kind place d xs h')
    (hnext : kind ∉ xs → ∀ d', h'.TurnIn place d' → Nears kind place d' ys h'') :
    Nears kind place d (xs ++ ys) h'' := by
  cases h with
  | served hmem =>
    refine .served ?_
    rw [List.take_append]
    exact List.mem_append_left _ hmem
  | nearer d' hnot ht hle =>
    cases hnext hnot d' ht with
    | served hmem =>
      refine .served (List.mem_of_mem_take (i := xs.length + (d' + 1)) ?_)
      rw [List.take_take, Nat.min_eq_left (by omega), List.take_length_add_append]
      exact List.mem_append_right _ hmem
    | nearer d'' hnot' ht' hle' =>
      refine .nearer d'' ?_ ht' ?_
      · rw [List.mem_append, not_or]
        exact ⟨hnot, hnot'⟩
      · rw [List.length_append]
        omega

theorem mem_take_or_lt (h : Nears kind place d xs h') {n : Nat} (hn : d < n) :
    kind ∈ xs.take n ∨ kind ∉ xs ∧ xs.length < n := by
  cases h with
  | served hmem =>
    refine .inl (List.mem_of_mem_take (i := d + 1) ?_)
    rwa [List.take_take, Nat.min_eq_left hn]
  | nearer d' hnot ht hle => exact .inr ⟨hnot, by omega⟩

end Nears

/-! ## One step -/

section Steps

variable {st : Station C} {c : Call C} {kind : Peripheral} {line : LineId} {place d : Nat}

theorem Handover.nears {e : Handover C} (he : e.before = st)
    (hwire : st.hub.wires[place]? = some (kind, line)) (ht : st.hub.TurnIn place d) :
    Nears kind place d [e.backend.kind] e.after.hub := by
  subst he
  by_cases hk : kind = e.backend.kind
  · exact .served (by simp [hk])
  · cases d with
    | zero =>
      rw [Hub.getElem?_wires, ← ht.turn?, e.inTurn] at hwire
      simp only [Option.map_some, Option.some.injEq, Prod.mk.injEq] at hwire
      exact absurd hwire.1.symm hk
    | succ d =>
      refine .nearer d (by simpa using hk) (ht.advance.congr ?_ ?_) (Nat.le_refl _)
      · rw [e.backends_after]
        rfl
      · rw [e.cursor_after]

theorem nears_look (hwire : st.hub.wires[place]? = some (kind, line))
    (hwait : (st.lines.get line).queue ≠ []) (ht : st.hub.TurnIn place d) :
    Nears kind place d (st.served [.look]) st.look.hub := by
  rcases st.hub.idle_or_handover st.lines with hidle | ⟨e, he⟩
  · rw [Station.served_look_of_idle hidle, Station.look_of_idle hidle]
    cases d with
    | zero =>
      exfalso
      rw [Hub.getElem?_wires, ← ht.turn?] at hwire
      obtain ⟨b, hb, hwire⟩ := Option.map_eq_some_iff.mp hwire
      have hline : b.line = line := congrArg Prod.snd hwire
      exact hwait (hline ▸ hidle b hb)
    | succ d => exact .nearer d List.not_mem_nil ht.advance (Nat.le_succ d)
  · have hserved := e.served_before
    have hlook := e.look_before
    rw [he] at hserved hlook
    rw [hserved, hlook]
    exact Handover.nears he hwire ht

theorem nears_of_quiet (hs : st.hub.Single) (hc : c.serves = false) (ha : c.attaches = false)
    (ht : st.hub.TurnIn place d) : Nears kind place d (st.served [c]) (c.after st).hub := by
  rw [st.served_of_quiet hc]
  refine .nearer d List.not_mem_nil (ht.congr ?_ ?_) (Nat.le_refl d)
  · rw [← Hub.length_wires, Station.wires_after hs ha, Hub.length_wires]
  · rw [(st.undisturbed_of_quiet hc).cursor]

theorem Drains.nears {max k : Nat} {st' : Station C} {es : List (Handover C)}
    (h : Drains max st k es st') (hall : ∀ b ∈ st.hub.backends, b.line = line)
    (hwire : st.hub.wires[place]? = some (kind, line)) (ht : st.hub.TurnIn place d) :
    Nears kind place d (es.map fun e => e.backend.kind) st'.hub := by
  induction h generalizing d with
  | full st => exact .nearer d List.not_mem_nil ht (Nat.le_refl d)
  | @idle max st he =>
    refine .nearer d List.not_mem_nil (ht.congr rfl ?_) (Nat.le_refl d)
    exact Nat.mod_mod _ _
  | @event max i k st st' e es hf hrest ih =>
    obtain ⟨cursor, hbefore⟩ := hf.before_eq
    have hmem := Hub.mem_of_turn? e.inTurn
    have holdest := e.oldest
    rw [hbefore] at hmem holdest
    -- an earlier look was at the same queue
    have hzero : i = 0 := by
      by_contra hne
      have hpos : 0 < st.hub.backends.length := Nat.zero_lt_of_lt hf.within
      have hturn := List.getElem?_eq_getElem (Nat.mod_lt st.hub.cursor hpos)
      have hempty := hf.idle 0 (Nat.pos_of_ne_zero hne) _ hturn
      rw [hall _ (List.getElem_mem _), ← hall _ hmem, holdest] at hempty
      cases hempty
    have hst : e.before = st := by
      rw [hf.before, hzero]
      rfl
    have hbackends : e.after.hub.backends = st.hub.backends := by rw [e.backends_after, hst]
    rw [List.map_cons, ← List.singleton_append]
    refine (Handover.nears hst hwire ht).append fun _ d' ht' => ih ?_ ?_ ht'
    · rw [hbackends]
      exact hall
    · rw [Hub.wires, hbackends]
      exact hwire

end Steps

/-! ## Runs -/

section Runs

variable {st : Station C} {cs : List (Call C)} {kind : Peripheral} {line : LineId} {place d : Nat}

/-- A backend comes nearer to its turn in every call before it is served. -/
theorem nears_run
    (hstep : ∀ pre c post, cs = pre ++ c :: post → kind ∉ st.served pre → ∀ d,
      (st.run pre).hub.TurnIn place d →
        Nears kind place d ((st.run pre).served [c]) (c.after (st.run pre)).hub)
    (ht : st.hub.TurnIn place d) : Nears kind place d (st.served cs) (st.run cs).hub := by
  induction cs generalizing st d with
  | nil => exact .nearer d List.not_mem_nil ht (Nat.le_refl d)
  | cons c cs ih =>
    rw [Station.served_cons]
    refine (hstep [] c cs rfl List.not_mem_nil d ht).append fun hnot d' ht' => ih ?_ ht'
    intro pre c' post hcs hpre
    refine hstep (c :: pre) c' post (by rw [hcs]; rfl) ?_
    rw [Station.served_cons, List.mem_append, not_or]
    exact ⟨hnot, hpre⟩

theorem nears_of_shared (hs : st.hub.Single) (hcs : ∀ c ∈ cs, c.attaches = false ∧ c ≠ .look)
    (hall : ∀ b ∈ st.hub.backends, b.line = line)
    (hwire : st.hub.wires[place]? = some (kind, line)) (ht : st.hub.TurnIn place d) :
    Nears kind place d (st.served cs) (st.run cs).hub := by
  refine nears_run (fun pre c post heq _ d ht => ?_) ht
  subst heq
  have hpre : ∀ c ∈ pre, c.attaches = false := fun c hc => (hcs c (List.mem_append_left _ hc)).1
  have hwires := Station.wires_run hs hpre
  obtain ⟨hattach, hlook⟩ := hcs c (List.mem_append_right _ List.mem_cons_self)
  cases c with
  | look => exact absurd rfl hlook
  | process max =>
    obtain ⟨k, es, st', h⟩ := exists_drains max (st.run pre)
    rw [h.served, Call.after, h.process_eq]
    refine h.nears (fun b hb => ?_) (by rwa [hwires]) ht
    have hmem : (b.kind, b.line) ∈ st.hub.wires := hwires ▸ List.mem_map.mpr ⟨b, hb, rfl⟩
    obtain ⟨b', hb', hsame⟩ := List.mem_map.mp hmem
    have hline : b'.line = b.line := congrArg Prod.snd hsame
    rw [← hline]
    exact hall b' hb'
  | _ => exact nears_of_quiet (Station.single_of_run hs pre) rfl hattach ht

/-- If a queue is never empty, whatever is done to the others. -/
theorem nears_of_waiting (hs : st.hub.Single)
    (hcs : ∀ c ∈ cs, c.attaches = false ∧ ∀ max, c ≠ .process max)
    (hwire : st.hub.wires[place]? = some (kind, line))
    (hwait : ∀ pre, pre <+: cs → kind ∉ st.served pre → ((st.run pre).lines.get line).queue ≠ [])
    (ht : st.hub.TurnIn place d) : Nears kind place d (st.served cs) (st.run cs).hub := by
  refine nears_run (fun pre c post heq hnot d ht => ?_) ht
  have hqueue := hwait pre ⟨c :: post, heq.symm⟩ hnot
  subst heq
  have hpre : ∀ c ∈ pre, c.attaches = false := fun c hc => (hcs c (List.mem_append_left _ hc)).1
  have hwires := Station.wires_run hs hpre
  obtain ⟨hattach, hprocess⟩ := hcs c (List.mem_append_right _ List.mem_cons_self)
  cases c with
  | look => exact nears_look (by rwa [hwires]) hqueue ht
  | process max => exact absurd rfl (hprocess max)
  | _ => exact nears_of_quiet (Station.single_of_run hs pre) rfl hattach ht

theorem nears_of_apart (hs : st.hub.Single) (hcs : ∀ c ∈ cs, c.attaches = false)
    (hwire : st.hub.wires[place]? = some (kind, line))
    (hown : ∀ k, (k, line) ∈ st.hub.wires → k = kind) (hwait : (st.lines.get line).queue ≠ [])
    (ht : st.hub.TurnIn place d) : Nears kind place d (st.served cs) (st.run cs).hub := by
  obtain ⟨fine, hfine, hrun, htrace⟩ := st.exists_looks hcs
  have hserved : st.served fine = st.served cs := congrArg (List.filterMap _) htrace
  rw [← hrun, ← hserved]
  refine nears_of_waiting hs hfine hwire (fun pre hpre hnot => ?_) ht
  have hqueue := Station.queue_run hs (fun c hc => (hfine c (hpre.subset hc)).1) hown hnot
  exact fun hempty => hwait (List.prefix_nil.mp (hempty ▸ hqueue))

end Runs

/-! ## Fairness -/

theorem exists_of_served_look {st : Station C} {kind : Peripheral}
    (h : st.served [.look] = [kind]) :
    ∃ line, st.hub.wires[st.hub.cursor % st.hub.backends.length]? = some (kind, line) ∧
      st.look.hub.backends.length = st.hub.backends.length ∧
      st.look.hub.cursor = st.hub.advance.cursor := by
  rcases st.hub.idle_or_handover st.lines with hidle | ⟨e, he⟩
  · rw [Station.served_look_of_idle hidle] at h
    cases h
  · have hserved := e.served_before
    have hlook := e.look_before
    have hturn := e.inTurn
    have hcursor := e.cursor_after
    have hbackends := e.backends_after
    rw [he] at hserved hlook hturn hcursor hbackends
    rw [h] at hserved
    refine ⟨e.backend.line, ?_, ?_, ?_⟩
    · rw [Hub.getElem?_wires, show st.hub.backends[_]? = some e.backend from hturn,
        List.head_eq_of_cons_eq hserved]
      rfl
    · rw [hlook, hbackends]
    · rw [hlook, hcursor]

/-- Between two events of one backend comes one of every other backend that has had some all the
time. -/
theorem mem_served_between {st : Station C} (hs : st.hub.Single) {kind : Peripheral}
    {cs : List (Call C)} (hcs : ∀ c ∈ cs, c.attaches = false ∧ ∀ max, c ≠ .process max)
    (hfirst : st.served [.look] = [kind]) (hlast : (st.look.run cs).served [.look] = [kind])
    {b : Backend} (hb : b ∈ st.hub.backends) (hne : b.kind ≠ kind)
    (hwait : ∀ pre, pre <+: cs → ((st.look.run pre).lines.get b.line).queue ≠ []) :
    b.kind ∈ st.look.served cs := by
  obtain ⟨line, hturn, hlen, hcursor⟩ := exists_of_served_look hfirst
  obtain ⟨line', hturn', -, -⟩ := exists_of_served_look hlast
  obtain ⟨place, hplace, hwire⟩ := Hub.exists_place hb
  have hlook : st.look.hub.wires = st.hub.wires := Station.wires_after hs (c := .look) rfl
  have hsingle : st.look.hub.Single := Station.single_after hs .look
  have hrun : (st.look.run cs).hub.wires = st.hub.wires := by
    rw [Station.wires_run hsingle fun c hc => (hcs c hc).1, hlook]
  have hlen' : (st.look.run cs).hub.backends.length = st.hub.backends.length := by
    rw [← Hub.length_wires, hrun, Hub.length_wires]
  rw [hrun] at hturn'
  have hback := hs.eq_of_wires hturn' hturn
  obtain ⟨d, ht⟩ := Hub.exists_turnIn (h := st.look.hub) (hlen ▸ hplace)
  cases nears_of_waiting hsingle hcs (hlook ▸ hwire)
      (fun pre hpre _ => hwait pre hpre) ht with
  | served hmem => exact List.mem_of_mem_take hmem
  | nearer d' hnot ht' hle =>
    exfalso
    have hend : st.hub.TurnIn place d' := by
      refine ht'.congr hlen'.symm ?_
      rw [hback, hlen']
    have hreaches := ht.reaches
    rw [hlen, hcursor, Hub.advance] at hreaches
    dsimp only at hreaches
    rw [Nat.mod_add_mod, Nat.add_assoc, Nat.mod_add_mod, Nat.add_comm 1 d] at hreaches
    have hwithin := ht.within
    rw [hlen] at hwithin
    rcases Nat.lt_or_eq_of_le (show d + 1 ≤ st.hub.backends.length from hwithin) with hlt | heq
    · have := hend.unique ⟨hlt, hreaches⟩
      omega
    · rw [heq, Nat.add_mod_right] at hreaches
      rw [hreaches, hwire] at hturn
      simp only [Option.some.injEq, Prod.mk.injEq] at hturn
      exact hne hturn.1

/-- From here on no backend starves. -/
structure Fair (st : Station C) : Prop where
  /-- With `n` backends, one that has an event is among the next `n` that are served, whatever is
  raised, read, registered or disarmed between the batches. -/
  amongNext : ∀ b ∈ st.hub.backends, (st.lines.get b.line).queue ≠ [] →
    ∀ cs : List (Call C), (∀ c ∈ cs, c.attaches = false ∧ c ≠ .look) →
      b.kind ∈ (st.served cs).take st.hub.backends.length ∨
        (st.served cs).length < st.hub.backends.length
  /-- If every backend has a line of its own, this may as well happen within batches, at any look;
  and what has not been served yet is still waiting. -/
  anytime : st.hub.Apart → ∀ b ∈ st.hub.backends, (st.lines.get b.line).queue ≠ [] →
    ∀ cs : List (Call C), (∀ c ∈ cs, c.attaches = false) →
      b.kind ∈ (st.served cs).take st.hub.backends.length ∨
        (st.served cs).length < st.hub.backends.length ∧
          (st.lines.get b.line).queue <+: ((st.run cs).lines.get b.line).queue
  /-- A batch that may be as long as there are backends serves all that have events. -/
  enough : st.hub.Apart → ∀ b ∈ st.hub.backends, (st.lines.get b.line).queue ≠ [] →
    ∀ max, st.hub.backends.length ≤ max → b.kind ∈ st.served [.process max]
  /-- Between two events of one backend, every other backend that has had events all the time is
  served. -/
  between : ∀ kind (cs : List (Call C)), st.served [.look] = [kind] →
    (∀ c ∈ cs, c.attaches = false ∧ ∀ max, c ≠ .process max) →
    (st.look.run cs).served [.look] = [kind] → ∀ b ∈ st.hub.backends, b.kind ≠ kind →
    (∀ pre, pre <+: cs → ((st.look.run pre).lines.get b.line).queue ≠ []) →
    b.kind ∈ st.look.served cs
  /-- There is nothing more to a batch than its looks. -/
  batches : ∀ max, ∃ k, st.run [.process max] = st.run (List.replicate k .look) ∧
    st.trace [.process max] = st.trace (List.replicate k .look)

namespace Hub.Single

variable {st : Station C} {b : Backend} {cs : List (Call C)}

theorem amongNext (hs : st.hub.Single) (hb : b ∈ st.hub.backends)
    (hwait : (st.lines.get b.line).queue ≠ [])
    (hcs : ∀ c ∈ cs, c.attaches = false ∧ c ≠ .look) :
    b.kind ∈ (st.served cs).take st.hub.backends.length ∨
      (st.served cs).length < st.hub.backends.length := by
  obtain ⟨place, hplace, hwire⟩ := exists_place hb
  obtain ⟨d, ht⟩ := exists_turnIn hplace
  have hnears : Nears b.kind place d (st.served cs) (st.run cs).hub := by
    rcases hs.apart_or_shared with hapart | ⟨line, hall⟩
    · exact nears_of_apart hs (fun c hc => (hcs c hc).1) hwire (hapart.own hb) hwait ht
    · rw [hall b hb] at hwire
      exact nears_of_shared hs hcs hall hwire ht
  exact (hnears.mem_take_or_lt ht.within).imp_right And.right

theorem anytime (hs : st.hub.Single) (hapart : st.hub.Apart) (hb : b ∈ st.hub.backends)
    (hwait : (st.lines.get b.line).queue ≠ []) (hcs : ∀ c ∈ cs, c.attaches = false) :
    b.kind ∈ (st.served cs).take st.hub.backends.length ∨
      (st.served cs).length < st.hub.backends.length ∧
        (st.lines.get b.line).queue <+: ((st.run cs).lines.get b.line).queue := by
  obtain ⟨place, hplace, hwire⟩ := exists_place hb
  obtain ⟨d, ht⟩ := exists_turnIn hplace
  have hnears := nears_of_apart hs hcs hwire (hapart.own hb) hwait ht
  refine (hnears.mem_take_or_lt ht.within).imp_right fun ⟨hnot, hlt⟩ => ⟨hlt, ?_⟩
  exact Station.queue_run hs hcs (hapart.own hb) hnot

theorem enough (hs : st.hub.Single) (hapart : st.hub.Apart) (hb : b ∈ st.hub.backends)
    (hwait : (st.lines.get b.line).queue ≠ []) {max : Nat} (hmax : st.hub.backends.length ≤ max) :
    b.kind ∈ st.served [.process max] := by
  have hcs : ∀ c ∈ [(.process max : Call C)], c.attaches = false := by simp [Call.attaches]
  rcases hs.anytime hapart hb hwait hcs with hmem | ⟨hlt, hqueue⟩
  · exact List.mem_of_mem_take hmem
  · -- a batch that stops early leaves nothing in the queues
    exfalso
    obtain ⟨k, es, st', h⟩ := exists_drains max st
    rw [h.served, List.length_map] at hlt
    have hempty := h.empty_of_lt (Nat.lt_of_lt_of_le hlt hmax) b (h.backends ▸ hb)
    have hrun : st.run [.process max] = st' := by
      change Call.after st (.process max) = st'
      rw [Call.after, h.process_eq]
    rw [hrun, hempty] at hqueue
    exact hwait (List.prefix_nil.mp hqueue)

end Hub.Single

open Station

/-- **No backend starves.** In whatever state a hub with `n` backends is found, a backend that has
an event is among the next `n` that are served, however full the queues of the others are kept and
wherever the batches end; and between two events of one backend, every other backend that has had
events all the time is served. -/
theorem no_backend_starves (n : Nat) (cs : List (Call C)) : Fair ((start n).run cs) where
  amongNext _ hb hwait _ hcs := (single_run n cs).amongNext hb hwait hcs
  anytime hapart _ hb hwait _ hcs := (single_run n cs).anytime hapart hb hwait hcs
  enough hapart _ hb hwait _ hmax := (single_run n cs).enough hapart hb hwait hmax
  between _ _ hfirst hcs hlast _ hb hne hwait :=
    mem_served_between (single_run n cs) hcs hfirst hlast hb hne hwait
  batches max := by
    obtain ⟨k, es, st', h⟩ := exists_drains max ((start n).run cs)
    refine ⟨k, ?_, ?_⟩
    · rw [run_looks, h.looks]
      change Call.after _ (.process max) = st'
      rw [Call.after, h.process_eq]
    · rw [h.trace_looks, trace_singleton]
      rfl

/-- The pins have had more events than a batch may hand over, and get another one after every batch:
the converter's event is the second one all the same. -/
theorem no_backend_starves_crowded : ∃ cs ds : List (Call Unit),
    ((start 2).run cs).hub.pending ((start 2).run cs).lines = 4 ∧
      ((start 2).run cs).served ds = [.gpio, .adc, .gpio] ∧
      .adc ∈ (((start 2).run cs).served ds).take 2 := by
  let quiet : Handler Unit := fun _ c => .finish c none
  let cs : List (Call Unit) := [.attachGpio 0, .attachAdc 1,
    .register ⟨.gpio, 3⟩ .edges ⟨true, none, ()⟩ quiet,
    .register ⟨.adc, 2⟩ .edges ⟨true, some 1000, ()⟩ quiet, .raise 0 3 .rising, .raise 0 3 .falling,
    .raise 0 3 .rising, .sample 2 400, .sample 2 1400]
  let ds : List (Call Unit) := [.process 1, .raise 0 3 .falling, .process 1, .raise 0 3 .rising,
    .process 1]
  have hserved : ((start 2).run cs).served ds = [.gpio, .adc, .gpio] := by decide +kernel
  have hlen : ((start 2).run cs).hub.backends.length = 2 := by decide +kernel
  have hwatch : ∃ b ∈ ((start 2).run cs).hub.backends, b.kind = .adc ∧
      (((start 2).run cs).lines.get b.line).queue ≠ [] := by decide +kernel
  obtain ⟨b, hb, hkind, hwait⟩ := hwatch
  refine ⟨cs, ds, by decide +kernel, hserved, ?_⟩
  have hnext := (no_backend_starves 2 cs).amongNext b hb hwait ds (by simp [ds, Call.attaches])
  rw [hkind, hlen, hserved] at hnext
  rw [hserved]
  exact hnext.resolve_right (by decide)

end Coop
