import TinySql.Network.Slots

/-!
# Stopping

`Server::stop` closes every connection that the server still has; the protocol handlers are destroyed
at the end of `main`, and with them the last references to the connections. What stays open until
the process ends are the descriptors of connections that have closed themselves without closing
their descriptor.
-/

namespace TinySql.Server
open Run

variable {s s' : Server} {fd id : Nat} {c : Connection} {ids : List Nat}

/-! ## The model -/

/-- `forceClose` of one connection after the other. -/
def closeAll (ids : List Nat) (s : Server) : Server := ids.foldl (fun s id => s.close id) s

/-- The references of a map go away. -/
def releaseEach (ids : List Nat) (s : Server) : Server := ids.foldl (fun s id => s.release id) s

def idsOf (m : AList fun _ : Nat => Nat) : List Nat := m.entries.map (·.2)

def stop (s : Server) : Server :=
  let ids := idsOf s.connections
  let s := s.closeAll ids
  let s := releaseEach ids { s with connections := ∅ }
  { s with registered := ∅ }

def dropHandlers (s : Server) : Server :=
  releaseEach (idsOf s.protocolHandlers) { s with protocolHandlers := ∅ }

/-- A signal stops the server, and `main` ends. -/
def exit (s : Server) : Server := s.stop.dropHandlers

/-- The event loop fails, and `main` ends: the server is stopped by its destructor, after the protocol
handlers have been destroyed. -/
def abandon (s : Server) : Server := s.dropHandlers.stop

/-! ## Closing -/

theorem mem_idsOf {m : AList fun _ : Nat => Nat} (found : m.lookup fd = some id) : id ∈ idsOf m :=
  List.mem_map.mpr ⟨⟨fd, id⟩, AList.mem_lookup_iff.mp found, rfl⟩

/-- A connected object with one of these positions has this descriptor. -/
def Names (s : Server) (ids : List Nat) (fd : Nat) : Prop :=
  ∃ id ∈ ids, ∃ c, s.objects[id]? = some c ∧ c.output.connected = true ∧ c.fd = some fd

/-- These objects are not connected any more, and the others that are connected stay as they are. -/
structure Closed (ids : List Nat) (s s' : Server) : Prop where
  opened : ∀ fd, fd ∈ s'.opened ↔ fd ∈ s.opened ∧ ¬ Names s ids fd
  alive : ∀ id c, c.output.connected = true →
    (s'.objects[id]? = some c ↔ s.objects[id]? = some c ∧ id ∉ ids)

theorem Closed.refl (s : Server) : Closed [] s s where
  opened := by simp [Names]
  alive := by simp

theorem Closed.names {more : List Nat} (closed : Closed ids s s') :
    Names s' more fd ↔ ∃ id ∈ more, id ∉ ids ∧ ∃ c, s.objects[id]? = some c ∧
      c.output.connected = true ∧ c.fd = some fd := by
  constructor
  · rintro ⟨id, member, c, here, connected, named⟩
    obtain ⟨here, other⟩ := (closed.alive id c connected).mp here
    exact ⟨id, member, other, c, here, connected, named⟩
  · rintro ⟨id, member, other, c, here, connected, named⟩
    exact ⟨id, member, c, (closed.alive id c connected).mpr ⟨here, other⟩, connected, named⟩

theorem Closed.trans {more : List Nat} {s'' : Server} (first : Closed ids s s')
    (second : Closed more s' s'') : Closed (ids ++ more) s s'' where
  opened := by
    intro fd
    rw [second.opened, first.opened, first.names, and_assoc]
    apply and_congr_right
    intro _
    rw [← not_or, Names]
    apply not_congr
    constructor
    · rintro (⟨id, member, rest⟩ | ⟨id, member, -, rest⟩)
      · exact ⟨id, List.mem_append_left _ member, rest⟩
      · exact ⟨id, List.mem_append_right _ member, rest⟩
    · rintro ⟨id, member, rest⟩
      by_cases early : id ∈ ids
      · exact .inl ⟨id, early, rest⟩
      · exact .inr ⟨id, (List.mem_append.mp member).resolve_left early, early, rest⟩
  alive := by
    intro id c connected
    rw [second.alive id c connected, first.alive id c connected, List.mem_append, not_or, and_assoc]

theorem closed_same (ends : ∀ c, s.objects[id]? = some c → c.output.connected = false) :
    Closed [id] s s where
  opened := by
    intro fd
    refine (and_iff_left ?_).symm
    rintro ⟨_, member, c, here, connected, -⟩
    obtain rfl := List.mem_singleton.mp member
    cases (ends c here).symm.trans connected
  alive := by
    intro other c connected
    refine (and_iff_left_of_imp fun here member => ?_).symm
    obtain rfl := List.mem_singleton.mp member
    cases (ends c here).symm.trans connected

theorem alive_setObject {c' : Connection} (here : s.objects[id]? = some c)
    (closed : c'.output.connected = false) (other : Nat) (d : Connection)
    (connected : d.output.connected = true) :
    (s.setObject id c').objects[other]? = some d ↔ s.objects[other]? = some d ∧ other ∉ [id] := by
  have inside : id < s.objects.length := (List.getElem?_eq_some_iff.mp here).1
  by_cases same : other = id
  · subst same
    have gone : c' ≠ d := by
      rintro rfl
      cases closed.symm.trans connected
    simp [setObject_self inside, gone]
  · simp [setObject_other same, same]

theorem names_singleton (here : s.objects[id]? = some c) (connected : c.output.connected = true) :
    Names s [id] fd ↔ c.fd = some fd := by
  constructor
  · rintro ⟨_, member, d, there, -, named⟩
    obtain rfl := List.mem_singleton.mp member
    obtain rfl := Option.some.inj (here.symm.trans there)
    exact named
  · exact fun named => ⟨id, List.mem_cons_self, c, here, connected, named⟩

theorem close_closes (id : Nat) (s : Server) : Closed [id] s (s.close id) := by
  cases here : s.objects[id]? with
  | none =>
      have same : s.close id = s := by simp [close, here]
      rw [same]
      refine closed_same fun c there => ?_
      cases here.symm.trans there
  | some c =>
      cases connected : c.output.connected with
      | false =>
          rw [close_closed here connected]
          refine closed_same fun d there => ?_
          obtain rfl := Option.some.inj (here.symm.trans there)
          exact connected
      | true =>
          have alive := @alive_setObject _ _ _ { c.disconnected with fd := none } here rfl
          have names (fd : Nat) := @names_singleton _ fd _ _ here connected
          cases named : c.fd with
          | none =>
              have closes : s.close id = s.setObject id { c.disconnected with fd := none } := by
                simp [close, here, connected, named, Connection.disconnected]
              rw [closes]
              exact ⟨by simp [setObject, names, named], alive⟩
          | some fd =>
              rw [close_eq here named connected]
              refine ⟨fun other => ?_, alive⟩
              rw [names, named, closeSocket, Finset.mem_erase, and_comm, Option.some.injEq, eq_comm]
              rfl

theorem closeAll_closes (ids : List Nat) (s : Server) : Closed ids s (s.closeAll ids) := by
  induction ids generalizing s with
  | nil => exact .refl s
  | cons id rest ih => exact (close_closes id s).trans (ih (s.close id))

theorem maps_close (id : Nat) (s : Server) : (s.close id).connections = s.connections ∧
    (s.close id).protocolHandlers = s.protocolHandlers := by
  unfold close
  split
  · exact ⟨rfl, rfl⟩
  · split
    · exact ⟨rfl, rfl⟩
    · dsimp only
      split <;> exact ⟨rfl, rfl⟩

theorem maps_closeAll (ids : List Nat) (s : Server) :
    (s.closeAll ids).connections = s.connections ∧
      (s.closeAll ids).protocolHandlers = s.protocolHandlers := by
  induction ids generalizing s with
  | nil => exact ⟨rfl, rfl⟩
  | cons id rest ih =>
      obtain ⟨connections, handlers⟩ := maps_close id s
      exact ⟨(ih (s.close id)).1.trans connections, (ih (s.close id)).2.trans handlers⟩

theorem referenced_close (id other : Nat) (s : Server) :
    (s.close id).referenced other = s.referenced other := by
  obtain ⟨connections, handlers⟩ := maps_close id s
  rw [referenced, referenced, connections, handlers]

/-- Whoever is still referred to is not closed. -/
theorem releaseEach_eq (ids : List Nat) (s : Server) :
    releaseEach ids s = s.closeAll (ids.filter fun id => !s.referenced id) := by
  induction ids generalizing s with
  | nil => rfl
  | cons id rest ih =>
      rw [releaseEach, List.foldl_cons, ← releaseEach, release]
      cases kept : s.referenced id with
      | true =>
          rw [if_pos rfl, ih, List.filter_cons_of_neg (by simp [kept])]
      | false =>
          rw [if_neg Bool.false_ne_true, ih, List.filter_cons_of_pos (by simp [kept])]
          simp only [referenced_close]
          rfl

theorem closeAll_closed (again : ∀ id ∈ ids, ∀ c, s.objects[id]? = some c →
    c.output.connected = false) : s.closeAll ids = s := by
  induction ids with
  | nil => rfl
  | cons id rest ih =>
      have same : s.close id = s := by
        cases here : s.objects[id]? with
        | none => simp [close, here]
        | some c => exact close_closed here (again id List.mem_cons_self c here)
      rw [closeAll, List.foldl_cons, same]
      exact ih fun other member => again other (List.mem_cons_of_mem id member)

theorem stop_eq (s : Server) : s.stop =
    { s.closeAll (idsOf s.connections) with connections := ∅, registered := ∅ } := by
  have closed := closeAll_closes (idsOf s.connections) s
  have released : releaseEach (idsOf s.connections)
      { s.closeAll (idsOf s.connections) with connections := ∅ } =
        { s.closeAll (idsOf s.connections) with connections := ∅ } := by
    rw [releaseEach_eq]
    apply closeAll_closed
    intro id member c here
    rw [Bool.eq_false_iff]
    intro connected
    exact ((closed.alive id c connected).mp here).2 (List.mem_of_mem_filter member)
  rw [stop]
  dsimp only
  rw [released]

/-! ## Who is closed -/

def Owned (s : Server) (fd : Nat) : Prop :=
  ∃ c ∈ s.objects, c.output.connected = true ∧ c.fd = some fd

instance (s : Server) (fd : Nat) : Decidable (s.Owned fd) :=
  inferInstanceAs (Decidable (∃ c ∈ s.objects, c.output.connected = true ∧ c.fd = some fd))

theorem owned_iff : s.Owned fd ↔ ∃ (id : Nat) (c : Connection),
    s.objects[id]? = some c ∧ c.output.connected = true ∧ c.fd = some fd := by
  simp only [Owned, List.mem_iff_getElem?]
  constructor
  · rintro ⟨c, ⟨id, here⟩, rest⟩
    exact ⟨id, c, here, rest⟩
  · rintro ⟨id, c, here, rest⟩
    exact ⟨c, ⟨id, here⟩, rest⟩

/-- The open descriptors that no connected object has. -/
def unowned (s : Server) : Finset Nat := s.opened.filter fun fd => ¬ s.Owned fd

/-- The protocol handlers hold every connected object, until its connection is closed. -/
def Held (s : Server) : Prop := ∀ (id : Nat) (c : Connection), s.objects[id]? = some c →
  c.output.connected = true → ∃ fd, c.fd = some fd ∧ s.protocolHandlers.lookup fd = some id

theorem Held.names (held : Held s) (all : ∀ id ∈ idsOf s.protocolHandlers, id ∈ ids) :
    Names s ids fd ↔ s.Owned fd := by
  rw [owned_iff]
  constructor
  · rintro ⟨id, -, rest⟩
    exact ⟨id, rest⟩
  · rintro ⟨id, c, here, connected, named⟩
    obtain ⟨fd', -, handler⟩ := held id c here connected
    exact ⟨id, all id (mem_idsOf handler), c, here, connected, named⟩

/-- The end of `main` closes all that is connected, and nothing else. -/
theorem Held.closed (held : Held s) (all : ∀ id ∈ idsOf s.protocolHandlers, id ∈ ids)
    (closed : Closed ids s s') :
    s'.opened = s.unowned ∧ ∀ c ∈ s'.objects, c.output.connected = false := by
  constructor
  · ext fd
    rw [closed.opened, held.names all, unowned, Finset.mem_filter]
  · intro c member
    obtain ⟨id, here⟩ := List.mem_iff_getElem?.mp member
    rw [Bool.eq_false_iff]
    intro connected
    obtain ⟨before, other⟩ := (closed.alive id c connected).mp here
    obtain ⟨fd, -, handler⟩ := held id c before connected
    exact other (all id (mem_idsOf handler))

theorem exit_closed (s : Server) :
    Closed (idsOf s.connections ++ idsOf s.protocolHandlers) s s.exit := by
  have first := closeAll_closes (idsOf s.connections) s
  have handlers := (maps_closeAll (idsOf s.connections) s).2
  have unreferenced (id : Nat) :
      ({ s.stop with protocolHandlers := ∅ } : Server).referenced id = false := by
    rw [stop_eq]
    rfl
  rw [exit, dropHandlers, releaseEach_eq]
  simp only [unreferenced, Bool.not_false, List.filter_true]
  have second := closeAll_closes (idsOf s.stop.protocolHandlers) { s.stop with protocolHandlers := ∅ }
  rw [stop_eq] at second ⊢
  dsimp only at second ⊢
  rw [handlers] at second ⊢
  exact first.trans ⟨second.opened, second.alive⟩

theorem dropHandlers_eq (s : Server) : ∃ ids,
    s.dropHandlers = closeAll ids { s with protocolHandlers := ∅ } ∧
      ∀ id ∈ idsOf s.protocolHandlers, id ∈ ids ∨ id ∈ idsOf s.connections := by
  refine ⟨_, releaseEach_eq .., ?_⟩
  intro id member
  by_cases referenced : ({ s with protocolHandlers := ∅ } : Server).referenced id = true
  · rw [Server.referenced, Bool.or_eq_true] at referenced
    rcases referenced with here | never
    · obtain ⟨entry, inside, same⟩ := List.any_eq_true.mp here
      exact .inr (List.mem_map.mpr ⟨entry, inside, beq_iff_eq.mp same⟩)
    · cases never
  · exact .inl (List.mem_filter.mpr ⟨member, by simpa using referenced⟩)

theorem abandon_closed (s : Server) : ∃ ids, (∀ id ∈ idsOf s.protocolHandlers, id ∈ ids) ∧
    Closed ids s s.abandon := by
  obtain ⟨ids, dropped, covered⟩ := dropHandlers_eq s
  have first := closeAll_closes ids { s with protocolHandlers := ∅ }
  have connections := (maps_closeAll ids { s with protocolHandlers := ∅ }).1
  rw [← dropped] at first connections
  have second := closeAll_closes (idsOf s.connections) s.dropHandlers
  have both := first.trans second
  refine ⟨ids ++ idsOf s.connections, ?_, ?_⟩
  · exact fun id member => List.mem_append.mpr (covered id member)
  · rw [abandon, stop_eq, connections]
    exact ⟨both.opened, both.alive⟩

/-! ## In every run -/

theorem held_start (maxConnections : Nat) : Held (start maxConnections) := by
  intro id c here
  simp [start] at here

theorem Held.setObject {c' : Connection} (held : Held s) (here : s.objects[id]? = some c)
    (named : c'.output.connected = true → c.output.connected = true ∧ c'.fd = c.fd) :
    Held (s.setObject id c') := by
  intro other d there connected
  by_cases same : other = id
  · subst same
    have inside := (List.getElem?_eq_some_iff.mp here).1
    obtain rfl := Option.some.inj ((setObject_self inside).symm.trans there)
    obtain ⟨before, unchanged⟩ := named connected
    obtain ⟨fd, found, handler⟩ := held other c here before
    exact ⟨fd, unchanged.trans found, handler⟩
  · rw [setObject_other same] at there
    exact held other d there connected

theorem Held.send (held : Held s) (id : Nat) (sends : List (Bytes × Written)) :
    Held (s.send id sends) := by
  unfold Server.send
  cases here : s.objects[id]? with
  | none => exact held
  | some c =>
      apply held.setObject here
      intro connected
      exact ⟨(sendAll_connected sends c).symm.trans connected, rfl⟩

theorem Held.closeCallback (held : Held s) (serves : Serves s fd id c) :
    Held (closeCallback fd (s.setObject id c.disconnected)) := by
  have member : fd ∈ (s.setObject id c.disconnected).connections := serves.member
  rw [closeCallback_eq member]
  intro other d there connected
  have different : other ≠ id := by
    rintro rfl
    obtain rfl := Option.some.inj ((setObject_self serves.inside).symm.trans there)
    cases connected
  have before : s.objects[other]? = some d := (setObject_other different).symm.trans there
  obtain ⟨fd', named, handler⟩ := held other d before connected
  refine ⟨fd', named, ?_⟩
  have elsewhere : fd' ≠ fd := by
    rintro rfl
    exact different (Option.some.inj (handler.symm.trans serves.handler))
  exact (AList.lookup_erase_ne elsewhere).trans handler

theorem Effect.held {e : Event} (effect : Effect s e s') (wired : Wired s) (held : Held s) :
    Held s' := by
  cases effect with
  | @joined fd nonBlocking added greeting fresh admitted =>
      apply Held.send
      intro id c here connected
      rcases object_cases here with old | ⟨beyond, new⟩
      · obtain ⟨fd', named, handler⟩ := held id c old connected
        obtain ⟨open_, same, inside⟩ := wired.opened id c old connected
        obtain rfl := Option.some.inj (named.symm.trans same)
        have different : fd' ≠ fd := by
          rintro rfl
          exact fresh inside
        exact ⟨fd', named, (join_lookup different).2.trans handler⟩
      · rw [List.getElem?_singleton] at new
        split at new
        · rename_i first
          obtain rfl := Option.some.inj new
          obtain rfl : id = s.objects.length := Nat.le_antisymm (Nat.sub_eq_zero_iff_le.mp first) beyond
          exact ⟨fd, rfl, AList.lookup_insert _⟩
        · cases new
  | refused refused closed =>
      intro id c here connected
      rcases object_cases here with old | ⟨-, new⟩
      · exact held id c old connected
      · cases connected.symm.trans (closed c (List.mem_of_getElem? new))
  | answered serves sends =>
      apply held.setObject serves.object
      intro connected
      exact ⟨serves.connected, rfl⟩
  | dropped serves sends => exact held.setObject serves.object nofun
  | ended serves => exact held.closeCallback serves
  | failed serves =>
      rw [handleClose_eq serves.member]
      exact held
  | wrote serves stays => exact held.setObject serves.object fun _ => ⟨serves.connected, rfl⟩
  | broken serves ends => exact held.closeCallback serves

/-- How many descriptors the event leaves open for good, with no connected object that has them. -/
def loses (s : Server) : Event → Nat
  | .error _ => 0
  | e => s.leaks e

def losesOf (s : Server) : List Event → Nat
  | [] => 0
  | e :: rest => s.loses e + losesOf (e.body s) rest

theorem owned_setObject {c' : Connection} (wired : Wired s) (serves : Serves s fd id c)
    (closed : c'.output.connected = false) (other : Nat) :
    (s.setObject id c').Owned other ↔ s.Owned other ∧ other ≠ fd := by
  simp only [owned_iff]
  constructor
  · rintro ⟨id', d, there, connected, named⟩
    have different : id' ≠ id := by
      rintro rfl
      obtain rfl := Option.some.inj ((setObject_self serves.inside).symm.trans there)
      cases closed.symm.trans connected
    have before : s.objects[id']? = some d := (setObject_other different).symm.trans there
    refine ⟨⟨id', d, before, connected, named⟩, ?_⟩
    rintro rfl
    exact different (wired.unique id' id d c before serves.object connected serves.connected
      (named.trans serves.named.symm))
  · rintro ⟨⟨id', d, there, connected, named⟩, elsewhere⟩
    have different : id ≠ id' := by
      rintro rfl
      obtain rfl := Option.some.inj (serves.object.symm.trans there)
      exact elsewhere (Option.some.inj (named.symm.trans serves.named))
    exact ⟨id', d, (setObject_other different.symm).trans there, connected, named⟩

theorem owned_kept {c' : Connection} (here : s.objects[id]? = some c) (named : c'.fd = c.fd)
    (connected : c'.output.connected = c.output.connected) (fd : Nat) :
    (s.setObject id c').Owned fd ↔ s.Owned fd := by
  have inside := (List.getElem?_eq_some_iff.mp here).1
  simp only [owned_iff]
  constructor
  · rintro ⟨id', d, there, alive, same⟩
    by_cases equal : id' = id
    · subst equal
      obtain rfl := Option.some.inj ((setObject_self inside).symm.trans there)
      exact ⟨_, c, here, connected.symm.trans alive, named.symm.trans same⟩
    · exact ⟨id', d, (setObject_other equal).symm.trans there, alive, same⟩
  · rintro ⟨id', d, there, alive, same⟩
    by_cases equal : id' = id
    · subst equal
      obtain rfl := Option.some.inj (here.symm.trans there)
      exact ⟨_, c', setObject_self inside, connected.trans alive, named.trans same⟩
    · exact ⟨id', d, (setObject_other equal).trans there, alive, same⟩

theorem unowned_kept {c' : Connection} (here : s.objects[id]? = some c) (named : c'.fd = c.fd)
    (connected : c'.output.connected = c.output.connected) :
    (s.setObject id c').unowned = s.unowned :=
  Finset.filter_congr fun fd _ => not_congr (owned_kept here named connected fd)

theorem owned_grow {more : List Connection} :
    ({ s with objects := s.objects ++ more } : Server).Owned fd ↔
      s.Owned fd ∨ ∃ c ∈ more, c.output.connected = true ∧ c.fd = some fd := by
  simp only [Owned, List.mem_append, or_and_right, exists_or]

theorem unowned_send (s : Server) (id : Nat) (sends : List (Bytes × Written)) :
    (s.send id sends).unowned = s.unowned := by
  unfold Server.send
  cases here : s.objects[id]? with
  | none => rfl
  | some c => exact unowned_kept here rfl (sendAll_connected sends c)

theorem unowned_ended (wired : Wired s) (serves : Serves s fd id c) :
    (closeCallback fd (s.setObject id c.disconnected)).unowned = insert fd s.unowned := by
  have member : fd ∈ (s.setObject id c.disconnected).connections := serves.member
  have owned (other : Nat) : (closeCallback fd (s.setObject id c.disconnected)).Owned other ↔
      s.Owned other ∧ other ≠ fd := by
    rw [closeCallback_eq member]
    exact owned_setObject wired serves rfl other
  have opened := opened_closeCallback (s.setObject id c.disconnected) fd
  ext other
  rw [unowned, Finset.mem_filter, owned, opened, Finset.mem_insert, unowned, Finset.mem_filter]
  by_cases same : other = fd
  · subst same
    exact iff_of_true ⟨wired.isOpen serves, fun owned => owned.2 rfl⟩ (.inl rfl)
  · simp [same, setObject]

theorem unowned_join (fresh : fd ∉ s.opened) : (s.join fd).unowned = s.unowned := by
  ext other
  have owned : (s.join fd).Owned other ↔ s.Owned other ∨ other = fd := by
    refine owned_grow.trans (or_congr_right ?_)
    simp only [List.mem_singleton, exists_eq_left, Option.some.injEq, true_and]
    exact eq_comm
  rw [unowned, Finset.mem_filter, owned, unowned, Finset.mem_filter, join, Finset.mem_insert, not_or]
  constructor
  · rintro ⟨rfl | open_, unowned, different⟩
    · exact absurd rfl different
    · exact ⟨open_, unowned⟩
  · rintro ⟨open_, unowned⟩
    refine ⟨.inr open_, unowned, ?_⟩
    rintro rfl
    exact fresh open_

theorem unowned_grow {more : List Connection} (closed : ∀ c ∈ more, c.output.connected = false) :
    ({ s with objects := s.objects ++ more } : Server).unowned = s.unowned := by
  apply Finset.filter_congr
  intro fd _
  rw [owned_grow]
  apply not_congr
  rw [or_iff_left_iff_imp]
  rintro ⟨c, member, connected, -⟩
  cases connected.symm.trans (closed c member)

theorem unowned_closed {c' : Connection} (wired : Wired s) (serves : Serves s fd id c)
    (closed : c'.output.connected = false) :
    (closeSocket fd (s.setObject id c')).unowned = s.unowned := by
  ext other
  have owned := owned_setObject wired serves closed other
  rw [unowned, Finset.mem_filter, unowned, Finset.mem_filter]
  have owner : s.Owned fd := owned_iff.mpr ⟨id, c, serves.object, serves.connected, serves.named⟩
  by_cases same : other = fd
  · subst same
    simp [closeSocket, owner]
  · have unchanged : (closeSocket fd (s.setObject id c')).Owned other ↔ s.Owned other :=
      owned.trans (and_iff_left same)
    rw [unchanged]
    simp [closeSocket, setObject, same]

theorem card_unowned_ended (wired : Wired s) (serves : Serves s fd id c) :
    (closeCallback fd (s.setObject id c.disconnected)).unowned.card = s.unowned.card + 1 := by
  rw [unowned_ended wired serves, Finset.card_insert_of_notMem]
  intro member
  exact (Finset.mem_filter.mp member).2
    (owned_iff.mpr ⟨id, c, serves.object, serves.connected, serves.named⟩)

theorem Effect.unowned {e : Event} (effect : Effect s e s') (wired : Wired s) :
    s'.unowned.card = s.unowned.card + s.loses e := by
  have same {s' : Server} (same : s'.unowned = s.unowned) : s'.unowned.card = s.unowned.card :=
    congrArg _ same
  cases effect with
  | joined fresh admitted => exact same ((unowned_send _ _ _).trans (unowned_join fresh))
  | refused refused closed => exact same (unowned_grow closed)
  | answered serves sends =>
      exact same (unowned_kept serves.object rfl (sendAll_connected sends _))
  | dropped serves sends => exact same (unowned_closed wired serves rfl)
  | ended serves => exact card_unowned_ended wired serves
  | failed serves =>
      rw [handleClose_eq serves.member]
      rfl
  | wrote serves stays =>
      rw [loses, leaks_write serves, stays]
      · exact same (unowned_kept serves.object rfl (stays.trans serves.connected.symm))
      · intro _ same
        cases same
  | broken serves ends =>
      rw [loses, leaks_write serves, ends]
      · exact card_unowned_ended wired serves
      · intro _ same
        cases same

theorem unowned_of_runs {run : List Event} (wired : Wired s) (held : Held s)
    (runs : Runs Step s run s') :
    Wired s' ∧ Held s' ∧ s'.unowned.card = s.unowned.card + s.losesOf run := by
  induction runs with
  | nil s => exact ⟨wired, held, rfl⟩
  | cons first _ ih =>
      obtain ⟨occurs, rfl⟩ := first
      have effect := wired.effect occurs
      obtain ⟨wired', held', counted⟩ := ih (wired.step occurs) (effect.held wired held)
      refine ⟨wired', held', ?_⟩
      rw [counted, effect.unowned wired, losesOf, Nat.add_assoc]

theorem stop_opened (wired : Wired s) : s.stop.opened = s.opened \ s.registered := by
  have closed := closeAll_closes (idsOf s.connections) s
  rw [stop_eq]
  ext fd
  rw [closed.opened, Finset.mem_sdiff]
  apply and_congr_right
  intro _
  apply not_congr
  constructor
  · rintro ⟨id, member, c, here, connected, named⟩
    obtain ⟨⟨fd', id'⟩, entry, rfl⟩ := List.mem_map.mp member
    have found : s.connections.lookup fd' = some id' := AList.mem_lookup_iff.mpr entry
    obtain ⟨d, there, same⟩ := wired.linked fd' id' (.inl found)
    obtain rfl := Option.some.inj (here.symm.trans there)
    obtain rfl := Option.some.inj (named.symm.trans (same connected))
    exact wired.watched fd id' c found here connected
  · intro watched
    obtain ⟨id, c, serves⟩ := wired.served fd watched
    exact ⟨id, mem_idsOf serves.entry, c, serves.object, serves.connected, serves.named⟩

/-- After every run, stopping the server closes what the event loop watches and nothing else. When the
protocol handlers are gone as well, no connection is connected, and one descriptor is still open for
each connection that has ended itself, after the end of its input or a failed write; the order in
which the server is stopped and the protocol handlers are destroyed makes no difference. -/
theorem shutdown_accounted (maxConnections : Nat) (run : List Event) (s : Server)
    (runs : Runs Step (start maxConnections) run s) :
    (s.stop.opened = s.opened \ s.registered ∧ s.stop.registered = ∅) ∧
    (s.exit.opened.card = (start maxConnections).losesOf run ∧
      ∀ c ∈ s.exit.objects, c.output.connected = false) ∧
    s.abandon.opened = s.exit.opened ∧ ∀ c ∈ s.abandon.objects, c.output.connected = false := by
  obtain ⟨wired, held, counted⟩ :=
    unowned_of_runs (wired_start maxConnections) (held_start maxConnections) runs
  obtain ⟨ids, covered, abandoned⟩ := abandon_closed s
  obtain ⟨left, silent⟩ := held.closed (fun id member => List.mem_append_right _ member)
    (exit_closed s)
  obtain ⟨left', silent'⟩ := held.closed covered abandoned
  refine ⟨⟨stop_opened wired, rfl⟩, ⟨?_, silent⟩, left'.trans left.symm, silent'⟩
  rw [left, counted]
  exact Nat.zero_add _

/-- Three connections, one that ends, one with an error and one that stays. -/
def threeConnections : List Event :=
  [.accept 7 true true ([], .accepted 0), .accept 8 true true ([], .accepted 0),
    .accept 9 true true ([], .accepted 0), .endOfFile 7, .error 8]

theorem threeConnections_left :
    (exit (threeConnections.foldl Event.body (start 1000))).opened.card = 1 := by
  have runs : Runs Step (start 1000) threeConnections
      (threeConnections.foldl Event.body (start 1000)) :=
    .cons ⟨by simp [Event.Occurs, start], rfl⟩ (.cons ⟨by simp [Event.Occurs]; decide, rfl⟩
      (.cons ⟨by simp [Event.Occurs]; decide, rfl⟩ (.cons ⟨by simp [Event.Occurs]; decide, rfl⟩
        (.cons ⟨by simp [Event.Occurs]; decide, rfl⟩ (.nil _)))))
  have counted := (shutdown_accounted 1000 threeConnections _ runs).2.1.1
  rw [counted]
  decide

end TinySql.Server
