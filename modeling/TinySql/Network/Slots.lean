import Mathlib.Data.Finset.Card
import TinySql.Lib.Run
import TinySql.Network.Wiring

/-!
# What the ends of connections leave behind

An end that the event loop reports leaves an open descriptor, which nothing closes any more; an end
that the protocol handler asks for leaves an entry in the map of connections, which only a new
connection on the same descriptor replaces. The entries count against the limit.
-/

namespace TinySql.Server
open Run

variable {s s' : Server} {fd id : Nat} {c : Connection}

/-! ## Open descriptors -/

/-- How many descriptors the event leaves open for good. -/
def leaks (s : Server) : Event → Nat
  | .accept _ _ _ _ | .data _ _ _ => 0
  | .endOfFile _ | .error _ => 1
  | .write fd written =>
      match (s.connections.lookup fd).bind (s.objects[·]?) with
      | none => 0
      | some c => if written = .error ∧ c.output.outputBuffer.readableBytes ≠ 0 then 1 else 0

def leaksOf (s : Server) : List Event → Nat
  | [] => 0
  | e :: rest => s.leaks e + leaksOf (e.body s) rest

/-- Open, but not watched by the event loop. -/
def stray (s : Server) : Finset Nat := s.opened \ s.registered

theorem Wired.registered_subset (wired : Wired s) : s.registered ⊆ s.opened := by
  intro fd member
  obtain ⟨id, c, serves⟩ := wired.served fd member
  exact wired.isOpen serves

theorem opened_card (wired : Wired s) : s.opened.card = s.registered.card + s.stray.card := by
  rw [stray, Nat.add_comm, Finset.card_sdiff_add_card_eq_card wired.registered_subset]

theorem stray_send (s : Server) (id : Nat) (sends : List (Bytes × Written)) :
    (s.send id sends).stray = s.stray := by
  unfold Server.send
  split <;> rfl

theorem stray_join (fresh : fd ∉ s.opened) : (s.join fd).stray = s.stray := by
  ext other
  simp only [stray, join, Finset.mem_sdiff, Finset.mem_insert, not_or]
  constructor
  · rintro ⟨rfl | open_, different, unseen⟩
    · exact absurd rfl different
    · exact ⟨open_, unseen⟩
  · rintro ⟨open_, unseen⟩
    refine ⟨.inr open_, ?_, unseen⟩
    rintro rfl
    exact fresh open_

theorem stray_closeSocket (member : fd ∈ s.registered) : (closeSocket fd s).stray = s.stray := by
  ext other
  by_cases same : other = fd
  · subst same
    simp [stray, closeSocket, member]
  · simp [stray, closeSocket, same]

theorem stray_erase (opened : fd ∈ s.opened) (s' : Server) (kept : s'.opened = s.opened)
    (gone : s'.registered = s.registered.erase fd) : s'.stray = insert fd s.stray := by
  ext other
  by_cases same : other = fd
  · subst same
    simp [stray, kept, gone, opened]
  · simp [stray, kept, gone, same]

theorem opened_closeCallback (s : Server) (fd : Nat) : (s.closeCallback fd).opened = s.opened := by
  rw [closeCallback, handleClose]
  split <;> rfl

theorem leaks_write (serves : Serves s fd id c) (written : Written) :
    s.leaks (.write fd written) = if (c.output.handleWrite written).connected then 0 else 1 := by
  have closes := @Output.handleWrite_closes _ written serves.connected
  simp only [leaks, serves.entry, Option.bind_some, serves.object, ← closes]
  cases (c.output.handleWrite written).connected <;> rfl

theorem stray_ended (wired : Wired s) (serves : Serves s fd id c) {s' : Server}
    (kept : s'.opened = s.opened) (gone : s'.registered = s.registered.erase fd) :
    s.stray ⊆ s'.stray ∧ s'.stray.card = s.stray.card + 1 := by
  rw [stray_erase (wired.isOpen serves) s' kept gone]
  refine ⟨Finset.subset_insert _ _, Finset.card_insert_of_notMem ?_⟩
  have watched := wired.watched fd id c serves.entry serves.object serves.connected
  simp [stray, watched]

/-- Each event adds as many stray descriptors as it leaks, and takes none away. -/
theorem Effect.stray {e : Event} (effect : Effect s e s') (wired : Wired s) :
    s.stray ⊆ s'.stray ∧ s'.stray.card = s.stray.card + s.leaks e := by
  have same {s' : Server} (same : s'.stray = s.stray) :
      s.stray ⊆ s'.stray ∧ s'.stray.card = s.stray.card := by
    rw [same]
    exact ⟨Finset.Subset.refl _, rfl⟩
  cases effect with
  | joined fresh admitted => exact same ((stray_send _ _ _).trans (stray_join fresh))
  | refused refused closed => exact same rfl
  | answered serves sends => exact same rfl
  | @dropped fd id c serves sends =>
      have watched := wired.watched fd id c serves.entry serves.object serves.connected
      exact same (stray_closeSocket (s := s.setObject id _) watched)
  | ended serves =>
      exact stray_ended wired serves (opened_closeCallback _ _) (registered_closeCallback serves)
  | failed serves =>
      rw [handleClose_eq serves.member]
      exact stray_ended wired serves rfl rfl
  | wrote serves stays =>
      rw [leaks_write serves, stays]
      exact same rfl
  | broken serves ends =>
      rw [leaks_write serves, ends]
      exact stray_ended wired serves (opened_closeCallback _ _) (registered_closeCallback serves)

theorem stray_of_runs {run : List Event} (wired : Wired s) (runs : Runs Step s run s') :
    Wired s' ∧ s.stray ⊆ s'.stray ∧ s'.stray.card = s.stray.card + s.leaksOf run := by
  induction runs with
  | nil s => exact ⟨wired, Finset.Subset.refl _, rfl⟩
  | @cons s s' s'' e rest first _ ih =>
      obtain ⟨occurs, rfl⟩ := first
      obtain ⟨more, counted⟩ := (wired.effect occurs).stray wired
      obtain ⟨wired', more', counted'⟩ := ih (wired.step occurs)
      refine ⟨wired', more.trans more', ?_⟩
      rw [counted', counted, leaksOf, Nat.add_assoc]

/-- In every run the open descriptors are those that the event loop watches and one for each end that
has leaked its own; none of these is ever closed, or used again. -/
theorem descriptors_accounted (maxConnections : Nat) (run : List Event) (s : Server)
    (runs : Runs Step (start maxConnections) run s) :
    s.opened.card = s.registered.card + (start maxConnections).leaksOf run ∧
    ∀ later s', Runs Step s later s' → s.opened \ s.registered ⊆ s'.opened \ s'.registered := by
  obtain ⟨wired, -, counted⟩ := stray_of_runs (wired_start maxConnections) runs
  have none : (start maxConnections).stray.card = 0 := rfl
  rw [none, Nat.zero_add] at counted
  constructor
  · rw [opened_card wired, counted]
  · intro later s' runs'
    exact (stray_of_runs wired runs').2.1

def comesAndGoes : List Event := [.accept 7 true true ([], .accepted 0), .endOfFile 7]

theorem comesAndGoes_leaks :
    (comesAndGoes.foldl Event.body (start 1000)).opened.card =
      (comesAndGoes.foldl Event.body (start 1000)).registered.card + 1 := by
  have registered : 7 ∈ (Event.body (start 1000) (.accept 7 true true ([], .accepted 0))).registered := by
    decide
  have runs : Runs Step (start 1000) comesAndGoes (comesAndGoes.foldl Event.body (start 1000)) :=
    .cons ⟨by simp [Event.Occurs, start], rfl⟩ (.cons ⟨registered, rfl⟩ (.nil _))
  exact (descriptors_accounted 1000 comesAndGoes _ runs).1

/-! ## Entries of the map of connections -/

/-- The event loop watches nothing but the listening socket, and no new connection is taken in. -/
structure Deaf (s : Server) : Prop where
  idle : s.registered = ∅
  full : s.maxConnections ≤ s.connections.keys.length

theorem length_keys_insert (m : AList fun _ : Nat => Nat) (fd id : Nat) :
    (m.insert fd id).keys.length = if fd ∈ m then m.keys.length else m.keys.length + 1 := by
  rw [AList.keys_insert, List.length_cons]
  split
  · rename_i member
    rw [List.length_erase_of_mem (AList.mem_keys.mpr member)]
    have some := List.length_pos_of_mem (AList.mem_keys.mpr member)
    omega
  · rename_i fresh
    rw [List.erase_of_not_mem fresh]

theorem length_keys_erase_le (m : AList fun _ : Nat => Nat) (fd : Nat) :
    (m.erase fd).keys.length ≤ m.keys.length := by
  rw [AList.keys_erase]
  exact List.length_erase_le

theorem connections_send (s : Server) (id : Nat) (sends : List (Bytes × Written)) :
    (s.send id sends).connections = s.connections ∧
      (s.send id sends).maxConnections = s.maxConnections ∧ (s.send id sends).opened = s.opened := by
  unfold Server.send
  split <;> exact ⟨rfl, rfl, rfl⟩

theorem connections_closeCallback (serves : Serves s fd id c) {c' : Connection} :
    (closeCallback fd (s.setObject id c')).connections = s.connections.erase fd ∧
      (closeCallback fd (s.setObject id c')).maxConnections = s.maxConnections := by
  have member : fd ∈ (s.setObject id c').connections := serves.member
  rw [closeCallback_eq member]
  exact ⟨rfl, rfl⟩

/-- The map of connections stays within the limit, which never changes. -/
structure Within (maxConnections : Nat) (s : Server) : Prop where
  limit : s.maxConnections = maxConnections
  entries : s.connections.keys.length ≤ maxConnections

theorem Effect.within {e : Event} {maxConnections : Nat} (effect : Effect s e s')
    (within : Within maxConnections s) : Within maxConnections s' := by
  have fewer {s' : Server} {fd : Nat} (erased : s'.connections = s.connections.erase fd ∧
      s'.maxConnections = s.maxConnections) : Within maxConnections s' := by
    refine ⟨erased.2.trans within.limit, ?_⟩
    rw [erased.1]
    exact (length_keys_erase_le _ _).trans within.entries
  cases effect with
  | joined fresh admitted =>
      obtain ⟨entries, limit, -⟩ := connections_send (s.join _) s.objects.length [_]
      refine ⟨limit.trans within.limit, ?_⟩
      have room := admitted.1
      rw [within.limit] at room
      rw [entries, join, length_keys_insert]
      split <;> omega
  | refused refused closed => exact ⟨within.limit, within.entries⟩
  | answered serves sends => exact ⟨within.limit, within.entries⟩
  | dropped serves sends => exact ⟨within.limit, within.entries⟩
  | ended serves => exact fewer (connections_closeCallback serves)
  | failed serves =>
      rw [handleClose_eq serves.member]
      exact fewer ⟨rfl, rfl⟩
  | wrote serves stays => exact ⟨within.limit, within.entries⟩
  | broken serves ends => exact fewer (connections_closeCallback serves)

/-- Nothing can happen to a deaf server but that a connection is refused. -/
theorem Effect.deaf {e : Event} (effect : Effect s e s') (occurs : e.Occurs s) (deaf : Deaf s) :
    Deaf s' ∧ s'.opened = s.opened := by
  have idle (fd : Nat) : fd ∉ s.registered := by
    rw [deaf.idle]
    exact Finset.notMem_empty fd
  cases effect with
  | joined fresh admitted => exact absurd admitted.1 (Nat.not_lt.mpr deaf.full)
  | refused refused closed => exact ⟨⟨deaf.idle, deaf.full⟩, rfl⟩
  | answered | dropped | ended | failed | wrote | broken => exact absurd occurs (idle _)

theorem Deaf.run {run : List Event} (deaf : Deaf s) (wired : Wired s)
    (runs : Runs Step s run s') : Deaf s' ∧ s'.opened = s.opened := by
  induction runs with
  | nil s => exact ⟨deaf, rfl⟩
  | cons first _ ih =>
      obtain ⟨occurs, rfl⟩ := first
      obtain ⟨deaf', same⟩ := (wired.effect occurs).deaf occurs deaf
      obtain ⟨deaf'', same'⟩ := ih deaf' (wired.step occurs)
      exact ⟨deaf'', same'.trans same⟩

/-! ## Clients that are refused, one for each entry -/

theorem accept_joins (wired : Wired s) (fresh : fd ∉ s.opened)
    (room : s.connections.keys.length < s.maxConnections) :
    ∃ s', Step s (.accept fd true true ([], .accepted 0)) s' ∧ Wired s' ∧
      s'.maxConnections = s.maxConnections ∧ s'.opened = insert fd s.opened ∧
      s'.registered = insert fd s.registered ∧
      s'.connections = s.connections.insert fd s.objects.length := by
  have occurs : Event.Occurs s (.accept fd true true ([], .accepted 0)) := fresh
  have effect := wired.effect occurs
  have wired' := wired.step occurs
  generalize after : Event.body s (.accept fd true true ([], .accepted 0)) = s' at effect wired'
  refine ⟨s', ⟨occurs, after.symm⟩, wired', ?_⟩
  cases effect with
  | joined fresh admitted =>
      obtain ⟨entries, limit, opened⟩ :=
        connections_send (s.join fd) s.objects.length [([], .accepted 0)]
      exact ⟨limit, opened, registered_send _ _ _, entries⟩
  | refused refused closed => exact absurd ⟨room, rfl, rfl⟩ refused

theorem data_drops (wired : Wired s) (member : fd ∈ s.registered) :
    ∃ s', Step s (.data fd [] false) s' ∧ Wired s' ∧ s'.maxConnections = s.maxConnections ∧
      s'.opened = s.opened.erase fd ∧ s'.registered = s.registered.erase fd ∧
      s'.connections = s.connections := by
  have occurs : Event.Occurs s (.data fd [] false) := member
  have effect := wired.effect occurs
  have wired' := wired.step occurs
  generalize after : Event.body s (.data fd [] false) = s' at effect wired'
  refine ⟨s', ⟨occurs, after.symm⟩, wired', ?_⟩
  cases effect with
  | dropped serves sends => exact ⟨rfl, rfl, rfl, rfl⟩

def accepts (n : Nat) : List Event :=
  (List.range n).map fun fd => .accept fd true true ([], .accepted 0)

def refusals (n : Nat) : List Event := (List.range n).map fun fd => .data fd [] false

/-- A server that has taken in connections on the first `n` descriptors. -/
structure Filled (n : Nat) (s : Server) : Prop where
  wired : Wired s
  opened : s.opened = Finset.range n
  registered : s.registered = Finset.range n
  entries : s.connections.keys.length = n
  keys : ∀ fd ∈ s.connections, fd < n

theorem runs_accepts (maxConnections : Nat) {n : Nat} (room : n ≤ maxConnections) :
    ∃ s, Runs Step (start maxConnections) (accepts n) s ∧ s.maxConnections = maxConnections ∧
      Filled n s := by
  induction n with
  | zero => exact ⟨_, .nil _, rfl, wired_start _, rfl, rfl, rfl, fun fd member => by cases member⟩
  | succ n ih =>
      obtain ⟨s, runs, limit, filled⟩ := ih (by omega)
      have fresh : n ∉ s.opened := by
        rw [filled.opened]
        exact Finset.notMem_range_self
      have other : n ∉ s.connections := fun member => Nat.lt_irrefl n (filled.keys n member)
      obtain ⟨s', step, wired', limit', opened', registered', connections'⟩ :=
        accept_joins filled.wired fresh (by rw [filled.entries, limit]; omega)
      refine ⟨s', ?_, limit'.trans limit, wired', ?_, ?_, ?_, ?_⟩
      · rw [accepts, List.range_succ, List.map_append]
        exact runs.concat step
      · rw [opened', filled.opened, Finset.range_add_one]
      · rw [registered', filled.registered, Finset.range_add_one]
      · rw [connections', length_keys_insert, if_neg other, filled.entries]
      · intro fd member
        rw [connections', AList.mem_insert] at member
        rcases member with rfl | member
        · exact Nat.lt_succ_self fd
        · exact Nat.lt_succ_of_lt (filled.keys fd member)

theorem runs_refusals {n : Nat} (filled : Filled n s) {m : Nat} (all : m ≤ n) :
    ∃ s', Runs Step s (refusals m) s' ∧ Wired s' ∧ s'.maxConnections = s.maxConnections ∧
      s'.opened = Finset.range n \ Finset.range m ∧
      s'.registered = Finset.range n \ Finset.range m ∧ s'.connections = s.connections := by
  induction m with
  | zero =>
      refine ⟨s, .nil s, filled.wired, rfl, ?_, ?_, rfl⟩
      · rw [filled.opened, Finset.range_zero, Finset.sdiff_empty]
      · rw [filled.registered, Finset.range_zero, Finset.sdiff_empty]
  | succ m ih =>
      obtain ⟨s', runs, wired, limit, opened, registered, connections⟩ := ih (by omega)
      have member : m ∈ s'.registered := by
        rw [registered]
        simp only [Finset.mem_sdiff, Finset.mem_range]
        omega
      have erased : (Finset.range n \ Finset.range m).erase m =
          Finset.range n \ Finset.range (m + 1) := by
        rw [Finset.range_add_one, Finset.sdiff_insert]
      obtain ⟨s'', step, wired', limit', opened', registered', connections'⟩ :=
        data_drops wired member
      refine ⟨s'', ?_, wired', limit'.trans limit, ?_, ?_, connections'.trans connections⟩
      · rw [refusals, List.range_succ, List.map_append]
        exact runs.concat step
      · rw [opened', opened, erased]
      · rw [registered', registered, erased]

/-- The map of connections never exceeds the limit; a server that watches no connection and has a
full map never takes one in again, whatever happens; and for each limit as many clients as it
allows, refused one after the other, bring the server there, with no descriptor left open. -/
theorem server_goes_deaf (maxConnections : Nat) :
    (∀ run s, Runs Step (start maxConnections) run s →
      s.connections.keys.length ≤ maxConnections) ∧
    (∀ run s, Runs Step (start maxConnections) run s → Deaf s →
      ∀ later s', Runs Step s later s' → Deaf s') ∧
    ∃ s, Runs Step (start maxConnections) (accepts maxConnections ++ refusals maxConnections) s ∧
      Deaf s ∧ s.opened = ∅ := by
  refine ⟨?_, ?_, ?_⟩
  · intro run s runs
    have keeps : ∀ s e s', Wired s ∧ Within maxConnections s → Step s e s' →
        Wired s' ∧ Within maxConnections s' := by
      rintro s e s' ⟨wired, within⟩ ⟨occurs, rfl⟩
      exact ⟨wired.step occurs, (wired.effect occurs).within within⟩
    exact (runs.preserves keeps ⟨wired_start _, rfl, Nat.zero_le _⟩).2.entries
  · intro run s runs deaf later s' runs'
    have wired := (stray_of_runs (wired_start maxConnections) runs).1
    exact (deaf.run wired runs').1
  · obtain ⟨s, runs, limit, filled⟩ := runs_accepts maxConnections (Nat.le_refl _)
    obtain ⟨s', runs', -, limit', opened, registered, connections⟩ :=
      runs_refusals filled (Nat.le_refl _)
    rw [Finset.sdiff_self] at opened registered
    refine ⟨s', runs.append runs', ⟨registered, ?_⟩, opened⟩
    rw [limit', limit, connections, filled.entries]

end TinySql.Server
