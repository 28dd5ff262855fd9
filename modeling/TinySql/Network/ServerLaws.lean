import TinySql.Network.Server

/-!
# What the events of the server come to

The event of a descriptor concerns one connection object, to which the server and the protocol
handlers both refer. Each handler changes this object and the entries of its descriptor.
-/

namespace TinySql

def Connection.disconnected (c : Connection) : Connection :=
  { c with output := { c.output with connected := false } }

namespace Server

variable {s : Server} {fd id : Nat} {c c' : Connection}

/-- The server and the protocol handlers lead from the descriptor to this object, which is
connected. -/
structure Serves (s : Server) (fd id : Nat) (c : Connection) : Prop where
  entry : s.connections.lookup fd = some id
  handler : s.protocolHandlers.lookup fd = some id
  object : s.objects[id]? = some c
  named : c.fd = some fd
  connected : c.output.connected = true

theorem Serves.inside (serves : Serves s fd id c) : id < s.objects.length :=
  (List.getElem?_eq_some_iff.mp serves.object).1

theorem Serves.member (serves : Serves s fd id c) : fd ∈ s.connections :=
  AList.lookup_isSome.mp (by simp [serves.entry])

theorem setObject_self (inside : id < s.objects.length) :
    (s.setObject id c).objects[id]? = some c := List.getElem?_set_self inside

theorem setObject_other {other : Nat} (different : other ≠ id) :
    (s.setObject id c).objects[other]? = s.objects[other]? :=
  List.getElem?_set_ne different.symm

theorem setObject_setObject : (s.setObject id c).setObject id c' = s.setObject id c' := by
  simp [setObject]

/-- New objects leave the old ones where they are. -/
theorem object_kept {objects more : List Connection} (here : objects[id]? = some c) :
    (objects ++ more)[id]? = some c := by
  rw [List.getElem?_append_left (List.getElem?_eq_some_iff.mp here).1, here]

theorem object_cases {objects more : List Connection} (there : (objects ++ more)[id]? = some c) :
    objects[id]? = some c ∨ objects.length ≤ id ∧ more[id - objects.length]? = some c := by
  rcases Nat.lt_or_ge id objects.length with inside | beyond
  · rw [List.getElem?_append_left inside] at there
    exact .inl there
  · rw [List.getElem?_append_right beyond] at there
    exact .inr ⟨beyond, there⟩

/-! ## References -/

theorem referenced_of_lookup (found : s.connections.lookup fd = some id) :
    s.referenced id = true := by
  have member := AList.mem_lookup_iff.mp found
  simp only [referenced, Bool.or_eq_true, List.any_eq_true]
  exact .inl ⟨_, member, by simp⟩

theorem referenced_of_handler (fd : Nat) (found : s.protocolHandlers.lookup fd = some id) :
    s.referenced id = true := by
  have member := AList.mem_lookup_iff.mp found
  simp only [referenced, Bool.or_eq_true, List.any_eq_true]
  exact .inr ⟨_, member, by simp⟩

theorem release_referenced (found : s.connections.lookup fd = some id) : s.release id = s := by
  rw [release, referenced_of_lookup found, if_pos rfl]

theorem close_closed (here : s.objects[id]? = some c) (closed : c.output.connected = false) :
    s.close id = s := by
  simp [close, here, closed]

theorem close_eq (here : s.objects[id]? = some c) (named : c.fd = some fd)
    (connected : c.output.connected = true) :
    s.close id = closeSocket fd (s.setObject id { c.disconnected with fd := none }) := by
  simp [close, here, named, connected, Connection.disconnected]

theorem release_closed (here : s.objects[id]? = some c) (closed : c.output.connected = false) :
    s.release id = s := by
  rw [release, close_closed here closed, ite_self]

theorem releaseAll_closed {ids : Option Nat}
    (closed : ∀ id ∈ ids, ∃ c, s.objects[id]? = some c ∧ c.output.connected = false) :
    s.releaseAll ids = s := by
  cases ids with
  | none => rfl
  | some id =>
      obtain ⟨c, here, closed⟩ := closed id rfl
      exact release_closed here closed

/-! ## Events of a connection -/

theorem sendAll_connected (sends : List (Bytes × Written)) (c : Connection) :
    (sendAll sends c).output.connected = c.output.connected := by
  obtain ⟨fd, output⟩ := c
  simp only [sendAll]
  induction sends generalizing output with
  | nil => rfl
  | cons first rest ih =>
      rw [List.foldl_cons, ih]
      obtain ⟨data, written⟩ := first
      simp only [Output.send]
      split
      · rfl
      · cases written <;> simp only
        split <;> rfl

theorem send_eq (here : s.objects[id]? = some c) (sends : List (Bytes × Written)) :
    s.send id sends = s.setObject id (sendAll sends c) := by
  rw [Server.send, here]

theorem Serves.send {s : Server} {fd id : Nat} {c : Connection} (serves : Serves s fd id c)
    (sends : List (Bytes × Written)) : Serves (s.send id sends) fd id (sendAll sends c) := by
  rw [send_eq serves.object]
  exact ⟨serves.entry, serves.handler, setObject_self serves.inside, serves.named,
    (sendAll_connected sends c).trans serves.connected⟩

theorem handleData_eq (serves : Serves s fd id c) (sends : List (Bytes × Written)) (kept : Bool) :
    s.handleData fd sends kept =
      if kept then s.setObject id (sendAll sends c)
      else closeSocket fd
        (s.setObject id { (sendAll sends c).disconnected with fd := none }) := by
  have handler : (s.objects[id]?.bind fun c => c.fd.bind s.protocolHandlers.lookup) = some id := by
    simp [serves.object, serves.named, serves.handler]
  have alive := (sendAll_connected sends c).trans serves.connected
  have there : (s.setObject id (sendAll sends c)).objects[id]? = some (sendAll sends c) :=
    setObject_self serves.inside
  have closes := close_eq there serves.named alive
  simp only [handleData, serves.entry, serves.object, serves.connected, if_true, messageCallback,
    Option.bind_some, serves.named, serves.handler, send_eq serves.object]
  cases kept with
  | true =>
      rw [if_pos rfl]
      exact release_referenced serves.entry
  | false =>
      rw [if_neg Bool.false_ne_true, if_neg Bool.false_ne_true]
      rw [closes, setObject_setObject]
      exact release_referenced serves.entry

/-- `close` comes too late: the connection goes out of both maps, and nothing else happens. -/
theorem handleConnectionClose_eq (serves : Serves s fd id c) :
    (s.handleConnectionClose id).release id = closeCallback fd (s.setObject id c.disconnected) := by
  generalize after : closeCallback fd (s.setObject id c.disconnected) = s'
  have there : s'.objects[id]? = some c.disconnected := by
    rw [← after, closeCallback, handleClose]
    split <;> exact setObject_self serves.inside
  have ended : s.handleConnectionClose id = s' := by
    simp only [handleConnectionClose, serves.object, serves.connected, if_true, serves.named,
      Option.elim_some]
    rw [← serves.named, ← Connection.disconnected, after, close_closed there rfl]
  rw [ended, release_closed there rfl]

theorem handleClose_eq (member : fd ∈ s.connections) : s.handleClose fd =
    { s with registered := s.registered.erase fd, connections := s.connections.erase fd } := by
  rw [handleClose, if_pos member]

theorem closeCallback_eq (member : fd ∈ s.connections) : s.closeCallback fd =
    { s with
      registered := s.registered.erase fd
      connections := s.connections.erase fd
      protocolHandlers := s.protocolHandlers.erase fd } := by
  rw [closeCallback, handleClose_eq member]

theorem handleEnd_eq (serves : Serves s fd id c) :
    s.handleEnd fd = closeCallback fd (s.setObject id c.disconnected) := by
  simp only [handleEnd, serves.entry, handleConnectionClose_eq serves]

/-- The protocol handler refers to the connection, which is therefore not destroyed. -/
theorem handleError_eq (serves : Serves s fd id c) : s.handleError fd = s.handleClose fd := by
  have kept : (s.handleClose fd).referenced id = true := by
    apply referenced_of_handler fd
    rw [handleClose_eq serves.member]
    exact serves.handler
  rw [handleError, serves.entry, releaseAll, Option.elim_some, release, kept, if_pos rfl]

theorem handleWrite_eq (serves : Serves s fd id c) (written : Written) : s.handleWrite fd written =
    if (c.output.handleWrite written).connected then
      s.setObject id { c with output := c.output.handleWrite written }
    else closeCallback fd (s.setObject id c.disconnected) := by
  simp only [handleWrite, serves.entry, serves.object, serves.connected, Bool.true_and,
    handleConnectionClose_eq serves]
  cases (c.output.handleWrite written).connected <;> rfl

/-! ## Accepting -/

def Admitted (s : Server) (nonBlocking added : Bool) : Prop :=
  s.connections.keys.length < s.maxConnections ∧ nonBlocking = true ∧ added = true

def join (fd : Nat) (s : Server) : Server where
  maxConnections := s.maxConnections
  opened := insert fd s.opened
  registered := insert fd s.registered
  objects := s.objects ++ [⟨some fd, {}⟩]
  connections := s.connections.insert fd s.objects.length
  protocolHandlers := s.protocolHandlers.insert fd s.objects.length

theorem closeSocket_accepted (fresh : fd ∉ s.opened) (unseen : fd ∉ s.registered) :
    closeSocket fd { s with opened := insert fd s.opened } = s := by
  rw [closeSocket, Finset.erase_insert fresh, Finset.erase_eq_of_notMem unseen]

/-- A descriptor that the maps know no connected object for is taken in with a new object, or there
is at most one closed object more. -/
theorem handleAccept_cases (fresh : fd ∉ s.opened) (unseen : fd ∉ s.registered)
    (unused : ∀ id, s.connections.lookup fd = some id ∨ s.protocolHandlers.lookup fd = some id →
      ∃ c, s.objects[id]? = some c ∧ c.output.connected = false)
    (nonBlocking added : Bool) (greeting : Bytes × Written) :
    (Admitted s nonBlocking added ∧ s.handleAccept fd nonBlocking added greeting =
      (s.join fd).send s.objects.length [greeting]) ∨
    ¬ Admitted s nonBlocking added ∧ ∃ more, s.handleAccept fd nonBlocking added greeting =
      { s with objects := s.objects ++ more } ∧ ∀ c ∈ more, c.output.connected = false := by
  have refused : s = { s with objects := s.objects ++ [] } := by rw [List.append_nil]
  simp only [handleAccept]
  split
  · rename_i full
    refine .inr ⟨fun admitted => Nat.not_lt.mpr full admitted.1, [], ?_, by simp⟩
    exact (closeSocket_accepted fresh unseen).trans refused
  · rename_i room
    split
    · rename_i blocking
      refine .inr ⟨fun admitted => by simp [admitted.2.1] at blocking, [], ?_, by simp⟩
      exact (closeSocket_accepted fresh unseen).trans refused
    · rename_i nonBlocking
      split
      · rename_i notAdded
        refine .inr ⟨fun admitted => by simp [admitted.2.2] at notAdded,
          [⟨none, { connected := false }⟩], ?_, by simp⟩
        simp [close, Server.setObject, closeSocket, Finset.erase_insert fresh,
          Finset.erase_eq_of_notMem unseen]
      · rename_i added
        refine .inl ⟨⟨Nat.not_le.mp room, by simpa using nonBlocking, by simpa using added⟩, ?_⟩
        have stale (s' : Server) (grown : s'.objects = s.objects ++ [⟨some fd, {}⟩]) :
            s'.releaseAll (s.connections.lookup fd) = s' ∧
              s'.releaseAll (s.protocolHandlers.lookup fd) = s' := by
          have keeps {id : Nat} (here : ∃ c, s.objects[id]? = some c ∧ c.output.connected = false) :
              ∃ c, s'.objects[id]? = some c ∧ c.output.connected = false := by
            obtain ⟨c, here, closed⟩ := here
            exact ⟨c, by rw [grown, object_kept here], closed⟩
          exact ⟨releaseAll_closed fun id found => keeps (unused id (.inl found)),
            releaseAll_closed fun id found => keeps (unused id (.inr found))⟩
        rw [(stale _ rfl).1, connectionCallback]
        dsimp only
        rw [(stale _ rfl).2]
        rfl

def start (maxConnections : Nat) : Server := { maxConnections := maxConnections }

end Server

end TinySql
