import TinySql.Lib.Run
import TinySql.Network.Wiring

/-!
# READ events

The event loop is edge-triggered: a READ event is raised when bytes arrive at a socket, and not
because some are still there. `handleRead` makes one call of `readv`, which takes no more than the
free space of the input buffer and the 64 KB behind it.
-/

namespace TinySql

/-- How many bytes the `readv` of `readFromFd` takes at most. -/
def Buffer.readvRoom (b : Buffer) : Nat :=
  if b.writableBytes < 65536 then b.writableBytes + 65536 else b.writableBytes

theorem Buffer.readvRoom_pos (b : Buffer) : 0 < b.readvRoom := by
  unfold readvRoom
  split <;> omega

theorem Buffer.readvRoom_empty : Buffer.empty.readvRoom = 69632 := by
  simp [Buffer.readvRoom, Buffer.writableBytes, Buffer.empty, Buffer.ofCapacity]

/-- The server, the input buffers of its connection objects, the bytes that the kernel holds for
each descriptor, and the READ events: those the kernel has raised and those that `wait` has
returned and the loop has not come to. -/
structure Sockets where
  server : Server
  inputs : Nat → Buffer := fun _ => .empty
  unread : Nat → Bytes := fun _ => []
  raised : Finset Nat := ∅
  returned : Finset Nat := ∅

namespace Sockets
open Run Server

/-- The server handles an event. What it takes out of the event loop is no longer reported. -/
def serve (e : Server.Event) (w : Sockets) : Sockets :=
  let server := e.body w.server
  { w with server := server, raised := w.raised ∩ server.registered }

def handled (fd : Nat) (w : Sockets) : Sockets := { w with returned := w.returned.erase fd }

/-- `handleAccept` for a client that may have sent bytes before; `addFd` reports them. -/
def handleAccept (fd : Nat) (nonBlocking added : Bool) (greeting : Bytes × Written) (early : Bytes)
    (w : Sockets) : Sockets :=
  let server := w.server.handleAccept fd nonBlocking added greeting
  { w with
    server := server
    inputs := Function.update w.inputs w.server.objects.length .empty
    unread := Function.update w.unread fd early
    raised := (if early = [] then w.raised else insert fd w.raised) ∩ server.registered }

/-- `handleRead`, where the message callback reads so many bytes of the input buffer. -/
def handleRead (fd : Nat) (sends : List (Bytes × Written)) (kept : Bool) (consumed : Nat)
    (w : Sockets) : Sockets :=
  match w.server.connections.lookup fd with
  | none => w
  | some id =>
      match w.server.objects[id]? with
      | none => w
      | some c =>
          if !c.output.connected then w
          else
            let input := w.inputs id
            let delivered := (w.unread fd).take input.readvRoom
            -- EAGAIN
            if delivered = [] then w
            else
              { w.serve (.data fd sends kept) with
                inputs := Function.update w.inputs id
                  ((input.readFromFd delivered).advance consumed)
                unread := Function.update w.unread fd ((w.unread fd).drop input.readvRoom) }

/-- Bytes arrive at a socket, `wait` returns READ events, or the server handles an event. -/
inductive Event where
  | arrive (fd : Nat) (bytes : Bytes)
  | wait (fds : Finset Nat)
  | accept (fd : Nat) (nonBlocking added : Bool) (greeting : Bytes × Written) (early : Bytes)
  | read (fd : Nat) (sends : List (Bytes × Written)) (kept : Bool) (consumed : Nat)
  | endOfFile (fd : Nat)
  | error (fd : Nat)
  | write (fd : Nat) (written : Written)

def body (w : Sockets) : Event → Sockets
  | .arrive fd bytes => { w with
      unread := Function.update w.unread fd (w.unread fd ++ bytes)
      raised := if fd ∈ w.server.registered then insert fd w.raised else w.raised }
  | .wait fds => { w with raised := w.raised \ fds, returned := fds }
  | .accept fd nonBlocking added greeting early =>
      w.handleAccept fd nonBlocking added greeting early
  | .read fd sends kept consumed => (w.handleRead fd sends kept consumed).handled fd
  | .endOfFile fd => (w.serve (.endOfFile fd)).handled fd
  | .error fd => (w.serve (.error fd)).handled fd
  | .write fd written => w.serve (.write fd written)

/-- `wait` is called again when all that it has returned is handled. -/
def Event.Occurs (w : Sockets) : Event → Prop
  | .arrive fd bytes => fd ∈ w.server.opened ∧ bytes ≠ []
  | .wait fds => w.returned = ∅ ∧ fds ⊆ w.raised
  | .accept fd _ _ _ _ => fd ∉ w.server.opened
  | .read fd _ _ _ => fd ∈ w.returned
  | .endOfFile fd | .error fd | .write fd _ => fd ∈ w.server.registered

def Step (w : Sockets) (e : Event) (w' : Sockets) : Prop := e.Occurs w ∧ w' = w.body e

/-- While the kernel holds bytes for a live connection, a READ event for it is pending. -/
def NoLostWakeUp (w : Sockets) : Prop :=
  ∀ fd id c, w.server.connections.lookup fd = some id → w.server.objects[id]? = some c →
    c.output.connected = true → w.unread fd ≠ [] → fd ∈ w.raised ∨ fd ∈ w.returned

/-- The `readv` of the event takes all the bytes, unless its connection ends or more bytes have
raised another event. -/
def Drains (w : Sockets) : Event → Prop
  | .read fd _ kept _ => ∀ id, fd ∈ w.server.registered → w.server.connections.lookup fd = some id →
      kept = true → fd ∉ w.raised → (w.unread fd).length ≤ (w.inputs id).readvRoom
  | _ => True

/-! ## What the events do to the bytes -/

section Events
variable {w : Sockets} {fd id : Nat} {c : Connection} {sends : List (Bytes × Written)}
  {kept : Bool} {consumed : Nat}

theorem handleRead_eq (serves : Serves w.server fd id c) (some : w.unread fd ≠ []) :
    w.handleRead fd sends kept consumed = { w.serve (.data fd sends kept) with
      inputs := Function.update w.inputs id
        (((w.inputs id).readFromFd ((w.unread fd).take (w.inputs id).readvRoom)).advance consumed)
      unread := Function.update w.unread fd ((w.unread fd).drop (w.inputs id).readvRoom) } := by
  have delivers : (w.unread fd).take (w.inputs id).readvRoom ≠ [] := by
    simp [some, (w.inputs id).readvRoom_pos.ne']
  simp only [handleRead, serves.entry, serves.object, serves.connected, Bool.not_true,
    Bool.false_eq_true, if_false, if_neg delivers]

theorem handleRead_nothing (nothing : w.unread fd = []) :
    w.handleRead fd sends kept consumed = w := by
  unfold handleRead
  split
  · rfl
  · split
    · rfl
    · simp [nothing]

/-- An event that comes too late for its connection. -/
theorem handleRead_unwatched (wired : Wired w.server) (unwatched : fd ∉ w.server.registered) :
    w.handleRead fd sends kept consumed = w := by
  unfold handleRead
  split
  · rfl
  · rename_i id entry
    split
    · rfl
    · rename_i c object
      have ended : c.output.connected = false := by
        apply Bool.eq_false_iff.mpr
        exact fun connected => unwatched (wired.watched fd id c entry object connected)
      simp [ended]

/-- A READ event is pending wherever the kernel holds bytes for a descriptor that the loop watches. -/
def Alert (w : Sockets) : Prop :=
  ∀ fd ∈ w.server.registered, w.unread fd ≠ [] → fd ∈ w.raised ∨ fd ∈ w.returned

theorem Alert.noLostWakeUp (alert : Alert w) (wired : Wired w.server) : NoLostWakeUp w :=
  fun fd id c entry object connected =>
    alert fd (wired.watched fd id c entry object connected)

theorem Alert.serve (alert : Alert w) {e : Server.Event}
    (fewer : ∀ fd ∈ (e.body w.server).registered, fd ∈ w.server.registered) :
    Alert (w.serve e) := by
  intro fd watched unread
  rcases alert fd (fewer fd watched) unread with raised | returned
  · exact .inl (Finset.mem_inter.mpr ⟨raised, watched⟩)
  · exact .inr returned

theorem Alert.handled (alert : Alert w)
    (quiet : fd ∈ w.server.registered → w.unread fd ≠ [] → fd ∈ w.raised) :
    Alert (w.handled fd) := by
  intro other watched unread
  by_cases same : other = fd
  · subst same
    exact .inl (quiet watched unread)
  · rcases alert other watched unread with raised | returned
    · exact .inl raised
    · exact .inr (Finset.mem_erase.mpr ⟨same, returned⟩)

theorem Alert.arrive (alert : Alert w) (bytes : Bytes) : Alert (w.body (.arrive fd bytes)) := by
  intro other watched unread
  dsimp only [body] at watched unread ⊢
  by_cases same : other = fd
  · subst same
    rw [if_pos watched]
    exact .inl (Finset.mem_insert_self other w.raised)
  · rw [Function.update_of_ne same] at unread
    rcases alert other watched unread with raised | returned
    · refine .inl ?_
      split
      · exact Finset.mem_insert_of_mem raised
      · exact raised
    · exact .inr returned

theorem Alert.wait (alert : Alert w) {fds : Finset Nat} (done : w.returned = ∅) :
    Alert (w.body (.wait fds)) := by
  intro fd watched unread
  by_cases member : fd ∈ fds
  · exact .inr member
  · have pending := alert fd watched unread
    rw [done] at pending
    have raised := pending.resolve_right (Finset.notMem_empty fd)
    exact .inl (Finset.mem_sdiff.mpr ⟨raised, member⟩)

theorem Alert.accept (alert : Alert w) (wired : Wired w.server) (fresh : fd ∉ w.server.opened)
    (nonBlocking added : Bool) (greeting : Bytes × Written) (early : Bytes) :
    Alert (w.handleAccept fd nonBlocking added greeting early) := by
  intro other watched unread
  dsimp only [handleAccept] at watched unread ⊢
  rw [Finset.mem_inter]
  by_cases same : other = fd
  · subst same
    rw [Function.update_self] at unread
    rw [if_neg unread]
    exact .inl ⟨Finset.mem_insert_self other w.raised, watched⟩
  · rw [Function.update_of_ne same] at unread
    have effect := wired.effect (e := .accept fd nonBlocking added greeting) fresh
    have before := (effect.keeps watched).resolve_left same
    rcases alert other before unread with raised | returned
    · refine .inl ⟨?_, watched⟩
      split
      · exact raised
      · exact Finset.mem_insert_of_mem raised
    · exact .inr returned

theorem Alert.read (alert : Alert w) (wired : Wired w.server) (returned : fd ∈ w.returned)
    (drains : w.Drains (.read fd sends kept consumed)) :
    Alert (w.body (.read fd sends kept consumed)) := by
  rw [body]
  by_cases watched : fd ∈ w.server.registered
  · by_cases nothing : w.unread fd = []
    · rw [handleRead_nothing nothing]
      exact alert.handled fun _ unread => absurd nothing unread
    · obtain ⟨id, c, serves⟩ := wired.served fd watched
      rw [handleRead_eq serves nothing]
      have effect := wired.effect (e := .data fd sends kept) watched
      apply Alert.handled
      · intro other watched' unread
        by_cases same : other = fd
        · subst same
          exact .inr returned
        · dsimp only at unread
          rw [Function.update_of_ne same] at unread
          exact alert.serve (fun other member => (effect.keeps member).1) other watched' unread
      · intro watched' unread
        dsimp only at unread
        rw [Function.update_self] at unread
        have stays := (effect.keeps watched').2 rfl
        refine Finset.mem_inter.mpr ⟨?_, watched'⟩
        by_contra silent
        have all := drains id watched serves.entry stays silent
        exact unread (List.drop_eq_nil_of_le all)
  · rw [handleRead_unwatched wired watched]
    exact alert.handled fun watched' => absurd watched' watched

theorem Alert.step {e : Event} (alert : Alert w) (wired : Wired w.server) (occurs : e.Occurs w)
    (drains : w.Drains e) : Alert (w.body e) := by
  cases e with
  | arrive fd bytes => exact alert.arrive bytes
  | wait fds => exact alert.wait occurs.1
  | accept fd nonBlocking added greeting early => exact alert.accept wired occurs _ _ _ _
  | read fd sends kept consumed => exact alert.read wired occurs drains
  | endOfFile fd =>
      have effect := wired.effect (e := .endOfFile fd) occurs
      apply Alert.handled
      · exact alert.serve fun other member => (effect.keeps member).1
      · exact fun member => absurd rfl (effect.keeps member).2
  | error fd =>
      have effect := wired.effect (e := .error fd) occurs
      apply Alert.handled
      · exact alert.serve fun other member => (effect.keeps member).1
      · exact fun member => absurd rfl (effect.keeps member).2
  | write fd written =>
      have effect := wired.effect (e := .write fd written) occurs
      exact alert.serve fun other member => effect.keeps member

theorem wired_step {e : Event} (wired : Wired w.server) (occurs : e.Occurs w) :
    Wired (w.body e).server := by
  cases e with
  | arrive fd bytes => exact wired
  | wait fds => exact wired
  | accept fd nonBlocking added greeting early =>
      exact wired.step (e := .accept fd nonBlocking added greeting) occurs
  | read fd sends kept consumed =>
      rw [body]
      by_cases watched : fd ∈ w.server.registered
      · by_cases nothing : w.unread fd = []
        · rw [handleRead_nothing nothing]
          exact wired
        · obtain ⟨id, c, serves⟩ := wired.served fd watched
          rw [handleRead_eq serves nothing]
          exact wired.step (e := .data fd sends kept) watched
      · rw [handleRead_unwatched wired watched]
        exact wired
  | endOfFile fd => exact wired.step (e := .endOfFile fd) occurs
  | error fd => exact wired.step (e := .error fd) occurs
  | write fd written => exact wired.step (e := .write fd written) occurs

/-- What a `readv` leaves behind is not reported again. -/
theorem read_loses (wired : Wired w.server) {e : Event} (stays : ¬ w.Drains e) :
    ¬ NoLostWakeUp (w.body e) := by
  cases e with
  | read fd sends kept consumed =>
      simp only [Drains, not_forall, Nat.not_le] at stays
      obtain ⟨id, watched, entry, stays, silent, more⟩ := stays
      obtain ⟨id', c, serves⟩ := wired.served fd watched
      obtain rfl := Option.some.inj (entry.symm.trans serves.entry)
      have some : w.unread fd ≠ [] := by
        intro nothing
        rw [nothing] at more
        exact absurd more (Nat.not_lt_zero _)
      have after : (Server.Event.data fd sends kept).body w.server =
          w.server.setObject id (sendAll sends c) := by
        rw [Server.Event.body, handleData_eq serves, if_pos stays]
      have object := setObject_self (c := sendAll sends c) serves.inside
      have alive := (sendAll_connected sends c).trans serves.connected
      intro noLost
      rw [body, handleRead_eq serves some] at noLost
      simp only [handled, Sockets.serve, after] at noLost
      have left : Function.update w.unread fd ((w.unread fd).drop (w.inputs id).readvRoom) fd ≠ [] := by
        rw [Function.update_self]
        exact fun all => Nat.not_lt.mpr (List.drop_eq_nil_iff.mp all) more
      rcases noLost fd id _ serves.entry object alive left with raised | returned
      · exact silent (Finset.mem_inter.mp raised).1
      · exact Finset.notMem_erase fd _ returned
  | arrive fd bytes => exact absurd trivial stays
  | wait fds => exact absurd trivial stays
  | accept fd nonBlocking added greeting early => exact absurd trivial stays
  | endOfFile fd => exact absurd trivial stays
  | error fd => exact absurd trivial stays
  | write fd written => exact absurd trivial stays

end Events

def start (maxConnections : Nat) : Sockets := { server := Server.start maxConnections }

theorem alert_start (maxConnections : Nat) : Alert (start maxConnections) :=
  fun fd watched => absurd watched (Finset.notMem_empty fd)

/-- No wake-up is lost along a run exactly as long as every `readv` drains its socket. -/
theorem noLostWakeUp_iff (maxConnections : Nat) (run : List Event) :
    Always Step NoLostWakeUp (start maxConnections) run ↔
      Admits Step (fun w e => e.Occurs w → w.Drains e) (start maxConnections) run := by
  apply always_iff_admits fun w => Wired w.server ∧ Alert w
  · exact fun w inv => inv.2.noLostWakeUp inv.1
  · rintro w e w' ⟨wired, alert⟩ drains ⟨occurs, rfl⟩
    exact ⟨wired_step wired occurs, alert.step wired occurs (drains occurs)⟩
  · rintro w e ⟨wired, -⟩ leaves
    obtain ⟨occurs, stays⟩ := Classical.not_imp.mp leaves
    exact ⟨_, ⟨occurs, rfl⟩, read_loses wired stays⟩
  · exact ⟨wired_start maxConnections, alert_start maxConnections⟩

/-- A client connects, and its first bytes come all at once. -/
theorem burst_loses {bytes : Bytes} (long : 69632 < bytes.length) :
    ¬ ∀ run, Always Step NoLostWakeUp (start 1000) run := by
  let accept : Event := .accept 7 true true ([], .accepted 0) []
  let read : Event := .read 7 [] true 0
  let joined := (start 1000).body accept
  let arrived := joined.body (.arrive 7 bytes)
  let returned := arrived.body (.wait {7})
  have watched : 7 ∈ joined.server.registered := by decide
  have raised : 7 ∈ arrived.raised := by
    have now : arrived.raised = if 7 ∈ joined.server.registered then insert 7 joined.raised
      else joined.raised := rfl
    rw [now, if_pos watched]
    exact Finset.mem_insert_self 7 joined.raised
  have some : bytes ≠ [] := List.ne_nil_of_length_pos (by omega)
  have runs : Runs Step (start 1000) [accept, .arrive 7 bytes, .wait {7}, read]
      (returned.body read) :=
    .cons ⟨Finset.notMem_empty 7, rfl⟩ (.cons ⟨⟨by decide, some⟩, rfl⟩
      (.cons ⟨⟨rfl, Finset.singleton_subset_iff.mpr raised⟩, rfl⟩
        (.cons ⟨Finset.mem_singleton_self 7, rfl⟩ (.nil _))))
  have wired : Wired returned.server := (wired_start 1000).step (e := .accept 7 true true _)
    (Finset.notMem_empty 7)
  have stays : ¬ returned.Drains read := by
    intro drains
    have silent : 7 ∉ returned.raised :=
      Finset.notMem_sdiff_of_mem_right (Finset.mem_singleton_self 7)
    have entry : joined.server.connections.lookup 7 = Option.some 0 := by decide
    have all := drains 0 watched entry rfl silent
    have held : returned.unread 7 = bytes := rfl
    have fresh : returned.inputs 0 = .empty := rfl
    rw [held, fresh, Buffer.readvRoom_empty] at all
    exact Nat.not_le.mpr long all
  intro always
  exact read_loses wired stays (always _ _ _ List.prefix_rfl runs)

/-- One byte more than the free space of a new input buffer and the buffer on the stack hold. -/
theorem long_burst_lost : ¬ ∀ run, Always Step NoLostWakeUp (start 1000) run := by
  have long : 69632 < (List.replicate 69633 (0xFF : UInt8)).length := by
    rw [List.length_replicate]
    decide
  exact burst_loses long

end Sockets

end TinySql
