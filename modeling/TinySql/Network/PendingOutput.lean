import TinySql.Lib.Run
import TinySql.Network.Wiring

/-!
# The registration for WRITE events

The server registers a descriptor for READ when it accepts it and again when its output buffer is
empty after a write event. Nothing registers it for WRITE when `send` leaves bytes in that buffer.
-/

namespace TinySql

namespace EventType

def READ : UInt32 := 0x01

def WRITE : UInt32 := 0x02

end EventType

/-- What `send` keeps of its data for the output buffer. -/
def Written.left (data : Bytes) : Written → Bytes
  | .accepted n => data.drop n
  | .again => data
  | .error => []

/-- The server with its event loop: the events for which each descriptor was registered last. -/
structure Watch where
  server : Server
  interest : Nat → UInt32 := fun _ => 0

namespace Watch
open EventType Run Server

def addFd (fd : Nat) (events : UInt32) (w : Watch) : Watch :=
  { w with interest := Function.update w.interest fd events }

/-- `modifyFd`, which fails for a descriptor that is not registered. -/
def modifyFd (fd : Nat) (events : UInt32) (w : Watch) : Watch :=
  if fd ∈ w.server.registered then { w with interest := Function.update w.interest fd events } else w

instance (s : Server) (nonBlocking added : Bool) : Decidable (Admitted s nonBlocking added) :=
  inferInstanceAs (Decidable (_ ∧ _))

/-- `handleAccept`, which calls `addFd` for what it takes in. -/
def handleAccept (fd : Nat) (nonBlocking added : Bool) (greeting : Bytes × Written) (w : Watch) :
    Watch :=
  let after := { w with server := w.server.handleAccept fd nonBlocking added greeting }
  if Admitted w.server nonBlocking added then after.addFd fd READ else after

/-- `Server::handleWrite`, whose last lines look at the output buffer. -/
def handleWrite (fd : Nat) (written : Written) (w : Watch) : Watch :=
  let after := { w with server := w.server.handleWrite fd written }
  match (w.server.connections.lookup fd).bind fun id => after.server.objects[id]? with
  | none => after
  | some c => if c.output.outputBuffer.readableBytes = 0 then after.modifyFd fd READ else after

def body (w : Watch) : Server.Event → Watch
  | .accept fd nonBlocking added greeting => w.handleAccept fd nonBlocking added greeting
  | .write fd written => w.handleWrite fd written
  | e => { w with server := e.body w.server }

def Step (w : Watch) (e : Server.Event) (w' : Watch) : Prop := e.Occurs w.server ∧ w' = w.body e

/-- The descriptor of a live connection with bytes to be sent is registered for WRITE. -/
def Scheduled (w : Watch) : Prop :=
  ∀ fd id c, w.server.connections.lookup fd = some id → w.server.objects[id]? = some c →
    c.output.connected = true → c.output.outputBuffer.readableBytes ≠ 0 →
      fd ∈ w.server.registered ∧ w.interest fd &&& WRITE ≠ 0

/-- Every `send` of the event leaves nothing, unless its connection is not taken in, or ends. -/
def Completes (w : Watch) : Server.Event → Prop
  | .accept _ nonBlocking added (data, written) =>
      Admitted w.server nonBlocking added → written.left data = []
  | .data _ sends kept => kept = true → ∀ send ∈ sends, send.2.left send.1 = []
  | .endOfFile _ | .error _ | .write _ _ => True

/-! ## What is left in the output buffer -/

theorem send_left {c : Output} {queue : Bytes} (connected : c.connected = true)
    (sound : Buffer.Sound c.outputBuffer queue) (data : Bytes) (written : Written) :
    Buffer.Sound (c.send data written).2.outputBuffer (queue ++ written.left data) := by
  cases written with
  | error => simpa [Output.send, connected, Written.left] using sound
  | again => simpa [Output.send, connected, Written.left, Buffer.writeBytes] using sound.append data
  | accepted n =>
      by_cases rest : n < data.length
      · simpa [Output.send, connected, Written.left, rest, Buffer.writeBytes] using
          sound.append (data.drop n)
      · have none : data.drop n = [] := List.drop_eq_nil_of_le (Nat.not_lt.mp rest)
        simpa [Output.send, connected, Written.left, rest, none] using sound

theorem sendAll_left {c : Connection} {queue : Bytes} (connected : c.output.connected = true)
    (sound : Buffer.Sound c.output.outputBuffer queue) (sends : List (Bytes × Written)) :
    Buffer.Sound (sendAll sends c).output.outputBuffer
      (queue ++ sends.flatMap fun send => send.2.left send.1) := by
  induction sends generalizing c queue with
  | nil => simpa [sendAll] using sound
  | cons send rest ih =>
      have alive := (sendAll_connected [send] c).trans connected
      have later := ih alive (send_left connected sound send.1 send.2)
      rwa [List.append_assoc] at later

theorem readableBytes_of_sound {b : Buffer} {queue : Bytes} (sound : Buffer.Sound b queue) :
    b.readableBytes = queue.length := by
  rw [← Buffer.readable_length, sound.readable]

/-! ## Events that leave nothing -/

def Idle (s : Server) : Prop := ∀ (id : Nat) (c : Connection), s.objects[id]? = some c →
  c.output.connected = true → Buffer.Sound c.output.outputBuffer []

section Idle
variable {s s' : Server} {id : Nat} {c : Connection}

theorem Idle.of_objects (idle : Idle s) (same : s'.objects = s.objects) : Idle s' := by
  unfold Idle
  rwa [same]

theorem Idle.setObject (idle : Idle s)
    (empty : c.output.connected = true → Buffer.Sound c.output.outputBuffer []) :
    Idle (s.setObject id c) := by
  intro other d there alive
  by_cases same : other = id
  · subst same
    have inside : other < s.objects.length := by
      simpa [Server.setObject] using (List.getElem?_eq_some_iff.mp there).1
    obtain rfl := Option.some.inj ((setObject_self inside).symm.trans there)
    exact empty alive
  · exact idle other d ((setObject_other same).symm.trans there) alive

theorem Idle.grow (idle : Idle s) {more : List Connection}
    (empty : ∀ c ∈ more, c.output.connected = true → Buffer.Sound c.output.outputBuffer [])
    (grown : s'.objects = s.objects ++ more) : Idle s' := by
  intro other d there alive
  rw [grown] at there
  rcases object_cases there with old | ⟨-, new⟩
  · exact idle other d old alive
  · exact empty d (List.mem_of_getElem? new) alive

theorem Idle.send (idle : Idle s) {sends : List (Bytes × Written)}
    (complete : ∀ send ∈ sends, send.2.left send.1 = []) (id : Nat) : Idle (s.send id sends) := by
  unfold Server.send
  cases here : s.objects[id]? with
  | none => exact idle
  | some c =>
      apply idle.setObject
      intro alive
      have connected := (sendAll_connected sends c).symm.trans alive
      have left := sendAll_left connected (idle id c here connected) sends
      rwa [List.flatMap_eq_nil_iff.mpr complete] at left

theorem Idle.closeCallback {fd : Nat} (idle : Idle s) (member : fd ∈ s.connections) :
    Idle (s.closeCallback fd) := by
  rw [closeCallback_eq member]
  exact idle.of_objects rfl

theorem Idle.disconnected {fd : Nat} (idle : Idle s) (serves : Serves s fd id c) :
    Idle ((s.setObject id c.disconnected).closeCallback fd) := by
  have closed : Idle (s.setObject id c.disconnected) := idle.setObject fun alive => by cases alive
  exact closed.closeCallback serves.member

theorem Idle.step {w : Watch} {e : Server.Event} (idle : Idle w.server)
    (effect : Effect w.server e s') (completes : w.Completes e) : Idle s' := by
  cases effect with
  | @joined fd _ _ greeting fresh admitted =>
      have joined : Idle (w.server.join fd) := by
        refine idle.grow ?_ (rfl : _ = _ ++ [_])
        intro c new _
        obtain rfl := List.mem_singleton.mp new
        exact Buffer.Sound.empty
      exact joined.send (by simpa using completes admitted) _
  | refused refused closed =>
      refine idle.grow ?_ rfl
      intro c new alive
      rw [closed c new] at alive
      cases alive
  | answered serves sends =>
      rw [← send_eq serves.object]
      exact idle.send (completes rfl) _
  | @dropped _ id c serves sends =>
      have closed : Idle (w.server.setObject id { (sendAll sends c).disconnected with fd := none }) :=
        idle.setObject fun alive => by cases alive
      exact closed.of_objects rfl
  | ended serves => exact idle.disconnected serves
  | failed serves =>
      rw [handleClose_eq serves.member]
      exact idle.of_objects rfl
  | @wrote _ id c written serves stays =>
      have empty := idle id c serves.object serves.connected
      have nothing : c.output.handleWrite written = c.output := by
        simp [Output.handleWrite, readableBytes_of_sound empty]
      rw [nothing]
      exact idle.setObject fun _ => empty
  | broken serves ends => exact idle.disconnected serves

end Idle

/-! ## Events that leave bytes -/

def Unwatched (w : Watch) : Prop := ∀ fd, w.interest fd &&& WRITE = 0

theorem body_server (w : Watch) (e : Server.Event) : (w.body e).server = e.body w.server := by
  cases e with
  | accept fd nonBlocking added greeting =>
      simp only [body, handleAccept]
      split <;> rfl
  | write fd written =>
      simp only [body, handleWrite]
      split
      · rfl
      · split
        · simp only [modifyFd]
          split <;> rfl
        · rfl
  | data fd sends kept => rfl
  | endOfFile fd => rfl
  | error fd => rfl

theorem Unwatched.update {w : Watch} (unwatched : Unwatched w) (fd : Nat) (s : Server) :
    Unwatched ⟨s, Function.update w.interest fd READ⟩ := by
  intro other
  by_cases same : other = fd
  · have now : Function.update w.interest fd READ other = READ := by
      rw [same, Function.update_self]
    exact (congrArg (· &&& WRITE) now).trans (by decide)
  · have before : Function.update w.interest fd READ other = w.interest other :=
      Function.update_of_ne same READ w.interest
    exact (congrArg (· &&& WRITE) before).trans (unwatched other)

theorem Unwatched.body {w : Watch} (unwatched : Unwatched w) (e : Server.Event) :
    Unwatched (w.body e) := by
  cases e with
  | accept fd nonBlocking added greeting =>
      simp only [Watch.body, handleAccept]
      split
      · exact unwatched.update fd _
      · exact unwatched
  | write fd written =>
      simp only [Watch.body, handleWrite]
      split
      · exact unwatched
      · split
        · simp only [modifyFd]
          split
          · exact unwatched.update fd _
          · exact unwatched
        · exact unwatched
  | data fd sends kept => exact unwatched
  | endOfFile fd => exact unwatched
  | error fd => exact unwatched

theorem Unwatched.not_scheduled {w : Watch} (unwatched : Unwatched w) {fd id : Nat}
    {c : Connection} {queue : Bytes} (serves : Serves w.server fd id c)
    (sound : Buffer.Sound c.output.outputBuffer queue) (some : queue ≠ []) : ¬ Scheduled w := by
  intro scheduled
  have pending : c.output.outputBuffer.readableBytes ≠ 0 := by
    rw [readableBytes_of_sound sound]
    exact (List.length_pos_iff.mpr some).ne'
  exact (scheduled fd id c serves.entry serves.object serves.connected pending).2 (unwatched fd)

theorem Unwatched.breaks {w : Watch} {e : Server.Event} (unwatched : Unwatched w)
    (wired : Wired w.server) (idle : Idle w.server) (occurs : e.Occurs w.server)
    (leaves : ¬ w.Completes e) : ¬ Scheduled (w.body e) := by
  have later := unwatched.body e
  have effect := wired.effect occurs
  rw [← body_server] at effect
  generalize server : (w.body e).server = s' at effect
  cases effect with
  | @joined fd _ _ greeting fresh admitted =>
      have serves := (join_serves fd w.server).send [greeting]
      have sound := sendAll_left (c := ⟨some fd, {}⟩) rfl Buffer.Sound.empty [greeting]
      rw [← server] at serves
      have left := (Classical.not_imp.mp leaves).2
      exact later.not_scheduled serves sound (by simpa using left)
  | refused refused closed => exact absurd (fun admitted => absurd admitted refused) leaves
  | @answered fd id c serves sends =>
      have sent := serves.send sends
      have sound := sendAll_left serves.connected (idle id c serves.object serves.connected) sends
      rw [send_eq serves.object, ← server] at sent
      apply later.not_scheduled sent sound
      intro nothing
      exact leaves fun _ => List.flatMap_eq_nil_iff.mp nothing
  | dropped serves sends => exact absurd (fun kept => by cases kept) leaves
  | ended serves => exact absurd trivial leaves
  | failed serves => exact absurd trivial leaves
  | wrote serves stays => exact absurd trivial leaves
  | broken serves ends => exact absurd trivial leaves

def start (maxConnections : Nat) : Watch := { server := Server.start maxConnections }

theorem unwatched_start (maxConnections : Nat) : Unwatched (start maxConnections) :=
  fun _ => UInt32.zero_and

theorem idle_start (maxConnections : Nat) : Idle (start maxConnections).server := by
  intro id c there
  simp [start, Server.start] at there

/-- Pending output is always scheduled in a run exactly when none is ever left pending. -/
theorem scheduled_iff (maxConnections : Nat) (run : List Server.Event) :
    Always Step Scheduled (start maxConnections) run ↔
      Admits Step (fun w e => e.Occurs w.server → w.Completes e) (start maxConnections) run := by
  apply always_iff_admits fun w => Wired w.server ∧ Idle w.server ∧ Unwatched w
  · rintro w ⟨-, idle, -⟩ fd id c entry object connected pending
    exact absurd (readableBytes_of_sound (idle id c object connected)) pending
  · rintro w e w' ⟨wired, idle, unwatched⟩ completes ⟨occurs, rfl⟩
    rw [body_server]
    exact ⟨wired.step occurs, idle.step (wired.effect occurs) (completes occurs), unwatched.body e⟩
  · rintro w e ⟨wired, idle, unwatched⟩ leaves
    obtain ⟨occurs, leaves⟩ := Classical.not_imp.mp leaves
    exact ⟨_, ⟨occurs, rfl⟩, unwatched.breaks wired idle occurs leaves⟩
  · exact ⟨wired_start maxConnections, idle_start maxConnections, unwatched_start maxConnections⟩

/-- The kernel takes three bytes of the greeting, and nothing asks for the rest to be sent. -/
theorem greeting_cut_off : ¬ ∀ run, Always Step Scheduled (start 1000) run := by
  intro all
  let accept : Server.Event := .accept 7 true true (ascii "greeting", .accepted 3)
  have occurs : accept.Occurs (start 1000).server := Finset.notMem_empty 7
  have runs : Runs Step (start 1000) [accept] ((start 1000).body accept) :=
    .cons ⟨occurs, rfl⟩ (.nil _)
  have leaves : ¬ (start 1000).Completes accept := by
    intro completes
    have none := completes (by decide)
    revert none
    decide
  have broken := (unwatched_start 1000).breaks (wired_start 1000) (idle_start 1000) occurs leaves
  exact broken (all [accept] [accept] _ List.prefix_rfl runs)

end Watch

end TinySql
