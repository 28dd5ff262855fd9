import Mathlib.Data.Set.Lattice
import Mathlib.Order.CompletePartialOrder
import TinySql.Command.Confinement
import TinySql.Network.Chunking
import TinySql.Network.Clients

/-!
# Clients in databases of their own

Sessions that keep to different databases do not notice each other: whatever the order in which the
bytes of all clients arrive, each client sees what it would see alone, and leaves its databases as it
would alone.
-/

namespace TinySql
open Coupling Run

/-! ## Handling data -/

section Handling
variable {sha1 : Bytes → Vector UInt8 20} {D : Set Bytes} {start start' : StorageEngine}

theorem finishAuthentication_paired (p : HandshakeResponse41Packet) :
    Paired D start start' (finishAuthentication sha1 p) := by
  refine coupled_get_bind fun e e' twin => ?_
  rw [twin.session]
  refine (emit_paired _).bind (fun _ => ?_) e e' twin
  split
  · refine (modifySession_paired _).bind fun _ => ?_
    have authenticated : Paired D start start' (do
        modifySession fun s => { s with state := .authenticated }
        sendResponse ((okPacket 0 []).encode 2 Buffer.empty)
        return true) :=
      (modifySession_paired _).bind fun _ => (sendResponse_paired _).bind fun _ => coupled_pure true
    split
    · exact (modifySession_paired _).bind fun _ => authenticated
    · exact authenticated
  · exact (sendResponse_paired _).bind fun _ => coupled_pure false

theorem handleAuthentication_isolating : Isolating D start start' (handleAuthentication sha1) := by
  refine (onBuffer_seated _).bind fun decoded => ?_
  cases decoded with
  | none =>
      have refused : Coupled (Joined D start start') (Joined D start start') (Joined D start start')
          (do onExec (sendResponse (badHandshake.encode 2 Buffer.empty)); return false)
          (do onExec (sendResponse (badHandshake.encode 2 Buffer.empty)); return false) :=
        (onExec_paired (sendResponse_paired _)).bind fun _ => coupled_pure false
      exact refused.mono (fun _ _ seated => seated.joined) fun _ _ joined => joined
  | some p =>
      exact (onExec_paired (finishAuthentication_paired p)).mono (fun _ _ seated => seated.joined)
        fun _ _ joined => joined

theorem handleCommand_isolating (starts : ∀ d, start.hasDatabase d = start'.hasDatabase d) :
    Isolating D start start' handleCommand := by
  refine coupled_get_bind fun c c' seated => ?_
  rw [seated.2.1.session]
  split
  · have aborted : Paired D start start' (do
        let response ← encodeNext abortedConnection.encode Buffer.empty
        sendResponse response) :=
      (encodeNext_paired _ _).bind fun response => sendResponse_paired response
    exact (onExec_paired aborted).bind (fun _ => coupled_pure false) c c' seated.joined
  · refine Coupled.bind (M := Seated D start start') ?_ (fun _ => ?_) c c' seated
    · intro c c' ⟨same, twin, inside⟩
      exact .ok ⟨same, ⟨twin.session, congrArg (· ++ [.dispatch]) twin.events, twin.storage⟩, inside⟩
    · refine (dispatch_isolating starts).bind fun result => coupled_get_bind fun c c' joined => ?_
      rw [joined.2.session]
      split
      · exact coupled_pure false c c' joined
      · exact coupled_pure result c c' joined

theorem handleData_isolating (starts : ∀ d, start.hasDatabase d = start'.hasDatabase d) :
    Isolating D start start' (handleData sha1) := by
  refine (onBuffer_seated _).bind fun packetSize => ?_
  split
  · exact return_seated true
  · refine coupled_get_bind fun c c' seated => ?_
    rw [seated.2.1.session]
    split
    · exact handleAuthentication_isolating c c' seated
    · exact handleCommand_isolating starts c c' seated
    · exact handleCommand_isolating starts c c' seated
    · exact return_seated false c c' seated

end Handling

namespace Clients

variable {sha1 : Bytes → Vector UInt8 20} {D : Nat → Set Bytes} {s s' alone : Clients} {e : Event}
  {i : Nat}

/-- A client whose bytes arrive is in one of its own databases, or in none. -/
def AtHome (D : Nat → Set Bytes) (s : Clients) : Event → Prop
  | .data fd _ _ => ∀ c, s.client fd = some c →
      c.session.currentDatabase = [] ∨ c.session.currentDatabase ∈ D fd
  | .accept _ _ | .endOfFile _ => True

/-- What arrives from this client fits into its input buffer. -/
def Fits (i : Nat) (s : Clients) : Event → Prop
  | .data fd chunk _ => fd = i → ∀ c, s.client fd = some c → chunk.length ≤ c.buffer.writableBytes
  | .accept _ _ | .endOfFile _ => True

/-- The event as its client knows it, whatever memory the server has for it. -/
def Event.visible : Event → Event
  | .data fd chunk _ => .data fd chunk fun _ => 0
  | e => e

section Visible
variable {fd : Nat} {chunk : Bytes} {block : Nat → UInt8} {challenge : Vector UInt8 20}

theorem visible_accept : e.visible = (Event.accept fd challenge).visible ↔
    e = .accept fd challenge := by
  cases e <;> simp [Event.visible]

theorem visible_data : e.visible = (Event.data fd chunk block).visible ↔
    ∃ block', e = .data fd chunk block' := by
  cases e <;> simp [Event.visible]

theorem visible_endOfFile : e.visible = (Event.endOfFile fd).visible ↔ e = .endOfFile fd := by
  cases e <;> simp [Event.visible]

end Visible

/-- What is left of the state for one client: its connection, its databases, and which databases
there are. Alone, the server lasts at least as long. -/
structure Alike (D : Set Bytes) (i : Nat) (s alone : Clients) : Prop where
  client : s.client i = alone.client i
  inside : ∀ d ∈ D, s.storage.getDatabase d = alone.storage.getDatabase d
  names : ∀ d, s.storage.hasDatabase d = alone.storage.hasDatabase d
  running : s.running = true → alone.running = true

def Present (D : Nat → Set Bytes) (s : Clients) : Prop :=
  ∀ i, ∀ d ∈ D i, s.storage.hasDatabase d = true

theorem hasDatabase_congr {storage storage' : StorageEngine} {d : Bytes}
    (same : storage.getDatabase d = storage'.getDatabase d) :
    storage.hasDatabase d = storage'.hasDatabase d := by
  rw [StorageEngine.hasDatabase, StorageEngine.hasDatabase, same]

/-- Two calls that end alike leave the same connection behind, and end the server or do not. -/
theorem handled_alike {D : Set Bytes} {start start' : StorageEngine} {fd : Nat}
    {result result' : EStateM.Result Exn Context Bool}
    (ended : Coupling.Alike (Joined D start start') (Joined D start start') result result')
    (running : s.running = true → alone.running = true) :
    (s.handled fd result).client fd = (alone.handled fd result').client fd ∧
      Beside D start start' (s.handled fd result).storage (alone.handled fd result').storage ∧
      ((s.handled fd result).running = true → (alone.handled fd result').running = true) := by
  have same {c c' : Context} (joined : Joined D start start' c c') (kept : Bool) :
      Client.ofContext c kept = .ofContext c' kept := by
    rw [Client.ofContext, Client.ofContext, joined.1, joined.2.session, joined.2.events]
  cases ended with
  | ok joined =>
      refine ⟨?_, joined.2.storage, running⟩
      rw [handled, handled, client_setClient, client_setClient, same joined]
  | error joined =>
      refine ⟨?_, joined.2.storage, id⟩
      rw [handled, handled, client_setClient, client_setClient, same joined]

section Data
variable {fd : Nat} {chunk : Bytes} {block block' : Nat → UInt8}

theorem data_alike (alike : Alike (D fd) fd s alone) (present : Present D s)
    (home : AtHome D s (.data fd chunk block))
    (same : ∀ c, s.client fd = some c →
      c.buffer.readFromFdInto block chunk = c.buffer.readFromFdInto block' chunk)
    (step : s.data sha1 fd chunk block = some s') :
    ∃ alone', alone.data sha1 fd chunk block' = some alone' ∧ s'.client fd = alone'.client fd ∧
      Beside (D fd) s.storage alone.storage s'.storage alone'.storage ∧
      (s'.running = true → alone'.running = true) := by
  obtain ⟨c, here, live, some, rfl⟩ := data_eq_some.mp step
  have seated : Seated (D fd) s.storage alone.storage (received chunk block s.storage c)
      (received chunk block' alone.storage c) :=
    ⟨same c here, ⟨rfl, rfl, alike.inside, fun _ _ => rfl, fun _ _ => rfl, present fd⟩, home c here⟩
  have isolating : Isolating (D fd) s.storage alone.storage (handleData sha1) :=
    handleData_isolating alike.names
  exact ⟨_, data_eq_some.mpr ⟨c, alike.client ▸ here, live, some, rfl⟩,
    handled_alike (isolating _ _ seated) alike.running⟩

/-- Nothing happens outside of the databases of the client. -/
theorem data_outside (present : Present D s) (home : AtHome D s (.data fd chunk block))
    (step : s.data sha1 fd chunk block = some s') :
    (∀ d, d ∉ D fd → s'.storage.getDatabase d = s.storage.getDatabase d) ∧
      ∀ d ∈ D fd, s'.storage.hasDatabase d = true := by
  have itself : Alike (D fd) fd s s := ⟨rfl, fun _ _ => rfl, fun _ => rfl, id⟩
  obtain ⟨alone', -, -, beside, -⟩ := data_alike itself present home (fun _ _ => rfl) step
  exact ⟨beside.outside, beside.present⟩

end Data

/-- A step keeps the names of the databases, and everything outside those of its client. -/
theorem step_outside (present : Present D s) (home : AtHome D s e) (step : Step sha1 s e s') :
    (∀ d, d ∉ D e.fd → s'.storage.getDatabase d = s.storage.getDatabase d) ∧
      ∀ d, s'.storage.hasDatabase d = s.storage.hasDatabase d := by
  obtain ⟨-, served⟩ := step_iff.mp step
  cases e with
  | accept fd challenge =>
      obtain ⟨-, rfl⟩ := accept_eq_some.mp served
      exact ⟨fun _ _ => rfl, fun _ => rfl⟩
  | data fd chunk block =>
      obtain ⟨outside, kept⟩ := data_outside present home served
      refine ⟨outside, fun d => ?_⟩
      by_cases own : d ∈ D fd
      · rw [kept d own, present fd d own]
      · exact hasDatabase_congr (outside d own)
  | endOfFile fd =>
      obtain ⟨c, -, -, rfl⟩ := endOfFile_eq_some.mp served
      exact ⟨fun _ _ => rfl, fun _ => rfl⟩

theorem Present.step (present : Present D s) (home : AtHome D s e) (step : Step sha1 s e s') :
    Present D s' := fun j d member => by
  rw [(step_outside present home step).2, present j d member]

theorem Alike.other (alike : Alike (D i) i s alone) (apart : Disjoint (D e.fd) (D i))
    (different : e.fd ≠ i) (present : Present D s) (home : AtHome D s e)
    (step : Step sha1 s e s') : Alike (D i) i s' alone := by
  obtain ⟨outside, names⟩ := step_outside present home step
  constructor
  · rw [client_of_step step different.symm, alike.client]
  · intro d member
    rw [outside d fun other => Set.disjoint_left.mp apart other member, alike.inside d member]
  · intro d
    rw [names, alike.names]
  · exact fun _ => alike.running (step_iff.mp step).1

/-- Where the bytes fit, a step of the client itself is one that it can take alone, and it does not
matter in which memory. -/
theorem Alike.own {e' : Event} (alike : Alike (D i) i s alone) (mine : e.fd = i)
    (present : Present D s) (home : AtHome D s e) (fits : Fits i s e)
    (same : e'.visible = e.visible) (step : Step sha1 s e s') :
    ∃ alone', Step sha1 alone e' alone' ∧ Alike (D i) i s' alone' := by
  subst mine
  obtain ⟨running, served⟩ := step_iff.mp step
  have alive := alike.running running
  cases e with
  | accept fd challenge =>
      obtain rfl := visible_accept.mp same
      simp only [Event.fd] at alike ⊢
      obtain ⟨free, rfl⟩ := accept_eq_some.mp served
      refine ⟨_, step_iff.mpr ⟨alive, accept_eq_some.mpr ⟨alike.client ▸ free, rfl⟩⟩, ?_,
        alike.inside, alike.names, alike.running⟩
      rw [client_setClient, client_setClient]
      rfl
  | data fd chunk block =>
      obtain ⟨block', rfl⟩ := visible_data.mp same
      simp only [Event.fd] at alike fits ⊢
      have room (c : Client) (here : s.client fd = some c) :
          c.buffer.readFromFdInto block chunk = c.buffer.readFromFdInto block' chunk := by
        rw [Buffer.readFromFdInto_of_fits (fits rfl c here),
          Buffer.readFromFdInto_of_fits (fits rfl c here)]
      obtain ⟨alone', ran, same, beside, lasts⟩ := data_alike alike present home room served
      refine ⟨alone', step_iff.mpr ⟨alive, ran⟩, same, beside.inside, fun d => ?_, lasts⟩
      by_cases own : d ∈ D fd
      · exact hasDatabase_congr (beside.inside d own)
      · rw [hasDatabase_congr (beside.outside d own), hasDatabase_congr (beside.outside' d own)]
        exact alike.names d
  | endOfFile fd =>
      obtain rfl := visible_endOfFile.mp same
      simp only [Event.fd] at alike ⊢
      obtain ⟨c, here, live, rfl⟩ := endOfFile_eq_some.mp served
      have here' := here
      rw [alike.client] at here'
      refine ⟨_, step_iff.mpr ⟨alive, endOfFile_eq_some.mpr ⟨c, here', live, rfl⟩⟩, ?_,
        alike.inside, alike.names, alike.running⟩
      rw [client_setClient, client_setClient]

theorem Alike.run {run own : List Event} (apart : Pairwise fun i j => Disjoint (D i) (D j))
    (runs : Runs (Step sha1) s run s') (home : Admits (Step sha1) (AtHome D) s run)
    (fits : Admits (Step sha1) (Fits i) s run) (present : Present D s)
    (alike : Alike (D i) i s alone)
    (same : own.map Event.visible = (run.filter (·.fd == i)).map Event.visible) :
    ∃ alone', Runs (Step sha1) alone own alone' ∧ Alike (D i) i s' alone' := by
  induction runs generalizing alone own with
  | nil s =>
      obtain rfl := List.map_eq_nil_iff.mp same
      exact ⟨alone, .nil alone, alike⟩
  | @cons s s' s'' e rest step _ ih =>
      obtain ⟨atHome, homeLater⟩ := admits_cons.mp home
      obtain ⟨fit, fitsLater⟩ := admits_cons.mp fits
      have present' := present.step atHome step
      by_cases mine : e.fd = i
      · rw [List.filter_cons_of_pos (by simpa using mine), List.map_cons] at same
        obtain ⟨e', own', rfl, first, others⟩ := List.map_eq_cons_iff.mp same
        obtain ⟨alone', step', alike'⟩ := alike.own mine present atHome fit first step
        obtain ⟨alone'', runs', alike''⟩ :=
          ih (homeLater s' step) (fitsLater s' step) present' alike' others
        exact ⟨alone'', .cons step' runs', alike''⟩
      · rw [List.filter_cons_of_neg (by simpa using mine)] at same
        have alike' := alike.other (apart mine) mine present atHome step
        exact ih (homeLater s' step) (fitsLater s' step) present' alike' same

/-- As long as every client keeps to databases of its own, which were there at the start, one whose
bytes fit into its input buffer is served, byte by byte and event by event, as if it were alone, and
finds in its databases what it has put there; alone, it does not lose the server to others. -/
theorem clients_isolated (sha1 : Bytes → Vector UInt8 20) (D : Nat → Set Bytes)
    (apart : Pairwise fun i j => Disjoint (D i) (D j)) (storage : StorageEngine)
    (present : ∀ i, ∀ d ∈ D i, storage.hasDatabase d = true) (run : List Event) (s : Clients)
    (runs : Runs (Step sha1) (start storage) run s)
    (home : Admits (Step sha1) (AtHome D) (start storage) run) (i : Nat)
    (fits : Admits (Step sha1) (Fits i) (start storage) run) (own : List Event)
    (same : own.map Event.visible = (run.filter (·.fd == i)).map Event.visible) :
    ∃ alone, Runs (Step sha1) (start storage) own alone ∧ alone.client i = s.client i ∧
      (∀ d ∈ D i, alone.storage.getDatabase d = s.storage.getDatabase d) ∧
      (s.running = true → alone.running = true) := by
  obtain ⟨alone, runs', alike⟩ := @Alike.run _ _ _ _ (start storage) i _ _ apart runs home fits
    present ⟨rfl, fun _ _ => rfl, fun _ => rfl, id⟩ same
  exact ⟨alone, runs', alike.client.symm, fun d member => (alike.inside d member).symm,
    alike.running⟩

instance (D : Nat → Set Bytes) [∀ i d, Decidable (d ∈ D i)] (s : Clients) :
    (e : Event) → Decidable (AtHome D s e)
  | .data fd _ _ => inferInstanceAs (Decidable (∀ c ∈ s.client fd,
      c.session.currentDatabase = [] ∨ c.session.currentDatabase ∈ D fd))
  | .accept _ _ | .endOfFile _ => isTrue trivial

instance (i : Nat) (s : Clients) : (e : Event) → Decidable (Fits i s e)
  | .data fd chunk _ => inferInstanceAs (Decidable (fd = i → ∀ c ∈ s.client fd,
      chunk.length ≤ c.buffer.writableBytes))
  | .accept _ _ | .endOfFile _ => isTrue trivial

/-- Descriptor 3 has the one database of a new storage for itself, descriptor 4 the other. -/
def oneEach (i : Nat) : Set Bytes :=
  {d | i = 3 ∧ d = ascii "mysql" ∨ i = 4 ∧ d = ascii "test"}

instance (i : Nat) (d : Bytes) : Decidable (d ∈ oneEach i) :=
  inferInstanceAs (Decidable (i = 3 ∧ d = ascii "mysql" ∨ i = 4 ∧ d = ascii "test"))

/-- The memory of the server is full of `block`. -/
def twoClients (block : Nat → UInt8) : List Event :=
  [.accept 3 (.replicate 20 0), .accept 4 (.replicate 20 1), .data 3 rootResponse.bytes block,
    .data 4 rootResponse.bytes block, .data 3 (packet 0 (2 :: ascii "mysql")) block,
    .data 4 (packet 0 (2 :: ascii "test")) block,
    .data 3 (packet 0 (3 :: ascii "CREATE TABLE t (a INT)")) block,
    .data 4 (packet 0 (3 :: ascii "CREATE TABLE t (b TEXT)")) block]

theorem twoClients_isolated : ∃ s alone,
    Runs (Step fun _ => .replicate 20 0) (start .initial) (twoClients fun _ => 1) s ∧
    Runs (Step fun _ => .replicate 20 0) (start .initial)
      ((twoClients fun _ => 2).filter (·.fd == 4)) alone ∧
    (s.storage.getTable (ascii "mysql") (ascii "t")).isSome ∧ alone.client 4 = s.client 4 ∧
    (∀ d ∈ oneEach 4, alone.storage.getDatabase d = s.storage.getDatabase d) ∧
    (s.running = true → alone.running = true) := by
  have lives : (((twoClients fun _ => 1).foldlM (body fun _ => .replicate 20 0)
      (start .initial)).any fun s => (s.storage.getTable (ascii "mysql") (ascii "t")).isSome) := by
    decide +kernel
  obtain ⟨s, ends, made⟩ := (Option.any_eq_true _ _).mp lives
  have apart : Pairwise fun i j => Disjoint (oneEach i) (oneEach j) := by
    intro i j different
    rw [Set.disjoint_left]
    rintro d (⟨rfl, rfl⟩ | ⟨rfl, rfl⟩) (⟨rfl, other⟩ | ⟨rfl, other⟩)
    · exact different rfl
    · exact absurd other (by decide)
    · exact absurd other (by decide)
    · exact different rfl
  have present : ∀ i, ∀ d ∈ oneEach i, StorageEngine.initial.hasDatabase d = true := by
    rintro i d (⟨rfl, rfl⟩ | ⟨rfl, rfl⟩) <;> decide
  have home : Admits (Step fun _ => .replicate 20 0) (AtHome oneEach) (start .initial)
      (twoClients fun _ => 1) := by
    unfold Step
    decide +kernel
  have fits : Admits (Step fun _ => .replicate 20 0) (Fits 4) (start .initial)
      (twoClients fun _ => 1) := by
    unfold Step
    decide +kernel
  obtain ⟨alone, runs, same⟩ := clients_isolated _ oneEach apart .initial present
    (twoClients fun _ => 1) s (runs_of_foldlM ends) home 4 fits
    ((twoClients fun _ => 2).filter (·.fd == 4)) rfl
  exact ⟨s, alone, runs_of_foldlM ends, runs, made, same⟩

end Clients

end TinySql
