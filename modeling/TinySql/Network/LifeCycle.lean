import TinySql.Lib.Run
import TinySql.Network.Wiring

/-!
# The life cycle of connections

As long as no connection ends, the open descriptors, the connections of the server and the protocol
handlers agree. Every way to end a connection breaks this: none of them closes the descriptor and
takes the connection out of both maps.
-/

namespace TinySql.Server
open Run

/-- The open descriptors are those of the connected connections and those of the protocol handlers,
and the server has no connection that is not connected. -/
structure Tidy (s : Server) : Prop where
  live : ∀ fd, fd ∈ s.opened ↔ ∃ id c, s.connections.lookup fd = some id ∧
    s.objects[id]? = some c ∧ c.output.connected = true
  handled : ∀ fd, fd ∈ s.opened ↔ fd ∈ s.protocolHandlers
  connected : ∀ fd id c, s.connections.lookup fd = some id → s.objects[id]? = some c →
    c.output.connected = true

def Ends (s : Server) : Event → Prop
  | .accept _ _ _ _ => False
  | .data _ _ kept => kept = false
  | .endOfFile _ | .error _ => True
  | .write fd written => written = .error ∧ ∃ id c, s.connections.lookup fd = some id ∧
      s.objects[id]? = some c ∧ c.output.outputBuffer.readableBytes ≠ 0

/-- Each map has the open descriptors as its keys, and each connection knows its descriptor. -/
structure Sound (s : Server) : Prop where
  opened : ∀ fd, fd ∈ s.opened ↔ fd ∈ s.connections
  registered : ∀ fd, fd ∈ s.registered ↔ fd ∈ s.connections
  handlers : ∀ fd, s.protocolHandlers.lookup fd = s.connections.lookup fd
  objects : ∀ fd id, s.connections.lookup fd = some id →
    ∃ c, s.objects[id]? = some c ∧ c.fd = some fd ∧ c.output.connected = true

variable {s s' : Server} {fd id : Nat} {c : Connection}

theorem Sound.tidy (sound : Sound s) : Tidy s := by
  constructor
  · intro fd
    rw [sound.opened]
    constructor
    · intro member
      obtain ⟨id, found⟩ := Option.isSome_iff_exists.mp (AList.lookup_isSome.mpr member)
      obtain ⟨c, here, -, connected⟩ := sound.objects fd id found
      exact ⟨id, c, found, here, connected⟩
    · rintro ⟨id, c, found, -⟩
      exact AList.lookup_isSome.mp (by simp [found])
  · intro fd
    rw [sound.opened, ← AList.lookup_isSome, ← AList.lookup_isSome, sound.handlers]
  · intro fd id c found here
    obtain ⟨c', same, -, connected⟩ := sound.objects fd id found
    cases here.symm.trans same
    exact connected

/-! ## Events that keep the connections -/

theorem Sound.setObject (sound : Sound s) {c' : Connection} (here : s.objects[id]? = some c)
    (named : c'.fd = c.fd) (connected : c'.output.connected = c.output.connected) :
    Sound (s.setObject id c') := by
  constructor
  · exact sound.opened
  · exact sound.registered
  · exact sound.handlers
  · intro fd other found
    obtain ⟨c'', there, same, alive⟩ := sound.objects fd other found
    by_cases equal : id = other
    · subst equal
      cases here.symm.trans there
      have inside : id < s.objects.length := (List.getElem?_eq_some_iff.mp here).1
      exact ⟨c', setObject_self inside, named.trans same, connected.trans alive⟩
    · exact ⟨c'', (setObject_other (Ne.symm equal)).trans there, same, alive⟩

theorem Sound.send (sound : Sound s) (sends : List (Bytes × Written)) (id : Nat) :
    Sound (s.send id sends) := by
  unfold Server.send
  cases here : s.objects[id]? with
  | none => exact sound
  | some c => exact sound.setObject here rfl (sendAll_connected sends c)

theorem Sound.grow (sound : Sound s) (more : List Connection) :
    Sound { s with objects := s.objects ++ more } := by
  constructor
  · exact sound.opened
  · exact sound.registered
  · exact sound.handlers
  · intro fd id found
    obtain ⟨c', here, named, connected⟩ := sound.objects fd id found
    exact ⟨c', object_kept here, named, connected⟩

theorem Sound.join (sound : Sound s) : Sound (s.join fd) := by
  constructor
  · intro other
    rw [Server.join, Finset.mem_insert, AList.mem_insert, sound.opened]
  · intro other
    rw [Server.join, Finset.mem_insert, AList.mem_insert, sound.registered]
  · intro other
    by_cases same : other = fd
    · subst same
      simp [Server.join]
    · simp [Server.join, same, sound.handlers]
  · intro other id found
    by_cases same : other = fd
    · subst same
      obtain rfl : s.objects.length = id := by simpa [Server.join] using found
      exact ⟨⟨some other, {}⟩, by simp [Server.join], rfl, rfl⟩
    · rw [Server.join, AList.lookup_insert_ne same] at found
      exact (sound.grow [⟨some fd, {}⟩]).objects other id found

theorem Sound.step {e : Event} (sound : Sound s) (effect : Effect s e s') (lasts : ¬ s.Ends e) :
    Sound s' := by
  cases effect with
  | joined fresh admitted => exact sound.join.send _ _
  | @refused _ _ _ _ more refused closed => exact sound.grow more
  | answered serves sends =>
      rw [← send_eq serves.object]
      exact sound.send sends _
  | dropped serves sends => exact absurd rfl lasts
  | ended serves => exact absurd trivial lasts
  | failed serves => exact absurd trivial lasts
  | wrote serves stays =>
      exact sound.setObject serves.object rfl (stays.trans serves.connected.symm)
  | broken serves ends =>
      rw [Output.handleWrite_closes serves.connected] at ends
      exact absurd ⟨ends.1, _, _, serves.entry, serves.object, ends.2⟩ lasts

/-! ## Events that end a connection -/

theorem not_tidy_of_leak (fd : Nat) (opened : fd ∈ s.opened) (gone : s.connections.lookup fd = none) :
    ¬ Tidy s := by
  intro tidy
  obtain ⟨id, c, found, -⟩ := (tidy.live fd).mp opened
  rw [gone] at found
  cases found

theorem closeCallback_leaks (opened : fd ∈ s.opened) (member : fd ∈ s.connections) :
    ¬ Tidy (s.closeCallback fd) := by
  rw [closeCallback_eq member]
  apply not_tidy_of_leak fd
  · exact opened
  · exact AList.lookup_erase fd s.connections

theorem Sound.breaks {e : Event} (sound : Sound s) (effect : Effect s e s') (ends : s.Ends e) :
    ¬ Tidy s' := by
  cases effect with
  | joined fresh admitted => exact absurd ends id
  | refused refused closed => exact absurd ends id
  | answered serves sends => cases ends
  | @dropped fd id c serves sends =>
      intro tidy
      have off := tidy.connected fd id _ serves.entry (setObject_self serves.inside)
      cases off
  | ended serves => exact closeCallback_leaks ((sound.opened _).mpr serves.member) serves.member
  | @failed fd _ _ serves =>
      rw [handleClose_eq serves.member]
      apply not_tidy_of_leak fd
      · exact (sound.opened fd).mpr serves.member
      · exact AList.lookup_erase fd s.connections
  | wrote serves stays =>
      obtain ⟨failed, id', c', entry, object, pending⟩ := ends
      cases serves.entry.symm.trans entry
      cases serves.object.symm.trans object
      have closes := (Output.handleWrite_closes serves.connected).mpr ⟨failed, pending⟩
      rw [stays] at closes
      cases closes
  | broken serves ends =>
      exact closeCallback_leaks ((sound.opened _).mpr serves.member) serves.member

theorem sound_start (maxConnections : Nat) : Sound (start maxConnections) := by
  constructor
  · simp [start]
  · simp [start]
  · exact fun _ => rfl
  · intro fd id found
    cases found

/-- Descriptors, connections and protocol handlers agree along a run exactly as long as no event
ends a connection. -/
theorem tidy_iff (maxConnections : Nat) (run : List Event) :
    Always Step Tidy (start maxConnections) run ↔
      Admits Step (fun s e => e.Occurs s → ¬ s.Ends e) (start maxConnections) run := by
  apply always_iff_admits fun s => Wired s ∧ Sound s
  · exact fun s inv => inv.2.tidy
  · rintro s e s' ⟨wired, sound⟩ lasts ⟨occurs, rfl⟩
    exact ⟨wired.step occurs, sound.step (wired.effect occurs) (lasts occurs)⟩
  · rintro s e ⟨wired, sound⟩ ends
    obtain ⟨occurs, ends⟩ := Classical.not_imp.mp ends
    exact ⟨_, ⟨occurs, rfl⟩, sound.breaks (wired.effect occurs) (not_not.mp ends)⟩
  · exact ⟨wired_start maxConnections, sound_start maxConnections⟩

/-- A client connects and goes away: its descriptor stays open. -/
theorem descriptor_leaks : ¬ ∀ run, Always Step Tidy (start 1000) run := by
  intro all
  let run : List Event := [.accept 7 true true ([], .accepted 0), .endOfFile 7]
  have registered : 7 ∈ (Event.body (start 1000) (.accept 7 true true ([], .accepted 0))).registered := by
    decide
  have runs : Runs Step (start 1000) run (run.foldl Event.body (start 1000)) :=
    .cons ⟨by simp [Event.Occurs, start], rfl⟩ (.cons ⟨registered, rfl⟩ (.nil _))
  have tidy := all run run _ List.prefix_rfl runs
  exact not_tidy_of_leak 7 (by decide) (by decide) tidy

end TinySql.Server
