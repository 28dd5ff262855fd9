import TinySql.Network.ServerLaws

/-!
# The connections that the event loop serves

In every run the registered descriptors are those of the connections that the server has and that
are connected, whatever else is left behind in the maps by the ends of connections.
-/

namespace TinySql.Server

variable {s s' : Server} {fd id : Nat} {c c' : Connection}

/-- A connected object has an open descriptor of its own, a map leads to it from no other one, and
the event loop watches exactly the connected connections of the server. -/
structure Wired (s : Server) : Prop where
  opened : ∀ (id : Nat) (c : Connection), s.objects[id]? = some c → c.output.connected = true →
    ∃ fd, c.fd = some fd ∧ fd ∈ s.opened
  unique : ∀ (id id' : Nat) (c c' : Connection), s.objects[id]? = some c →
    s.objects[id']? = some c' → c.output.connected = true → c'.output.connected = true →
    c.fd = c'.fd → id = id'
  linked : ∀ fd id, s.connections.lookup fd = some id ∨ s.protocolHandlers.lookup fd = some id →
    ∃ c, s.objects[id]? = some c ∧ (c.output.connected = true → c.fd = some fd)
  served : ∀ fd ∈ s.registered, ∃ id c, Serves s fd id c
  watched : ∀ fd id c, s.connections.lookup fd = some id → s.objects[id]? = some c →
    c.output.connected = true → fd ∈ s.registered

theorem Wired.serves (wired : Wired s) (entry : s.connections.lookup fd = some id)
    (object : s.objects[id]? = some c) (connected : c.output.connected = true) :
    Serves s fd id c := by
  obtain ⟨id', c', serves⟩ := wired.served fd (wired.watched fd id c entry object connected)
  obtain rfl := Option.some.inj (entry.symm.trans serves.entry)
  obtain rfl := Option.some.inj (object.symm.trans serves.object)
  exact serves

theorem Wired.isOpen (wired : Wired s) (serves : Serves s fd id c) : fd ∈ s.opened := by
  obtain ⟨fd', named, member⟩ := wired.opened id c serves.object serves.connected
  obtain rfl := Option.some.inj (serves.named.symm.trans named)
  exact member

theorem Wired.unseen (wired : Wired s) (fresh : fd ∉ s.opened) : fd ∉ s.registered := by
  intro member
  obtain ⟨id, c, serves⟩ := wired.served fd member
  exact fresh (wired.isOpen serves)

theorem Wired.unused (wired : Wired s) (fresh : fd ∉ s.opened) (id : Nat)
    (found : s.connections.lookup fd = some id ∨ s.protocolHandlers.lookup fd = some id) :
    ∃ c, s.objects[id]? = some c ∧ c.output.connected = false := by
  obtain ⟨c, here, named⟩ := wired.linked fd id found
  refine ⟨c, here, Bool.eq_false_iff.mpr fun connected => ?_⟩
  obtain ⟨fd', named', member⟩ := wired.opened id c here connected
  obtain rfl := Option.some.inj ((named connected).symm.trans named')
  exact fresh member

/-! ## What an event does -/

/-- All that an event can do to a server that serves the descriptors of its event loop. -/
inductive Effect (s : Server) : Event → Server → Prop where
  | joined {fd : Nat} {nonBlocking added : Bool} {greeting : Bytes × Written}
      (fresh : fd ∉ s.opened) (admitted : Admitted s nonBlocking added) :
      Effect s (.accept fd nonBlocking added greeting)
        ((s.join fd).send s.objects.length [greeting])
  | refused {fd : Nat} {nonBlocking added : Bool} {greeting : Bytes × Written}
      {more : List Connection} (refused : ¬ Admitted s nonBlocking added)
      (closed : ∀ c ∈ more, c.output.connected = false) :
      Effect s (.accept fd nonBlocking added greeting) { s with objects := s.objects ++ more }
  | answered {fd id : Nat} {c : Connection} (serves : Serves s fd id c)
      (sends : List (Bytes × Written)) :
      Effect s (.data fd sends true) (s.setObject id (sendAll sends c))
  | dropped {fd id : Nat} {c : Connection} (serves : Serves s fd id c)
      (sends : List (Bytes × Written)) :
      Effect s (.data fd sends false)
        (closeSocket fd (s.setObject id { (sendAll sends c).disconnected with fd := none }))
  | ended {fd id : Nat} {c : Connection} (serves : Serves s fd id c) :
      Effect s (.endOfFile fd) (closeCallback fd (s.setObject id c.disconnected))
  | failed {fd id : Nat} {c : Connection} (serves : Serves s fd id c) :
      Effect s (.error fd) (s.handleClose fd)
  | wrote {fd id : Nat} {c : Connection} {written : Written} (serves : Serves s fd id c)
      (stays : (c.output.handleWrite written).connected = true) :
      Effect s (.write fd written)
        (s.setObject id { c with output := c.output.handleWrite written })
  | broken {fd id : Nat} {c : Connection} {written : Written} (serves : Serves s fd id c)
      (ends : (c.output.handleWrite written).connected = false) :
      Effect s (.write fd written) (closeCallback fd (s.setObject id c.disconnected))

theorem Wired.effect {e : Event} (wired : Wired s) (occurs : e.Occurs s) :
    Effect s e (e.body s) := by
  cases e with
  | accept fd nonBlocking added greeting =>
      rw [Event.body]
      rcases handleAccept_cases occurs (wired.unseen occurs) (wired.unused occurs) nonBlocking added
        greeting with ⟨admitted, joined⟩ | ⟨refused, more, grown, closed⟩
      · rw [joined]
        exact .joined occurs admitted
      · rw [grown]
        exact .refused refused closed
  | data fd sends kept =>
      obtain ⟨id, c, serves⟩ := wired.served fd occurs
      rw [Event.body, handleData_eq serves]
      cases kept with
      | true => exact .answered serves sends
      | false => exact .dropped serves sends
  | endOfFile fd =>
      obtain ⟨id, c, serves⟩ := wired.served fd occurs
      rw [Event.body, handleEnd_eq serves]
      exact .ended serves
  | error fd =>
      obtain ⟨id, c, serves⟩ := wired.served fd occurs
      rw [Event.body, handleError_eq serves]
      exact .failed serves
  | write fd written =>
      obtain ⟨id, c, serves⟩ := wired.served fd occurs
      rw [Event.body, handleWrite_eq serves]
      split
      · rename_i stays
        exact .wrote serves stays
      · rename_i ends
        exact .broken serves (Bool.eq_false_iff.mpr ends)

/-- The event leaves this descriptor in the event loop. -/
def Event.Keeps (s : Server) (other : Nat) : Event → Prop
  | .accept fd _ _ _ => other = fd ∨ other ∈ s.registered
  | .data fd _ kept => other ∈ s.registered ∧ (other = fd → kept = true)
  | .endOfFile fd | .error fd => other ∈ s.registered ∧ other ≠ fd
  | .write _ _ => other ∈ s.registered

theorem registered_send (s : Server) (id : Nat) (sends : List (Bytes × Written)) :
    (s.send id sends).registered = s.registered := by
  unfold Server.send
  split <;> rfl

theorem registered_closeCallback (serves : Serves s fd id c) :
    (closeCallback fd (s.setObject id c')).registered = s.registered.erase fd := by
  have member : fd ∈ (s.setObject id c').connections := serves.member
  rw [closeCallback_eq member]
  rfl

theorem Effect.keeps {e : Event} {other : Nat} (effect : Effect s e s')
    (member : other ∈ s'.registered) : e.Keeps s other := by
  cases effect with
  | joined fresh admitted =>
      rw [registered_send] at member
      exact Finset.mem_insert.mp member
  | refused refused closed => exact .inr member
  | answered serves sends => exact ⟨member, fun _ => rfl⟩
  | dropped serves sends =>
      obtain ⟨different, member⟩ := Finset.mem_erase.mp member
      exact ⟨member, fun same => absurd same different⟩
  | ended serves =>
      rw [registered_closeCallback serves] at member
      exact (Finset.mem_erase.mp member).symm
  | failed serves =>
      rw [handleClose_eq serves.member] at member
      exact (Finset.mem_erase.mp member).symm
  | wrote serves stays => exact member
  | broken serves ends =>
      rw [registered_closeCallback serves] at member
      exact Finset.mem_of_mem_erase member

/-! ## Steps -/

theorem Wired.setObject (wired : Wired s) (here : s.objects[id]? = some c) (named : c'.fd = c.fd)
    (connected : c'.output.connected = c.output.connected) : Wired (s.setObject id c') := by
  have inside : id < s.objects.length := (List.getElem?_eq_some_iff.mp here).1
  have after {other : Nat} {d : Connection} (there : s.objects[other]? = some d) :
      ∃ d', (s.setObject id c').objects[other]? = some d' ∧ d'.fd = d.fd ∧
        d'.output.connected = d.output.connected := by
    by_cases same : other = id
    · subst same
      obtain rfl := Option.some.inj (here.symm.trans there)
      exact ⟨c', setObject_self inside, named, connected⟩
    · exact ⟨d, (setObject_other same).trans there, rfl, rfl⟩
  have before {other : Nat} {d' : Connection}
      (there : (s.setObject id c').objects[other]? = some d') :
      ∃ d, s.objects[other]? = some d ∧ d'.fd = d.fd ∧
        d'.output.connected = d.output.connected := by
    have within : other < s.objects.length := by
      simpa [Server.setObject] using (List.getElem?_eq_some_iff.mp there).1
    obtain ⟨d'', there', shape⟩ := after (List.getElem?_eq_getElem within)
    obtain rfl := Option.some.inj (there.symm.trans there')
    exact ⟨_, List.getElem?_eq_getElem within, shape⟩
  constructor
  · intro other d' there alive
    obtain ⟨d, old, named', connected'⟩ := before there
    obtain ⟨fd, known, member⟩ := wired.opened other d old (connected'.symm.trans alive)
    exact ⟨fd, named'.trans known, member⟩
  · intro first second d₁ d₂ there₁ there₂ alive₁ alive₂ same
    obtain ⟨e₁, old₁, named₁, connected₁⟩ := before there₁
    obtain ⟨e₂, old₂, named₂, connected₂⟩ := before there₂
    exact wired.unique first second e₁ e₂ old₁ old₂ (connected₁.symm.trans alive₁)
      (connected₂.symm.trans alive₂) (named₁.symm.trans (same.trans named₂))
  · intro fd other found
    obtain ⟨d, old, known⟩ := wired.linked fd other found
    obtain ⟨d', there, named', connected'⟩ := after old
    exact ⟨d', there, fun alive => named'.trans (known (connected'.symm.trans alive))⟩
  · intro fd member
    obtain ⟨other, d, serves⟩ := wired.served fd member
    obtain ⟨d', there, named', connected'⟩ := after serves.object
    exact ⟨other, d', serves.entry, serves.handler, there, named'.trans serves.named,
      connected'.trans serves.connected⟩
  · intro fd other d' entry there alive
    obtain ⟨d, old, -, connected'⟩ := before there
    exact wired.watched fd other d entry old (connected'.symm.trans alive)

/-- The connection of a descriptor ends: its object is closed, and the event loop does not watch the
descriptor any more. -/
theorem Wired.ended (wired : Wired s) (serves : Serves s fd id c)
    (closed : c'.output.connected = false) (objects : s'.objects = s.objects.set id c')
    (opened : ∀ other ∈ s.opened, other ≠ fd → other ∈ s'.opened)
    (registered : s'.registered = s.registered.erase fd)
    (connections : ∀ other id', s'.connections.lookup other = some id' →
      s.connections.lookup other = some id')
    (handlers : ∀ other id', s'.protocolHandlers.lookup other = some id' →
      s.protocolHandlers.lookup other = some id')
    (others : ∀ other, other ≠ fd → s'.connections.lookup other = s.connections.lookup other ∧
      s'.protocolHandlers.lookup other = s.protocolHandlers.lookup other) : Wired s' := by
  have there : s'.objects[id]? = some c' := by
    rw [objects]
    exact List.getElem?_set_self serves.inside
  have elsewhere {other : Nat} (different : other ≠ id) : s'.objects[other]? = s.objects[other]? := by
    rw [objects]
    exact List.getElem?_set_ne different.symm
  have alive_other {other : Nat} {d : Connection} (found : s'.objects[other]? = some d)
      (alive : d.output.connected = true) : other ≠ id ∧ s.objects[other]? = some d := by
    have different : other ≠ id := by
      rintro rfl
      obtain rfl := Option.some.inj (there.symm.trans found)
      rw [closed] at alive
      cases alive
    exact ⟨different, (elsewhere different).symm.trans found⟩
  constructor
  · intro other d found alive
    obtain ⟨different, old⟩ := alive_other found alive
    obtain ⟨fd', named, member⟩ := wired.opened other d old alive
    refine ⟨fd', named, opened fd' member ?_⟩
    rintro rfl
    exact different (wired.unique other id d c old serves.object alive serves.connected
      (named.trans serves.named.symm))
  · intro first second d₁ d₂ found₁ found₂ alive₁ alive₂ same
    exact wired.unique first second d₁ d₂ (alive_other found₁ alive₁).2
      (alive_other found₂ alive₂).2 alive₁ alive₂ same
  · intro fd' other found
    obtain ⟨d, old, named⟩ := wired.linked fd' other
      (found.imp (connections fd' other) (handlers fd' other))
    by_cases same : other = id
    · subst same
      exact ⟨c', there, fun alive => by simp [closed] at alive⟩
    · exact ⟨d, (elsewhere same).trans old, named⟩
  · intro fd' member
    rw [registered, Finset.mem_erase] at member
    obtain ⟨other, d, serves'⟩ := wired.served fd' member.2
    have different : other ≠ id := by
      rintro rfl
      obtain rfl := Option.some.inj (serves.object.symm.trans serves'.object)
      exact member.1 (Option.some.inj (serves'.named.symm.trans serves.named))
    obtain ⟨entry, handler⟩ := others fd' member.1
    exact ⟨other, d, entry.trans serves'.entry, handler.trans serves'.handler,
      (elsewhere different).trans serves'.object, serves'.named, serves'.connected⟩
  · intro fd' other d entry found alive
    obtain ⟨different, old⟩ := alive_other found alive
    have entry' := connections fd' other entry
    rw [registered, Finset.mem_erase]
    refine ⟨?_, wired.watched fd' other d entry' old alive⟩
    rintro rfl
    exact different (Option.some.inj (entry'.symm.trans serves.entry))

theorem lookup_of_lookup_erase {m : AList fun _ : Nat => Nat} {other id' : Nat}
    (found : (m.erase fd).lookup other = some id') : m.lookup other = some id' := by
  by_cases same : other = fd
  · subst same
    rw [AList.lookup_erase] at found
    cases found
  · rwa [AList.lookup_erase_ne same] at found

theorem Wired.closeSocket (wired : Wired s) (serves : Serves s fd id c)
    (closed : c'.output.connected = false) :
    Wired (closeSocket fd (s.setObject id c')) := by
  apply wired.ended serves closed rfl
  · exact fun other member different => Finset.mem_erase.mpr ⟨different, member⟩
  · rfl
  · exact fun other id' found => found
  · exact fun other id' found => found
  · exact fun other different => ⟨rfl, rfl⟩

theorem Wired.closeCallback (wired : Wired s) (serves : Serves s fd id c)
    (closed : c'.output.connected = false) :
    Wired (closeCallback fd (s.setObject id c')) := by
  have member : fd ∈ (s.setObject id c').connections := serves.member
  rw [closeCallback_eq member]
  apply wired.ended serves closed rfl
  · exact fun other member different => member
  · rfl
  · exact fun other id' found => lookup_of_lookup_erase found
  · exact fun other id' found => lookup_of_lookup_erase found
  · exact fun other different =>
      ⟨AList.lookup_erase_ne different, AList.lookup_erase_ne different⟩

theorem Wired.handleClose (wired : Wired s) (member : fd ∈ s.connections) :
    Wired (s.handleClose fd) := by
  rw [handleClose_eq member]
  constructor
  · exact wired.opened
  · exact wired.unique
  · intro fd' other found
    exact wired.linked fd' other (found.imp lookup_of_lookup_erase id)
  · intro fd' watched
    obtain ⟨different, watched⟩ := Finset.mem_erase.mp watched
    obtain ⟨other, d, serves⟩ := wired.served fd' watched
    exact ⟨other, d, (AList.lookup_erase_ne different).trans serves.entry, serves.handler,
      serves.object, serves.named, serves.connected⟩
  · intro fd' other d entry there alive
    apply Finset.mem_erase.mpr
    refine ⟨?_, wired.watched fd' other d (lookup_of_lookup_erase entry) there alive⟩
    rintro rfl
    rw [AList.lookup_erase] at entry
    cases entry

theorem Wired.grow (wired : Wired s) {more : List Connection}
    (closed : ∀ c ∈ more, c.output.connected = false) :
    Wired { s with objects := s.objects ++ more } := by
  have before {other : Nat} {d : Connection} (found : (s.objects ++ more)[other]? = some d)
      (alive : d.output.connected = true) : s.objects[other]? = some d := by
    rcases object_cases found with old | ⟨-, new⟩
    · exact old
    · rw [closed d (List.mem_of_getElem? new)] at alive
      cases alive
  constructor
  · exact fun other d found alive => wired.opened other d (before found alive) alive
  · intro first second d₁ d₂ found₁ found₂ alive₁ alive₂ same
    exact wired.unique first second d₁ d₂ (before found₁ alive₁) (before found₂ alive₂) alive₁
      alive₂ same
  · intro fd' other found
    obtain ⟨d, old, named⟩ := wired.linked fd' other found
    exact ⟨d, object_kept old, named⟩
  · intro fd' member
    obtain ⟨other, d, serves⟩ := wired.served fd' member
    exact ⟨other, d, serves.entry, serves.handler, object_kept serves.object, serves.named,
      serves.connected⟩
  · exact fun fd' other d entry found alive =>
      wired.watched fd' other d entry (before found alive) alive

theorem join_serves (fd : Nat) (s : Server) :
    Serves (s.join fd) fd s.objects.length ⟨some fd, {}⟩ where
  entry := AList.lookup_insert _
  handler := AList.lookup_insert _
  object := by simp [join]
  named := rfl
  connected := rfl

theorem join_lookup {other : Nat} (different : other ≠ fd) :
    (s.join fd).connections.lookup other = s.connections.lookup other ∧
      (s.join fd).protocolHandlers.lookup other = s.protocolHandlers.lookup other :=
  ⟨AList.lookup_insert_ne different, AList.lookup_insert_ne different⟩

theorem Wired.join (wired : Wired s) (fresh : fd ∉ s.opened) : Wired (s.join fd) := by
  have new := join_serves fd s
  have before {other : Nat} {d : Connection} (found : (s.join fd).objects[other]? = some d) :
      s.objects[other]? = some d ∨ other = s.objects.length ∧ d = ⟨some fd, {}⟩ := by
    apply (object_cases found).imp_right
    rintro ⟨beyond, last⟩
    rw [List.getElem?_singleton] at last
    split at last
    · rename_i first
      exact ⟨Nat.le_antisymm (Nat.sub_eq_zero_iff_le.mp first) beyond, (Option.some.inj last).symm⟩
    · cases last
  have named_other {other : Nat} {d : Connection} (old : s.objects[other]? = some d)
      (alive : d.output.connected = true) : d.fd ≠ some fd := by
    intro same
    obtain ⟨fd', named, member⟩ := wired.opened other d old alive
    obtain rfl := Option.some.inj (same.symm.trans named)
    exact fresh member
  constructor
  · intro other d found alive
    rcases before found with old | ⟨rfl, rfl⟩
    · obtain ⟨fd', named, member⟩ := wired.opened other d old alive
      exact ⟨fd', named, Finset.mem_insert_of_mem member⟩
    · exact ⟨fd, rfl, Finset.mem_insert_self fd s.opened⟩
  · intro first second d₁ d₂ found₁ found₂ alive₁ alive₂ same
    rcases before found₁ with old₁ | ⟨rfl, rfl⟩
    · rcases before found₂ with old₂ | ⟨rfl, rfl⟩
      · exact wired.unique first second d₁ d₂ old₁ old₂ alive₁ alive₂ same
      · exact absurd same (named_other old₁ alive₁)
    · rcases before found₂ with old₂ | ⟨rfl, rfl⟩
      · exact absurd same.symm (named_other old₂ alive₂)
      · rfl
  · intro fd' other found
    by_cases same : fd' = fd
    · subst same
      obtain rfl : s.objects.length = other := by
        rcases found with found | found
        · exact Option.some.inj (new.entry.symm.trans found)
        · exact Option.some.inj (new.handler.symm.trans found)
      exact ⟨_, new.object, fun _ => rfl⟩
    · rw [(join_lookup same).1, (join_lookup same).2] at found
      obtain ⟨d, old, named⟩ := wired.linked fd' other found
      exact ⟨d, object_kept old, named⟩
  · intro fd' member
    by_cases same : fd' = fd
    · subst same
      exact ⟨_, _, new⟩
    · have watched := (Finset.mem_insert.mp member).resolve_left same
      obtain ⟨other, d, serves⟩ := wired.served fd' watched
      exact ⟨other, d, (join_lookup same).1.trans serves.entry,
        (join_lookup same).2.trans serves.handler, object_kept serves.object, serves.named,
        serves.connected⟩
  · intro fd' other d entry found alive
    by_cases same : fd' = fd
    · subst same
      exact Finset.mem_insert_self fd' s.registered
    · rw [(join_lookup same).1] at entry
      obtain ⟨d', old, -⟩ := wired.linked fd' other (.inl entry)
      obtain rfl := Option.some.inj ((object_kept old).symm.trans found)
      exact Finset.mem_insert_of_mem (wired.watched fd' other d' entry old alive)

theorem Wired.send (wired : Wired s) (sends : List (Bytes × Written)) (id : Nat) :
    Wired (s.send id sends) := by
  unfold Server.send
  cases here : s.objects[id]? with
  | none => exact wired
  | some c => exact wired.setObject here rfl (sendAll_connected sends c)

theorem Wired.step {e : Event} (wired : Wired s) (occurs : e.Occurs s) : Wired (e.body s) := by
  have effect := wired.effect occurs
  generalize e.body s = s' at effect ⊢
  cases effect with
  | joined fresh admitted => exact (wired.join fresh).send _ _
  | refused refused closed => exact wired.grow closed
  | answered serves sends => exact wired.setObject serves.object rfl (sendAll_connected sends _)
  | dropped serves sends => exact wired.closeSocket serves rfl
  | ended serves => exact wired.closeCallback serves rfl
  | failed serves => exact wired.handleClose serves.member
  | wrote serves stays =>
      exact wired.setObject serves.object rfl (stays.trans serves.connected.symm)
  | broken serves ends => exact wired.closeCallback serves rfl

theorem wired_start (maxConnections : Nat) : Wired (start maxConnections) := by
  constructor
  · simp [start]
  · simp [start]
  · simp [start]
  · simp [start]
  · simp [start]

end TinySql.Server
