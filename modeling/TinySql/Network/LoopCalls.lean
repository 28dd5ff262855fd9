import TinySql.Network.Backends
import TinySql.Network.Slots

/-!
# What the server asks of its event loop

The calls that each event of the server makes, and the descriptors that it opens and closes. In every
run they are proper, so both event loops watch what the server has registered.
-/

namespace TinySql

open EventType Machine Run

/-- Whether the call succeeds where nothing but the kernel is in its way. -/
def LoopCall.granted : LoopCall → Bool
  | .openFd _ | .closeFd _ | .removeFd _ => true
  | .addFd _ _ granted | .modifyFd _ _ granted => granted.item

namespace Server

variable {s s' : Server} {fd id : Nat} {c : Connection} {i : Interest} {Even : Prop}

/-! ## The calls, function by function -/

def closeCalls (id : Nat) (s : Server) : List LoopCall :=
  match s.objects[id]? with
  | none => []
  | some c => if !c.output.connected then [] else (c.fd.map LoopCall.closeFd).toList

def releaseCalls (ids : Option Nat) (s : Server) : List LoopCall :=
  ids.elim [] fun id => if s.referenced id then [] else s.closeCalls id

def handleCloseCalls (fd : Nat) (s : Server) : List LoopCall :=
  if fd ∈ s.connections then [.removeFd fd] else []

def handleConnectionCloseCalls (id : Nat) (s : Server) : List LoopCall :=
  match s.objects[id]? with
  | none => []
  | some c =>
      if c.output.connected then
        let s := s.setObject id { c with output := { c.output with connected := false } }
        c.fd.elim [] s.handleCloseCalls ++ (c.fd.elim s s.closeCallback).closeCalls id
      else []

def connectionCallbackCalls (fd id : Nat) (s : Server) : List LoopCall :=
  let old := s.protocolHandlers.lookup fd
  releaseCalls old { s with protocolHandlers := s.protocolHandlers.insert fd id }

def handleAcceptCalls (fd : Nat) (nonBlocking added : Bool) (s : Server) : List LoopCall :=
  let s := { s with opened := insert fd s.opened }
  .openFd fd ::
    if s.maxConnections ≤ s.connections.keys.length then [.closeFd fd]
    else if !nonBlocking then [.closeFd fd]
    else
      let id := s.objects.length
      let s := { s with objects := s.objects ++ [Connection.mk (some fd) {}] }
      .addFd fd READ (.all added) ::
        if !added then s.closeCalls id
        else
          let old := s.connections.lookup fd
          let s := { s with
            registered := insert fd s.registered
            connections := s.connections.insert fd id }
          s.releaseCalls old ++ (s.releaseAll old).connectionCallbackCalls fd id

def messageCallbackCalls (id : Nat) (sends : List (Bytes × Written)) (kept : Bool) (s : Server) :
    List LoopCall :=
  match s.objects[id]?.bind fun c => c.fd.bind s.protocolHandlers.lookup with
  | none => []
  | some handler => if kept then [] else (s.send handler sends).closeCalls id

def handleDataCalls (fd : Nat) (sends : List (Bytes × Written)) (kept : Bool) (s : Server) :
    List LoopCall :=
  match s.connections.lookup fd with
  | none => []
  | some id =>
      match s.objects[id]? with
      | some c =>
          if c.output.connected then
            s.messageCallbackCalls id sends kept ++
              (s.messageCallback id sends kept).releaseCalls (some id)
          else []
      | none => []

def handleEndCalls (fd : Nat) (s : Server) : List LoopCall :=
  match s.connections.lookup fd with
  | none => []
  | some id =>
      s.handleConnectionCloseCalls id ++ (s.handleConnectionClose id).releaseCalls (some id)

def handleErrorCalls (fd : Nat) (s : Server) : List LoopCall :=
  s.handleCloseCalls fd ++ (s.handleClose fd).releaseCalls (s.connections.lookup fd)

/-- `handleWrite`, which modifies the descriptor when its output buffer is empty; the connection is
released after that. -/
def handleWriteCalls (fd : Nat) (written : Written) (granted : Grant) (s : Server) :
    List LoopCall :=
  match s.connections.lookup fd with
  | none => []
  | some id =>
      match s.objects[id]? with
      | none => []
      | some c =>
          let output := c.output.handleWrite written
          let modified :=
            if output.outputBuffer.readableBytes = 0 then [LoopCall.modifyFd fd READ granted] else []
          if c.output.connected && !output.connected then
            s.handleConnectionCloseCalls id ++ modified ++
              (s.handleConnectionClose id).releaseCalls (some id)
          else modified

/-- The calls of an event. The server does not look at what `modifyFd` returns. -/
def calls (s : Server) (e : Event) (granted : Grant) : List LoopCall :=
  match e with
  | .accept fd nonBlocking added _ => s.handleAcceptCalls fd nonBlocking added
  | .data fd sends kept => s.handleDataCalls fd sends kept
  | .endOfFile fd => s.handleEndCalls fd
  | .error fd => s.handleErrorCalls fd
  | .write fd written => s.handleWriteCalls fd written granted

def callsOf (s : Server) : List (Event × Grant) → List LoopCall
  | [] => []
  | (e, granted) :: rest => s.calls e granted ++ callsOf (e.body s) rest

/-! ## What they come to -/

theorem closeCalls_closed (here : s.objects[id]? = some c) (closed : c.output.connected = false) :
    s.closeCalls id = [] := by
  simp [closeCalls, here, closed]

theorem closeCalls_eq (here : s.objects[id]? = some c) (named : c.fd = some fd)
    (connected : c.output.connected = true) : s.closeCalls id = [.closeFd fd] := by
  simp [closeCalls, here, named, connected]

theorem releaseCalls_closed {ids : Option Nat}
    (closed : ∀ id ∈ ids, ∃ c, s.objects[id]? = some c ∧ c.output.connected = false) :
    s.releaseCalls ids = [] := by
  cases ids with
  | none => rfl
  | some id =>
      obtain ⟨c, here, closed⟩ := closed id rfl
      rw [releaseCalls, Option.elim_some, closeCalls_closed here closed, ite_self]

theorem handleConnectionCloseCalls_eq (serves : Serves s fd id c) :
    s.handleConnectionCloseCalls id = [.removeFd fd] ∧
      (s.handleConnectionClose id).releaseCalls (some id) = [] := by
  have there : (closeCallback fd (s.setObject id c.disconnected)).objects[id]? =
      some c.disconnected := by
    rw [closeCallback, handleClose]
    split <;> exact setObject_self serves.inside
  have member : fd ∈ (s.setObject id c.disconnected).connections := serves.member
  have same : Connection.mk (some fd) { c.output with connected := false } = c.disconnected := by
    rw [← serves.named]
    rfl
  constructor
  · simp only [handleConnectionCloseCalls, serves.object, serves.connected, serves.named,
      Option.elim_some, if_true, same]
    rw [closeCalls_closed there rfl, handleCloseCalls, if_pos member, List.append_nil]
  · have ended : s.handleConnectionClose id = closeCallback fd (s.setObject id c.disconnected) := by
      simp only [handleConnectionClose, serves.object, serves.connected, if_true, serves.named,
        Option.elim_some, same]
      exact close_closed there rfl
    rw [ended]
    apply releaseCalls_closed
    rintro _ ⟨⟩
    exact ⟨_, there, rfl⟩

theorem connections_close (id : Nat) (s : Server) : (s.close id).connections = s.connections := by
  unfold close
  split
  · rfl
  · split
    · rfl
    · dsimp only
      split <;> rfl

theorem connections_messageCallback (id : Nat) (sends : List (Bytes × Written)) (kept : Bool)
    (s : Server) : (s.messageCallback id sends kept).connections = s.connections := by
  unfold messageCallback
  split
  · rfl
  · dsimp only
    split
    · exact (connections_send ..).1
    · rw [connections_close]
      exact (connections_send ..).1

theorem handleDataCalls_eq (serves : Serves s fd id c) (sends : List (Bytes × Written))
    (kept : Bool) : s.handleDataCalls fd sends kept = if kept then [] else [.closeFd fd] := by
  have handler : (s.objects[id]?.bind fun c => c.fd.bind s.protocolHandlers.lookup) = some id := by
    simp [serves.object, serves.named, serves.handler]
  have sent := serves.send sends
  have referenced : (s.messageCallback id sends kept).referenced id = true :=
    referenced_of_lookup ((connections_messageCallback ..).symm ▸ serves.entry)
  simp only [handleDataCalls, serves.entry, serves.object, serves.connected, if_true,
    messageCallbackCalls, Option.bind_some, serves.named, serves.handler, releaseCalls,
    Option.elim_some, referenced, List.append_nil]
  cases kept with
  | true => rfl
  | false => exact closeCalls_eq sent.object sent.named sent.connected

theorem handleEndCalls_eq (serves : Serves s fd id c) :
    s.handleEndCalls fd = [.removeFd fd] := by
  obtain ⟨removed, released⟩ := handleConnectionCloseCalls_eq serves
  simp only [handleEndCalls, serves.entry, removed, released, List.append_nil]

theorem handleErrorCalls_eq (serves : Serves s fd id c) :
    s.handleErrorCalls fd = [.removeFd fd] := by
  have kept : (s.handleClose fd).referenced id = true := by
    apply referenced_of_handler fd
    rw [handleClose_eq serves.member]
    exact serves.handler
  simp only [handleErrorCalls, handleCloseCalls, serves.member, if_true, serves.entry, releaseCalls,
    Option.elim_some, kept, List.append_nil]

theorem handleWriteCalls_eq (serves : Serves s fd id c) (written : Written) (granted : Grant) :
    s.handleWriteCalls fd written granted =
      if (c.output.handleWrite written).connected then
        if (c.output.handleWrite written).outputBuffer.readableBytes = 0 then
          [.modifyFd fd READ granted]
        else []
      else [.removeFd fd] := by
  obtain ⟨removed, released⟩ := handleConnectionCloseCalls_eq serves
  simp only [handleWriteCalls, serves.entry, serves.object, serves.connected, Bool.true_and, removed,
    released, List.append_nil]
  cases ends : (c.output.handleWrite written).connected with
  | true => rfl
  | false =>
      obtain ⟨rfl, pending⟩ := (Output.handleWrite_closes serves.connected).mp ends
      have kept : (c.output.handleWrite .error).outputBuffer = c.output.outputBuffer := by
        simp [Output.handleWrite, serves.connected, pending]
      simp [kept, pending]

/-- A descriptor that is not taken in is closed again, whether the event loop has been asked to add
it or not. -/
theorem handleAcceptCalls_cases
    (unused : ∀ id, s.connections.lookup fd = some id ∨ s.protocolHandlers.lookup fd = some id →
      ∃ c, s.objects[id]? = some c ∧ c.output.connected = false) (nonBlocking added : Bool) :
    (Admitted s nonBlocking added ∧
      s.handleAcceptCalls fd nonBlocking added = [.openFd fd, .addFd fd READ (.all true)]) ∨
    ¬ Admitted s nonBlocking added ∧
      (s.handleAcceptCalls fd nonBlocking added = [.openFd fd, .closeFd fd] ∨
       s.handleAcceptCalls fd nonBlocking added =
        [.openFd fd, .addFd fd READ (.all false), .closeFd fd]) := by
  simp only [handleAcceptCalls]
  split
  · rename_i full
    exact .inr ⟨fun admitted => Nat.not_lt.mpr full admitted.1, .inl rfl⟩
  · rename_i room
    cases nonBlocking with
    | false => exact .inr ⟨fun admitted => Bool.false_ne_true admitted.2.1, .inl rfl⟩
    | true =>
        cases added with
        | false =>
            refine .inr ⟨fun admitted => Bool.false_ne_true admitted.2.2, .inr ?_⟩
            simp [closeCalls]
        | true =>
            refine .inl ⟨⟨Nat.not_le.mp room, rfl, rfl⟩, ?_⟩
            have stale (s' : Server) (grown : s'.objects = s.objects ++ [⟨some fd, {}⟩]) {id : Nat}
                (found : s.connections.lookup fd = some id ∨ s.protocolHandlers.lookup fd = some id) :
                ∃ c, s'.objects[id]? = some c ∧ c.output.connected = false := by
              obtain ⟨c, here, closed⟩ := unused id found
              exact ⟨c, by rw [grown, object_kept here], closed⟩
            simp only [Bool.not_true, Bool.false_eq_true, if_false]
            rw [releaseCalls_closed fun id found => stale _ rfl (.inl found),
              releaseAll_closed fun id found => stale _ rfl (.inl found), connectionCallbackCalls]
            dsimp only
            rw [releaseCalls_closed fun id found => stale _ rfl (.inr found)]
            rfl

/-! ## What the event loop makes of them -/

/-- The event loop watches what the server has registered, for reading. -/
structure Watching (i : Interest) (s : Server) : Prop where
  opened : i.opened = s.opened
  watched : ∀ fd, i.watched fd = if fd ∈ s.registered then some READ else none

/-- The calls are proper, fail only where the kernel does not grant them, and make the event loop
watch what this server has registered. The kernels decide alike on them if they do so in the run. -/
structure Obeyed (Even : Prop) (i : Interest) (calls : List LoopCall) (s : Server) : Prop where
  properly : Properly Interest.call (fun i c => i.Proper c ∧ (Even → c.Even)) i calls
  answered : answers Interest.call i calls = calls.map LoopCall.granted
  watching : Watching (after Interest.call i calls) s

theorem asks_read : Interest.Asks READ := .inl (by decide)

theorem Watching.unwatched (watching : Watching i s) (wired : Wired s) (fresh : fd ∉ s.opened) :
    i.watched fd = none := by
  rw [watching.watched, if_neg (wired.unseen fresh)]

theorem Watching.same (watching : Watching i s) (opened : s'.opened = s.opened)
    (registered : s'.registered = s.registered) : Watching i s' where
  opened := watching.opened.trans opened.symm
  watched := by
    intro fd
    rw [watching.watched, registered]

theorem Watching.silent (watching : Watching i s) (opened : s'.opened = s.opened)
    (registered : s'.registered = s.registered) : Obeyed Even i [] s' :=
  ⟨trivial, rfl, watching.same opened registered⟩

theorem Watching.removes (watching : Watching i s) (member : fd ∈ s.registered)
    (opened : s'.opened = s.opened) (registered : s'.registered = s.registered.erase fd) :
    Obeyed Even i [.removeFd fd] s' := by
  have watched : i.watched fd ≠ none := by simp [watching.watched, member]
  refine ⟨⟨⟨watched, fun _ => trivial⟩, trivial⟩,
    by simp [answers, Interest.call, watched, LoopCall.granted], ?_, ?_⟩
  · simp [after, Interest.call, watched, watching.opened, opened]
  · intro other
    by_cases same : other = fd
    · subst same
      simp [after, Interest.call, watched, registered]
    · simp [after, Interest.call, watched, registered, same, watching.watched other]

theorem Watching.closes (watching : Watching i s) (opened : s'.opened = s.opened.erase fd)
    (registered : s'.registered = s.registered.erase fd) : Obeyed Even i [.closeFd fd] s' := by
  refine ⟨⟨⟨trivial, fun _ => trivial⟩, trivial⟩, rfl, ?_, ?_⟩
  · simp [after, Interest.call, watching.opened, opened]
  · intro other
    by_cases same : other = fd
    · subst same
      simp [after, Interest.call, registered]
    · simp [after, Interest.call, registered, same, watching.watched]

theorem Watching.modifies (watching : Watching i s) (member : fd ∈ s.registered)
    (opened : s'.opened = s.opened) (registered : s'.registered = s.registered) {granted : Grant}
    (even : Even → granted.Even) :
    Obeyed Even i [.modifyFd fd READ granted] s' := by
  have watched : i.watched fd ≠ none := by simp [watching.watched, member]
  have again : i.watch fd READ = i := by
    rw [Interest.watch, Function.update_eq_self_iff.mpr]
    rw [watching.watched, if_pos member]
  refine ⟨⟨⟨asks_read, even⟩, trivial⟩, ?_, ?_⟩
  · cases made : granted.item <;> simp [answers, Interest.call, watched, LoopCall.granted, made]
  · cases made : granted.item <;>
      simp [after, Interest.call, watched, again, made, watching.same opened registered]

theorem Watching.accepts (watching : Watching i s) (wired : Wired s) (fresh : fd ∉ s.opened)
    (opened : s'.opened = insert fd s.opened) (registered : s'.registered = insert fd s.registered) :
    Obeyed Even i [.openFd fd, .addFd fd READ (.all true)] s' := by
  have unwatched := watching.unwatched wired fresh
  refine ⟨⟨⟨trivial, fun _ => trivial⟩, ⟨⟨unwatched, asks_read⟩, fun _ => Grant.even_all true⟩, trivial⟩,
    ?_, ?_, ?_⟩
  · simp [answers, Interest.call, unwatched, LoopCall.granted, Grant.all]
  · simp [after, Interest.call, unwatched, watching.opened, opened, Grant.all]
  · intro other
    by_cases same : other = fd
    · subst same
      simp [after, Interest.call, unwatched, registered, Grant.all]
    · simp [after, Interest.call, unwatched, registered, same, watching.watched other, Grant.all]

theorem Watching.refuses (watching : Watching i s) (wired : Wired s) (fresh : fd ∉ s.opened)
    (opened : s'.opened = s.opened) (registered : s'.registered = s.registered) :
    Obeyed Even i [.openFd fd, .closeFd fd] s' ∧
      Obeyed Even i [.openFd fd, .addFd fd READ (.all false), .closeFd fd] s' := by
  have unwatched := watching.unwatched wired fresh
  have unopened : fd ∉ i.opened := by rwa [watching.opened]
  have again : Watching { i.watch fd none with opened := (insert fd i.opened).erase fd } s' := by
    have same : i.watch fd none = i := by
      rw [Interest.watch, ← unwatched, Function.update_eq_self]
    rw [same, Finset.erase_insert unopened]
    exact watching.same opened registered
  constructor
  · exact ⟨⟨⟨trivial, fun _ => trivial⟩, ⟨trivial, fun _ => trivial⟩, trivial⟩, rfl, again⟩
  · refine ⟨⟨⟨trivial, fun _ => trivial⟩,
      ⟨⟨unwatched, asks_read⟩, fun _ => Grant.even_all false⟩, ⟨trivial, fun _ => trivial⟩, trivial⟩,
      ?_, ?_⟩
    · simp [answers, Interest.call, LoopCall.granted, Grant.all]
    · simpa [after, Interest.call, Interest.watch, Grant.all] using again

theorem Watching.step {e : Event} {granted : Grant} (watching : Watching i s) (wired : Wired s)
    (occurs : e.Occurs s) (even : Even → granted.Even) : Obeyed Even i (s.calls e granted) (e.body s) := by
  have effect := wired.effect occurs
  generalize e.body s = s' at effect ⊢
  cases effect with
  | @joined fd nonBlocking added greeting fresh admitted =>
      obtain ⟨-, -, opened⟩ := connections_send (s.join fd) s.objects.length [greeting]
      rcases handleAcceptCalls_cases (wired.unused fresh) nonBlocking added with
        ⟨-, calls⟩ | ⟨refused, -⟩
      · rw [Server.calls, calls]
        exact watching.accepts wired fresh opened (registered_send ..)
      · exact absurd admitted refused
  | @refused fd nonBlocking added greeting more refused closed =>
      obtain ⟨early, late⟩ := @Watching.refuses _
        { s with objects := s.objects ++ more } _ _ Even watching wired occurs rfl rfl
      rcases handleAcceptCalls_cases (wired.unused occurs) nonBlocking added with
        ⟨admitted, -⟩ | ⟨-, calls | calls⟩
      · exact absurd admitted refused
      · rw [Server.calls, calls]
        exact early
      · rw [Server.calls, calls]
        exact late
  | answered serves sends =>
      rw [Server.calls, handleDataCalls_eq serves, if_pos rfl]
      exact watching.silent rfl rfl
  | dropped serves sends =>
      rw [Server.calls, handleDataCalls_eq serves, if_neg Bool.false_ne_true]
      exact watching.closes rfl rfl
  | ended serves =>
      rw [Server.calls, handleEndCalls_eq serves]
      exact watching.removes occurs (opened_closeCallback _ _) (registered_closeCallback serves)
  | failed serves =>
      rw [Server.calls, handleErrorCalls_eq serves, handleClose_eq serves.member]
      exact watching.removes occurs rfl rfl
  | wrote serves stays =>
      rw [Server.calls, handleWriteCalls_eq serves, if_pos stays]
      split
      · exact @Watching.modifies _ (s.setObject _ _) _ _ Even watching occurs rfl rfl _ even
      · exact watching.silent rfl rfl
  | broken serves ends =>
      rw [Server.calls, handleWriteCalls_eq serves, if_neg (Bool.eq_false_iff.mp ends)]
      exact watching.removes occurs (opened_closeCallback _ _) (registered_closeCallback serves)

theorem Obeyed.append {first second : List LoopCall} (before : Obeyed Even i first s)
    (later : Obeyed Even (after Interest.call i first) second s') : Obeyed Even i (first ++ second) s' where
  properly := before.properly.append later.properly
  answered := by rw [answers_append, before.answered, later.answered, List.map_append]
  watching := by
    rw [after_append]
    exact later.watching

theorem Watching.run {run : List (Event × Grant)} (watching : Watching i s) (wired : Wired s)
    (runs : Runs Step s (run.map Prod.fst) s') (even : Even → ∀ step ∈ run, step.2.Even) :
    Obeyed Even i (s.callsOf run) s' := by
  induction run generalizing s i with
  | nil =>
      cases runs
      exact watching.silent rfl rfl
  | cons first rest ih =>
      obtain ⟨e, granted⟩ := first
      cases runs with
      | cons step runs =>
          obtain ⟨occurs, rfl⟩ := step
          have obeyed := watching.step wired occurs fun all => even all _ List.mem_cons_self
          exact obeyed.append (ih obeyed.watching (wired.step occurs) runs fun all step member =>
            even all step (List.mem_cons_of_mem _ member))

/-- In every run of the server the calls on epoll succeed wherever the kernel grants them, and in the
end it watches what the server has registered, for reading and for nothing else. The same holds of
kqueue as long as its kernel adds the filters again that a refused modification has deleted. -/
theorem watches_registered (maxConnections : Nat) (run : List (Event × Grant)) (s : Server)
    (runs : Runs Step (start maxConnections) (run.map Prod.fst) s) :
    let calls := callsOf (start maxConnections) run
    answers EpollEventLoop.call {} calls = calls.map LoopCall.granted ∧
    (∀ fd, (after EpollEventLoop.call {} calls).kernel.interest.lookup fd =
      if fd ∈ s.registered then some (EPOLLIN ||| EPOLLET) else none) ∧
    ((∀ step ∈ run, step.2.Even) →
      answers KqueueEventLoop.call {} calls = calls.map LoopCall.granted ∧
      ∀ fd filter, (fd, filter) ∈ (after KqueueEventLoop.call {} calls).kernel.knotes ↔
        fd ∈ s.registered ∧ filter = .read) := by
  intro calls
  have start_watching : Watching {} (start maxConnections) := ⟨rfl, fun fd => rfl⟩
  obtain ⟨properly, answered, watching⟩ := start_watching.run (wired_start maxConnections) runs id
  obtain ⟨epoll, kqueue⟩ := related_start
  have any : Properly Interest.call (fun _ _ => True) {} calls := properly.mono fun _ _ _ => trivial
  obtain ⟨epollAnswers, epoll⟩ := EpollEventLoop.call_implements.run epoll any
  refine ⟨epollAnswers.trans answered, ?_, fun even => ?_⟩
  · intro fd
    rw [epoll.interest, watching.watched]
    split <;> rfl
  · have alike : Properly Interest.call (fun i c => i.Proper c ∧ c.Even) {} calls :=
      properly.mono fun _ _ proper => ⟨proper.1, proper.2 even⟩
    obtain ⟨kqueueAnswers, kqueue⟩ := KqueueEventLoop.call_implements.run kqueue alike
    refine ⟨kqueueAnswers.trans answered, fun fd filter => ?_⟩
    have only : filter ∈ KqueueEventLoop.filters READ ↔ filter = .read := by
      cases filter <;> decide
    rw [kqueue.knotes, watching.watched]
    split
    · rename_i member
      simp [member, only]
    · rename_i absent
      simp [absent]

instance (s : Server) : (e : Event) → Decidable (e.Occurs s)
  | .accept _ _ _ _ => inferInstanceAs (Decidable (¬ _))
  | .data _ _ _ | .endOfFile _ | .error _ | .write _ _ => inferInstanceAs (Decidable (_ ∈ _))

def twoWrites : List (Event × Grant) :=
  [(.accept 7 true true ([1, 2, 3], .accepted 1), .all true),
    (.accept 8 true false ([], .again), .all true), (.write 7 (.accepted 2), .all false),
    (.write 7 .again, .all true), (.endOfFile 7, .all true)]

theorem twoWrites_watched :
    (after KqueueEventLoop.call {} (callsOf (start 1000) twoWrites)).kernel.knotes = ∅ := by
  have registered : ((twoWrites.map Prod.fst).foldl Event.body (start 1000)).registered = ∅ := by
    decide
  have runs : Runs Step (start 1000) (twoWrites.map Prod.fst)
      ((twoWrites.map Prod.fst).foldl Event.body (start 1000)) :=
    .cons ⟨by decide, rfl⟩ (.cons ⟨by decide, rfl⟩ (.cons ⟨by decide, rfl⟩
      (.cons ⟨by decide, rfl⟩ (.cons ⟨by decide, rfl⟩ (.nil _)))))
  have even : ∀ step ∈ twoWrites, step.2.Even := by decide
  have watched := ((watches_registered 1000 twoWrites _ runs).2.2 even).2
  apply Finset.eq_empty_of_forall_notMem
  rintro ⟨fd, filter⟩ knote
  rw [watched, registered] at knote
  exact Finset.notMem_empty fd knote.1

end Server

end TinySql
