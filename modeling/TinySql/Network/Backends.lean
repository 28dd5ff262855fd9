import TinySql.Network.EventLoop

/-!
# The two event loops agree

Both implementations of the event loop implement the interest map, as long as a descriptor that is
watched already is not added, one that is not watched is not removed, and something is asked for. For
kqueue the kernel has to grant the filters of a call together, and what is added again.
-/

namespace TinySql

open EventType Machine

namespace Interest

variable {s : Interest} {fd other : Nat} {events : Option UInt32}

@[simp] theorem watched_watch_self : (s.watch fd events).watched fd = events :=
  Function.update_self ..

@[simp] theorem watched_watch_ne (different : other ≠ fd) :
    (s.watch fd events).watched other = s.watched other := Function.update_of_ne different ..

@[simp] theorem opened_watch : (s.watch fd events).opened = s.opened := rfl

def Asks (events : UInt32) : Prop := events &&& READ ≠ 0 ∨ events &&& WRITE ≠ 0

/-- The calls on which the two system calls do not differ. -/
def Proper (s : Interest) : LoopCall → Prop
  | .openFd _ | .closeFd _ => True
  | .addFd fd events _ => s.watched fd = none ∧ Asks events
  | .modifyFd _ events _ => Asks events
  | .removeFd fd => s.watched fd ≠ none

end Interest

/-- Both kernels grant the same, all filters or none, and what is added again. -/
def Grant.Even (granted : Grant) : Prop :=
  (∀ filter, granted.filters filter = granted.item) ∧ ∀ filter, granted.restored filter = true

def LoopCall.Even : LoopCall → Prop
  | .addFd _ _ granted | .modifyFd _ _ granted => granted.Even
  | .openFd _ | .closeFd _ | .removeFd _ => True

theorem Grant.even_all (granted : Bool) : (Grant.all granted).Even := ⟨fun _ => rfl, fun _ => rfl⟩

/-! ## epoll -/

namespace EpollEventLoop

variable {s : EpollEventLoop} {i : Interest} {fd : Nat}

structure Related (s : EpollEventLoop) (i : Interest) : Prop where
  opened : s.kernel.opened = i.opened
  interest : ∀ fd, s.kernel.interest.lookup fd = (i.watched fd).map toEpollEvents

theorem Related.mem_iff (related : Related s i) :
    fd ∈ s.kernel.interest ↔ i.watched fd ≠ none := by
  rw [← AList.lookup_isSome, related.interest fd, Option.isSome_map, Option.isSome_iff_ne_none]

theorem Related.insert (related : Related s i) (fd : Nat) (events : UInt32) :
    Related { s with kernel := { s.kernel with
      interest := s.kernel.interest.insert fd (toEpollEvents events) } } (i.watch fd events) where
  opened := related.opened
  interest := by
    intro other
    by_cases same : other = fd
    · subst same
      rw [AList.lookup_insert, Interest.watched_watch_self, Option.map_some]
    · rw [AList.lookup_insert_ne same, Interest.watched_watch_ne same, related.interest other]

theorem Related.erase (related : Related s i) (fd : Nat) :
    Related { s with kernel := { s.kernel with interest := s.kernel.interest.erase fd } }
      (i.watch fd none) where
  opened := related.opened
  interest := by
    intro other
    by_cases same : other = fd
    · subst same
      rw [AList.lookup_erase, Interest.watched_watch_self, Option.map_none]
    · rw [AList.lookup_erase_ne same, Interest.watched_watch_ne same, related.interest other]

theorem Related.open (related : Related s i) (opened : Finset Nat) :
    Related { s with kernel := { s.kernel with opened := opened } } { i with opened := opened } where
  opened := rfl
  interest := related.interest

/-- The system call checks everything itself, so any call may be made. -/
theorem call_implements : Implements call Interest.call (fun _ _ => True) Related := by
  intro s i c related _
  cases c with
  | openFd fd =>
      constructor
      · rfl
      · rw [call, related.opened]
        exact related.open _
  | closeFd fd =>
      constructor
      · rfl
      · rw [call, Epoll.closeFd, related.opened]
        exact (related.erase fd).open _
  | addFd fd events granted =>
      simp only [call, addFd, ctl, Epoll.ctl, Interest.call, related.mem_iff, related.opened]
      by_cases made : granted.item ∧ fd ∈ i.opened ∧ i.watched fd = none
      · simpa [made, related.opened] using related.insert fd events
      · rw [if_neg made, if_pos (by grind)]
        exact ⟨rfl, related⟩
  | modifyFd fd events granted =>
      simp only [call, modifyFd, ctl, Epoll.ctl, Interest.call, related.mem_iff]
      by_cases made : granted.item ∧ i.watched fd ≠ none
      · simp [made, related.insert fd events]
      · rw [if_neg made, if_pos (by grind)]
        exact ⟨rfl, related⟩
  | removeFd fd =>
      simp only [call, removeFd, ctl, Epoll.ctl, Interest.call, related.mem_iff]
      by_cases watched : i.watched fd ≠ none
      · simp [watched, related.erase fd]
      · rw [if_neg watched, if_neg watched]
        exact ⟨rfl, related⟩

end EpollEventLoop

/-! ## kqueue -/

namespace Kqueue

variable {k : Kqueue} {fd : Nat} {granted : Filter → Bool} {filters : List Filter}

def notes (fd : Nat) (filters : List Filter) : Finset (Nat × Filter) :=
  filters.toFinset.image fun filter => (fd, filter)

theorem mem_notes {knote : Nat × Filter} :
    knote ∈ notes fd filters ↔ knote.1 = fd ∧ knote.2 ∈ filters := by
  obtain ⟨other, filter⟩ := knote
  simp only [notes, Finset.mem_image, List.mem_toFinset, Prod.mk.injEq]
  constructor
  · rintro ⟨filter, member, rfl, rfl⟩
    exact ⟨rfl, member⟩
  · rintro ⟨rfl, member⟩
    exact ⟨filter, member, rfl, rfl⟩

theorem notes_cons (fd : Nat) (filter : Filter) (rest : List Filter) :
    notes fd (filter :: rest) = insert (fd, filter) (notes fd rest) := by
  simp [notes]

theorem kevent_add (opened : fd ∈ k.opened) (all : ∀ filter, granted filter = true)
    (filters : List Filter) : k.kevent granted (filters.map (.add fd)) =
      (true, { k with knotes := k.knotes ∪ notes fd filters }) := by
  induction filters generalizing k with
  | nil => simp [kevent, notes]
  | cons filter rest ih =>
      simp only [List.map_cons, kevent, apply, opened, all, and_self, if_true]
      have later := ih (k := { k with knotes := insert (fd, filter) k.knotes }) opened
      rw [later, notes_cons, Finset.union_insert, Finset.insert_union]

theorem kevent_delete (present : notes fd filters ⊆ k.knotes) (nodup : filters.Nodup) :
    k.kevent granted (filters.map (.delete fd)) =
      (true, { k with knotes := k.knotes \ notes fd filters }) := by
  induction filters generalizing k with
  | nil => simp [kevent, notes]
  | cons filter rest ih =>
      obtain ⟨fresh, nodup⟩ := List.nodup_cons.mp nodup
      rw [notes_cons, Finset.insert_subset_iff] at present
      have later : notes fd rest ⊆ k.knotes.erase (fd, filter) := by
        apply Finset.subset_erase.mpr
        exact ⟨present.2, fun member => fresh (mem_notes.mp member).2⟩
      simp only [List.map_cons, kevent, apply, present.1, if_true]
      rw [ih later nodup, notes_cons, Finset.sdiff_insert, Finset.erase_sdiff_comm]

theorem kevent_refused (none : ∀ filter, granted filter = false) (some : filters ≠ []) :
    k.kevent granted (filters.map (.add fd)) = (false, k) := by
  obtain ⟨filter, rest, rfl⟩ := List.exists_cons_of_ne_nil some
  simp [kevent, apply, none]

theorem kevent_closed (closed : fd ∉ k.opened) (some : filters ≠ []) :
    k.kevent granted (filters.map (.add fd)) = (false, k) := by
  obtain ⟨filter, rest, rfl⟩ := List.exists_cons_of_ne_nil some
  simp [kevent, apply, closed]

theorem kevent_absent (absent : ∀ filter, (fd, filter) ∉ k.knotes) (some : filters ≠ []) :
    k.kevent granted (filters.map (.delete fd)) = (false, k) := by
  obtain ⟨filter, rest, rfl⟩ := List.exists_cons_of_ne_nil some
  simp [kevent, apply, absent]

end Kqueue

namespace KqueueEventLoop
open Kqueue

variable {s : KqueueEventLoop} {i : Interest} {fd : Nat} {events : UInt32}
variable {granted : Filter → Bool}

theorem filters_ne_nil : filters events ≠ [] ↔ Interest.Asks events := by
  unfold filters Interest.Asks
  split <;> split <;> simp [*]

theorem filters_nodup (events : UInt32) : (filters events).Nodup := by
  unfold filters
  split <;> split <;> decide

/-- The kernel has the filters of what is watched. What is recorded of a descriptor stays there when
it is closed. -/
structure Related (s : KqueueEventLoop) (i : Interest) : Prop where
  opened : s.kernel.opened = i.opened
  knotes : ∀ fd filter,
    (fd, filter) ∈ s.kernel.knotes ↔ ∃ events ∈ i.watched fd, filter ∈ filters events
  watched : ∀ fd events, events ∈ i.watched fd → fd ∈ i.opened ∧ events ∈ s.fdEvents.lookup fd
  asks : ∀ fd events, events ∈ s.fdEvents.lookup fd → filters events ≠ []

theorem Related.notes_subset (related : Related s i) (watched : events ∈ i.watched fd) :
    notes fd (filters events) ⊆ s.kernel.knotes := by
  rintro ⟨other, filter⟩ member
  obtain ⟨rfl, inside⟩ := mem_notes.mp member
  exact (related.knotes other filter).mpr ⟨events, watched, inside⟩

theorem Related.absent (related : Related s i) (unwatched : i.watched fd = none)
    (filter : Filter) : (fd, filter) ∉ s.kernel.knotes := by
  rw [related.knotes, unwatched]
  rintro ⟨events, none, -⟩
  cases none

theorem updateEvents_eq (asked : filters events ≠ []) (enable : Bool) :
    s.updateEvents fd events enable granted =
      let made := s.kernel.kevent granted
        ((filters events).map (if enable then .add fd else .delete fd))
      (made.1, { s with kernel := made.2 }) := by
  cases enable <;> simp [updateEvents, asked]

theorem updateEvents_add (opened : fd ∈ s.kernel.opened) (all : ∀ filter, granted filter = true)
    (asked : filters events ≠ []) :
    s.updateEvents fd events true granted = (true, { s with kernel := { s.kernel with
      knotes := s.kernel.knotes ∪ notes fd (filters events) } }) := by
  rw [updateEvents_eq asked, if_pos rfl, kevent_add opened all]

theorem updateEvents_refused (none : ∀ filter, granted filter = false)
    (asked : filters events ≠ []) : s.updateEvents fd events true granted = (false, s) := by
  rw [updateEvents_eq asked, if_pos rfl, kevent_refused none asked]

theorem updateEvents_closed (closed : fd ∉ s.kernel.opened) (asked : filters events ≠ []) :
    s.updateEvents fd events true granted = (false, s) := by
  rw [updateEvents_eq asked, if_pos rfl, kevent_closed closed asked]

theorem updateEvents_delete (present : notes fd (filters events) ⊆ s.kernel.knotes)
    (asked : filters events ≠ []) :
    s.updateEvents fd events false granted = (true, { s with kernel := { s.kernel with
      knotes := s.kernel.knotes \ notes fd (filters events) } }) := by
  rw [updateEvents_eq asked, if_neg Bool.false_ne_true,
    kevent_delete present (filters_nodup events)]

theorem updateEvents_absent (absent : ∀ filter, (fd, filter) ∉ s.kernel.knotes)
    (asked : filters events ≠ []) : s.updateEvents fd events false granted = (false, s) := by
  rw [updateEvents_eq asked, if_neg Bool.false_ne_true, kevent_absent absent asked]

theorem Related.insert (related : Related s i) (opened : fd ∈ i.opened)
    (asked : filters events ≠ []) {knotes : Finset (Nat × Filter)}
    (here : ∀ filter, (fd, filter) ∈ knotes ↔ filter ∈ filters events)
    (others : ∀ other filter, other ≠ fd →
      ((other, filter) ∈ knotes ↔ (other, filter) ∈ s.kernel.knotes)) :
    Related { s with
      kernel := { s.kernel with knotes := knotes }
      fdEvents := s.fdEvents.insert fd events } (i.watch fd events) where
  opened := related.opened
  knotes := by
    intro other filter
    by_cases same : other = fd
    · subst same
      simp [here]
    · rw [others other filter same, related.knotes, Interest.watched_watch_ne same]
  watched := by
    intro other events' watched
    by_cases same : other = fd
    · subst same
      rw [Interest.watched_watch_self] at watched
      cases watched
      exact ⟨opened, AList.lookup_insert _⟩
    · rw [Interest.watched_watch_ne same] at watched
      rw [AList.lookup_insert_ne same]
      exact related.watched other events' watched
  asks := by
    intro other events' recorded
    by_cases same : other = fd
    · subst same
      rw [AList.lookup_insert] at recorded
      cases recorded
      exact asked
    · rw [AList.lookup_insert_ne same] at recorded
      exact related.asks other events' recorded

theorem Related.erase (related : Related s i) (opened : Finset Nat)
    (others : ∀ other, other ≠ fd → other ∈ i.opened → other ∈ opened)
    {knotes : Finset (Nat × Filter)} {recorded : AList fun _ : Nat => UInt32}
    (kept : ∀ knote, knote ∈ knotes ↔ knote ∈ s.kernel.knotes ∧ knote.1 ≠ fd)
    (fewer : ∀ other, recorded.lookup other = s.fdEvents.lookup other ∨
      other = fd ∧ recorded.lookup other = none) :
    Related { s with kernel := ⟨opened, knotes⟩, fdEvents := recorded }
      { i.watch fd none with opened := opened } where
  opened := rfl
  knotes := by
    intro other filter
    rw [kept]
    by_cases same : other = fd
    · subst same
      simp
    · simp [same, related.knotes]
  watched := by
    intro other events watched
    by_cases same : other = fd
    · subst same
      simp at watched
    · simp only [Interest.watched_watch_ne same] at watched
      obtain ⟨open_, found⟩ := related.watched other events watched
      refine ⟨others other same open_, ?_⟩
      rcases fewer other with unchanged | ⟨rfl, -⟩
      · rwa [unchanged]
      · exact absurd rfl same
  asks := by
    intro other events found
    rcases fewer other with unchanged | ⟨-, gone⟩
    · rw [unchanged] at found
      exact related.asks other events found
    · rw [gone] at found
      cases found

theorem Related.add {granted : Grant} (related : Related s i) (even : granted.Even)
    (unwatched : i.watched fd = none) (asked : filters events ≠ []) :
    (s.addFd fd events granted).1 = (i.call (.addFd fd events granted)).1 ∧
      Related (s.addFd fd events granted).2 (i.call (.addFd fd events granted)).2 := by
  obtain ⟨alike, -⟩ := even
  rw [addFd, Interest.call]
  cases made : granted.item with
  | false =>
      rw [updateEvents_refused (fun filter => (alike filter).trans made) asked, if_neg (by simp)]
      exact ⟨rfl, related⟩
  | true =>
      by_cases opened : fd ∈ i.opened
      · rw [updateEvents_add (by rwa [related.opened]) (fun filter => (alike filter).trans made) asked,
          if_pos ⟨rfl, opened, unwatched⟩]
        refine ⟨rfl, related.insert opened asked ?_ ?_⟩
        · intro filter
          simp [mem_notes, related.absent unwatched filter]
        · intro other filter different
          simp [mem_notes, different]
      · rw [updateEvents_closed (by rwa [related.opened]) asked, if_neg (by simp [opened])]
        exact ⟨rfl, related⟩

/-- What is asked for anew replaces what was asked for; where it is not granted, this comes back. -/
theorem Related.modify {granted : Grant} (related : Related s i) (even : granted.Even)
    (asked : filters events ≠ []) :
    (s.modifyFd fd events granted).1 = (i.call (.modifyFd fd events granted)).1 ∧
      Related (s.modifyFd fd events granted).2 (i.call (.modifyFd fd events granted)).2 := by
  obtain ⟨alike, restored⟩ := even
  rw [modifyFd, Interest.call]
  cases watched : i.watched fd with
  | none =>
      rw [if_neg (by simp)]
      cases recorded : s.fdEvents.lookup fd with
      | none => exact ⟨rfl, related⟩
      | some stale =>
          have asks := related.asks fd stale recorded
          simp only [updateEvents_absent (related.absent watched) asks]
          exact ⟨trivial, related⟩
  | some old =>
      obtain ⟨opened, recorded⟩ := related.watched fd old watched
      have asks := related.asks fd old recorded
      have present := related.notes_subset watched
      have open_ : fd ∈ s.kernel.opened := by rwa [related.opened]
      have added {events : UInt32} {granted : Filter → Bool} := @updateEvents_add
        { s with kernel := { s.kernel with knotes := s.kernel.knotes \ notes fd (filters old) } }
        fd events granted open_
      rw [recorded]
      simp only [updateEvents_delete present asks]
      cases made : granted.item with
      | true =>
          rw [added (fun filter => (alike filter).trans made) asked, if_pos (by simp)]
          refine ⟨rfl, related.insert opened asked ?_ ?_⟩
          · intro filter
            simp only [Finset.mem_union, Finset.mem_sdiff, mem_notes, related.knotes, watched]
            simp
          · intro other filter different
            simp [mem_notes, different]
      | false =>
          rw [updateEvents_refused (fun filter => (alike filter).trans made) asked, if_neg (by simp)]
          simp only [added restored asks, Finset.sdiff_union_of_subset present]
          exact ⟨trivial, related⟩

theorem Related.remove (related : Related s i) (watched : i.watched fd ≠ none) :
    (s.removeFd fd).1 = (i.call (.removeFd fd)).1 ∧
      Related (s.removeFd fd).2 (i.call (.removeFd fd)).2 := by
  rw [removeFd, Interest.call, if_pos watched]
  obtain ⟨old, watched⟩ := Option.ne_none_iff_exists'.mp watched
  obtain ⟨opened, recorded⟩ := related.watched fd old watched
  rw [recorded]
  simp only [updateEvents_delete (related.notes_subset watched) (related.asks fd old recorded)]
  refine ⟨trivial, ?_⟩
  rw [related.opened]
  apply related.erase i.opened
  · exact fun other different open_ => open_
  · rintro ⟨other, filter⟩
    simp only [Finset.mem_sdiff, mem_notes, not_and]
    apply and_congr_right
    intro knote
    constructor
    · rintro outside rfl
      obtain ⟨events, watched', inside⟩ := (related.knotes other filter).mp knote
      cases watched'.symm.trans watched
      exact outside rfl inside
    · exact fun different same => absurd same different
  · intro other
    by_cases same : other = fd
    · subst same
      exact .inr ⟨rfl, AList.lookup_erase _ _⟩
    · exact .inl (AList.lookup_erase_ne same)

theorem call_implements :
    Implements call Interest.call (fun i c => i.Proper c ∧ c.Even) Related := by
  rintro s i c related ⟨proper, even⟩
  cases c with
  | openFd fd =>
      refine ⟨rfl, ?_⟩
      rw [call, related.opened]
      exact ⟨rfl, related.knotes, fun other events watched =>
        (related.watched other events watched).imp_left (Finset.mem_insert_of_mem ·), related.asks⟩
  | closeFd fd =>
      refine ⟨rfl, ?_⟩
      rw [call, Kqueue.closeFd, related.opened]
      apply related.erase
      · exact fun other different open_ => Finset.mem_erase.mpr ⟨different, open_⟩
      · exact fun knote => Finset.mem_filter
      · exact fun other => .inl rfl
  | addFd fd events granted =>
      exact related.add even proper.1 (filters_ne_nil.mpr proper.2)
  | modifyFd fd events granted => exact related.modify even (filters_ne_nil.mpr proper)
  | removeFd fd => exact related.remove proper

end KqueueEventLoop

/-! ## One interest map behind both -/

/-- The mask with which epoll asks for what the filter asks for. -/
def Filter.epollEvents : Filter → UInt32
  | .read => EPOLLIN
  | .write => EPOLLOUT

theorem Filter.mem_filters (filter : Filter) (events : UInt32) :
    filter ∈ KqueueEventLoop.filters events ↔
      EpollEventLoop.toEpollEvents events &&& filter.epollEvents ≠ 0 := by
  unfold KqueueEventLoop.filters EpollEventLoop.toEpollEvents
  cases filter <;> split <;> split <;> decide

theorem related_start : EpollEventLoop.Related {} {} ∧ KqueueEventLoop.Related {} {} := by
  refine ⟨⟨rfl, fun fd => rfl⟩, rfl, ?_, ?_, ?_⟩
  · simp
  · simp
  · intro fd events recorded
    cases recorded

/-- For every sequence of proper calls, on which the two kernels decide alike, both event loops give
the same answers, and ask their kernels for the same events of the same descriptors. -/
theorem event_loops_agree (calls : List LoopCall)
    (properly : Properly Interest.call (fun i c => i.Proper c ∧ c.Even) {} calls) :
    answers EpollEventLoop.call {} calls = answers KqueueEventLoop.call {} calls ∧
    ∀ fd filter, (fd, filter) ∈ (after KqueueEventLoop.call {} calls).kernel.knotes ↔
      ∃ mask ∈ (after EpollEventLoop.call {} calls).kernel.interest.lookup fd,
        mask &&& filter.epollEvents ≠ 0 := by
  obtain ⟨epoll, kqueue⟩ := related_start
  have any : Properly Interest.call (fun _ _ => True) {} calls := properly.mono fun _ _ _ => trivial
  obtain ⟨answered, epoll⟩ := EpollEventLoop.call_implements.run epoll any
  obtain ⟨answered', kqueue⟩ := KqueueEventLoop.call_implements.run kqueue properly
  refine ⟨answered.trans answered'.symm, fun fd filter => ?_⟩
  rw [kqueue.knotes, epoll.interest]
  simp only [filter.mem_filters, Option.mem_map, exists_exists_and_eq_and]

theorem Filter.forall_iff {P : Filter → Prop} : (∀ filter, P filter) ↔ P .read ∧ P .write := by
  constructor
  · exact fun all => ⟨all .read, all .write⟩
  · rintro ⟨read, write⟩ filter
    cases filter with
    | read => exact read
    | write => exact write

instance (P : Filter → Prop) [DecidablePred P] : Decidable (∀ filter, P filter) :=
  decidable_of_iff _ Filter.forall_iff.symm

instance (granted : Grant) : Decidable granted.Even :=
  inferInstanceAs (Decidable ((∀ filter, granted.filters filter = granted.item) ∧
    ∀ filter, granted.restored filter = true))

instance : (c : LoopCall) → Decidable c.Even
  | .openFd _ | .closeFd _ | .removeFd _ => isTrue trivial
  | .addFd _ _ granted | .modifyFd _ _ granted => inferInstanceAs (Decidable granted.Even)

instance (i : Interest) : (c : LoopCall) → Decidable (i.Proper c)
  | .openFd _ | .closeFd _ => isTrue trivial
  | .addFd _ _ _ => inferInstanceAs (Decidable (_ ∧ (_ ∨ _)))
  | .modifyFd _ _ _ => inferInstanceAs (Decidable (_ ∨ _))
  | .removeFd _ => inferInstanceAs (Decidable (¬ _))

/-- A modification that is not granted, and a descriptor that comes again. -/
def comesAgain : List LoopCall :=
  [.openFd 7, .addFd 7 READ (.all true), .modifyFd 7 (READ ||| WRITE) (.all false), .closeFd 7,
    .openFd 7, .addFd 7 WRITE (.all true), .removeFd 7]

theorem comesAgain_agree :
    answers EpollEventLoop.call {} comesAgain = answers KqueueEventLoop.call {} comesAgain :=
  (event_loops_agree comesAgain (by decide)).1

/-! ## Which handler an event goes to -/

/-- The server that calls epoll itself takes the same handler for everything that epoll delivers. -/
theorem EpollServer.handler_eq (ev : UInt32) :
    EpollServer.handler ev = Server.handler (EpollEventLoop.fromEpollEvents ev) := by
  unfold EpollServer.handler EpollEventLoop.fromEpollEvents
  by_cases closed : ev &&& (EPOLLERR ||| EPOLLHUP) = 0 <;>
    by_cases readable : ev &&& EPOLLIN = 0 <;>
      by_cases writable : ev &&& EPOLLOUT = 0 <;>
        simp only [closed, readable, writable, ne_eq, not_true_eq_false, not_false_eq_true, if_true,
          if_false] <;> decide

/-- Where kqueue reports the end of the connection, nothing is read or written any more. -/
theorem Server.handler_eventsOf (kev : Kevent) :
    Server.handler (KqueueEventLoop.eventsOf kev) =
      if kev.error ∨ kev.eof then some .handleClose
      else if kev.filter = .read then some .handleRead
      else some .handleWrite := by
  obtain ⟨ident, filter, error, eof⟩ := kev
  cases filter <;> cases error <;> cases eof <;> simp [KqueueEventLoop.eventsOf] <;> decide

end TinySql
