import Mathlib.Data.Finset.Union
import TinySql.Lib.Machine
import TinySql.Network.PendingOutput

/-!
# `EventLoop`

The two implementations of the event loop, each on its system call, and what they both stand for: a
map from descriptors to the events that are asked for.
-/

namespace TinySql

namespace EventType

def ERROR : UInt32 := 0x04
def CLOSE : UInt32 := 0x08

end EventType

open EventType

/-- `EVFILT_READ` and `EVFILT_WRITE`. -/
inductive Filter where
  | read
  | write
  deriving DecidableEq, Repr

/-- What a kernel that may be short of memory grants of a call: epoll its one item, kqueue each of the
filters, and each of those that `modifyFd` adds again when it fails. -/
structure Grant where
  item : Bool
  filters : Filter → Bool
  restored : Filter → Bool

def Grant.all (granted : Bool) : Grant := ⟨granted, fun _ => granted, fun _ => true⟩

/-- A call of the event loop, or a descriptor that the process opens or closes. -/
inductive LoopCall where
  | openFd (fd : Nat)
  | closeFd (fd : Nat)
  | addFd (fd : Nat) (events : UInt32) (granted : Grant)
  | modifyFd (fd : Nat) (events : UInt32) (granted : Grant)
  | removeFd (fd : Nat)

/-! ## The interest map -/

structure Interest where
  opened : Finset Nat := ∅
  watched : Nat → Option UInt32 := fun _ => none

namespace Interest

def watch (fd : Nat) (events : Option UInt32) (s : Interest) : Interest :=
  { s with watched := Function.update s.watched fd events }

/-- The state behind a call, and what it returns. -/
def call (s : Interest) : LoopCall → Bool × Interest
  | .openFd fd => (true, { s with opened := insert fd s.opened })
  | .closeFd fd => (true, { s.watch fd none with opened := s.opened.erase fd })
  | .addFd fd events granted =>
      if granted.item ∧ fd ∈ s.opened ∧ s.watched fd = none then (true, s.watch fd events)
      else (false, s)
  | .modifyFd fd events granted =>
      if granted.item ∧ s.watched fd ≠ none then (true, s.watch fd events) else (false, s)
  | .removeFd fd => if s.watched fd ≠ none then (true, s.watch fd none) else (false, s)

end Interest

/-! ## epoll -/

def EPOLLIN : UInt32 := 0x001
def EPOLLOUT : UInt32 := 0x004
def EPOLLERR : UInt32 := 0x008
def EPOLLHUP : UInt32 := 0x010
def EPOLLET : UInt32 := 0x80000000

inductive EpollCtl where
  | ADD
  | MOD
  | DEL

/-- The open descriptors of the process, and the interest list of its epoll instance. -/
structure Epoll where
  opened : Finset Nat := ∅
  interest : AList (fun _ : Nat => UInt32) := ∅

/-- `epoll_ctl`; `none` when it returns -1. -/
def Epoll.ctl (op : EpollCtl) (fd : Nat) (events : UInt32) (granted : Bool) (k : Epoll) :
    Option Epoll :=
  match op with
  | .ADD =>
      if fd ∉ k.opened ∨ fd ∈ k.interest ∨ granted = false then none
      else some { k with interest := k.interest.insert fd events }
  | .MOD =>
      if fd ∉ k.interest ∨ granted = false then none
      else some { k with interest := k.interest.insert fd events }
  | .DEL => if fd ∈ k.interest then some { k with interest := k.interest.erase fd } else none

/-- A closed descriptor leaves the interest list. -/
def Epoll.closeFd (fd : Nat) (k : Epoll) : Epoll := ⟨k.opened.erase fd, k.interest.erase fd⟩

structure EpollEventLoop where
  kernel : Epoll := {}

namespace EpollEventLoop

def toEpollEvents (events : UInt32) : UInt32 :=
  let epollEvents := 0
  let epollEvents := if events &&& READ ≠ 0 then epollEvents ||| EPOLLIN else epollEvents
  let epollEvents := if events &&& WRITE ≠ 0 then epollEvents ||| EPOLLOUT else epollEvents
  epollEvents ||| EPOLLET

def fromEpollEvents (epollEvents : UInt32) : UInt32 :=
  let events := 0
  let events := if epollEvents &&& EPOLLIN ≠ 0 then events ||| READ else events
  let events := if epollEvents &&& EPOLLOUT ≠ 0 then events ||| WRITE else events
  if epollEvents &&& (EPOLLERR ||| EPOLLHUP) ≠ 0 then (events ||| ERROR) ||| CLOSE else events

def ctl (op : EpollCtl) (fd : Nat) (events : UInt32) (granted : Bool) (s : EpollEventLoop) :
    Bool × EpollEventLoop :=
  match s.kernel.ctl op fd events granted with
  | none => (false, s)
  | some kernel => (true, { s with kernel := kernel })

def addFd (fd : Nat) (events : UInt32) (granted : Grant) (s : EpollEventLoop) :
    Bool × EpollEventLoop := s.ctl .ADD fd (toEpollEvents events) granted.item

def modifyFd (fd : Nat) (events : UInt32) (granted : Grant) (s : EpollEventLoop) :
    Bool × EpollEventLoop := s.ctl .MOD fd (toEpollEvents events) granted.item

def removeFd (fd : Nat) (s : EpollEventLoop) : Bool × EpollEventLoop := s.ctl .DEL fd 0 true

def call (s : EpollEventLoop) : LoopCall → Bool × EpollEventLoop
  | .openFd fd => (true, { s with kernel := { s.kernel with opened := insert fd s.kernel.opened } })
  | .closeFd fd => (true, { s with kernel := s.kernel.closeFd fd })
  | .addFd fd events granted => s.addFd fd events granted
  | .modifyFd fd events granted => s.modifyFd fd events granted
  | .removeFd fd => s.removeFd fd

end EpollEventLoop

/-! ## kqueue -/

/-- One entry of a change list, with `EV_ADD` and `EV_CLEAR` or with `EV_DELETE`. -/
inductive KeventChange where
  | add (fd : Nat) (filter : Filter)
  | delete (fd : Nat) (filter : Filter)

/-- The open descriptors of the process, and the filters of its kqueue. -/
structure Kqueue where
  opened : Finset Nat := ∅
  knotes : Finset (Nat × Filter) := ∅

namespace Kqueue

def apply (granted : Filter → Bool) (k : Kqueue) : KeventChange → Option Kqueue
  | .add fd filter =>
      if fd ∈ k.opened ∧ granted filter then some { k with knotes := insert (fd, filter) k.knotes }
      else none
  | .delete fd filter =>
      if (fd, filter) ∈ k.knotes then some { k with knotes := k.knotes.erase (fd, filter) } else none

/-- `kevent` with a change list and no room for events: the first change that fails ends it, and
those before it stay made. -/
def kevent (granted : Filter → Bool) : List KeventChange → Kqueue → Bool × Kqueue
  | [], k => (true, k)
  | change :: rest, k =>
      match k.apply granted change with
      | none => (false, k)
      | some k => kevent granted rest k

def closeFd (fd : Nat) (k : Kqueue) : Kqueue :=
  ⟨k.opened.erase fd, k.knotes.filter fun knote => knote.1 ≠ fd⟩

end Kqueue

/-- A ready event: the filter, and whether `EV_ERROR` and `EV_EOF` are set. -/
structure Kevent where
  ident : Nat
  filter : Filter
  error : Bool
  eof : Bool

structure KqueueEventLoop where
  kernel : Kqueue := {}
  fdEvents : AList (fun _ : Nat => UInt32) := ∅

namespace KqueueEventLoop

/-- The filters that `updateEvents` changes. -/
def filters (events : UInt32) : List Filter :=
  (if events &&& READ ≠ 0 then [.read] else []) ++ if events &&& WRITE ≠ 0 then [.write] else []

def updateEvents (fd : Nat) (events : UInt32) (enable : Bool) (granted : Filter → Bool)
    (s : KqueueEventLoop) : Bool × KqueueEventLoop :=
  let changes := (filters events).map fun filter =>
    if enable then KeventChange.add fd filter else .delete fd filter
  if changes = [] then (true, s)
  else
    let (made, kernel) := s.kernel.kevent granted changes
    (made, { s with kernel := kernel })

def addFd (fd : Nat) (events : UInt32) (granted : Grant) (s : KqueueEventLoop) :
    Bool × KqueueEventLoop :=
  match s.updateEvents fd events true granted.filters with
  | (false, s) => (false, s)
  | (true, s) => (true, { s with fdEvents := s.fdEvents.insert fd events })

/-- Old events are deleted and new ones added; where this fails, it is tried to add the old ones
again. -/
def modifyFd (fd : Nat) (events : UInt32) (granted : Grant) (s : KqueueEventLoop) :
    Bool × KqueueEventLoop :=
  match s.fdEvents.lookup fd with
  | none => (false, s)
  | some oldEvents =>
      match s.updateEvents fd oldEvents false granted.filters with
      | (false, s) => (false, s)
      | (true, s) =>
          match s.updateEvents fd events true granted.filters with
          | (false, s) =>
              let (_, s) := s.updateEvents fd oldEvents true granted.restored
              (false, s)
          | (true, s) => (true, { s with fdEvents := s.fdEvents.insert fd events })

def removeFd (fd : Nat) (s : KqueueEventLoop) : Bool × KqueueEventLoop :=
  match s.fdEvents.lookup fd with
  | none => (true, s)
  | some events =>
      match s.updateEvents fd events false (fun _ => true) with
      | (false, s) => (false, s)
      | (true, s) => (true, { s with fdEvents := s.fdEvents.erase fd })

def eventsOf (kev : Kevent) : UInt32 :=
  let events := match kev.filter with
    | .read => READ
    | .write => WRITE
  let events := if kev.error then events ||| ERROR else events
  if kev.eof then events ||| CLOSE else events

def call (s : KqueueEventLoop) : LoopCall → Bool × KqueueEventLoop
  | .openFd fd => (true, { s with kernel := { s.kernel with opened := insert fd s.kernel.opened } })
  | .closeFd fd => (true, { s with kernel := s.kernel.closeFd fd })
  | .addFd fd events granted => s.addFd fd events granted
  | .modifyFd fd events granted => s.modifyFd fd events granted
  | .removeFd fd => s.removeFd fd

end KqueueEventLoop

/-! ## The handlers of an event -/

inductive Handler where
  | handleClose
  | handleRead
  | handleWrite
  deriving DecidableEq, Repr

/-- The branches of `Server::eventLoop` for a descriptor other than the listening one. -/
def Server.handler (events : UInt32) : Option Handler :=
  if events &&& (ERROR ||| CLOSE) ≠ 0 then some .handleClose
  else if events &&& READ ≠ 0 then some .handleRead
  else if events &&& WRITE ≠ 0 then some .handleWrite
  else none

/-- The branches of `EpollServer::eventLoop`, which reads what epoll has delivered. -/
def EpollServer.handler (ev : UInt32) : Option Handler :=
  if ev &&& (EPOLLERR ||| EPOLLHUP) ≠ 0 then some .handleClose
  else if ev &&& EPOLLIN ≠ 0 then some .handleRead
  else if ev &&& EPOLLOUT ≠ 0 then some .handleWrite
  else none

end TinySql
