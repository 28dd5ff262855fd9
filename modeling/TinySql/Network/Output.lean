import TinySql.Common.BufferLaws
import TinySql.Lib.Run

/-!
# The output of a connection

`send` offers its bytes to the kernel and keeps in the output buffer what the kernel has not taken;
`handleWrite` offers what is in the buffer. Bytes that are sent while others wait in the buffer may
overtake them.
-/

namespace TinySql
open Run

structure Output where
  connected : Bool := true
  outputBuffer : Buffer := .empty

/-- What `write` returns: how many bytes the kernel has accepted, or an error. -/
inductive Written where
  | accepted (n : Nat)
  | again
  | error
  deriving DecidableEq, Repr

def Written.taken (offered : Bytes) : Written → Bytes
  | .accepted n => offered.take n
  | .again | .error => []

namespace Output

def send (data : Bytes) (written : Written) (c : Output) : Int × Output :=
  if !c.connected then (-1, c)
  else
    match written with
    | .error => (-1, c)
    | .again => (0, { c with outputBuffer := c.outputBuffer.writeBytes data })
    | .accepted n =>
        if n < data.length then
          (n, { c with outputBuffer := c.outputBuffer.writeBytes (data.drop n) })
        else (n, c)

/-- `handleWrite`; a hard error closes the connection. -/
def handleWrite (written : Written) (c : Output) : Output :=
  if !c.connected || c.outputBuffer.readableBytes = 0 then c
  else
    match written with
    | .error => { c with connected := false }
    | .again => c
    | .accepted n => { c with outputBuffer := c.outputBuffer.writeToFd n }

theorem handleWrite_closes {c : Output} {written : Written} (connected : c.connected = true) :
    (c.handleWrite written).connected = false ↔
      written = .error ∧ c.outputBuffer.readableBytes ≠ 0 := by
  by_cases pending : c.outputBuffer.readableBytes = 0
  · simp [handleWrite, connected, pending]
  · cases written <;> simp [handleWrite, connected, pending]

/-- A call of `send` or a write event, with what the kernel answers. -/
inductive Event where
  | send (data : Bytes) (written : Written)
  | handleWrite (written : Written)

def Event.body (c : Output) : Event → Output
  | .send data written => (c.send data written).2
  | .handleWrite written => c.handleWrite written

def Event.data : Event → Bytes
  | .send data _ => data
  | .handleWrite _ => []

def Event.written : Event → Written
  | .send _ written | .handleWrite written => written

def Event.offered (c : Output) : Event → Bytes
  | .send data _ => if c.connected then data else []
  | .handleWrite _ => if c.connected then c.outputBuffer.readable else []

/-- The kernel accepts no more than it was offered, and makes no hard error. -/
def Event.Answered (c : Output) (e : Event) : Prop :=
  match e.written with
  | .accepted n => n ≤ (e.offered c).length
  | .again => True
  | .error => False

/-- A connection, the bytes that the kernel has accepted from it, and the concatenation of the data
passed to `send`. -/
structure Traffic where
  output : Output := {}
  accepted : Bytes := []
  requested : Bytes := []

namespace Traffic

def Step (s : Traffic) (e : Event) (s' : Traffic) : Prop :=
  e.Answered s.output ∧
    s' = ⟨e.body s.output, s.accepted ++ e.written.taken (e.offered s.output), s.requested ++ e.data⟩

/-- The accepted bytes and the pending ones are those passed to `send`, in order. -/
def InOrder (s : Traffic) : Prop :=
  s.accepted ++ s.output.outputBuffer.readable = s.requested

/-- What the kernel accepts of a `send` reads the same in front of the pending bytes and behind
them. -/
def Keeps (s : Traffic) : Event → Prop
  | .send data written =>
      written.taken data ++ s.output.outputBuffer.readable =
        s.output.outputBuffer.readable ++ written.taken data
  | .handleWrite _ => True

/-- The pending bytes follow the accepted ones, and the buffer shows them. -/
structure Sound (s : Traffic) : Prop where
  connected : s.output.connected = true
  buffer : Buffer.Sound s.output.outputBuffer s.output.outputBuffer.readable
  inOrder : s.InOrder

variable {s s' : Traffic} {data : Bytes} {written : Written}

theorem send_buffer {c : Output} (connected : c.connected = true)
    (buffer : Buffer.Sound c.outputBuffer c.outputBuffer.readable)
    (answered : (Event.send data written).Answered c) :
    ∃ later, written.taken data ++ later = data ∧
      Buffer.Sound (c.send data written).2.outputBuffer (c.outputBuffer.readable ++ later) ∧
      (c.send data written).2.connected = true := by
  cases written with
  | error => exact absurd answered id
  | again =>
      refine ⟨data, rfl, ?_, ?_⟩
      · simpa [send, connected, Buffer.writeBytes] using buffer.append data
      · simp [send, connected]
  | accepted n =>
      refine ⟨data.drop n, List.take_append_drop n data, ?_, ?_⟩
      · by_cases rest : n < data.length
        · simpa [send, connected, rest, Buffer.writeBytes] using buffer.append (data.drop n)
        · have none : data.drop n = [] := List.drop_eq_nil_of_le (Nat.not_lt.mp rest)
          simpa [send, connected, rest, none] using buffer
      · by_cases rest : n < data.length <;> simp [send, connected, rest]

theorem handleWrite_buffer {c : Output} (connected : c.connected = true)
    (buffer : Buffer.Sound c.outputBuffer c.outputBuffer.readable)
    (answered : (Event.handleWrite written).Answered c) :
    ∃ later, written.taken c.outputBuffer.readable ++ later = c.outputBuffer.readable ∧
      Buffer.Sound (c.handleWrite written).outputBuffer later ∧
      (c.handleWrite written).connected = true := by
  by_cases pending : c.outputBuffer.readableBytes = 0
  · have none : c.outputBuffer.readable = [] := List.eq_nil_of_length_eq_zero (by simp [pending])
    have same : c.handleWrite written = c := by simp [Output.handleWrite, pending]
    rw [none] at buffer ⊢
    rw [same]
    refine ⟨[], ?_, buffer, connected⟩
    cases written <;> simp [Written.taken]
  · cases written with
    | error => exact absurd answered id
    | again =>
        refine ⟨c.outputBuffer.readable, rfl, ?_, ?_⟩
        · simpa [Output.handleWrite, connected, pending] using buffer
        · simp [Output.handleWrite, connected]
    | accepted n =>
        have within : n ≤ c.outputBuffer.readable.length := by
          simpa [Event.Answered, Event.offered, Event.written, connected] using answered
        refine ⟨_, List.take_append_drop n _, ?_, ?_⟩
        · have moved : (c.handleWrite (.accepted n)).outputBuffer = c.outputBuffer.advance n := by
            by_cases some : 0 < n
            · simp [Output.handleWrite, connected, pending, Buffer.writeToFd, some]
            · simp [Output.handleWrite, connected, pending, Buffer.writeToFd, Nat.eq_zero_of_not_pos some]
          rw [← List.take_append_drop n c.outputBuffer.readable] at buffer
          have later := buffer.advance
          rwa [List.length_take_of_le within, ← moved] at later
        · simp [Output.handleWrite, connected, pending]

theorem Sound.send (sound : Sound s) (step : Step s (.send data written) s') :
    Buffer.Sound s'.output.outputBuffer s'.output.outputBuffer.readable ∧
      s'.output.connected = true ∧ (s'.InOrder ↔ s.Keeps (.send data written)) := by
  obtain ⟨answered, rfl⟩ := step
  obtain ⟨later, split, buffer, connected⟩ := send_buffer sound.connected sound.buffer answered
  have shown := buffer.readable
  refine ⟨?_, connected, ?_⟩
  · simpa only [Event.body, shown] using buffer
  · have inOrder := sound.inOrder
    simp only [InOrder, Keeps, Event.body, Event.written, Event.offered, sound.connected, if_true,
      shown, Event.data] at inOrder ⊢
    rw [← inOrder]
    nth_rewrite 2 [← split]
    simp only [← List.append_assoc, List.append_cancel_right_eq]
    simp only [List.append_assoc, List.append_cancel_left_eq]

theorem Sound.handleWrite (sound : Sound s) (step : Step s (.handleWrite written) s') :
    Sound s' := by
  obtain ⟨answered, rfl⟩ := step
  obtain ⟨later, split, buffer, connected⟩ :=
    handleWrite_buffer sound.connected sound.buffer answered
  have shown := buffer.readable
  constructor
  · exact connected
  · simpa only [Event.body, shown] using buffer
  · have inOrder := sound.inOrder
    simp only [InOrder, Event.body, Event.written, Event.offered, sound.connected, if_true, shown,
      Event.data, List.append_nil] at inOrder ⊢
    rw [List.append_assoc, split, inOrder]

theorem sound_fresh : Sound {} where
  connected := rfl
  buffer := Buffer.Sound.empty
  inOrder := rfl

/-- No output byte is lost, duplicated or reordered, exactly as long as what the kernel accepts of
each `send` may stand on either side of the pending bytes. -/
theorem inOrder_iff (run : List Event) :
    Always Step InOrder {} run ↔ Admits Step (fun s e => e.Answered s.output → s.Keeps e) {} run := by
  apply always_iff_admits Sound
  · exact fun s sound => sound.inOrder
  · intro s e s' sound keeps step
    cases e with
    | send data written =>
        obtain ⟨buffer, connected, inOrder⟩ := sound.send step
        exact ⟨connected, buffer, inOrder.mpr (keeps step.1)⟩
    | handleWrite written => exact sound.handleWrite step
  · intro s e sound overtakes
    obtain ⟨answered, overtakes⟩ := Classical.not_imp.mp overtakes
    refine ⟨_, ⟨answered, rfl⟩, ?_⟩
    cases e with
    | send data written =>
        obtain ⟨-, -, inOrder⟩ := sound.send ⟨answered, rfl⟩
        exact fun holds => overtakes (inOrder.mp holds)
    | handleWrite written => exact absurd trivial overtakes
  · exact sound_fresh

/-- Of `ab` one byte is accepted, then all of `c`: it overtakes `b`. -/
theorem byte_overtakes : ¬ ∀ run, Always Step InOrder {} run := by
  intro all
  let run : List Event := [.send (ascii "ab") (.accepted 1), .send (ascii "c") (.accepted 1)]
  have runs : Runs Step {} run (run.foldl (fun s e => ⟨e.body s.output,
      s.accepted ++ e.written.taken (e.offered s.output), s.requested ++ e.data⟩) {}) :=
    .cons ⟨Nat.le_succ 1, rfl⟩ (.cons ⟨Nat.le_refl 1, rfl⟩ (.nil _))
  have inOrder := all run run _ List.prefix_rfl runs
  exact absurd inOrder (by unfold InOrder; decide)

end Traffic
end Output

end TinySql
