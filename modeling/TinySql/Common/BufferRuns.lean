import TinySql.Common.BufferLaws
import TinySql.Lib.Run

/-!
# A `Buffer` as a queue of bytes

What runs of the operations of a buffer should do: the bytes that come in are appended to a queue,
and each read takes off its front what its format says. A run keeps to that exactly as long as
`readFromFd` brings bytes only to a buffer without writable room.
-/

namespace TinySql.Buffer
open Wire

inductive Op where
  | writeUint8 (val : UInt8)
  | writeUint16 (val : UInt16)
  | writeUint32 (val : UInt32)
  | writeUint64 (val : UInt64)
  | writeBytes (bytes : Bytes)
  | writeString (str : Bytes)
  | writeNullTerminatedString (str : Bytes)
  | writeLenencInt (val : UInt64)
  | writeLenencString (str : { str : Bytes // str.length < 2 ^ 64 })
  | append (bytes : Bytes)
  | readFromFd (delivered : Bytes)
  | readUint8
  | readUint16
  | readUint32
  | readUint64
  | readBytes (len : Nat)
  | readString (len : Nat)
  | readNullTerminatedString
  | readLenencInt
  | readLenencString
  | retrieve (len : Nat)
  | retrieveAll
  | skip (n : Nat)

/-- The buffer after an operation that does not throw. -/
def Op.perform : Op → Buffer → Option Buffer
  | .writeUint8 val, b => some (b.writeUint8 val)
  | .writeUint16 val, b => some (b.writeUint16 val)
  | .writeUint32 val, b => some (b.writeUint32 val)
  | .writeUint64 val, b => some (b.writeUint64 val)
  | .writeBytes bytes, b => some (b.writeBytes bytes)
  | .writeString str, b => some (b.writeString str)
  | .writeNullTerminatedString str, b => some (b.writeNullTerminatedString str)
  | .writeLenencInt val, b => some (b.writeLenencInt val)
  | .writeLenencString str, b => some (b.writeLenencString str)
  | .append bytes, b => some (b.append bytes)
  | .readFromFd delivered, b => some (b.readFromFd delivered)
  | .readUint8, b => after Buffer.readUint8 b
  | .readUint16, b => after Buffer.readUint16 b
  | .readUint32, b => after Buffer.readUint32 b
  | .readUint64, b => after Buffer.readUint64 b
  | .readBytes len, b => after (Buffer.readBytes len) b
  | .readString len, b => after (Buffer.readString len) b
  | .readNullTerminatedString, b => after Buffer.readNullTerminatedString b
  | .readLenencInt, b => after Buffer.readLenencInt b
  | .readLenencString, b => after Buffer.readLenencString b
  | .retrieve len, b => after (Buffer.retrieve len) b
  | .retrieveAll, b => after Buffer.retrieveAll b
  | .skip n, b => after (Buffer.skip n) b
where
  after {α : Type} (m : BufferM α) (b : Buffer) : Option Buffer :=
    match m.run b with
    | .ok _ b' => some b'
    | .error _ _ => none

def remaining {α : Type} (r : Reader α) (queue : Bytes) : Bytes :=
  match r.run queue with
  | some (_, rest) => rest
  | none => queue

/-- What an operation should do to the bytes waiting in the buffer. -/
def Op.expected : Op → Bytes → Bytes
  | .writeUint8 val, queue => queue ++ [val]
  | .writeUint16 val, queue => queue ++ le 2 val.toNat
  | .writeUint32 val, queue => queue ++ le 4 val.toNat
  | .writeUint64 val, queue => queue ++ le 8 val.toNat
  | .writeBytes bytes, queue | .append bytes, queue | .readFromFd bytes, queue => queue ++ bytes
  | .writeString str, queue => queue ++ str
  | .writeNullTerminatedString str, queue => queue ++ (str ++ [0])
  | .writeLenencInt val, queue => queue ++ lenencBytes val.toNat
  | .writeLenencString str, queue => queue ++ (lenencBytes str.val.length ++ str)
  | .readUint8, queue => remaining (uint 1) queue
  | .readUint16, queue => remaining (uint 2) queue
  | .readUint32, queue => remaining (uint 4) queue
  | .readUint64, queue => remaining (uint 8) queue
  | .readBytes len, queue | .readString len, queue | .retrieve len, queue | .skip len, queue =>
      remaining (take len) queue
  | .readNullTerminatedString, queue => remaining untilZero queue
  | .readLenencInt, queue => remaining lenenc queue
  | .readLenencString, queue => remaining lenencString queue
  | .retrieveAll, _ => []

/-- A step of a run: the code acts on the buffer, and the queue is what it should be. -/
def Step : Buffer × Bytes → Op → Buffer × Bytes → Prop
  | (b, queue), op, (b', queue') => op.perform b = some b' ∧ op.expected queue = queue'

/-- `readFromFd` brings no bytes, or the buffer has no writable room left. -/
def Op.Fits (b : Buffer) : Op → Prop
  | .readFromFd delivered => delivered = [] ∨ b.writableBytes = 0
  | _ => True

inductive Init where
  | default
  | capacity (initialSize : Nat)
  | data (bytes : Bytes)

def Init.buffer : Init → Buffer
  | .default => empty
  | .capacity initialSize => ofCapacity initialSize
  | .data bytes => ofBytes bytes

def Init.contents : Init → Bytes
  | .default | .capacity _ => []
  | .data bytes => bytes

theorem Init.sound (init : Init) : Sound init.buffer init.contents := by
  cases init with
  | default => exact Sound.empty
  | capacity initialSize => exact Sound.ofCapacity initialSize
  | data bytes => exact Sound.ofBytes bytes

variable {b b' : Buffer} {queue : Bytes}

theorem Op.perform.after_eq {α : Type} {m : BufferM α} (ran : after m b = some b') :
    ∃ a, m.run b = .ok a b' := by
  unfold after at ran
  cases returned : m.run b with
  | ok a b'' =>
      obtain rfl : b'' = b' := by simpa [returned] using ran
      exact ⟨a, rfl⟩
  | error e b'' => simp [returned] at ran

theorem Sound.after {α : Type} {m : BufferM α} {r : Reader α} (implements : Implements m r)
    (sound : Sound b queue) (ran : Op.perform.after m b = some b') :
    Sound b' (remaining r queue) := by
  obtain ⟨a, ran⟩ := Op.perform.after_eq ran
  obtain ⟨used, rest, split, read, rfl⟩ := implements.returned ran
  rw [sound.readable] at split read
  rw [remaining, read]
  exact (split ▸ sound).advance

theorem remaining_map {α β : Type} (f : α → β) (r : Reader α) :
    remaining (f <$> r) queue = remaining r queue := by
  rw [remaining, remaining, StateT.run_map]
  cases r.run queue <;> rfl

theorem readFromFd_eq (full : b.writeIndex = b.data.length) (delivered : Bytes) :
    ∃ spare, b.readFromFd delivered =
      if delivered.length ≤ b.writableBytes then
        { b with spare := spare, writeIndex := b.writeIndex + delivered.length }
      else { b with spare := spare, writeIndex := b.capacity }.append
        (delivered.drop b.writableBytes) := by
  have memory : b.memory b.writeIndex = b.data ++ b.spare := by
    rw [Buffer.memory, List.rightpad, full]
    simp
  have elements (tail : Bytes) :
      (((b.data ++ b.spare).take b.writeIndex ++ delivered.take b.writableBytes) ++ tail).take
        b.data.length = b.data := by
    rw [full, List.take_left, List.append_assoc, List.take_left]
  refine ⟨((b.data ++ b.spare).take b.writeIndex ++ delivered.take b.writableBytes ++
    (b.data ++ b.spare).drop (b.writeIndex + (delivered.take b.writableBytes).length)).drop
      b.data.length, ?_⟩
  simp only [Buffer.readFromFd, memory, elements]
  rfl

theorem Sound.readFromFd (sound : Sound b queue) {delivered : Bytes}
    (admitted : delivered = [] ∨ b.writableBytes = 0) :
    Sound (b.readFromFd delivered) (queue ++ delivered) := by
  obtain ⟨spare, eq⟩ := readFromFd_eq sound.full delivered
  have shown : ({ b with spare := spare } : Buffer).readable = b.data.drop b.readIndex :=
    readable_of_full sound.full
  have same : Sound { b with spare := spare } queue := by
    refine ⟨⟨?_, sound.ordered, sound.full⟩, sound.fits⟩
    rw [shown, ← readable_of_full sound.full, sound.readable]
  rw [eq]
  rcases admitted with rfl | noRoom
  · simpa using same
  · have top : b.capacity = b.writeIndex := by
      have := sound.fits
      have := sound.full
      simp only [writableBytes] at noRoom
      omega
    cases delivered with
    | nil => simpa using same
    | cons first rest =>
        have unmoved : ({ b with spare := spare, writeIndex := b.capacity } : Buffer) =
            { b with spare := spare } := by rw [top]
        rw [if_neg (by simp [noRoom]), noRoom, unmoved]
        exact same.append (first :: rest)

theorem readFromFd_outside (sound : Sound b queue) {delivered : Bytes}
    (received : delivered ≠ []) (room : b.writableBytes ≠ 0) :
    (b.readFromFd delivered).data.length < (b.readFromFd delivered).writeIndex := by
  obtain ⟨spare, eq⟩ := readFromFd_eq sound.full delivered
  have full := sound.full
  have positive : 0 < delivered.length := List.length_pos_iff.mpr received
  simp only [writableBytes] at room
  rw [eq]
  split
  · simp only
    omega
  · simp only [append_data, append_writeIndex, List.length_append]
    omega

theorem Sound.perform {op : Op} (sound : Sound b queue) (fits : op.Fits b)
    (ran : op.perform b = some b') : Sound b' (op.expected queue) := by
  cases op with
  | writeUint8 val => cases ran; exact sound.writeUint8 val
  | writeUint16 val => cases ran; exact sound.writeUint16 val
  | writeUint32 val => cases ran; exact sound.writeUint32 val
  | writeUint64 val => cases ran; exact sound.writeUint64 val
  | writeBytes bytes => cases ran; exact sound.append bytes
  | writeString str => cases ran; exact sound.writeString str
  | writeNullTerminatedString str => cases ran; exact sound.writeNullTerminatedString str
  | writeLenencInt val => cases ran; exact sound.writeLenencInt val
  | writeLenencString str => cases ran; exact sound.writeLenencString str str.property
  | append bytes => cases ran; exact sound.append bytes
  | readFromFd delivered => cases ran; exact sound.readFromFd fits
  | readUint8 => simpa only [Op.expected, remaining_map] using sound.after readUint8_implements ran
  | readUint16 => simpa only [Op.expected, remaining_map] using sound.after readUint16_implements ran
  | readUint32 => simpa only [Op.expected, remaining_map] using sound.after readUint32_implements ran
  | readUint64 => simpa only [Op.expected, remaining_map] using sound.after readUint64_implements ran
  | readBytes len => exact sound.after (readBytes_implements len) ran
  | readString len => exact sound.after (readString_implements len) ran
  | readNullTerminatedString => exact sound.after readNullTerminatedString_implements ran
  | readLenencInt =>
      simpa only [Op.expected, remaining_map] using sound.after readLenencInt_implements ran
  | readLenencString => exact sound.after readLenencString_implements ran
  | retrieve len => exact sound.after (retrieve_implements len) ran
  | retrieveAll => cases ran; exact Sound.reset b
  | skip n => simpa only [Op.expected, remaining_map] using sound.after (skip_implements n) ran

/-- Along a run of operations the buffer shows its queue, and its indices agree with the vector,
exactly as long as no bytes are received into writable room. -/
theorem tracks_iff_fits (init : Init) (ops : List Op) :
    Run.Always Step (fun s => Tracks s.1 s.2) (init.buffer, init.contents) ops ↔
      Run.Admits Step (fun s op => op.Fits s.1) (init.buffer, init.contents) ops := by
  refine Run.always_iff_admits (fun s : Buffer × Bytes => Sound s.1 s.2) (fun s sound => sound.toTracks)
    ?_ ?_ _ ops init.sound
  · rintro ⟨b, queue⟩ op ⟨b', queue'⟩ sound fits ⟨ran, rfl⟩
    exact sound.perform fits ran
  · rintro ⟨b, queue⟩ op sound refused
    cases op with
    | readFromFd delivered =>
        simp only [Op.Fits, not_or] at refused
        refine ⟨(b.readFromFd delivered, queue ++ delivered), ⟨rfl, rfl⟩, fun tracks => ?_⟩
        have outside := readFromFd_outside sound refused.1 refused.2
        exact absurd tracks.full (by simpa using Nat.ne_of_gt outside)
    | _ => exact absurd trivial refused

/-- A byte written after two received ones takes the place of the first of them. -/
theorem received_byte_overwritten :
    ¬ Run.Always Step (fun s => Tracks s.1 s.2) (Init.default.buffer, Init.default.contents)
      [.readFromFd [1, 2], .writeUint8 3] := by
  intro always
  let received := empty.readFromFd [1, 2]
  have first : Step (empty, []) (.readFromFd [1, 2]) (received, [1, 2]) := ⟨rfl, rfl⟩
  have second : Step (received, [1, 2]) (.writeUint8 3) (received.writeUint8 3, [1, 2, 3]) :=
    ⟨rfl, rfl⟩
  have runs := Run.Runs.cons first (.cons second (.nil _))
  have shown : (received.writeUint8 3).readable = [3, 2, 0] := by decide
  exact absurd (shown.symm.trans (always _ _ List.prefix_rfl runs).readable) (by decide)

end TinySql.Buffer
