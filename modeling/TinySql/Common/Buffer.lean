import TinySql.Common.Bytes

/-!
# `Buffer`

The byte buffer under every connection and every packet. The vector `data_` is kept with the memory
behind it: `readFromFd` lets the kernel write there, and a reallocation copies the elements only.
-/

namespace TinySql

/-- `Buffer`. `data` are the elements of `data_`, `spare` the bytes that have been written into its
allocation behind them. Memory that nothing has written yet reads as zero here, unless it is given to
`readFromFdInto`. -/
structure Buffer where
  data : Bytes
  spare : Bytes
  capacity : Nat
  readIndex : Nat
  writeIndex : Nat
  deriving DecidableEq, Repr

/-- A member function of `Buffer` that may throw; what it has changed by then stays changed. -/
abbrev BufferM := EStateM Exn Buffer

namespace Buffer

/-- `Buffer(size_t initial_size)`. -/
def ofCapacity (initialSize : Nat) : Buffer := ⟨[], [], initialSize, 0, 0⟩

/-- `Buffer()`. -/
def empty : Buffer := ofCapacity 4096

/-- `Buffer(const std::vector<uint8_t>&)` and `Buffer(const std::string&)`. -/
def ofBytes (bytes : Bytes) : Buffer := ⟨bytes, [], bytes.length, 0, bytes.length⟩

def readableBytes (b : Buffer) : Nat := b.writeIndex - b.readIndex

def writableBytes (b : Buffer) : Nat := b.capacity - b.writeIndex

/-- The memory from `data_.data()` up to `n` bytes. -/
def memory (b : Buffer) (n : Nat) : Bytes := (b.data ++ b.spare).rightpad n 0

/-- The bytes from `peek()` on, `readableBytes()` of them. -/
def readable (b : Buffer) : Bytes :=
  ((b.memory b.writeIndex).drop b.readIndex).take b.readableBytes

/-! ## Writing -/

/-- `data_.reserve(n)`. A reallocation copies the elements and not the memory behind them. -/
def reserve (n : Nat) (b : Buffer) : Buffer :=
  if b.capacity < n then { b with spare := [], capacity := n } else b

def ensureWritable (len : Nat) (b : Buffer) : Buffer :=
  if b.writableBytes < len then b.reserve (b.capacity + len) else b

/-- `data_.insert(data_.end(), bytes)`, or the same bytes given to `push_back` one by one. -/
def insertEnd (bytes : Bytes) (b : Buffer) : Buffer :=
  if b.data.length + bytes.length ≤ b.capacity then
    { b with data := b.data ++ bytes, spare := b.spare.drop bytes.length }
  else
    { b with
      data := b.data ++ bytes
      spare := []
      capacity := b.data.length + max b.data.length bytes.length }

/-- `append` and `writeBytes`; every other writer does this with the bytes it makes. -/
def append (bytes : Bytes) (b : Buffer) : Buffer :=
  let b := (b.ensureWritable bytes.length).insertEnd bytes
  { b with writeIndex := b.writeIndex + bytes.length }

def writeBytes (bytes : Bytes) (b : Buffer) : Buffer := b.append bytes

def writeUint8 (val : UInt8) (b : Buffer) : Buffer := b.append [val]

def writeUint16 (val : UInt16) (b : Buffer) : Buffer :=
  b.append [(val &&& 0xFF).toUInt8, ((val >>> 8) &&& 0xFF).toUInt8]

def writeUint32 (val : UInt32) (b : Buffer) : Buffer :=
  b.append [(val &&& 0xFF).toUInt8, ((val >>> 8) &&& 0xFF).toUInt8,
    ((val >>> 16) &&& 0xFF).toUInt8, ((val >>> 24) &&& 0xFF).toUInt8]

def writeUint64 (val : UInt64) (b : Buffer) : Buffer :=
  b.append ((List.range 8).map fun i => ((val >>> UInt64.ofNat (i * 8)) &&& 0xFF).toUInt8)

def writeString (str : Bytes) (b : Buffer) : Buffer := b.append str

def writeNullTerminatedString (str : Bytes) (b : Buffer) : Buffer :=
  (b.writeString str).writeUint8 0

def writeLenencInt (val : UInt64) (b : Buffer) : Buffer :=
  if val < 0xFB then b.writeUint8 val.toUInt8
  else if val < 0x10000 then (b.writeUint8 0xFC).writeUint16 val.toUInt16
  else if val < 0x1000000 then
    (((b.writeUint8 0xFD).writeUint8 (val &&& 0xFF).toUInt8).writeUint8
      ((val >>> 8) &&& 0xFF).toUInt8).writeUint8 ((val >>> 16) &&& 0xFF).toUInt8
  else (b.writeUint8 0xFE).writeUint64 val

def writeLenencString (str : Bytes) (b : Buffer) : Buffer :=
  (b.writeLenencInt (UInt64.ofNat str.length)).writeString str

/-- `readFromFd`, when `readv` has returned the number of these bytes: the first of them are at
`beginWrite()` up to the end of the allocation, the others in `extrabuf`. On an error of `readv`
the buffer stays as it is. -/
def readFromFd (delivered : Bytes) (b : Buffer) : Buffer :=
  let writable := b.writableBytes
  let direct := delivered.take writable
  let memory := b.memory b.writeIndex
  let memory := memory.take b.writeIndex ++ direct ++ memory.drop (b.writeIndex + direct.length)
  let b := { b with data := memory.take b.data.length, spare := memory.drop b.data.length }
  if delivered.length ≤ writable then
    { b with writeIndex := b.writeIndex + delivered.length }
  else
    { b with writeIndex := b.capacity }.writeBytes (delivered.drop writable)

/-- `readFromFd`, where the memory of a new allocation holds the bytes of `block` from its start on.
The elements are copied over them; what is behind the elements stays. -/
def readFromFdInto (block : Nat → UInt8) (delivered : Bytes) (b : Buffer) : Buffer :=
  let received := b.readFromFd delivered
  if b.capacity < received.capacity then
    { received with
      spare := (List.range' received.data.length
        (received.capacity - received.data.length)).map block }
  else received

/-! ## Reading -/

/-- Move the read index over `n` readable bytes. -/
def advance (n : Nat) (b : Buffer) : Buffer := { b with readIndex := b.readIndex + n }

/-- `writeToFd`, when `write` has accepted `n` bytes. -/
def writeToFd (n : Nat) (b : Buffer) : Buffer := if 0 < n then b.advance n else b

/-- `data_.clear()` leaves the bytes of the allocation as they are. -/
def reset (b : Buffer) : Buffer :=
  { b with data := [], spare := b.data ++ b.spare, readIndex := 0, writeIndex := 0 }

/-- Take the next `n` bytes, or throw. -/
def next (n : Nat) (what : Bytes) : BufferM Bytes := do
  let b ← get
  if b.readableBytes < n then throw (.runtimeError what)
  set (b.advance n)
  return b.readable.take n

def readUint8 : BufferM UInt8 := do
  let bytes ← next 1 (ascii "Buffer: not enough data to read uint8")
  return bytes.getD 0 0

def readUint16 : BufferM UInt16 := do
  let bytes ← next 2 (ascii "Buffer: not enough data to read uint16")
  return (bytes.getD 0 0).toUInt16 ||| (bytes.getD 1 0).toUInt16 <<< 8

def readUint32 : BufferM UInt32 := do
  let bytes ← next 4 (ascii "Buffer: not enough data to read uint32")
  return (bytes.getD 0 0).toUInt32 ||| (bytes.getD 1 0).toUInt32 <<< 8 |||
    (bytes.getD 2 0).toUInt32 <<< 16 ||| (bytes.getD 3 0).toUInt32 <<< 24

def readUint64 : BufferM UInt64 := do
  let bytes ← next 8 (ascii "Buffer: not enough data to read uint64")
  return (List.range 8).foldl
    (fun val i => val ||| (bytes.getD i 0).toUInt64 <<< UInt64.ofNat (i * 8)) 0

def readBytes (len : Nat) : BufferM Bytes := next len (ascii "Buffer: not enough data to read bytes")

def readString (len : Nat) : BufferM Bytes :=
  next len (ascii "Buffer: not enough data to read string")

def retrieve (len : Nat) : BufferM Bytes := next len (ascii "Buffer: not enough data to retrieve")

def skip (n : Nat) : BufferM Unit := do
  let _ ← next n (ascii "Buffer: not enough data to skip")

def retrieveAll : BufferM Bytes := do
  let b ← get
  set b.reset
  return b.readable

def readNullTerminatedString : BufferM Bytes := do
  let b ← get
  let text := b.readable.takeWhile (· != 0)
  if text.length = b.readable.length then
    throw (.runtimeError (ascii "Buffer: no null terminator found"))
  set (b.advance (text.length + 1))
  return text

/-- Three reads of one byte joined to a number, left to right: the 3-byte form of `readLenencInt`,
and the payload length wherever a packet header is read. -/
def readThreeBytes : BufferM UInt32 := do
  let b0 ← readUint8
  let b1 ← readUint8
  let b2 ← readUint8
  return b0.toUInt32 ||| b1.toUInt32 <<< 8 ||| b2.toUInt32 <<< 16

def readLenencInt : BufferM UInt64 := do
  if (← get).readableBytes < 1 then
    throw (.runtimeError (ascii "Buffer: not enough data for lenenc int"))
  let first ← readUint8
  if first < 0xFB then return first.toUInt64
  else if first = 0xFC then return (← readUint16).toUInt64
  else if first = 0xFD then
    if (← get).readableBytes < 3 then
      throw (.runtimeError (ascii "Buffer: not enough data for 3-byte lenenc int"))
    return (← readThreeBytes).toUInt64
  else if first = 0xFE then readUint64
  else throw (.runtimeError (ascii "Buffer: invalid lenenc int (0xFF)"))

def readLenencString : BufferM Bytes := do
  let len ← readLenencInt
  readString len.toNat

/-- The bytes of `writeLenencInt`. -/
def getLenencIntSize (val : UInt64) : UInt64 :=
  if val < 0xFB then 1 else if val < 0x10000 then 3 else if val < 0x1000000 then 4 else 9

end Buffer

end TinySql
