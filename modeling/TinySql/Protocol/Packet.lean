import TinySql.Common.BufferLaws

/-!
# Packets

The header of a packet, three bytes of length and a sequence id, and the check whether a buffer
holds a whole packet.
-/

namespace TinySql
open Wire Buffer

structure PacketHeader where
  payloadLength : UInt32
  sequenceId : UInt8
  deriving DecidableEq, Repr

namespace Packet

/-- `readHeader`; `none` when it returns false. -/
def readHeader : BufferM (Option PacketHeader) := do
  if (← get).readableBytes < 4 then return none
  let payloadLength ← readThreeBytes
  let sequenceId ← readUint8
  return some ⟨payloadLength, sequenceId⟩

def writeHeader (payloadLength : UInt32) (sequenceId : UInt8) (buffer : Buffer) : Buffer :=
  buffer.writeUint8 (payloadLength &&& 0xFF).toUInt8
    |>.writeUint8 ((payloadLength >>> 8) &&& 0xFF).toUInt8
    |>.writeUint8 ((payloadLength >>> 16) &&& 0xFF).toUInt8
    |>.writeUint8 sequenceId

/-- How every `encode` ends: the header for the payload that it has built, and the payload. -/
def writePacket (payload : Buffer) (sequenceId : UInt8) (buffer : Buffer) : Buffer :=
  (writeHeader (UInt32.ofNat payload.readableBytes) sequenceId buffer).append payload.readable

/-- How every `decode` begins: it returns false unless the whole packet is there, and reads the
fields otherwise. -/
def readPacket {α : Type} (readFields : UInt32 → BufferM (Option α)) : BufferM (Option α) := do
  match ← readHeader with
  | none => return none
  | some header =>
      if (← get).readableBytes < header.payloadLength.toNat then return none
      readFields header.payloadLength

end Packet

structure GenericPacket where
  payload : Bytes := []
  deriving DecidableEq, Repr

namespace GenericPacket
open Packet

def decode : BufferM (Option GenericPacket) := readPacket fun payloadLength => do
  let payload ← retrieve payloadLength.toNat
  return some ⟨payload⟩

def encode (p : GenericPacket) (sequenceId : UInt8) (buffer : Buffer) : Buffer :=
  (writeHeader (UInt32.ofNat p.payload.length) sequenceId buffer).append p.payload

end GenericPacket

def Buffer.setReaderIndex (index : Nat) : BufferM Unit := do
  let b ← get
  if b.writeIndex < index then
    throw (.runtimeError (ascii "Buffer: invalid reader index"))
  set { b with readIndex := index }

/-- The size of the packet at the head of the buffer with its header, 0 when it is not complete. -/
def checkPacketComplete : BufferM Nat := do
  if (← get).readableBytes < 4 then return 0
  let savePos := (← get).readIndex
  let payloadLength ← readThreeBytes
  setReaderIndex savePos
  let totalLength := 4 + payloadLength.toNat
  if totalLength ≤ (← get).readableBytes then return totalLength
  return 0

/-! ## The bytes of a packet -/

def packet (sequenceId : UInt8) (payload : Bytes) : Bytes :=
  le 3 payload.length ++ sequenceId :: payload

/-- The payload length that the header at the head of these bytes tells. -/
def payloadLength (bytes : Bytes) : Nat := ofLe (bytes.take 3)

theorem payloadLength_lt (bytes : Bytes) : payloadLength bytes < 2 ^ 24 := by
  have short : (bytes.take 3).length ≤ 3 := by simp
  calc ofLe (bytes.take 3) < 256 ^ (bytes.take 3).length := ofLe_lt _
    _ ≤ 256 ^ 3 := Nat.pow_le_pow_right (by decide) short

@[simp] theorem toNat_payloadLength (bytes : Bytes) :
    (UInt32.ofNat (payloadLength bytes)).toNat = payloadLength bytes := by
  have := payloadLength_lt bytes
  rw [UInt32.toNat_ofNat', Nat.mod_eq_of_lt (by omega)]

theorem payloadLength_packet (sequenceId : UInt8) (payload tail : Bytes)
    (short : payload.length < 2 ^ 24) :
    payloadLength (packet sequenceId payload ++ tail) = payload.length := by
  have header : (packet sequenceId payload ++ tail).take 3 = le 3 payload.length := by
    rw [packet, List.append_assoc, List.take_left' (length_le 3 _)]
  rw [payloadLength, header, ofLe_le 3 _ short]

theorem length_packet (sequenceId : UInt8) (payload : Bytes) :
    (packet sequenceId payload).length = 4 + payload.length := by
  rw [packet, List.length_append, length_le, List.length_cons]
  omega

theorem drop_packet (sequenceId : UInt8) (payload tail : Bytes) :
    (packet sequenceId payload ++ tail).drop 3 = sequenceId :: (payload ++ tail) := by
  rw [packet, List.append_assoc, List.drop_left' (length_le 3 _), List.cons_append]

theorem exists_packet {bytes : Bytes} (whole : 4 + payloadLength bytes ≤ bytes.length) :
    ∃ sequenceId payload tail, bytes = packet sequenceId payload ++ tail ∧
      payload.length = payloadLength bytes := by
  have three : (bytes.take 3).length = 3 := by
    rw [List.length_take]
    omega
  have length : ((bytes.drop 4).take (payloadLength bytes)).length = payloadLength bytes := by
    rw [List.length_take, List.length_drop]
    omega
  have header := le_ofLe (bytes.take 3)
  rw [three] at header
  refine ⟨bytes[3], (bytes.drop 4).take (payloadLength bytes),
    (bytes.drop 4).drop (payloadLength bytes), ?_, length⟩
  have rest : bytes.drop 3 = bytes[3] :: bytes.drop 4 := List.drop_eq_getElem_cons (by omega)
  rw [packet, length, payloadLength, header, List.append_assoc, List.cons_append,
    List.take_append_drop, ← rest, List.take_append_drop]

theorem readThreeBytes_run {b : Buffer} (header : 3 ≤ b.readableBytes) :
    readThreeBytes.run b = .ok (UInt32.ofNat (payloadLength b.readable)) (b.advance 3) := by
  have split := (List.take_append_drop 3 b.readable).symm
  have length : (b.readable.take 3).length = 3 := by simp [header]
  have reads := (reads_take (b.readable.take 3)).map ofLe
  rw [length] at reads
  have ran := readThreeBytes_implements.run split (reads.map UInt32.ofNat)
  rwa [length] at ran

theorem exists_cons_of_readable {b : Buffer} (more : 1 ≤ b.readableBytes) :
    ∃ first rest, b.readable = first :: rest := by
  rw [← readable_length] at more
  exact List.exists_cons_of_length_pos more

theorem readHeader_run {b : Buffer} (header : 4 ≤ b.readableBytes) : ∃ sequenceId,
    Packet.readHeader.run b =
      .ok (some ⟨UInt32.ofNat (payloadLength b.readable), sequenceId⟩) (b.advance 4) := by
  have more : 1 ≤ (b.advance 3).readableBytes := by
    rw [readableBytes_advance]
    omega
  obtain ⟨sequenceId, rest, shown⟩ := exists_cons_of_readable more
  refine ⟨sequenceId, ?_⟩
  simp only [Packet.readHeader, EStateM.run_bind, EStateM.run_get,
    if_neg (Nat.not_lt.mpr header), readThreeBytes_run (show 3 ≤ b.readableBytes by omega),
    readUint8_run shown, advance_advance]
  rfl

theorem readPacket_headless {α : Type} (readFields : UInt32 → BufferM (Option α)) {b : Buffer}
    (header : b.readableBytes < 4) : (Packet.readPacket readFields).run b = .ok none b := by
  simp only [Packet.readPacket, Packet.readHeader, EStateM.run_bind, EStateM.run_get, if_pos header]
  rfl

theorem readPacket_eq {α : Type} (readFields : UInt32 → BufferM (Option α)) {b : Buffer}
    (header : 4 ≤ b.readableBytes) : (Packet.readPacket readFields).run b =
      if b.readableBytes < 4 + payloadLength b.readable then .ok none (b.advance 4)
      else (readFields (UInt32.ofNat (payloadLength b.readable))).run (b.advance 4) := by
  obtain ⟨sequenceId, read⟩ := readHeader_run header
  simp only [Packet.readPacket, EStateM.run_bind, read, EStateM.run_get, readableBytes_advance,
    toNat_payloadLength]
  by_cases short : b.readableBytes - 4 < payloadLength b.readable
  · rw [if_pos short, if_pos (by omega)]
    rfl
  · rw [if_neg short, if_neg (by omega)]

theorem setReaderIndex_run {b : Buffer} {index : Nat} (inside : index ≤ b.writeIndex) :
    (setReaderIndex index).run b = .ok () { b with readIndex := index } := by
  simp only [setReaderIndex, EStateM.run_bind, EStateM.run_get, if_neg (Nat.not_lt.mpr inside)]
  rfl

theorem checkPacketComplete_run (b : Buffer) : checkPacketComplete.run b =
    .ok (if 4 ≤ b.readableBytes ∧ 4 + payloadLength b.readable ≤ b.readableBytes then
      4 + payloadLength b.readable else 0) b := by
  by_cases header : b.readableBytes < 4
  · simp only [checkPacketComplete, EStateM.run_bind, EStateM.run_get, if_pos header,
      if_neg (fun whole : 4 ≤ b.readableBytes ∧ _ => Nat.not_le.mpr header whole.1)]
    rfl
  · have restored : { b.advance 3 with readIndex := b.readIndex } = b := rfl
    have inside : b.readIndex ≤ (b.advance 3).writeIndex := by
      simp only [readableBytes] at header
      simp only [Buffer.advance]
      omega
    simp only [checkPacketComplete, EStateM.run_bind, EStateM.run_get, if_neg header,
      readThreeBytes_run (show 3 ≤ b.readableBytes by omega), setReaderIndex_run inside, restored,
      toNat_payloadLength]
    by_cases whole : 4 + payloadLength b.readable ≤ b.readableBytes
    · rw [if_pos whole, if_pos ⟨by omega, whole⟩]
      rfl
    · rw [if_neg whole, if_neg (fun both => whole both.2)]
      rfl

theorem Buffer.Sound.writeHeader {b : Buffer} {queue : Bytes} (sound : Sound b queue)
    (length : Nat) (sequenceId : UInt8) :
    Sound (Packet.writeHeader (UInt32.ofNat length) sequenceId b)
      (queue ++ (le 3 length ++ [sequenceId])) := by
  have written := (((sound.writeUint8 (UInt32.ofNat length &&& 0xFF).toUInt8).writeUint8
    ((UInt32.ofNat length >>> 8) &&& 0xFF).toUInt8).writeUint8
      ((UInt32.ofNat length >>> 16) &&& 0xFF).toUInt8).writeUint8 sequenceId
  have bytes : [(UInt32.ofNat length &&& 0xFF).toUInt8,
      ((UInt32.ofNat length >>> 8) &&& 0xFF).toUInt8,
      ((UInt32.ofNat length >>> 16) &&& 0xFF).toUInt8] = le 3 length := by
    rw [byte32, byte32, UInt32.toNat_ofNat', ← le_mod (show 3 ≤ 4 by decide) length]
    simp only [le, Nat.div_div_eq_div_mul]
    exact congrArg (· :: _) (low_byte (UInt32.ofNat length).toNat)
  rw [Packet.writeHeader, ← bytes]
  simpa only [List.append_assoc, List.cons_append, List.nil_append] using written

theorem Buffer.Sound.writePacket {b payload : Buffer} {queue bytes : Bytes} (sound : Sound b queue)
    (body : Sound payload bytes) (sequenceId : UInt8) :
    Sound (Packet.writePacket payload sequenceId b) (queue ++ packet sequenceId bytes) := by
  have length : payload.readableBytes = bytes.length := by
    rw [← readable_length, body.readable]
  have written := (sound.writeHeader bytes.length sequenceId).append bytes
  rw [Packet.writePacket, length, body.readable, packet]
  simpa only [List.append_assoc, List.singleton_append] using written

end TinySql
