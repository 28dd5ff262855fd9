import TinySql.Protocol.Handshake
import TinySql.Protocol.Response

/-!
# What the decoders read

Each `decode` reads the header and then a format of fields, which begins inside the payload but is
read from everything that the buffer holds. These are the formats, as readers.
-/

namespace TinySql
open Wire Buffer Packet CapabilityFlags

variable {α : Type}

theorem packet_append_readable {b : Buffer} {sequenceId : UInt8} {payload tail : Bytes}
    (shown : b.readable = packet sequenceId payload ++ tail) :
    4 ≤ b.readableBytes ∧ payloadLength b.readable = payload.length % 2 ^ 24 ∧
      b.readableBytes = 4 + payload.length + tail.length ∧
      (b.advance 4).readable = payload ++ tail := by
  have size : b.readableBytes = 4 + payload.length + tail.length := by
    rw [← readable_length, shown, List.length_append, length_packet]
  have behind : (packet sequenceId payload ++ tail).drop 4 = payload ++ tail := by
    rw [show 4 = 3 + 1 by rfl, ← List.drop_drop, drop_packet, List.drop_one, List.tail_cons]
  refine ⟨by omega, ?_, size, ?_⟩
  · have header : (packet sequenceId payload ++ tail).take 3 = le 3 payload.length := by
      rw [packet, List.append_assoc, List.take_left' (length_le 3 _)]
    rw [shown, payloadLength, header, ← le_mod (show 3 ≤ 3 by decide),
      ofLe_le 3 _ (Nat.mod_lt _ (by decide)), show 256 ^ 3 = 2 ^ 24 by rfl]
  · rw [readable_advance, shown, behind]

/-- On a whole packet `decode` does what its format does on the payload and the bytes behind it,
also where the header tells a part of the payload only. -/
theorem readPacket_run {readFields : UInt32 → BufferM (Option α)}
    {fields : UInt32 → Reader (Option α)}
    (implements : ∀ length, Implements (readFields length) (fields length)) {b : Buffer}
    {sequenceId : UInt8} {payload tail : Bytes}
    (shown : b.readable = packet sequenceId payload ++ tail) :
    match (fields (UInt32.ofNat (payload.length % 2 ^ 24))).run (payload ++ tail) with
    | some (a, rest) => ∃ used, payload ++ tail = used ++ rest ∧
        (readPacket readFields).run b = .ok a (b.advance (4 + used.length))
    | none => ∃ e b', (readPacket readFields).run b = .error e b' := by
  obtain ⟨header, length, size, behind⟩ := packet_append_readable shown
  have start : (readPacket readFields).run b =
      (readFields (UInt32.ofNat (payload.length % 2 ^ 24))).run (b.advance 4) := by
    have whole : ¬ b.readableBytes < 4 + payload.length % 2 ^ 24 := by
      rw [size]
      omega
    rw [readPacket_eq readFields header, length, if_neg whole]
  rw [start, ← behind]
  cases fields : (fields (UInt32.ofNat (payload.length % 2 ^ 24))).run (b.advance 4).readable with
  | none => exact (implements _).throws _ fields
  | some found =>
      obtain ⟨used, split, ran⟩ := (implements _).reads _ found.1 found.2 fields
      refine ⟨used, split, ?_⟩
      rw [ran, advance_advance]

theorem readPacket_reads {readFields : UInt32 → BufferM (Option α)}
    {fields : UInt32 → Reader (Option α)}
    (implements : ∀ length, Implements (readFields length) (fields length)) {b : Buffer}
    {sequenceId : UInt8} {payload tail used rest : Bytes} {a : Option α}
    (shown : b.readable = packet sequenceId payload ++ tail) (split : payload ++ tail = used ++ rest)
    (reads : Reads (fields (UInt32.ofNat (payload.length % 2 ^ 24))) used a) :
    ∃ b', (readPacket readFields).run b = .ok a b' ∧ b'.readable = rest := by
  have ran := readPacket_run implements shown
  rw [split, reads.run rest] at ran
  obtain ⟨taken, same, ran⟩ := ran
  obtain rfl : used = taken := List.append_cancel_right same
  refine ⟨_, ran, ?_⟩
  rw [← advance_advance, readable_advance, (packet_append_readable shown).2.2.2, split,
    List.drop_left]

/-! ## Status packets -/

def GenericPacket.format (length : UInt32) : Reader (Option GenericPacket) := do
  let payload ← take length.toNat
  return some ⟨payload⟩

def restField (length : Nat) (old : Bytes) : Reader Bytes :=
  if 0 < length then take length else pure old

def OkPacket.rest (payloadLength : UInt32) (affectedRows lastInsertId : UInt64) : Nat :=
  (payloadLength.toUInt64 -
    (1 + getLenencIntSize affectedRows + getLenencIntSize lastInsertId + 4)).toNat

def OkPacket.tailFields (self : OkPacket) (length : UInt32) (affectedRows lastInsertId : UInt64) :
    Reader OkPacket := do
  let statusFlags ← UInt16.ofNat <$> uint 2
  let warnings ← UInt16.ofNat <$> uint 2
  let info ← restField (rest length affectedRows lastInsertId) self.info
  return ⟨affectedRows, lastInsertId, statusFlags, warnings, info⟩

def OkPacket.fields (self : OkPacket) (length : UInt32) : Reader OkPacket := do
  let affectedRows ← UInt64.ofNat <$> lenenc
  let lastInsertId ← UInt64.ofNat <$> lenenc
  self.tailFields length affectedRows lastInsertId

def ErrPacket.fields (self : ErrPacket) (length : UInt32) : Reader ErrPacket := do
  let errorCode ← UInt16.ofNat <$> uint 2
  let _ ← UInt8.ofNat <$> uint 1
  let sqlState ← take 5
  let errorMessage ← restField (length - 1 - 2 - 1 - 5).toNat self.errorMessage
  return ⟨errorCode, sqlState, errorMessage⟩

def EofPacket.fields : Reader EofPacket := do
  let warnings ← UInt16.ofNat <$> uint 2
  let statusFlags ← UInt16.ofNat <$> uint 2
  return ⟨warnings, statusFlags⟩

/-- Fields behind a first byte. Another byte makes `decode` return false. -/
def headed (headers : List UInt8) (fields : Reader α) : Reader (Option α) := do
  let packetHeader ← UInt8.ofNat <$> uint 1
  if packetHeader ∈ headers then some <$> fields else return none

def OkPacket.format (self : OkPacket) (length : UInt32) : Reader (Option OkPacket) :=
  headed [0x00, 0xFE] (self.fields length)

def ErrPacket.format (self : ErrPacket) (length : UInt32) : Reader (Option ErrPacket) :=
  headed [0xFF] (self.fields length)

def EofPacket.format : Reader (Option EofPacket) := headed [0xFE] EofPacket.fields

theorem readRest_implements (length : Nat) (old : Bytes) :
    Implements (readRest length old) (restField length old) := by
  unfold readRest restField
  split
  · exact readString_implements length
  · exact Implements.pure old

theorem GenericPacket.readFields_implements (length : UInt32) :
    Implements (do let payload ← retrieve length.toNat; return some ⟨payload⟩)
      (GenericPacket.format length) :=
  (retrieve_implements length.toNat).bind fun _ => Implements.pure _

theorem headed_implements {headers : List UInt8} {fields : Reader α} {c : UInt8 → Prop}
    [DecidablePred c] {m : BufferM (Option α)} (refuses : ∀ first, c first ↔ first ∉ headers)
    (implements : Implements m (some <$> fields)) :
    Implements (do let packetHeader ← readUint8; if c packetHeader then return none else m)
      (headed headers fields) := by
  apply readUint8_implements.bind
  intro packetHeader
  by_cases known : packetHeader ∈ headers
  · rw [if_pos known, if_neg fun refused => (refuses packetHeader).mp refused known]
    exact implements
  · rw [if_neg known, if_pos ((refuses packetHeader).mpr known)]
    exact Implements.pure none

theorem OkPacket.readFields_implements (self : OkPacket) (length : UInt32) :
    Implements (self.readFields length) (self.format length) := by
  apply headed_implements (fun first => by simp)
  simp only [fields, tailFields, map_bind, map_pure]
  apply readLenencInt_implements.bind
  intro affectedRows
  apply readLenencInt_implements.bind
  intro lastInsertId
  apply readUint16_implements.bind
  intro statusFlags
  apply readUint16_implements.bind
  intro warnings
  exact (readRest_implements _ self.info).bind fun info => Implements.pure _

theorem ErrPacket.readFields_implements (self : ErrPacket) (length : UInt32) :
    Implements (self.readFields length) (self.format length) := by
  apply headed_implements (fun first => by simp)
  simp only [fields, map_bind, map_pure]
  apply readUint16_implements.bind
  intro errorCode
  apply readUint8_implements.bind
  intro marker
  apply (readString_implements 5).bind
  intro sqlState
  exact (readRest_implements _ self.errorMessage).bind fun message => Implements.pure _

theorem EofPacket.readFields_implements : Implements EofPacket.readFields EofPacket.format := by
  apply headed_implements (fun first => by simp)
  simp only [fields, map_bind, map_pure]
  exact readUint16_implements.bind fun _ => readUint16_implements.bind fun _ => Implements.pure _

theorem restField_local (length : Nat) (old : Bytes) : Local (restField length old) := by
  unfold restField
  split
  · exact Local.take length
  · exact Local.pure old

theorem GenericPacket.format_local (length : UInt32) : Local (GenericPacket.format length) :=
  (Local.take length.toNat).bind fun _ => Local.pure _

theorem headed_local {fields : Reader α} (headers : List UInt8) (here : Local fields) :
    Local (headed headers fields) := by
  apply ((Local.uint 1).map UInt8.ofNat).bind
  intro packetHeader
  split
  · exact here.map some
  · exact Local.pure none

theorem OkPacket.format_local (self : OkPacket) (length : UInt32) : Local (self.format length) := by
  apply headed_local
  exact (Local.lenenc.map _).bind fun _ => (Local.lenenc.map _).bind fun _ =>
    ((Local.uint 2).map _).bind fun _ => ((Local.uint 2).map _).bind fun _ =>
      (restField_local _ _).bind fun _ => Local.pure _

theorem ErrPacket.format_local (self : ErrPacket) (length : UInt32) :
    Local (self.format length) := by
  apply headed_local
  exact ((Local.uint 2).map _).bind fun _ => ((Local.uint 1).map _).bind fun _ =>
    (Local.take 5).bind fun _ => (restField_local _ _).bind fun _ => Local.pure _

theorem EofPacket.format_local : Local EofPacket.format := by
  apply headed_local
  exact ((Local.uint 2).map _).bind fun _ => ((Local.uint 2).map _).bind fun _ => Local.pure _

/-! ## The greeting -/

namespace HandshakeV10Packet

/-- Bytes of the challenge, as `readAuthPluginData` stores them. -/
def challengeField : Nat → Nat → Vector UInt8 20 → Reader (Vector UInt8 20)
  | 0, _, data => pure data
  | n + 1, i, data => do
      let byte ← UInt8.ofNat <$> uint 1
      challengeField n (i + 1) (data.setIfInBounds i byte)

def format (self : HandshakeV10Packet) : Reader HandshakeV10Packet := do
  let protocolVersion ← UInt8.ofNat <$> uint 1
  let serverVersion ← untilZero
  let connectionId ← UInt32.ofNat <$> uint 4
  let firstPart ← challengeField 8 0 self.authPluginData
  let _ ← UInt8.ofNat <$> uint 1
  let capLower ← UInt16.ofNat <$> uint 2
  let characterSet ← UInt8.ofNat <$> uint 1
  let statusFlags ← UInt16.ofNat <$> uint 2
  let capUpper ← UInt16.ofNat <$> uint 2
  let _ ← UInt8.ofNat <$> uint 1
  reserved 10
  let authPluginData ← challengeField 12 8 firstPart
  let capabilityFlags := capUpper.toUInt32 <<< 16 ||| capLower.toUInt32
  let authPluginName ← optionalField capabilityFlags CLIENT_PLUGIN_AUTH self.authPluginName
  return ⟨protocolVersion, serverVersion, connectionId, authPluginData, capabilityFlags,
    characterSet, statusFlags, authPluginName⟩

theorem readAuthPluginData_implements (n i : Nat) (data : Vector UInt8 20) :
    Implements (readAuthPluginData n i data) (challengeField n i data) := by
  induction n generalizing i data with
  | zero => exact Implements.pure data
  | succ n ih => exact readUint8_implements.bind fun byte => ih (i + 1) _

/-- Whatever length the greeting tells, 12 bytes of the second part are read. -/
theorem second_part (authPluginDataLen : UInt8) :
    min (max 13 ((authPluginDataLen.toNat : Int) - 8)).toNat 12 = 12 := by
  omega

theorem readFields_implements (self : HandshakeV10Packet) :
    Implements self.readFields self.format := by
  apply readUint8_implements.bind
  intro protocolVersion
  apply readNullTerminatedString_implements.bind
  intro serverVersion
  apply readUint32_implements.bind
  intro connectionId
  apply (readAuthPluginData_implements 8 0 _).bind
  intro firstPart
  apply readUint8_implements.bind
  intro filler
  apply readUint16_implements.bind
  intro capLower
  apply readUint8_implements.bind
  intro characterSet
  apply readUint16_implements.bind
  intro statusFlags
  apply readUint16_implements.bind
  intro capUpper
  apply readUint8_implements.bind
  intro authPluginDataLen
  apply (HandshakeResponse41Packet.readReserved_implements 10).bind
  intro _
  dsimp only
  rw [second_part]
  apply (readAuthPluginData_implements 12 8 firstPart).bind
  intro authPluginData
  apply (HandshakeResponse41Packet.readOptional_implements _ _ _).bind
  intro authPluginName
  exact Implements.pure _

end HandshakeV10Packet

theorem HandshakeV10Packet.challengeField_local (n i : Nat) (data : Vector UInt8 20) :
    Local (challengeField n i data) := by
  induction n generalizing i data with
  | zero => exact Local.pure data
  | succ n ih => exact ((Local.uint 1).map _).bind fun byte => ih (i + 1) _

theorem HandshakeV10Packet.format_local (self : HandshakeV10Packet) : Local self.format :=
  ((Local.uint 1).map _).bind fun _ => Local.untilZero.bind fun _ =>
    ((Local.uint 4).map _).bind fun _ => (challengeField_local 8 0 _).bind fun _ =>
      ((Local.uint 1).map _).bind fun _ => ((Local.uint 2).map _).bind fun _ =>
        ((Local.uint 1).map _).bind fun _ => ((Local.uint 2).map _).bind fun _ =>
          ((Local.uint 2).map _).bind fun _ => ((Local.uint 1).map _).bind fun _ =>
            (reserved_local 10).bind fun _ => (challengeField_local 12 8 _).bind fun _ =>
              (optionalField_local _ _ _).bind fun _ => Local.pure _

end TinySql
