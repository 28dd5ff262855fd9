import TinySql.Protocol.Packet

/-!
# The handshake

The greeting that the server sends, and the response in which the client names its user.
-/

namespace TinySql
open Wire Buffer Packet

namespace CapabilityFlags

def CLIENT_LONG_PASSWORD : UInt32 := 0x00000001
def CLIENT_CONNECT_WITH_DB : UInt32 := 0x00000008
def CLIENT_PROTOCOL_41 : UInt32 := 0x00000200
def CLIENT_SECURE_CONNECTION : UInt32 := 0x00008000
def CLIENT_PLUGIN_AUTH : UInt32 := 0x00080000
def CLIENT_PLUGIN_AUTH_LENENC_CLIENT_DATA : UInt32 := 0x00200000
def CLIENT_DEPRECATE_EOF : UInt32 := 0x01000000

end CapabilityFlags

open CapabilityFlags

def hasFlag (flags flag : UInt32) : Bool := flags &&& flag != 0

structure HandshakeV10Packet where
  protocolVersion : UInt8 := 10
  serverVersion : Bytes := ascii "1.0.0-tiny-sql"
  connectionId : UInt32 := 0
  authPluginData : Vector UInt8 20
  capabilityFlags : UInt32 := CLIENT_LONG_PASSWORD ||| CLIENT_PROTOCOL_41 |||
    CLIENT_SECURE_CONNECTION ||| CLIENT_PLUGIN_AUTH ||| CLIENT_CONNECT_WITH_DB |||
    CLIENT_DEPRECATE_EOF
  characterSet : UInt8 := 45
  statusFlags : UInt16 := 0x0002
  authPluginName : Bytes := ascii "mysql_native_password"
  deriving DecidableEq, Repr

def HandshakeV10Packet.encode (p : HandshakeV10Packet) (sequenceId : UInt8) (buffer : Buffer) :
    Buffer :=
  let payload := Buffer.empty.writeUint8 p.protocolVersion
    |>.writeString p.serverVersion
    |>.writeUint8 0
    |>.writeUint32 p.connectionId
  let payload := (p.authPluginData.toList.take 8).foldl (fun payload b => payload.writeUint8 b) payload
  let payload := payload.writeUint8 0
    |>.writeUint16 (p.capabilityFlags &&& 0xFFFF).toUInt16
    |>.writeUint8 p.characterSet
    |>.writeUint16 p.statusFlags
    |>.writeUint16 ((p.capabilityFlags >>> 16) &&& 0xFFFF).toUInt16
    |>.writeUint8 21
  let payload := (List.replicate 10 0).foldl (fun payload b => payload.writeUint8 b) payload
  let payload := (p.authPluginData.toList.drop 8).foldl (fun payload b => payload.writeUint8 b) payload
  let payload := payload.writeUint8 0
  let payload :=
    if hasFlag p.capabilityFlags CLIENT_PLUGIN_AUTH then
      (payload.writeString p.authPluginName).writeUint8 0
    else payload
  writePacket payload sequenceId buffer

structure HandshakeResponse41Packet where
  capabilityFlags : UInt32 := 0
  maxPacketSize : UInt32 := 0
  characterSet : UInt8 := 0
  username : Bytes := []
  authResponse : Bytes := []
  database : Bytes := []
  authPluginName : Bytes := []
  deriving DecidableEq, Repr

namespace HandshakeResponse41Packet

def readReserved : Nat → BufferM Unit
  | 0 => pure ()
  | n + 1 => do
      let _ ← readUint8
      readReserved n

/-- The response to the challenge, in the form that the flags announce. -/
def readAuthResponse (flags : UInt32) : BufferM Bytes := do
  if hasFlag flags CLIENT_PLUGIN_AUTH_LENENC_CLIENT_DATA then
    let authLen ← readLenencInt
    retrieve authLen.toNat
  else if hasFlag flags CLIENT_SECURE_CONNECTION then
    let authLen ← readUint8
    retrieve authLen.toNat
  else readNullTerminatedString

/-- A string that is there only when its flag is set; without it the field keeps its value. -/
def readOptional (flags flag : UInt32) (old : Bytes) : BufferM Bytes := do
  if hasFlag flags flag then readNullTerminatedString else return old

def readFields (self : HandshakeResponse41Packet) : BufferM HandshakeResponse41Packet := do
  let capabilityFlags ← readUint32
  let maxPacketSize ← readUint32
  let characterSet ← readUint8
  readReserved 23
  let username ← readNullTerminatedString
  let authResponse ← readAuthResponse capabilityFlags
  let database ← readOptional capabilityFlags CLIENT_CONNECT_WITH_DB self.database
  let authPluginName ← readOptional capabilityFlags CLIENT_PLUGIN_AUTH self.authPluginName
  return ⟨capabilityFlags, maxPacketSize, characterSet, username, authResponse, database,
    authPluginName⟩

/-- `decode`; `none` when it returns false, which it does before it has read a field. -/
def decode (self : HandshakeResponse41Packet) : BufferM (Option HandshakeResponse41Packet) := do
  match ← readHeader with
  | none => return none
  | some header =>
      if (← get).readableBytes < header.payloadLength.toNat then return none
      some <$> self.readFields

def writeReserved : Nat → Buffer → Buffer
  | 0, payload => payload
  | n + 1, payload => writeReserved n (payload.writeUint8 0)

def writeAuthResponse (flags : UInt32) (authResponse : Bytes) (payload : Buffer) : Buffer :=
  if hasFlag flags CLIENT_PLUGIN_AUTH_LENENC_CLIENT_DATA then
    (payload.writeLenencInt (UInt64.ofNat authResponse.length)).append authResponse
  else if hasFlag flags CLIENT_SECURE_CONNECTION then
    (payload.writeUint8 (UInt8.ofNat authResponse.length)).append authResponse
  else (payload.append authResponse).writeUint8 0

def writeOptional (flags flag : UInt32) (text : Bytes) (payload : Buffer) : Buffer :=
  if hasFlag flags flag then (payload.writeString text).writeUint8 0 else payload

def encode (p : HandshakeResponse41Packet) (sequenceId : UInt8) (buffer : Buffer) : Buffer :=
  let payload := Buffer.empty.writeUint32 p.capabilityFlags
    |>.writeUint32 p.maxPacketSize
    |>.writeUint8 p.characterSet
  let payload := ((writeReserved 23 payload).writeString p.username).writeUint8 0
  let payload := writeAuthResponse p.capabilityFlags p.authResponse payload
  let payload := writeOptional p.capabilityFlags CLIENT_CONNECT_WITH_DB p.database payload
  let payload := writeOptional p.capabilityFlags CLIENT_PLUGIN_AUTH p.authPluginName payload
  writePacket payload sequenceId buffer

end HandshakeResponse41Packet

/-! ## The greeting as a client reads it -/

namespace HandshakeV10Packet
open HandshakeResponse41Packet (readReserved readOptional)

/-- Read `n` bytes of the challenge into the array from position `i` on. -/
def readAuthPluginData : Nat → Nat → Vector UInt8 20 → BufferM (Vector UInt8 20)
  | 0, _, data => pure data
  | n + 1, i, data => do
      let byte ← readUint8
      readAuthPluginData n (i + 1) (data.setIfInBounds i byte)

def readFields (self : HandshakeV10Packet) : BufferM HandshakeV10Packet := do
  let protocolVersion ← readUint8
  let serverVersion ← readNullTerminatedString
  let connectionId ← readUint32
  let authPluginData ← readAuthPluginData 8 0 self.authPluginData
  let _ ← readUint8
  let capLower ← readUint16
  let characterSet ← readUint8
  let statusFlags ← readUint16
  let capUpper ← readUint16
  let capabilityFlags := capUpper.toUInt32 <<< 16 ||| capLower.toUInt32
  let authPluginDataLen ← readUint8
  readReserved 10
  let remainingAuthLen := (max 13 ((authPluginDataLen.toNat : Int) - 8)).toNat
  let authPluginData ← readAuthPluginData (min remainingAuthLen 12) 8 authPluginData
  let authPluginName ← readOptional capabilityFlags CLIENT_PLUGIN_AUTH self.authPluginName
  return ⟨protocolVersion, serverVersion, connectionId, authPluginData, capabilityFlags,
    characterSet, statusFlags, authPluginName⟩

def decode (self : HandshakeV10Packet) : BufferM (Option HandshakeV10Packet) :=
  readPacket fun _ => some <$> self.readFields

end HandshakeV10Packet

/-! ## The layout of the response -/

def reserved : Nat → Reader Unit
  | 0 => pure ()
  | n + 1 => do
      let _ ← uint 1
      reserved n

def authResponseField (flags : UInt32) : Reader Bytes := do
  if hasFlag flags CLIENT_PLUGIN_AUTH_LENENC_CLIENT_DATA then
    lenencString
  else if hasFlag flags CLIENT_SECURE_CONNECTION then
    let authLen ← uint 1
    take authLen
  else untilZero

def optionalField (flags flag : UInt32) (old : Bytes) : Reader Bytes := do
  if hasFlag flags flag then untilZero else return old

def handshakeFields (self : HandshakeResponse41Packet) : Reader HandshakeResponse41Packet := do
  let capabilityFlags ← UInt32.ofNat <$> uint 4
  let maxPacketSize ← UInt32.ofNat <$> uint 4
  let characterSet ← UInt8.ofNat <$> uint 1
  reserved 23
  let username ← untilZero
  let authResponse ← authResponseField capabilityFlags
  let database ← optionalField capabilityFlags CLIENT_CONNECT_WITH_DB self.database
  let authPluginName ← optionalField capabilityFlags CLIENT_PLUGIN_AUTH self.authPluginName
  return ⟨capabilityFlags, maxPacketSize, characterSet, username, authResponse, database,
    authPluginName⟩

theorem reserved_local (n : Nat) : Local (reserved n) := by
  induction n with
  | zero => exact Local.pure ()
  | succ n ih => exact (Local.uint 1).bind fun _ => ih

theorem authResponseField_local (flags : UInt32) : Local (authResponseField flags) := by
  unfold authResponseField
  split
  · exact Local.lenencString
  · split
    · exact (Local.uint 1).bind fun authLen => Local.take authLen
    · exact Local.untilZero

theorem optionalField_local (flags flag : UInt32) (old : Bytes) :
    Local (optionalField flags flag old) := by
  unfold optionalField
  split
  · exact Local.untilZero
  · exact Local.pure old

theorem handshakeFields_local (self : HandshakeResponse41Packet) : Local (handshakeFields self) :=
  ((Local.uint 4).map _).bind fun _ => ((Local.uint 4).map _).bind fun _ =>
    ((Local.uint 1).map _).bind fun _ => (reserved_local 23).bind fun _ =>
      Local.untilZero.bind fun _ => (authResponseField_local _).bind fun _ =>
        (optionalField_local _ _ _).bind fun _ => (optionalField_local _ _ _).bind fun _ =>
          Local.pure _

namespace HandshakeResponse41Packet

theorem readReserved_implements (n : Nat) : Implements (readReserved n) (reserved n) := by
  induction n with
  | zero => exact Implements.pure ()
  | succ n ih =>
      have skip : (uint 1 >>= fun _ => reserved n) =
          (UInt8.ofNat <$> uint 1) >>= fun _ => reserved n := by rw [bind_map_left]
      rw [readReserved, reserved, skip]
      exact readUint8_implements.bind fun _ => ih

theorem readAuthResponse_implements (flags : UInt32) :
    Implements (readAuthResponse flags) (authResponseField flags) := by
  unfold readAuthResponse authResponseField
  split
  · rw [lenencString_eq]
    exact readLenencInt_implements.bind fun authLen => retrieve_implements authLen.toNat
  · split
    · have reader : (uint 1 >>= fun authLen => take authLen) =
          (UInt8.ofNat <$> uint 1) >>= fun authLen => take authLen.toNat := by
        rw [bind_map_left]
        refine uint_bind_congr fun n small => ?_
        rw [UInt8.toNat_ofNat']
        exact congrArg take (Nat.mod_eq_of_lt small).symm
      rw [reader]
      exact readUint8_implements.bind fun authLen => retrieve_implements authLen.toNat
    · exact readNullTerminatedString_implements

theorem readOptional_implements (flags flag : UInt32) (old : Bytes) :
    Implements (readOptional flags flag old) (optionalField flags flag old) := by
  unfold readOptional optionalField
  split
  · exact readNullTerminatedString_implements
  · exact Implements.pure old

theorem readFields_implements (self : HandshakeResponse41Packet) :
    Implements self.readFields (handshakeFields self) :=
  readUint32_implements.bind fun _ => readUint32_implements.bind fun _ =>
    readUint8_implements.bind fun _ => (readReserved_implements 23).bind fun _ =>
      readNullTerminatedString_implements.bind fun _ =>
        (readAuthResponse_implements _).bind fun _ =>
          (readOptional_implements _ _ _).bind fun _ =>
            (readOptional_implements _ _ _).bind fun _ => Implements.pure _

theorem decode_run (self : HandshakeResponse41Packet) {b : Buffer} (header : 4 ≤ b.readableBytes) :
    self.decode.run b =
      if b.readableBytes < 4 + payloadLength b.readable then .ok none (b.advance 4)
      else (some <$> self.readFields).run (b.advance 4) :=
  readPacket_eq (fun _ => some <$> self.readFields) header

/-- A whole packet is decoded when the bytes behind its header hold the fields; otherwise a read
throws. -/
theorem decode_whole (self : HandshakeResponse41Packet) {b : Buffer} (header : 4 ≤ b.readableBytes)
    (whole : 4 + payloadLength b.readable ≤ b.readableBytes) :
    match (handshakeFields self).run (b.readable.drop 4) with
    | some (p, _) => ∃ b', self.decode.run b = .ok (some p) b'
    | none => ∃ e b', self.decode.run b = .error e b' := by
  have implements := self.readFields_implements.map some
  rw [self.decode_run header, if_neg (Nat.not_lt.mpr whole), ← readable_advance]
  cases fields : (handshakeFields self).run (b.advance 4).readable with
  | none => exact implements.throws (b.advance 4) (by rw [StateT.run_map, fields]; rfl)
  | some found =>
      obtain ⟨used, -, read⟩ := implements.reads (b.advance 4) (some found.1) found.2
        (by rw [StateT.run_map, fields]; rfl)
      exact ⟨_, read⟩

end HandshakeResponse41Packet

end TinySql
