import TinySql.Protocol.Decoding

/-!
# Decoding what was encoded

The status packets and the handshake response come back from their bytes. The greeting does not:
`encode` ends the second part of the challenge with a zero byte that `decode` takes for the name of
the plugin, or leaves behind.
-/

namespace TinySql
open Wire Buffer Packet CapabilityFlags

/-- Whatever stands behind the packet that `encode` writes, `decode` gives `p` back and leaves just
that. -/
def RoundTrips {α : Type} (decode : BufferM (Option α)) (encode : UInt8 → Buffer → Buffer) (p : α) :
    Prop :=
  ∀ (sequenceId : UInt8) (tail : Bytes) (b : Buffer),
    b.readable = (encode sequenceId Buffer.empty).readable ++ tail →
    ∃ b', decode.run b = .ok (some p) b' ∧ b'.readable = tail

theorem roundTrips_of_reads {α : Type} {readFields : UInt32 → BufferM (Option α)}
    {fields : UInt32 → Reader (Option α)}
    (implements : ∀ length, Implements (readFields length) (fields length))
    {encode : UInt8 → Buffer → Buffer} {payload : Bytes} {p : α} (short : payload.length < 2 ^ 24)
    (writes : ∀ sequenceId, Sound (encode sequenceId Buffer.empty) ([] ++ packet sequenceId payload))
    (reads : Reads (fields (UInt32.ofNat payload.length)) payload (some p)) :
    RoundTrips (readPacket readFields) encode p := by
  intro sequenceId tail b shown
  rw [(writes sequenceId).readable, List.nil_append] at shown
  apply readPacket_reads implements shown rfl
  rwa [Nat.mod_eq_of_lt short]

/-! ## Status packets -/

theorem reads_restField {length : Nat} {text : Bytes} (same : length = text.length) :
    Reads (restField length []) text text := by
  subst same
  unfold restField
  split
  · exact reads_take text
  · rename_i empty
    obtain rfl : text = [] := List.length_eq_zero_iff.mp (Nat.eq_zero_of_not_pos empty)
    exact Reads.pure []

theorem length_lenencBytes_le (n : Nat) :
    1 ≤ (lenencBytes n).length ∧ (lenencBytes n).length ≤ 9 := by
  rw [length_lenencBytes]
  split_ifs <;> decide

/-- What `decode` takes for the length of the info text: the payload less its fields in their
shortest form, counted around when these are longer. -/
theorem OkPacket.rest_eq (length : UInt32) (affectedRows lastInsertId : UInt64) :
    rest length affectedRows lastInsertId =
      (length.toNat + 2 ^ 64 - (5 + (lenencBytes affectedRows.toNat).length +
        (lenencBytes lastInsertId.toNat).length)) % 2 ^ 64 := by
  have first := length_lenencBytes_le affectedRows.toNat
  have second := length_lenencBytes_le lastInsertId.toNat
  have fields : (1 + getLenencIntSize affectedRows + getLenencIntSize lastInsertId + 4).toNat =
      5 + (lenencBytes affectedRows.toNat).length + (lenencBytes lastInsertId.toNat).length := by
    simp only [UInt64.toNat_add, toNat_getLenencIntSize, UInt64.reduceToNat]
    omega
  rw [rest, UInt64.toNat_sub, fields, UInt32.toNat_toUInt64]
  congr 1
  omega

theorem toNat_length {n : Nat} (short : n < 2 ^ 24) : (UInt32.ofNat n).toNat = n := by
  rw [UInt32.toNat_ofNat', Nat.mod_eq_of_lt (by omega)]

theorem reads_headed {α : Type} {headers : List UInt8} {first : UInt8} {fields : Reader α} {bytes : Bytes}
    {a : α} (known : first ∈ headers) (reads : Reads fields bytes a) :
    Reads (headed headers fields) ([first] ++ bytes) (some a) := by
  apply (reads_uint8 first).bind
  rw [if_pos known]
  exact reads.map some

theorem OkPacket.reads_payload (p : OkPacket) (short : p.payload.length < 2 ^ 24) :
    Reads (OkPacket.new.format (UInt32.ofNat p.payload.length)) p.payload (some p) := by
  have rest : rest (UInt32.ofNat p.payload.length) p.affectedRows p.lastInsertId =
      p.info.length := by
    have total : p.payload.length = 5 + (lenencBytes p.affectedRows.toNat).length +
        (lenencBytes p.lastInsertId.toNat).length + p.info.length := by
      simp only [payload, List.length_cons, List.length_append, length_le]
      omega
    rw [rest_eq, toNat_length short, total]
    omega
  have layout : p.payload = [0x00] ++ (lenencBytes p.affectedRows.toNat ++
      (lenencBytes p.lastInsertId.toNat ++ (le 2 p.statusFlags.toNat ++ (le 2 p.warnings.toNat ++
        (p.info ++ []))))) := by
    simp [payload]
  rw [layout]
  apply reads_headed (by decide)
  apply (reads_lenenc64 p.affectedRows).bind
  apply (reads_lenenc64 p.lastInsertId).bind
  apply (reads_uint16 p.statusFlags).bind
  apply (reads_uint16 p.warnings).bind
  rw [← layout, rest]
  exact (reads_restField rfl).bind (Reads.pure _)

theorem ErrPacket.reads_payload (p : ErrPacket) (state : p.sqlState.length = 5)
    (short : p.payload.length < 2 ^ 24) :
    Reads (ErrPacket.new.format (UInt32.ofNat p.payload.length)) p.payload (some p) := by
  have kept : fiveBytes p.sqlState = p.sqlState := if_neg (not_not_intro state)
  have rest : (UInt32.ofNat p.payload.length - 1 - 2 - 1 - 5).toNat = p.errorMessage.length := by
    have length : p.payload.length = 9 + p.errorMessage.length := by
      simp only [payload, kept, List.length_cons, List.length_append, length_le, state]
      rw [show (ascii "#").length = 1 by rfl]
      omega
    simp only [UInt32.toNat_sub, toNat_length short, UInt32.reduceToNat]
    omega
  have layout : p.payload = [0xFF] ++ (le 2 p.errorCode.toNat ++ (ascii "#" ++ (p.sqlState ++
      (p.errorMessage ++ [])))) := by
    simp [payload, kept]
  rw [layout]
  apply reads_headed (by decide)
  apply (reads_uint16 p.errorCode).bind
  apply (reads_uint8 '#'.toUInt8).bind
  have five := reads_take p.sqlState
  rw [state] at five
  apply five.bind
  rw [← layout, rest]
  exact (reads_restField rfl).bind (Reads.pure _)

theorem EofPacket.reads_payload (p : EofPacket) : Reads EofPacket.format p.payload (some p) := by
  have layout : p.payload = [0xFE] ++ (le 2 p.warnings.toNat ++ (le 2 p.statusFlags.toNat ++ [])) := by
    simp [payload]
  rw [layout]
  apply reads_headed (by decide)
  exact (reads_uint16 p.warnings).bind ((reads_uint16 p.statusFlags).bind (Reads.pure _))

theorem length_fiveBytes (sqlState : Bytes) : (fiveBytes sqlState).length = 5 := by
  unfold fiveBytes
  split
  · rfl
  · rename_i five
    exact not_not.mp five

theorem OkPacket.roundTrips (p : OkPacket) (short : p.payload.length < 2 ^ 24) :
    RoundTrips OkPacket.new.decode p.encode p :=
  roundTrips_of_reads OkPacket.new.readFields_implements short
    (fun sequenceId => p.encode_sound sequenceId Sound.empty) (p.reads_payload short)

theorem ErrPacket.roundTrips (errorCode : UInt16) (sqlState errorMessage : Bytes)
    (short : (ErrPacket.create errorCode sqlState errorMessage).payload.length < 2 ^ 24) :
    RoundTrips ErrPacket.new.decode (ErrPacket.create errorCode sqlState errorMessage).encode
      (ErrPacket.create errorCode sqlState errorMessage) :=
  roundTrips_of_reads ErrPacket.new.readFields_implements short
    (fun sequenceId => ErrPacket.encode_sound _ sequenceId Sound.empty)
    (ErrPacket.reads_payload _ (length_fiveBytes sqlState) short)

theorem EofPacket.roundTrips (p : EofPacket) : RoundTrips EofPacket.decode p.encode p :=
  roundTrips_of_reads (fun _ => EofPacket.readFields_implements)
    (by simp [EofPacket.payload]) (fun sequenceId => p.encode_sound sequenceId Sound.empty)
    p.reads_payload

/-! ## The handshake response -/

namespace HandshakeResponse41Packet

def authResponseBytes (flags : UInt32) (authResponse : Bytes) : Bytes :=
  if hasFlag flags CLIENT_PLUGIN_AUTH_LENENC_CLIENT_DATA then lenencText authResponse
  else if hasFlag flags CLIENT_SECURE_CONNECTION then
    UInt8.ofNat authResponse.length :: authResponse
  else authResponse ++ [0]

def optionalBytes (flags flag : UInt32) (text : Bytes) : Bytes :=
  if hasFlag flags flag then text ++ [0] else []

def payload (p : HandshakeResponse41Packet) : Bytes :=
  le 4 p.capabilityFlags.toNat ++ le 4 p.maxPacketSize.toNat ++ [p.characterSet] ++
    List.replicate 23 0 ++ (p.username ++ [0]) ++
    authResponseBytes p.capabilityFlags p.authResponse ++
    optionalBytes p.capabilityFlags CLIENT_CONNECT_WITH_DB p.database ++
    optionalBytes p.capabilityFlags CLIENT_PLUGIN_AUTH p.authPluginName

/-- The texts have no zero byte, a field whose flag is off is empty, and the response to the
challenge fits the form that the flags give it. -/
structure WellFormed (p : HandshakeResponse41Packet) : Prop where
  username : 0 ∉ p.username
  database : 0 ∉ p.database
  authPluginName : 0 ∉ p.authPluginName
  noDatabase : hasFlag p.capabilityFlags CLIENT_CONNECT_WITH_DB = false → p.database = []
  noPlugin : hasFlag p.capabilityFlags CLIENT_PLUGIN_AUTH = false → p.authPluginName = []
  secure : hasFlag p.capabilityFlags CLIENT_PLUGIN_AUTH_LENENC_CLIENT_DATA = false →
    hasFlag p.capabilityFlags CLIENT_SECURE_CONNECTION = true → p.authResponse.length ≤ 255
  terminated : hasFlag p.capabilityFlags CLIENT_PLUGIN_AUTH_LENENC_CLIENT_DATA = false →
    hasFlag p.capabilityFlags CLIENT_SECURE_CONNECTION = false → 0 ∉ p.authResponse

variable {b : Buffer} {queue : Bytes}

theorem writeReserved_sound (n : Nat) (sound : Sound b queue) :
    Sound (writeReserved n b) (queue ++ List.replicate n 0) := by
  induction n generalizing b queue with
  | zero =>
      rw [List.replicate_zero, List.append_nil]
      exact sound
  | succ n ih =>
      have written := ih (sound.writeUint8 0)
      rwa [List.append_assoc, ← List.replicate_one, List.replicate_append_replicate,
        Nat.add_comm] at written

theorem writeAuthResponse_sound (flags : UInt32) (authResponse : Bytes) (sound : Sound b queue) :
    Sound (writeAuthResponse flags authResponse b)
      (queue ++ authResponseBytes flags authResponse) := by
  unfold writeAuthResponse authResponseBytes
  split_ifs
  · exact sound.lenencText authResponse
  · have written := (sound.writeUint8 (UInt8.ofNat authResponse.length)).append authResponse
    rwa [List.append_assoc] at written
  · exact sound.writeNullTerminatedString authResponse

theorem writeOptional_sound (flags flag : UInt32) (text : Bytes) (sound : Sound b queue) :
    Sound (writeOptional flags flag text b) (queue ++ optionalBytes flags flag text) := by
  unfold writeOptional optionalBytes
  split_ifs
  · exact sound.writeNullTerminatedString text
  · simpa using sound

theorem encode_sound (p : HandshakeResponse41Packet) (sequenceId : UInt8) (sound : Sound b queue) :
    Sound (p.encode sequenceId b) (queue ++ packet sequenceId p.payload) := by
  have fixed := ((Sound.empty.writeUint32 p.capabilityFlags).writeUint32
    p.maxPacketSize).writeUint8 p.characterSet
  have named := (writeReserved_sound 23 fixed).writeNullTerminatedString p.username
  have body := writeOptional_sound p.capabilityFlags CLIENT_PLUGIN_AUTH p.authPluginName
    (writeOptional_sound p.capabilityFlags CLIENT_CONNECT_WITH_DB p.database
      (writeAuthResponse_sound p.capabilityFlags p.authResponse named))
  exact sound.writePacket body sequenceId

theorem reads_reserved (n : Nat) : Reads (reserved n) (List.replicate n 0) () := by
  induction n with
  | zero => exact Reads.pure ()
  | succ n ih =>
      rw [List.replicate_succ, ← List.singleton_append]
      exact (reads_uint 1 0 (by decide)).bind ih

theorem reads_authResponse (p : HandshakeResponse41Packet) (wellFormed : p.WellFormed)
    (short : p.authResponse.length < 2 ^ 64) :
    Reads (authResponseField p.capabilityFlags)
      (authResponseBytes p.capabilityFlags p.authResponse) p.authResponse := by
  unfold authResponseField authResponseBytes
  cases counted : hasFlag p.capabilityFlags CLIENT_PLUGIN_AUTH_LENENC_CLIENT_DATA with
  | true =>
      rw [if_pos rfl, if_pos rfl, lenencText, Nat.mod_eq_of_lt short]
      exact reads_lenencString p.authResponse short
  | false =>
      rw [if_neg Bool.false_ne_true, if_neg Bool.false_ne_true]
      cases secure : hasFlag p.capabilityFlags CLIENT_SECURE_CONNECTION with
      | true =>
          rw [if_pos rfl, if_pos rfl]
          have fits : p.authResponse.length < 256 :=
            Nat.lt_succ_of_le (wellFormed.secure counted secure)
          exact (reads_uint 1 p.authResponse.length fits).bind (reads_take p.authResponse)
      | false =>
          rw [if_neg Bool.false_ne_true, if_neg Bool.false_ne_true]
          exact reads_untilZero p.authResponse (wellFormed.terminated counted secure)

theorem reads_optional {flags flag : UInt32} {text : Bytes} (clean : 0 ∉ text)
    (unused : hasFlag flags flag = false → text = []) :
    Reads (optionalField flags flag []) (optionalBytes flags flag text) text := by
  unfold optionalField optionalBytes
  split
  · exact reads_untilZero text clean
  · rename_i absent
    rw [unused (Bool.eq_false_iff.mpr absent)]
    exact Reads.pure []

theorem reads_payload (p : HandshakeResponse41Packet) (wellFormed : p.WellFormed)
    (short : p.payload.length < 2 ^ 24) : Reads (handshakeFields {}) p.payload p := by
  have fits : p.authResponse.length < 2 ^ 64 := by
    have inside : p.authResponse.length ≤ p.payload.length := by
      have part : p.authResponse.length ≤
          (authResponseBytes p.capabilityFlags p.authResponse).length := by
        unfold authResponseBytes lenencText
        split_ifs <;> simp
      simp only [payload, List.length_append]
      omega
    omega
  rw [← List.append_nil p.payload]
  simp only [payload, List.append_assoc]
  rw [← List.append_assoc p.username]
  apply (reads_uint32 p.capabilityFlags).bind
  apply (reads_uint32 p.maxPacketSize).bind
  apply (reads_uint8 p.characterSet).bind
  apply (reads_reserved 23).bind
  apply (reads_untilZero p.username wellFormed.username).bind
  apply (reads_authResponse p wellFormed fits).bind
  apply (reads_optional wellFormed.database wellFormed.noDatabase).bind
  apply (reads_optional wellFormed.authPluginName wellFormed.noPlugin).bind
  exact Reads.pure p

theorem roundTrips (p : HandshakeResponse41Packet) (wellFormed : p.WellFormed)
    (short : p.payload.length < 2 ^ 24) :
    RoundTrips (decode {}) p.encode p :=
  roundTrips_of_reads (fun _ => (readFields_implements {}).map some) short
    (fun sequenceId => p.encode_sound sequenceId Sound.empty)
    ((p.reads_payload wellFormed short).map some)

end HandshakeResponse41Packet

/-- The response packets and the login packet come back from their bytes, whatever follows them. -/
theorem packets_round_trip :
    (∀ p : OkPacket, p.payload.length < 2 ^ 24 → RoundTrips OkPacket.new.decode p.encode p) ∧
    (∀ errorCode sqlState errorMessage,
      (ErrPacket.create errorCode sqlState errorMessage).payload.length < 2 ^ 24 →
      RoundTrips ErrPacket.new.decode (ErrPacket.create errorCode sqlState errorMessage).encode
        (ErrPacket.create errorCode sqlState errorMessage)) ∧
    (∀ p : EofPacket, RoundTrips EofPacket.decode p.encode p) ∧
    (∀ p : HandshakeResponse41Packet, p.WellFormed → p.payload.length < 2 ^ 24 →
      RoundTrips (HandshakeResponse41Packet.decode {}) p.encode p) :=
  ⟨OkPacket.roundTrips, ErrPacket.roundTrips, EofPacket.roundTrips,
    HandshakeResponse41Packet.roundTrips⟩

/-- A login of `test` at a database, with every optional field and a response of 20 bytes. -/
def loginOfTest : HandshakeResponse41Packet where
  capabilityFlags := CLIENT_CONNECT_WITH_DB ||| CLIENT_SECURE_CONNECTION ||| CLIENT_PLUGIN_AUTH
  maxPacketSize := 0x01000000
  characterSet := 45
  username := ascii "test"
  authResponse := List.replicate 20 7
  database := ascii "shop"
  authPluginName := ascii "mysql_native_password"

theorem loginOfTest_wellFormed : loginOfTest.WellFormed := by
  constructor <;> decide

theorem packets_round_trip_samples :
    RoundTrips OkPacket.new.decode (OkPacket.mk 300 70000 2 0 (ascii "done")).encode
      ⟨300, 70000, 2, 0, ascii "done"⟩ ∧
    RoundTrips ErrPacket.new.decode (ErrPacket.create 1046 (ascii "3D000") (ascii "none")).encode
      (ErrPacket.create 1046 (ascii "3D000") (ascii "none")) ∧
    RoundTrips (HandshakeResponse41Packet.decode {}) loginOfTest.encode loginOfTest :=
  ⟨packets_round_trip.1 _ (by decide), packets_round_trip.2.1 _ _ _ (by decide),
    packets_round_trip.2.2.2 _ loginOfTest_wellFormed (by decide)⟩

/-! ## The greeting -/

namespace HandshakeV10Packet
open HandshakeResponse41Packet (optionalBytes writeOptional_sound reads_reserved)

/-- The greeting as `encode` writes it, up to the end of the challenge. -/
def front (p : HandshakeV10Packet) : Bytes :=
  [p.protocolVersion] ++ (p.serverVersion ++ [0]) ++ le 4 p.connectionId.toNat ++
    p.authPluginData.toList.take 8 ++ [0] ++ le 2 (p.capabilityFlags.toNat % 2 ^ 16) ++
    [p.characterSet] ++ le 2 p.statusFlags.toNat ++ le 2 (p.capabilityFlags.toNat / 2 ^ 16) ++
    [21] ++ List.replicate 10 0 ++ p.authPluginData.toList.drop 8

variable {b : Buffer} {queue : Bytes}

theorem writeBytes_sound (bytes : Bytes) (sound : Sound b queue) :
    Sound (bytes.foldl (fun payload byte => payload.writeUint8 byte) b) (queue ++ bytes) := by
  induction bytes generalizing b queue with
  | nil => simpa using sound
  | cons byte rest ih =>
      have written := ih (sound.writeUint8 byte)
      rwa [List.append_assoc, List.singleton_append] at written

theorem toNat_low (flags : UInt32) : (flags &&& 0xFFFF).toUInt16.toNat = flags.toNat % 2 ^ 16 := by
  rw [UInt32.toNat_toUInt16, UInt32.toNat_and, show (0xFFFF : UInt32).toNat = 2 ^ 16 - 1 by rfl,
    Nat.and_two_pow_sub_one_eq_mod, Nat.mod_mod]

theorem toNat_high (flags : UInt32) :
    ((flags >>> 16) &&& 0xFFFF).toUInt16.toNat = flags.toNat / 2 ^ 16 := by
  have small := flags.toNat_lt
  rw [toNat_low, UInt32.toNat_shiftRight, show (16 : UInt32).toNat % 32 = 16 by rfl,
    Nat.shiftRight_eq_div_pow]
  omega

theorem join_flags (flags : UInt32) :
    (UInt16.ofNat (flags.toNat / 2 ^ 16)).toUInt32 <<< 16 |||
      (UInt16.ofNat (flags.toNat % 2 ^ 16)).toUInt32 = flags := by
  have small := flags.toNat_lt
  have high : (UInt16.ofNat (flags.toNat / 2 ^ 16)).toNat = flags.toNat / 2 ^ 16 := by
    rw [UInt16.toNat_ofNat', Nat.mod_eq_of_lt (by omega)]
  have low : (UInt16.ofNat (flags.toNat % 2 ^ 16)).toNat = flags.toNat % 2 ^ 16 := by
    rw [UInt16.toNat_ofNat', Nat.mod_mod]
  rw [← UInt32.toNat_inj, UInt32.toNat_or, UInt32.toNat_shiftLeft, UInt16.toNat_toUInt32,
    UInt16.toNat_toUInt32, high, low, Nat.or_comm]
  have inside : (flags.toNat / 2 ^ 16) <<< 16 < 2 ^ 32 := by
    rw [Nat.shiftLeft_eq]
    omega
  rw [show (16 : UInt32).toNat % 32 = 16 by rfl, Nat.mod_eq_of_lt inside,
    or_shiftLeft (Nat.mod_lt _ (by decide))]
  omega

theorem encode_sound (p : HandshakeV10Packet) (sequenceId : UInt8) (sound : Sound b queue) :
    Sound (p.encode sequenceId b) (queue ++ packet sequenceId (p.front ++ [0] ++
      optionalBytes p.capabilityFlags CLIENT_PLUGIN_AUTH p.authPluginName)) := by
  have version := ((((Sound.empty.writeUint8 p.protocolVersion).writeString
    p.serverVersion).writeUint8 0).writeUint32 p.connectionId)
  have first := writeBytes_sound (p.authPluginData.toList.take 8) version
  have status := ((((first.writeUint8 0).writeUint16 (p.capabilityFlags &&& 0xFFFF).toUInt16).writeUint8
    p.characterSet).writeUint16 p.statusFlags)
  have middle := (status.writeUint16 ((p.capabilityFlags >>> 16) &&& 0xFFFF).toUInt16).writeUint8 21
  have second := writeBytes_sound (p.authPluginData.toList.drop 8)
    (writeBytes_sound (List.replicate 10 0) middle)
  have closed := second.writeUint8 0
  rw [toNat_low, toNat_high] at closed
  have body := writeOptional_sound p.capabilityFlags CLIENT_PLUGIN_AUTH p.authPluginName closed
  have layout : ([] : Bytes) ++ [p.protocolVersion] ++ p.serverVersion ++ [0] = [p.protocolVersion] ++
      (p.serverVersion ++ [0]) := by simp
  rw [layout] at body
  exact sound.writePacket body sequenceId

theorem reads_challenge {bytes : Bytes} {n : Nat} (length : bytes.length = n) (i : Nat)
    (data : Vector UInt8 20) : ∃ data', Reads (challengeField n i data) bytes data' := by
  induction bytes generalizing n i data with
  | nil =>
      subst length
      exact ⟨data, Reads.pure data⟩
  | cons byte rest ih =>
      subst length
      obtain ⟨data', reads⟩ := ih rfl (i + 1) (data.setIfInBounds i byte)
      exact ⟨data', (reads_uint8 byte).bind reads⟩

/-- The decoder takes the greeting up to the end of the challenge, and, where it reads a name, the
zero byte behind it for the empty one. -/
theorem reads_front (self p : HandshakeV10Packet) (clean : 0 ∉ p.serverVersion) : ∃ q,
    Reads self.format (p.front ++ optionalBytes p.capabilityFlags CLIENT_PLUGIN_AUTH []) q := by
  have eight : (p.authPluginData.toList.take 8).length = 8 := by simp
  have twelve : (p.authPluginData.toList.drop 8).length = 12 := by simp
  obtain ⟨first, readsFirst⟩ := reads_challenge eight 0 self.authPluginData
  obtain ⟨second, readsSecond⟩ := reads_challenge twelve 8 first
  refine ⟨⟨p.protocolVersion, p.serverVersion, p.connectionId, second, p.capabilityFlags,
    p.characterSet, p.statusFlags, if hasFlag p.capabilityFlags CLIENT_PLUGIN_AUTH then []
      else self.authPluginName⟩, ?_⟩
  have word {n : Nat} (small : n < 2 ^ 16) : Reads (UInt16.ofNat <$> uint 2) (le 2 n) (UInt16.ofNat n) :=
    (reads_uint 2 n small).map UInt16.ofNat
  have flags := p.capabilityFlags.toNat_lt
  rw [← List.append_nil (p.front ++ _)]
  simp only [front, List.append_assoc]
  rw [← List.append_assoc p.serverVersion]
  apply (reads_uint8 p.protocolVersion).bind
  apply (reads_untilZero p.serverVersion clean).bind
  apply (reads_uint32 p.connectionId).bind
  apply readsFirst.bind
  apply (reads_uint8 0).bind
  apply (word (Nat.mod_lt _ (by decide))).bind
  apply (reads_uint8 p.characterSet).bind
  apply (reads_uint16 p.statusFlags).bind
  apply (word (by omega)).bind
  apply (reads_uint8 21).bind
  apply (reads_reserved 10).bind
  apply readsSecond.bind
  rw [join_flags]
  refine Reads.bind (a := if hasFlag p.capabilityFlags CLIENT_PLUGIN_AUTH then []
      else self.authPluginName) ?_ (Reads.pure _)
  unfold optionalField optionalBytes
  split_ifs
  · exact reads_untilZero [] (by simp)
  · exact Reads.pure _

/-- Decoding a greeting into the new packet `self` gives back every field, the name of the plugin where
its flag is set, and leaves the bytes behind the packet. -/
def Restores (self p : HandshakeV10Packet) (tail : Bytes) (b : Buffer) : Prop :=
  ∃ q b', self.decode.run b = .ok (some q) b' ∧ b'.readable = tail ∧
    { q with authPluginName := p.authPluginName } = p ∧
    (hasFlag p.capabilityFlags CLIENT_PLUGIN_AUTH → q.authPluginName = p.authPluginName)

/-- The bytes of a greeting that `decode` does not take. -/
def leftover (p : HandshakeV10Packet) : Bytes :=
  if hasFlag p.capabilityFlags CLIENT_PLUGIN_AUTH then p.authPluginName ++ [0] else [0]

theorem decode_leaves (self p : HandshakeV10Packet) (clean : 0 ∉ p.serverVersion)
    (sequenceId : UInt8) (tail : Bytes) {b : Buffer}
    (shown : b.readable = (p.encode sequenceId Buffer.empty).readable ++ tail) :
    ∃ q b', self.decode.run b = .ok (some q) b' ∧ b'.readable = p.leftover ++ tail := by
  obtain ⟨q, reads⟩ := reads_front self p clean
  have layout : p.front ++ [0] ++ optionalBytes p.capabilityFlags CLIENT_PLUGIN_AUTH p.authPluginName =
      p.front ++ optionalBytes p.capabilityFlags CLIENT_PLUGIN_AUTH [] ++ p.leftover := by
    unfold optionalBytes leftover
    split_ifs <;> simp
  rw [(p.encode_sound sequenceId Sound.empty).readable, List.nil_append, layout] at shown
  have implements := (readFields_implements self).map some
  exact ⟨q, readPacket_reads (fun _ => implements) shown (List.append_assoc _ _ _) (reads.map some)⟩

theorem leftover_ne (p : HandshakeV10Packet) (tail : Bytes) : p.leftover ++ tail ≠ tail := by
  intro same
  have length := congrArg List.length same
  unfold leftover at length
  split_ifs at length
  · simp only [List.length_append, List.length_singleton] at length
    omega
  · simp only [List.length_append, List.length_singleton] at length
    omega

theorem Restores.readable {self p q : HandshakeV10Packet} {tail : Bytes} {b b' : Buffer}
    (restores : self.Restores p tail b) (ran : self.decode.run b = .ok (some q) b') :
    b'.readable = tail := by
  obtain ⟨q', b'', ran', rest, -⟩ := restores
  rw [ran] at ran'
  obtain ⟨-, rfl⟩ := EStateM.Result.ok.inj ran'
  exact rest

/-- No greeting is restored: the zero byte at the end of the challenge is left behind, or read as the
name, which is then left behind. -/
theorem greeting_never_restored (self p : HandshakeV10Packet) (clean : 0 ∉ p.serverVersion)
    (sequenceId : UInt8) (tail : Bytes) (b : Buffer)
    (shown : b.readable = (p.encode sequenceId Buffer.empty).readable ++ tail) :
    ¬ self.Restores p tail b := by
  intro restores
  obtain ⟨q, b', ran, behind⟩ := decode_leaves self p clean sequenceId tail shown
  exact p.leftover_ne tail (behind.symm.trans (restores.readable ran))

/-- The greeting of a new connection, with a challenge of zeros. -/
def greetingOfZeros : HandshakeV10Packet := { authPluginData := Vector.replicate 20 0 }

theorem greeting_never_restored_default :
    ¬ greetingOfZeros.Restores greetingOfZeros [] (greetingOfZeros.encode 0 Buffer.empty) :=
  greeting_never_restored _ _ (by decide) 0 [] _ (List.append_nil _).symm

theorem greeting_name_left_behind : ¬ ∀ (self p : HandshakeV10Packet), 0 ∉ p.serverVersion →
    0 ∉ p.authPluginName → ∀ (sequenceId : UInt8) (tail : Bytes) (b : Buffer),
      b.readable = (p.encode sequenceId Buffer.empty).readable ++ tail → self.Restores p tail b := by
  intro restored
  have restores := restored greetingOfZeros greetingOfZeros (by decide) (by decide) 0 [] _
    (List.append_nil _).symm
  obtain ⟨q, b', ran, behind⟩ := decode_leaves greetingOfZeros greetingOfZeros (by decide) 0 []
    (List.append_nil _).symm
  exact greetingOfZeros.leftover_ne [] (behind.symm.trans (restores.readable ran))

end HandshakeV10Packet

end TinySql
