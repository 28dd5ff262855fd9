import TinySql.Protocol.PacketRoundTrip

/-!
# Declared payload lengths

Each class computes the length of its payload in `getPayloadLength`, apart from the `encode` that
writes it. The two agree but for a column definition with a long name.
-/

namespace TinySql
open Wire Buffer Packet CapabilityFlags

/-- `size()` of a string or of a vector of bytes. -/
def byteCount (bytes : Bytes) : UInt64 := UInt64.ofNat bytes.length

/-- The comparisons by which the classes tell the length of a length-encoded integer. -/
def lenencLength (val : UInt64) : UInt64 :=
  if val < 251 then 1 else if val < 65536 then 3 else if val < 16777216 then 4 else 9

def GenericPacket.getPayloadLength (p : GenericPacket) : UInt64 := byteCount p.payload

def OkPacket.getPayloadLength (p : OkPacket) : UInt64 :=
  1 + lenencLength p.affectedRows + lenencLength p.lastInsertId + 2 + 2 + byteCount p.info

def ErrPacket.getPayloadLength (p : ErrPacket) : UInt64 := 1 + 2 + 1 + 5 + byteCount p.errorMessage

def EofPacket.getPayloadLength (_ : EofPacket) : UInt64 := 1 + 2 + 2

def ColumnDefinitionPacket.getPayloadLength (p : ColumnDefinitionPacket) : UInt64 :=
  (1 + byteCount p.catalog) + (1 + byteCount p.schema) + (1 + byteCount p.table) +
    (1 + byteCount p.orgTable) + (1 + byteCount p.name) + (1 + byteCount p.orgName) +
    1 + 2 + 4 + 1 + 2 + 1 + 2

def TextResultRowPacket.valueLength (value : Value) : UInt64 :=
  if value.isNull then 1
  else lenencLength (byteCount value.toString) + byteCount value.toString

def TextResultRowPacket.getPayloadLength (values : List Value) : UInt64 :=
  values.foldl (fun len value => len + valueLength value) 0

def HandshakeV10Packet.getPayloadLength (p : HandshakeV10Packet) : UInt64 :=
  1 + (byteCount p.serverVersion + 1) + 4 + 8 + 1 + 2 + 1 + 2 + 2 + 1 + 10 + 12 + 1 +
    (if hasFlag p.capabilityFlags CLIENT_PLUGIN_AUTH then byteCount p.authPluginName + 1 else 0)

def HandshakeResponse41Packet.getPayloadLength (p : HandshakeResponse41Packet) : UInt64 :=
  4 + 4 + 1 + 23 + (byteCount p.username + 1) +
    (if hasFlag p.capabilityFlags CLIENT_PLUGIN_AUTH_LENENC_CLIENT_DATA then
      lenencLength (byteCount p.authResponse) + byteCount p.authResponse
    else if hasFlag p.capabilityFlags CLIENT_SECURE_CONNECTION then 1 + byteCount p.authResponse
    else byteCount p.authResponse + 1) +
    (if hasFlag p.capabilityFlags CLIENT_CONNECT_WITH_DB then byteCount p.database + 1 else 0) +
    (if hasFlag p.capabilityFlags CLIENT_PLUGIN_AUTH then byteCount p.authPluginName + 1 else 0)

/-- Whatever the buffer, `encode` writes a header of four bytes and then a payload of this length. -/
def Declares (encode : UInt8 → Buffer → Buffer) (length : UInt64) : Prop :=
  ∀ (sequenceId : UInt8) (b : Buffer), ∃ header payload : Bytes, header.length = 4 ∧
    (encode sequenceId b).data = b.data ++ (header ++ payload) ∧ length = UInt64.ofNat payload.length

/-! ## What is written -/

section Writing
variable {encode : UInt8 → Buffer → Buffer} {write : Buffer → Buffer} {bytes payload : Bytes}

theorem appends_writePacket (payload : Buffer) (sequenceId : UInt8) :
    ∃ bytes, Appends (writePacket payload sequenceId) bytes :=
  ⟨_, ((((appends_append _).comp (appends_append _)).comp (appends_append _)).comp
    (appends_append _)).comp (appends_append _)⟩

theorem declares_iff (writes : ∀ sequenceId, ∃ more, Appends (encode sequenceId) more)
    (sound : ∀ sequenceId, Sound (encode sequenceId Buffer.empty) ([] ++ packet sequenceId payload))
    (length : UInt64) : Declares encode length ↔ length = UInt64.ofNat payload.length := by
  have written (sequenceId : UInt8) (b : Buffer) : (encode sequenceId b).data =
      b.data ++ ((le 3 payload.length ++ [sequenceId]) ++ payload) := by
    obtain ⟨more, appends⟩ := writes sequenceId
    obtain rfl := appends.eq_of_sound (sound sequenceId)
    rw [appends.data, packet, List.append_assoc]
    rfl
  constructor
  · intro declares
    obtain ⟨header, payload', four, data, same⟩ := declares 0 Buffer.empty
    have bytes := List.append_cancel_left ((written 0 Buffer.empty).symm.trans data)
    obtain ⟨-, rfl⟩ := List.append_inj bytes (by simp [four])
    exact same
  · intro same sequenceId b
    exact ⟨_, payload, by simp, written sequenceId b, same⟩

theorem declares_packet {body : Buffer} (sound : ∀ sequenceId,
      Sound (writePacket body sequenceId Buffer.empty) ([] ++ packet sequenceId payload))
    (length : UInt64) : Declares (writePacket body) length ↔ length = UInt64.ofNat payload.length :=
  declares_iff (appends_writePacket body) sound length

theorem length_lenencBytes64 (val : UInt64) :
    UInt64.ofNat (lenencBytes val.toNat).length = lenencLength val := by
  rw [← toNat_getLenencIntSize, UInt64.ofNat_toNat]
  rfl

theorem length_lenencText (text : Bytes) :
    UInt64.ofNat (lenencText text).length = lenencLength (byteCount text) + byteCount text := by
  have number : text.length % 2 ^ 64 = (byteCount text).toNat := (UInt64.toNat_ofNat' ..).symm
  rw [lenencText, List.length_append, UInt64.ofNat_add, number, length_lenencBytes64]
  rfl

end Writing

/-! ## Each class -/

theorem GenericPacket.declares (p : GenericPacket) : Declares p.encode p.getPayloadLength := by
  apply Iff.mpr (declares_iff ?writes ?sound _)
  · rfl
  case writes => exact fun sequenceId => ⟨_, ((((appends_append _).comp (appends_append _)).comp
      (appends_append _)).comp (appends_append _)).comp (appends_append _)⟩
  case sound =>
    intro sequenceId
    have written := (Sound.empty.writeHeader p.payload.length sequenceId).append p.payload
    rwa [List.append_assoc, List.append_assoc] at written

theorem OkPacket.declares (p : OkPacket) : Declares p.encode p.getPayloadLength := by
  apply (declares_packet (fun sequenceId => p.encode_sound sequenceId Sound.empty) _).mpr
  simp only [getPayloadLength, payload, List.length_cons, List.length_append, length_le,
    UInt64.ofNat_add, length_lenencBytes64, byteCount]
  grind

theorem ErrPacket.declares (p : ErrPacket) : Declares p.encode p.getPayloadLength := by
  apply (declares_packet (fun sequenceId => p.encode_sound sequenceId Sound.empty) _).mpr
  have mark : (ascii "#").length = 1 := rfl
  simp only [getPayloadLength, payload, List.length_cons, List.length_append, length_le, mark,
    length_fiveBytes, UInt64.ofNat_add, byteCount]
  grind

theorem EofPacket.declares (p : EofPacket) : Declares p.encode p.getPayloadLength := by
  apply (declares_packet (fun sequenceId => p.encode_sound sequenceId Sound.empty) _).mpr
  simp only [getPayloadLength, payload, List.length_cons, List.length_append, length_le]
  rfl

namespace TextResultRowPacket

theorem length_cellBytes (value : Value) :
    UInt64.ofNat (cellBytes value).length = valueLength value := by
  unfold cellBytes valueLength
  split_ifs
  · rfl
  · exact length_lenencText value.toString

theorem length_cells (values : List Value) (len : UInt64) :
    values.foldl (fun len value => len + valueLength value) len =
      len + UInt64.ofNat (values.flatMap cellBytes).length := by
  induction values generalizing len with
  | nil => exact (UInt64.add_zero len).symm
  | cons value rest ih =>
      rw [List.foldl_cons, ih, List.flatMap_cons, List.length_append, UInt64.ofNat_add,
        length_cellBytes, UInt64.add_assoc]

theorem declares (values : List Value) : Declares (encode values) (getPayloadLength values) := by
  apply (declares_packet (fun sequenceId => encode_sound values sequenceId Sound.empty) _).mpr
  rw [getPayloadLength, length_cells, UInt64.zero_add]

end TextResultRowPacket

theorem HandshakeResponse41Packet.length_optionalBytes (flags flag : UInt32) (text : Bytes) :
    UInt64.ofNat (optionalBytes flags flag text).length =
      if hasFlag flags flag then byteCount text + 1 else 0 := by
  unfold optionalBytes
  split_ifs
  · rw [List.length_append, UInt64.ofNat_add]
    rfl
  · rfl

open HandshakeResponse41Packet in
theorem HandshakeV10Packet.declares (p : HandshakeV10Packet) :
    Declares p.encode p.getPayloadLength := by
  apply (declares_packet (fun sequenceId => p.encode_sound sequenceId Sound.empty) _).mpr
  have first : (p.authPluginData.toList.take 8).length = 8 := by simp
  have second : (p.authPluginData.toList.drop 8).length = 12 := by simp
  simp only [getPayloadLength, front, List.length_cons, List.length_nil, List.length_append, length_le,
    List.length_replicate, first, second, UInt64.ofNat_add, length_optionalBytes, byteCount]
  grind

namespace HandshakeResponse41Packet

theorem declares (p : HandshakeResponse41Packet) : Declares p.encode p.getPayloadLength := by
  apply (declares_packet (fun sequenceId => p.encode_sound sequenceId Sound.empty) _).mpr
  have response : UInt64.ofNat (authResponseBytes p.capabilityFlags p.authResponse).length =
      if hasFlag p.capabilityFlags CLIENT_PLUGIN_AUTH_LENENC_CLIENT_DATA then
        lenencLength (byteCount p.authResponse) + byteCount p.authResponse
      else if hasFlag p.capabilityFlags CLIENT_SECURE_CONNECTION then 1 + byteCount p.authResponse
      else byteCount p.authResponse + 1 := by
    unfold authResponseBytes
    split_ifs
    · exact length_lenencText p.authResponse
    · rw [List.length_cons, UInt64.ofNat_add, UInt64.add_comm]
      rfl
    · rw [List.length_append, UInt64.ofNat_add]
      rfl
  simp only [getPayloadLength, payload, List.length_cons, List.length_nil, List.length_append,
    length_le, List.length_replicate, UInt64.ofNat_add, length_optionalBytes, response]
  grind [byteCount]

end HandshakeResponse41Packet

namespace ColumnDefinitionPacket

def texts (p : ColumnDefinitionPacket) : List Bytes :=
  [p.catalog, p.schema, p.table, p.orgTable, p.name, p.orgName]

theorem lenencLength_bounds (val : UInt64) :
    1 ≤ (lenencLength val).toNat ∧ (lenencLength val).toNat ≤ 9 := by
  unfold lenencLength
  split_ifs <;> decide

theorem lenencLength_eq_one (val : UInt64) : (lenencLength val).toNat = 1 ↔ val < 251 := by
  unfold lenencLength
  split_ifs with one
  · exact iff_of_true rfl one
  · exact iff_of_false (by decide) one
  · exact iff_of_false (by decide) one
  · exact iff_of_false (by decide) one

/-- Each text takes one byte for its length in `getPayloadLength`, and so it must when written. -/
theorem declares_iff_short (p : ColumnDefinitionPacket) :
    Declares p.encode p.getPayloadLength ↔ ∀ text ∈ p.texts, byteCount text < 251 := by
  have agree : Declares p.encode p.getPayloadLength ↔
      p.getPayloadLength = UInt64.ofNat p.payload.length :=
    declares_packet (fun sequenceId => p.encode_sound sequenceId Sound.empty) _
  have prefixes : p.getPayloadLength = UInt64.ofNat p.payload.length ↔
      lenencLength (byteCount p.catalog) + lenencLength (byteCount p.schema) +
        lenencLength (byteCount p.table) + lenencLength (byteCount p.orgTable) +
        lenencLength (byteCount p.name) + lenencLength (byteCount p.orgName) = 6 := by
    simp only [getPayloadLength, payload, List.length_cons, List.length_nil, List.length_append,
      length_le, UInt64.ofNat_add, length_lenencText]
    grind
  have catalog := lenencLength_bounds (byteCount p.catalog)
  have schema := lenencLength_bounds (byteCount p.schema)
  have table := lenencLength_bounds (byteCount p.table)
  have orgTable := lenencLength_bounds (byteCount p.orgTable)
  have name := lenencLength_bounds (byteCount p.name)
  have orgName := lenencLength_bounds (byteCount p.orgName)
  rw [agree, prefixes, ← UInt64.toNat_inj]
  simp only [UInt64.toNat_add, UInt64.reduceToNat, texts, List.forall_mem_cons,
    ← lenencLength_eq_one]
  constructor
  · intro six
    refine ⟨?_, ?_, ?_, ?_, ?_, ?_, List.forall_mem_nil _⟩
    all_goals omega
  · rintro ⟨one, two, three, four, five, six, -⟩
    rw [one, two, three, four, five, six]

end ColumnDefinitionPacket

/-- The computed length is that of the payload for all packets but the column definitions with a
text of 251 bytes or more. -/
theorem getPayloadLength_declares_iff (generic : GenericPacket) (ok : OkPacket) (err : ErrPacket)
    (eof : EofPacket) (column : ColumnDefinitionPacket) (row : List Value)
    (greeting : HandshakeV10Packet) (login : HandshakeResponse41Packet) :
    Declares generic.encode generic.getPayloadLength ∧
    Declares ok.encode ok.getPayloadLength ∧
    Declares err.encode err.getPayloadLength ∧
    Declares eof.encode eof.getPayloadLength ∧
    (Declares column.encode column.getPayloadLength ↔ ∀ text ∈ column.texts, byteCount text < 251) ∧
    Declares (TextResultRowPacket.encode row) (TextResultRowPacket.getPayloadLength row) ∧
    Declares greeting.encode greeting.getPayloadLength ∧
    Declares login.encode login.getPayloadLength :=
  ⟨generic.declares, ok.declares, err.declares, eof.declares, column.declares_iff_short,
    TextResultRowPacket.declares row, greeting.declares, login.declares⟩

def longName : ColumnDefinitionPacket :=
  ColumnDefinitionPacket.fromColumnDef { name := List.replicate 251 97, type := .int } (ascii "t")
    (ascii "db")

/-- A name of 251 bytes is written behind three bytes of length. -/
theorem longName_longer : ¬ ∀ p : ColumnDefinitionPacket, Declares p.encode p.getPayloadLength := by
  intro all
  have member : longName.name ∈ longName.texts := by simp [ColumnDefinitionPacket.texts]
  have short := longName.declares_iff_short.mp (all longName) longName.name member
  have count : byteCount longName.name = 251 := congrArg UInt64.ofNat List.length_replicate
  rw [count] at short
  exact absurd short (by decide)

end TinySql
