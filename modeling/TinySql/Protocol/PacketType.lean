import TinySql.Protocol.Classification

/-!
# `identifyPacketType`

The first payload byte of a packet, and for 0xFE its length, tell its type. A receiver that asks for
the type of one packet after the other finds the end of the definitions and of the rows of a result
set, but takes a row for the packet whose mark is the length of its first cell.
-/

namespace TinySql
open Buffer Packet ResultSet Wire

inductive PacketType where
  | UNKNOWN
  | OK
  | ERR
  | EOF_PKT
  | HANDSHAKE
  | AUTH_RESPONSE
  | QUERY
  | RESULT_SET
  deriving DecidableEq, Repr

/-- The payload length as the header shows it to `peek()`. -/
def peekLength (bytes : Bytes) : Nat :=
  (bytes.getD 0 0).toNat ||| (bytes.getD 1 0).toNat <<< 8 ||| (bytes.getD 2 0).toNat <<< 16

def identifyPacketType : BufferM PacketType := do
  if (← get).readableBytes < 5 then return .UNKNOWN
  let savePos := (← get).readIndex
  let _ ← retrieve 4
  if (← get).readableBytes = 0 then
    setReaderIndex savePos
    return .UNKNOWN
  let firstByte ← readUint8
  setReaderIndex savePos
  if firstByte = 0x00 then return .OK
  else if firstByte = 0xFF then return .ERR
  else if firstByte = 0xFE then
    -- A longer packet may be a row whose first cell needs eight bytes for its length.
    if peekLength (← get).readable < 9 then return .EOF_PKT
  else if firstByte = 0x0a then return .HANDSHAKE
  else if firstByte = 0x03 then return .QUERY
  return .UNKNOWN

/-- A receiver asks for the type of each packet, one after the other, until nothing is left. -/
inductive Identified : Buffer → List PacketType → Prop
  | done {b : Buffer} (empty : b.readable = []) : Identified b []
  | packet {b b' : Buffer} {type : PacketType} {types : List PacketType} {size : Nat} {bytes : Bytes}
      (identified : identifyPacketType.run b = .ok type b)
      (complete : checkPacketComplete.run b = .ok size b) (some : 0 < size)
      (taken : (retrieve size).run b = .ok bytes b') (rest : Identified b' types) :
      Identified b (type :: types)

def PacketType.ofMark (mark : UInt8) : PacketType :=
  if mark = 0x00 then .OK
  else if mark = 0xFF then .ERR
  else if mark = 0x0a then .HANDSHAKE
  else if mark = 0x03 then .QUERY
  else .UNKNOWN

/-- What a packet with this payload is taken for. -/
def PacketType.ofPayload (payload : Bytes) : PacketType :=
  if isEof payload then .EOF_PKT else payload.head?.elim .UNKNOWN .ofMark

/-! ## One packet -/

theorem peekLength_eq {bytes : Bytes} (header : 3 ≤ bytes.length) :
    peekLength bytes = payloadLength bytes := by
  obtain ⟨b0, b1, b2, rest, rfl⟩ : ∃ b0 b1 b2 rest, bytes = b0 :: b1 :: b2 :: rest := by
    match bytes, header with
    | b0 :: b1 :: b2 :: rest, _ => exact ⟨b0, b1, b2, rest, rfl⟩
  have h0 := b0.toNat_lt
  have h1 := b1.toNat_lt
  change b0.toNat ||| b1.toNat <<< 8 ||| b2.toNat <<< 16 = ofLe [b0, b1, b2]
  rw [or_shiftLeft (show b0.toNat < 2 ^ 8 from h0),
    or_shiftLeft (show b0.toNat + b1.toNat * 2 ^ 8 < 2 ^ 16 by omega)]
  simp only [ofLe]
  omega

theorem identifyPacketType_run {b : Buffer} {first : UInt8} {rest : Bytes}
    (shown : b.readable.drop 4 = first :: rest) : identifyPacketType.run b = .ok
      (if first = 0x00 then .OK else if first = 0xFF then .ERR
        else if first = 0xFE then if payloadLength b.readable < 9 then .EOF_PKT else .UNKNOWN
        else if first = 0x0a then .HANDSHAKE else if first = 0x03 then .QUERY else .UNKNOWN) b := by
  have five : 5 ≤ b.readableBytes := by
    have length := congrArg List.length shown
    rw [List.length_drop, readable_length, List.length_cons] at length
    omega
  have header : 3 ≤ b.readable.length := by
    rw [readable_length]
    omega
  have more : ¬ (b.advance 4).readableBytes = 0 := by
    rw [readableBytes_advance]
    omega
  have restored : { (b.advance 4).advance 1 with readIndex := b.readIndex } = b := rfl
  have inside : b.readIndex ≤ ((b.advance 4).advance 1).writeIndex := by
    simp only [readableBytes] at five
    simp only [Buffer.advance]
    omega
  have taken : (retrieve 4).run b = .ok (b.readable.take 4) (b.advance 4) := by
    rw [retrieve, next_run, if_neg (by omega)]
  have read := readUint8_run (b := b.advance 4) (by rw [readable_advance, shown])
  simp only [identifyPacketType, EStateM.run_bind, EStateM.run_get, if_neg (Nat.not_lt.mpr five),
    taken, if_neg more, read, setReaderIndex_run inside, restored]
  split_ifs with zero err eof short
  any_goals rfl
  · simp only [EStateM.run_bind, EStateM.run_get, peekLength_eq header, if_pos short]
    rfl
  · simp only [EStateM.run_bind, EStateM.run_get, peekLength_eq header, if_neg short]
    rfl

section Stream
variable {b : Buffer} {payload tail : Bytes} {payloads : List Bytes}

theorem identifyPacketType_packet {sequenceId : UInt8} (some : payload ≠ []) (fits : Fits payload)
    (shown : b.readable = packet sequenceId payload ++ tail) :
    identifyPacketType.run b = .ok (.ofPayload payload) b := by
  obtain ⟨first, rest, rfl⟩ := List.exists_cons_of_ne_nil some
  have behind : b.readable.drop 4 = first :: (rest ++ tail) := by
    rw [shown, show 4 = 3 + 1 from rfl, ← List.drop_drop, drop_packet]
    rfl
  rw [identifyPacketType_run behind, shown, payloadLength_packet _ _ _ fits]
  congr 1
  rw [PacketType.ofPayload, isEof]
  by_cases eof : first = 0xFE
  · subst eof
    simp [PacketType.ofMark]
  · simp [PacketType.ofMark, eof]

/-- Each packet is taken for what its own payload tells, whatever is behind it. -/
theorem identified_packets (some : ∀ payload ∈ payloads, payload ≠ [])
    (fits : ∀ payload ∈ payloads, Fits payload) {sequenceId : UInt8}
    (shown : b.readable = packets sequenceId payloads) :
    Identified b (payloads.map .ofPayload) := by
  induction payloads generalizing b sequenceId with
  | nil => exact .done shown
  | cons payload rest ih =>
      rw [packets] at shown
      have here := fits payload List.mem_cons_self
      have length : b.readableBytes =
          4 + payload.length + (packets (sequenceId + 1) rest).length := by
        rw [← readable_length, shown, List.length_append, length_packet]
      have size := payloadLength_packet sequenceId payload (packets (sequenceId + 1) rest) here
      have complete := checkPacketComplete_run b
      rw [shown, size, if_pos ⟨by omega, by omega⟩] at complete
      have taken : (retrieve (4 + payload.length)).run b = _ := next_run b _ _
      rw [if_neg (by omega)] at taken
      have left : (b.advance (4 + payload.length)).readable = packets (sequenceId + 1) rest := by
        rw [readable_advance, shown, List.drop_left' (length_packet _ _)]
      exact .packet (identifyPacketType_packet (some _ List.mem_cons_self) here shown) complete
        (by omega) taken (ih (fun p member => some p (List.mem_cons_of_mem _ member))
          (fun p member => fits p (List.mem_cons_of_mem _ member)) left)

end Stream

/-! ## Result sets -/

namespace PacketType

/-- What a packet is taken for that begins with a length-encoded number. -/
def ofNumber : Nat → PacketType
  | 0 => .OK
  | 3 => .QUERY
  | 10 => .HANDSHAKE
  | _ => .UNKNOWN

def ofRow : List Value → PacketType
  | [] => .UNKNOWN
  | value :: _ => if value.isNull then .UNKNOWN else ofNumber value.toString.length

/-- What the packets of a result set are taken for. -/
def ofResultSet (columns : List ColumnDefinitionPacket) (rows : List (List Value)) :
    List PacketType :=
  ofNumber columns.length :: (columns.map (fun _ => .QUERY) ++
    .EOF_PKT :: (rows.map ofRow ++ [.EOF_PKT]))

theorem ofNumber_of_large {n : Nat} (large : 0xFB ≤ n) : ofNumber n = .UNKNOWN := by
  unfold ofNumber
  split <;> first | rfl | omega

theorem ofMark_small : ∀ n < 0xFB, ofMark (UInt8.ofNat n) = ofNumber n := by
  decide +kernel

theorem ofPayload_lenenc (n : Nat) (rest : Bytes) :
    ofPayload (lenencBytes n ++ rest) = ofNumber n := by
  unfold lenencBytes
  split_ifs with small middle large
  · have mark : UInt8.ofNat n ≠ 0xFE := by
      rw [ne_eq, ← UInt8.toNat_inj, UInt8.toNat_ofNat', Nat.mod_eq_of_lt (by omega)]
      exact Nat.ne_of_lt (small.trans (by decide))
    have head : le 1 n ++ rest = UInt8.ofNat n :: rest := by simp [le]
    rw [head, ofPayload, isEof]
    simp [mark, ofMark_small n small]
  · rw [ofNumber_of_large (by omega)]
    rfl
  · rw [ofNumber_of_large (by omega)]
    rfl
  · have long : ¬ ((le 1 0xFE ++ le 8 n) ++ rest).length < 9 := by
      simp only [List.length_append, length_le]
      omega
    rw [ofNumber_of_large (by omega), ofPayload, isEof, decide_eq_false long, Bool.and_false]
    rfl

theorem ofPayload_rowPayload {row : List Value} (some : row ≠ []) (fits : Fits (rowPayload row)) :
    ofPayload (rowPayload row) = ofRow row := by
  obtain ⟨value, rest, rfl⟩ := List.exists_cons_of_ne_nil some
  simp only [rowPayload, Fits, List.flatMap_cons, List.length_append, ofRow] at fits ⊢
  unfold cellBytes at fits ⊢
  split_ifs with null
  · rfl
  · rw [if_neg null] at fits
    have short := length_le_lenencText value.toString
    rw [lenencText, Nat.mod_eq_of_lt (by omega), List.append_assoc, ofPayload_lenenc]

theorem ofPayload_definition {p : ColumnDefinitionPacket} (catalog : p.catalog = ascii "def") :
    ofPayload p.payload = .QUERY := by
  have three : lenencText p.catalog = lenencBytes 3 ++ ascii "def" := by rw [catalog]; rfl
  simp only [ColumnDefinitionPacket.payload, three, List.append_assoc]
  exact ofPayload_lenenc 3 _

theorem ofNumber_never (n : Nat) : ofNumber n ≠ .EOF_PKT ∧ ofNumber n ≠ .ERR := by
  unfold ofNumber
  split <;> decide

theorem ofRow_never (row : List Value) : ofRow row ≠ .EOF_PKT ∧ ofRow row ≠ .ERR := by
  unfold ofRow
  split
  · decide
  · split_ifs
    · decide
    · exact ofNumber_never _

section ResultSet
variable (columns : List ColumnDefinitionPacket) (rows : List (List Value))

/-- An EOF packet is found behind the definitions and behind the rows, and nowhere else. -/
theorem ofResultSet_eof (k : Nat) : (ofResultSet columns rows)[k]? = some .EOF_PKT ↔
    k = columns.length + 1 ∨ k = columns.length + rows.length + 2 := by
  have count := (ofNumber_never columns.length).1
  have row (r : List Value) := (ofRow_never r).1
  rw [ofResultSet]
  rcases k with _ | k
  · simpa using count
  · rw [List.getElem?_cons_succ, List.getElem?_append, List.length_map]
    split_ifs with definition
    · rw [List.getElem?_map, List.getElem?_eq_getElem definition]
      simp
      omega
    · obtain ⟨i, rfl⟩ : ∃ i, k = columns.length + i := ⟨k - columns.length, by omega⟩
      rw [Nat.add_sub_cancel_left]
      rcases i with _ | i
      · simp
      · rw [List.getElem?_cons_succ, List.getElem?_append, List.length_map]
        split_ifs with inside
        · rw [List.getElem?_map, List.getElem?_eq_getElem inside]
          simp [row]
          omega
        · rcases Nat.lt_trichotomy i rows.length with less | rfl | more
          · exact absurd less inside
          · simp; omega
          · have : i - rows.length ≠ 0 := by omega
            simp [this]
            omega

theorem ofResultSet_noErr : .ERR ∉ ofResultSet columns rows := by
  have count := (ofNumber_never columns.length).2
  have row (r : List Value) := (ofRow_never r).2
  simp [ofResultSet, Ne.symm count, row]

end ResultSet

end PacketType

theorem payloads_nonempty {columns : List ColumnDefinitionPacket} {rows : List (List Value)}
    {last : Bytes} (widths : ∀ row ∈ rows, row ≠ []) (ends : isEof last = true) :
    ∀ payload ∈ payloads columns rows last, payload ≠ [] := by
  obtain ⟨mark, more, count, -⟩ := lenencBytes_head columns.length
  have lastSome : last ≠ [] := by
    rintro rfl
    cases ends
  have row (r : List Value) (some : r ≠ []) : rowPayload r ≠ [] := by
    obtain ⟨value, rest, rfl⟩ := List.exists_cons_of_ne_nil some
    obtain ⟨mark, more, head, -⟩ := lenencBytes_head (value.toString.length % 2 ^ 64)
    rw [rowPayload, List.flatMap_cons, cellBytes]
    split_ifs
    · simp
    · simp only [lenencText, head]
      simp
  simp only [payloads, List.forall_mem_cons, List.forall_mem_append, List.forall_mem_map]
  refine ⟨by simp [count], fun p _ => ?_, lastSome, fun r member => row r (widths r member), lastSome,
    by simp⟩
  simp [ColumnDefinitionPacket.payload]

theorem identified_resultSet {columns : List ColumnDefinitionPacket} {rows : List (List Value)}
    {last : Bytes} {sequenceId : UInt8} {b : Buffer}
    (catalogs : ∀ p ∈ columns, p.catalog = ascii "def") (widths : ∀ row ∈ rows, row ≠ [])
    (fits : ∀ payload ∈ payloads columns rows last, Fits payload) (ends : isEof last = true)
    (shown : b.readable = packets sequenceId (payloads columns rows last)) :
    Identified b (PacketType.ofResultSet columns rows) := by
  have types : (payloads columns rows last).map .ofPayload = PacketType.ofResultSet columns rows := by
    have count : PacketType.ofPayload (lenencBytes columns.length) = .ofNumber columns.length := by
      rw [← List.append_nil (lenencBytes _), PacketType.ofPayload_lenenc]
    have definitions : columns.map (PacketType.ofPayload ∘ fun p => p.payload) =
        columns.map fun _ => .QUERY := by
      refine List.map_congr_left fun p member => ?_
      rw [Function.comp_apply, PacketType.ofPayload_definition (catalogs p member)]
    have row : rows.map (PacketType.ofPayload ∘ rowPayload) = rows.map PacketType.ofRow := by
      refine List.map_congr_left fun row member => ?_
      rw [Function.comp_apply,
        PacketType.ofPayload_rowPayload (widths row member) (fits _ (mem_payloads_row member))]
    have eof : PacketType.ofPayload last = .EOF_PKT := by rw [PacketType.ofPayload, if_pos ends]
    rw [payloads, PacketType.ofResultSet, List.map_cons, count, List.map_append, List.map_cons, eof,
      List.map_append, List.map_map, List.map_map, definitions, row, List.map_singleton, eof]
  rw [← types]
  exact identified_packets (payloads_nonempty widths ends) fits shown

end TinySql
