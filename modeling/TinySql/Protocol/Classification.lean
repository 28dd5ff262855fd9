import TinySql.Protocol.ResultSet

/-!
# What the first byte tells

The receiver of a response looks at the first payload byte: 0x00 is an OK packet, 0xFF is an ERR
packet, and any other byte is the number of columns of a result set.
-/

namespace TinySql
open ResultSet Wire

def Fits (payload : Bytes) : Prop := payload.length < 2 ^ 24

instance : DecidablePred Fits := fun payload => inferInstanceAs (Decidable (payload.length < 2 ^ 24))

/-- One OK packet and nothing more. -/
def IsOk (response : Bytes) : Prop :=
  ∃ (sequenceId : UInt8) (p : OkPacket), Fits p.payload ∧ response = packet sequenceId p.payload

/-- One ERR packet and nothing more. -/
def IsErr (response : Bytes) : Prop :=
  ∃ (sequenceId : UInt8) (p : ErrPacket), Fits p.payload ∧ response = packet sequenceId p.payload

def IsPackets (response : Bytes) : Prop :=
  ∃ (sequenceId : UInt8) (payloads : List Bytes), payloads ≠ [] ∧ (∀ payload ∈ payloads, Fits payload) ∧
    response = packets sequenceId payloads

/-- The first payload byte tells whether a response is an OK packet, an ERR packet, or the result
set that has been asked for, all of it. -/
structure Classified (asked : ResultSet → Prop) (response : Bytes) : Prop where
  packets : IsPackets response
  ok : response[4]? = some 0x00 ↔ IsOk response
  err : response[4]? = some 0xFF ↔ IsErr response
  resultSet : response[4]? ≠ some 0x00 ∧ response[4]? ≠ some 0xFF ↔
    ∃ rs, asked rs ∧ decode response = some rs

theorem packet_first (sequenceId : UInt8) (payload : Bytes) :
    (packet sequenceId payload)[4]? = payload[0]? := by
  simp [packet, le]

theorem OkPacket.first (p : OkPacket) (sequenceId : UInt8) :
    (packet sequenceId p.payload)[4]? = some 0x00 := by
  rw [packet_first]
  rfl

theorem ErrPacket.first (p : ErrPacket) (sequenceId : UInt8) :
    (packet sequenceId p.payload)[4]? = some 0xFF := by
  rw [packet_first]
  rfl

/-! ## Responses of one packet -/

section Single
variable {sequenceId : UInt8} {payload : Bytes} {asked : ResultSet → Prop}

theorem IsOk.first {response : Bytes} (isOk : IsOk response) : response[4]? = some 0x00 := by
  obtain ⟨sequenceId, p, -, rfl⟩ := isOk
  exact p.first sequenceId

theorem IsErr.first {response : Bytes} (isErr : IsErr response) : response[4]? = some 0xFF := by
  obtain ⟨sequenceId, p, -, rfl⟩ := isErr
  exact p.first sequenceId

theorem fits_of_packet_eq {sequenceId' : UInt8} {payload' : Bytes} (fits : Fits payload')
    (same : packet sequenceId payload = packet sequenceId' payload') : Fits payload := by
  have lengths := congrArg List.length same
  rw [length_packet, length_packet] at lengths
  rw [Fits] at fits ⊢
  omega

theorem isOk_packet_iff (p : OkPacket) : IsOk (packet sequenceId p.payload) ↔ Fits p.payload := by
  constructor
  · rintro ⟨sequenceId', p', fits, same⟩
    exact fits_of_packet_eq fits same
  · exact fun fits => ⟨sequenceId, p, fits, rfl⟩

theorem isErr_packet_iff (p : ErrPacket) : IsErr (packet sequenceId p.payload) ↔ Fits p.payload := by
  constructor
  · rintro ⟨sequenceId', p', fits, same⟩
    exact fits_of_packet_eq fits same
  · exact fun fits => ⟨sequenceId, p, fits, rfl⟩

theorem isPackets_packet (sequenceId : UInt8) (fits : Fits payload) :
    IsPackets (packet sequenceId payload) :=
  ⟨sequenceId, [payload], by simp, by simpa using fits, by simp [packets]⟩

theorem decode_eq_none (fits : Fits payload) (other : whole lenenc payload = none) :
    decode (packet sequenceId payload) = none := by
  have read := (reads_nextPayload sequenceId fits).run []
  rw [List.append_nil] at read
  have stops : resultSet.run (packet sequenceId payload) = none := by
    rw [resultSet, StateT.run_bind, inPacket, StateT.run_bind, read]
    simp only [Option.bind_eq_bind, Option.bind_some, other]
    rfl
  rw [decode, whole, stops]

theorem IsOk.decode {response : Bytes} (isOk : IsOk response) : decode response = none := by
  obtain ⟨sequenceId, p, fits, rfl⟩ := isOk
  apply decode_eq_none fits
  obtain ⟨b, others, rows, -⟩ := lenencBytes_head p.affectedRows.toNat
  have zero : lenencBytes 0 = [0x00] := rfl
  have read := (reads_lenenc 0 (by decide)).run (p.payload.tail)
  rw [zero] at read
  obtain ⟨rest, shown⟩ : ∃ rest, p.payload = 0x00 :: b :: rest :=
    ⟨_, by rw [OkPacket.payload, rows]; rfl⟩
  rw [shown, List.tail_cons, List.singleton_append] at read
  simp only [whole, shown, read]

theorem IsErr.decode {response : Bytes} (isErr : IsErr response) : decode response = none := by
  obtain ⟨sequenceId, p, fits, rfl⟩ := isErr
  exact decode_eq_none fits rfl

theorem IsOk.classified {response : Bytes} (isOk : IsOk response) : Classified asked response where
  packets := by
    obtain ⟨sequenceId, p, fits, rfl⟩ := isOk
    exact isPackets_packet sequenceId fits
  ok := iff_of_true isOk.first isOk
  err := ⟨fun first => absurd (isOk.first.symm.trans first) (by decide), IsErr.first⟩
  resultSet := by
    refine iff_of_false (fun others => others.1 isOk.first) ?_
    rintro ⟨rs, -, decoded⟩
    rw [isOk.decode] at decoded
    cases decoded

theorem IsErr.classified {response : Bytes} (isErr : IsErr response) : Classified asked response where
  packets := by
    obtain ⟨sequenceId, p, fits, rfl⟩ := isErr
    exact isPackets_packet sequenceId fits
  ok := ⟨fun first => absurd (isErr.first.symm.trans first) (by decide), IsOk.first⟩
  err := iff_of_true isErr.first isErr
  resultSet := by
    refine iff_of_false (fun others => others.2 isErr.first) ?_
    rintro ⟨rs, -, decoded⟩
    rw [isErr.decode] at decoded
    cases decoded

theorem classified_ok_iff (p : OkPacket) :
    Classified asked (packet sequenceId p.payload) ↔ Fits p.payload := by
  rw [← isOk_packet_iff]
  exact ⟨fun classified => classified.ok.mp (p.first sequenceId), IsOk.classified⟩

theorem classified_err_iff (p : ErrPacket) :
    Classified asked (packet sequenceId p.payload) ↔ Fits p.payload := by
  rw [← isErr_packet_iff]
  exact ⟨fun classified => classified.err.mp (p.first sequenceId), IsErr.classified⟩

end Single

/-! ## Result sets -/

section Rows
variable {columns : List ColumnDefinitionPacket} {rows : List (List Value)} {last : Bytes}
  {sequenceId : UInt8}

theorem fits_lenencBytes (n : Nat) : Fits (lenencBytes n) := by
  rw [Fits, length_lenencBytes]
  split_ifs <;> decide

theorem payloads_fit (columnsFit : ∀ p ∈ columns, Fits p.payload)
    (rowsFit : ∀ row ∈ rows, Fits (rowPayload row)) (ends : isEof last = true) :
    ∀ payload ∈ payloads columns rows last, Fits payload := by
  have lastFits : Fits last := by
    simp only [isEof, Bool.and_eq_true, decide_eq_true_eq] at ends
    rw [Fits]
    omega
  have count := fits_lenencBytes columns.length
  simp only [payloads, List.forall_mem_cons, List.forall_mem_append, List.forall_mem_map]
  exact ⟨count, columnsFit, lastFits, rowsFit, lastFits, by simp⟩

theorem payloads_first : (packets sequenceId (payloads columns rows last))[4]? =
    (lenencBytes columns.length)[0]? := by
  rw [payloads, packets, List.getElem?_append_left, packet_first]
  rw [length_packet, length_lenencBytes]
  split_ifs <;> decide

/-- A result set is told by its first byte exactly when it has a column and fits its packets. -/
theorem classified_resultSet_iff (count : columns.length < 2 ^ 64)
    (widths : ∀ row ∈ rows, row.length = columns.length) (ends : isEof last = true) :
    Classified (· = ⟨columns, rows.map (·.map cellText)⟩)
        (packets sequenceId (payloads columns rows last)) ↔
      columns ≠ [] ∧ (∀ p ∈ columns, Fits p.payload) ∧ ∀ row ∈ rows, Fits (rowPayload row) := by
  have first := @payloads_first columns rows last sequenceId
  obtain ⟨noErr, zero⟩ := lenencBytes_first columns.length
  rw [← first] at noErr zero
  rw [List.length_eq_zero_iff] at zero
  have decoded (columnsFit : ∀ p ∈ columns, Fits p.payload)
      (rowsFit : ∀ row ∈ rows, Fits (rowPayload row)) :=
    decode_packets count columnsFit widths rowsFit ends sequenceId
  constructor
  · intro classified
    have some : columns ≠ [] := by
      intro none
      have unread := (classified.ok.mp (zero.mpr none)).decode
      subst none
      -- Rows without cells are packets without payload, so everything fits and would be read.
      rw [decoded (by simp) ?_] at unread
      · cases unread
      · intro row member
        obtain rfl : row = [] := List.length_eq_zero_iff.mp (widths row member)
        exact Nat.two_pow_pos 24
    obtain ⟨rs, rfl, read⟩ := classified.resultSet.mp ⟨mt zero.mp some, noErr⟩
    obtain ⟨columnsFit, rowsFit⟩ := decode_fits read
    refine ⟨some, columnsFit, fun row member => ?_⟩
    have fits := rowsFit _ (List.mem_map_of_mem member)
    rwa [← length_rowPayload] at fits
  · rintro ⟨some, columnsFit, rowsFit⟩
    constructor
    · exact ⟨sequenceId, _, by simp [payloads], payloads_fit columnsFit rowsFit ends, rfl⟩
    · exact ⟨fun none => absurd (zero.mp none) some, IsOk.first⟩
    · exact ⟨fun marked => absurd marked noErr, IsErr.first⟩
    · exact iff_of_true ⟨mt zero.mp some, noErr⟩ ⟨_, rfl, decoded columnsFit rowsFit⟩

end Rows

end TinySql
