import TinySql.Protocol.Response

/-!
# The text result set

The format of the answer to a query, as its receiver reads it: the number of columns, their
definitions, an EOF packet, the rows, an EOF packet. It is read by the readers of `Wire` and knows
nothing of how an answer is made.
-/

namespace TinySql
open Wire

/-- What the receiver of a result set has in the end; a cell is NULL or a text. -/
structure ResultSet where
  columns : List ColumnDefinitionPacket
  rows : List (List (Option Bytes))
  deriving DecidableEq

namespace ResultSet

def nextPayload : Reader Bytes := do
  let length ← uint 3
  let _ ← uint 1
  take length

/-- The next packet, whose payload the reader has to take as a whole. -/
def inPacket {α : Type} (r : Reader α) : Reader α := do
  match whole r (← nextPayload) with
  | some a => return a
  | none => fail

def byte : Reader UInt8 := UInt8.ofNat <$> uint 1

def columnDefinition : Reader ColumnDefinitionPacket := do
  let catalog ← lenencString
  let schema ← lenencString
  let table ← lenencString
  let orgTable ← lenencString
  let name ← lenencString
  let orgName ← lenencString
  let _ ← byte
  let charset ← UInt16.ofNat <$> uint 2
  let columnLength ← UInt32.ofNat <$> uint 4
  let columnType ← byte
  let flags ← UInt16.ofNat <$> uint 2
  let decimals ← byte
  let _ ← uint 2
  return ⟨catalog, schema, table, orgTable, name, orgName, charset, columnLength, columnType,
    flags, decimals⟩

/-- A payload that starts with 0xFE and is shorter than 9 bytes. -/
def isEof (payload : Bytes) : Bool := payload.head? == some 0xFE && payload.length < 9

def eof : Reader Unit := do
  if isEof (← nextPayload) then return () else fail

/-- 0xFB for NULL, or a length-encoded string. -/
def cell : Reader (Option Bytes) := fun input =>
  if input.head? = some 0xFB then some (none, input.tail) else (some <$> lenencString).run input

/-- Rows of `width` cells up to the EOF packet behind them. -/
def rowsWithin (width : Nat) : Nat → Reader (List (List (Option Bytes)))
  | 0 => fail
  | fuel + 1 => do
      let payload ← nextPayload
      if isEof payload then return []
      match whole (repeated cell width) payload with
      | some row => return row :: (← rowsWithin width fuel)
      | none => fail

/-- There are no more rows than bytes. -/
def rowsUntilEof (width : Nat) : Reader (List (List (Option Bytes))) := fun input =>
  (rowsWithin width input.length).run input

def resultSet : Reader ResultSet := do
  let count ← inPacket lenenc
  let columns ← repeated (inPacket columnDefinition) count
  eof
  let rows ← rowsUntilEof count
  return ⟨columns, rows⟩

/-- The result set that a response is, all of it. -/
def decode (response : Bytes) : Option ResultSet := whole resultSet response

/-! ## What the readers take -/

theorem reads_nextPayload (sequenceId : UInt8) {payload : Bytes}
    (short : payload.length < 2 ^ 24) :
    Reads nextPayload (packet sequenceId payload) payload := by
  have id : le 1 sequenceId.toNat = [sequenceId] := by simp [le]
  have reads := (reads_uint 3 payload.length short).bind (f := fun length => do
    let _ ← uint 1
    take length) ((reads_uint 1 sequenceId.toNat sequenceId.toNat_lt).bind fun rest =>
      reads_take payload rest)
  rwa [id] at reads

theorem reads_inPacket {α : Type} {r : Reader α} {payload : Bytes} {a : α} (sequenceId : UInt8)
    (short : payload.length < 2 ^ 24) (reads : Reads r payload a) :
    Reads (inPacket r) (packet sequenceId payload) a := by
  rw [← List.append_nil (packet sequenceId payload)]
  refine (reads_nextPayload sequenceId short).bind ?_
  rw [reads.whole]
  exact Reads.pure a

theorem reads_byte (b : UInt8) : Reads byte [b] b := Buffer.reads_uint8 b

theorem reads_lenencText {text : Bytes} (bound : text.length < 2 ^ 64) :
    Reads lenencString (lenencText text) text := by
  rw [lenencText, Nat.mod_eq_of_lt bound]
  exact reads_lenencString text bound

theorem length_le_lenencText (text : Bytes) : text.length ≤ (lenencText text).length := by
  simp [lenencText]

theorem reads_columnDefinition (p : ColumnDefinitionPacket) (short : p.payload.length < 2 ^ 24) :
    Reads columnDefinition p.payload p := by
  have text {str : Bytes} (inside : (lenencText str).length ≤ p.payload.length) :
      Reads lenencString (lenencText str) str := by
    have := length_le_lenencText str
    exact reads_lenencText (by omega)
  rw [← List.append_nil p.payload]
  simp only [ColumnDefinitionPacket.payload, List.append_assoc]
  refine (text ?_).bind <| (text ?_).bind <| (text ?_).bind <| (text ?_).bind <|
    (text ?_).bind <| (text ?_).bind <| (reads_byte 0x0c).bind <| (Buffer.reads_uint16 p.charset).bind <|
      (Buffer.reads_uint32 p.columnLength).bind <| (reads_byte p.columnType).bind <|
        (Buffer.reads_uint16 p.flags).bind <|
        (reads_byte p.decimals).bind <| (reads_uint 2 0 (by decide)).bind <| Reads.pure p
  all_goals
    simp only [ColumnDefinitionPacket.payload, List.length_append]
    omega

/-! ## Rows -/

def cellText (value : Value) : Option Bytes := if value.isNull then none else some value.toString

theorem reads_cell {value : Value} (bound : (cellBytes value).length < 2 ^ 64) :
    Reads cell (cellBytes value) (cellText value) := by
  unfold cellBytes cellText
  split_ifs with null
  · exact fun rest => rfl
  · rw [cellBytes, if_neg null] at bound
    have := length_le_lenencText value.toString
    intro rest
    have reads := (reads_lenencText (show value.toString.length < 2 ^ 64 by omega)).map some
    obtain ⟨first, others, head, noMark, -⟩ := lenencBytes_head (value.toString.length % 2 ^ 64)
    have run := reads.run rest
    rw [lenencText, head, List.cons_append, List.cons_append] at run ⊢
    have text : ¬ (first :: (others ++ value.toString ++ rest)).head? = some 0xFB := by
      simpa only [List.head?_cons, Option.some.injEq] using noMark
    change (if _ then _ else _) = _
    rw [if_neg text]
    exact run

theorem not_isEof_row {values : List Value} (short : (values.flatMap cellBytes).length < 2 ^ 24) :
    isEof (values.flatMap cellBytes) = false := by
  cases values with
  | nil => rfl
  | cons value rest =>
      simp only [List.flatMap_cons, List.length_append] at short ⊢
      unfold cellBytes at short ⊢
      split_ifs with null
      · rfl
      · rw [if_neg null] at short
        have text := length_le_lenencText value.toString
        obtain ⟨first, others, head, -, wide⟩ := lenencBytes_head (value.toString.length % 2 ^ 64)
        have narrow : first ≠ 0xFE := by
          intro same
          have := wide same
          have := Nat.mod_le value.toString.length (2 ^ 64)
          omega
        rw [lenencText, head]
        simp [isEof, narrow]

/-- Packets with the payloads one behind the other, counted on from a sequence id. -/
def packets (sequenceId : UInt8) : List Bytes → Bytes
  | [] => []
  | payload :: rest => packet sequenceId payload ++ packets (sequenceId + 1) rest

theorem length_le_packets (sequenceId : UInt8) (payloads : List Bytes) :
    payloads.length ≤ (packets sequenceId payloads).length := by
  induction payloads generalizing sequenceId with
  | nil => exact Nat.le_refl 0
  | cons payload rest ih =>
      have := ih (sequenceId + 1)
      rw [packets, List.length_append, length_packet, List.length_cons]
      omega

theorem reads_definitions {columns : List ColumnDefinitionPacket}
    (short : ∀ p ∈ columns, p.payload.length < 2 ^ 24) (sequenceId : UInt8) :
    Reads (repeated (inPacket columnDefinition) columns.length)
      (packets sequenceId (columns.map (·.payload))) columns := by
  induction columns generalizing sequenceId with
  | nil => exact Reads.pure []
  | cons p rest ih =>
      have first := reads_inPacket sequenceId (short p List.mem_cons_self)
        (reads_columnDefinition p (short p List.mem_cons_self))
      exact first.repeated_cons (ih (fun p member => short p (List.mem_cons_of_mem _ member)) _)

def rowPayload (values : List Value) : Bytes := values.flatMap cellBytes

theorem reads_row {values : List Value} (short : (rowPayload values).length < 2 ^ 24) :
    Reads (repeated cell values.length) (rowPayload values) (values.map cellText) := by
  refine reads_repeated fun value member => reads_cell ?_
  obtain ⟨before, after, rfl⟩ := List.append_of_mem member
  simp only [rowPayload, List.flatMap_append, List.flatMap_cons, List.length_append] at short
  omega

theorem reads_rowsWithin {width fuel : Nat} {rows : List (List Value)} {last : Bytes}
    (widths : ∀ row ∈ rows, row.length = width)
    (short : ∀ row ∈ rows, (rowPayload row).length < 2 ^ 24)
    (ends : isEof last = true) (enough : rows.length < fuel) (sequenceId : UInt8) :
    Reads (rowsWithin width fuel) (packets sequenceId (rows.map rowPayload ++ [last]))
      (rows.map (·.map cellText)) := by
  induction rows generalizing fuel sequenceId with
  | nil =>
      obtain ⟨fuel, rfl⟩ : ∃ n, fuel = n + 1 := ⟨fuel - 1, by omega⟩
      have lastShort : last.length < 2 ^ 24 := by
        simp only [isEof, Bool.and_eq_true, decide_eq_true_eq] at ends
        omega
      refine (reads_nextPayload sequenceId lastShort).bind ?_
      rw [if_pos ends]
      exact Reads.pure []
  | cons row rest ih =>
      obtain ⟨fuel, rfl⟩ : ∃ n, fuel = n + 1 := ⟨fuel - 1, by omega⟩
      have here := short row List.mem_cons_self
      have read : whole (repeated cell width) (rowPayload row) = some (row.map cellText) := by
        rw [← widths row List.mem_cons_self]
        exact (reads_row here).whole
      have noEof : ¬ isEof (rowPayload row) = true := by
        rw [rowPayload, not_isEof_row here]
        decide
      have later := ih (fun row member => widths row (List.mem_cons_of_mem _ member))
        (fun row member => short row (List.mem_cons_of_mem _ member))
        (show rest.length < fuel by simpa using enough) (sequenceId + 1)
      refine (reads_nextPayload sequenceId here).bind ?_
      rw [if_neg noEof, read]
      exact later.map (row.map cellText :: ·)

def payloads (columns : List ColumnDefinitionPacket) (rows : List (List Value)) (eof : Bytes) :
    List Bytes :=
  lenencBytes columns.length :: (columns.map (·.payload) ++ eof :: (rows.map rowPayload ++ [eof]))

theorem mem_payloads_column {columns : List ColumnDefinitionPacket} {rows : List (List Value)}
    {eof : Bytes} {p : ColumnDefinitionPacket} (member : p ∈ columns) :
    p.payload ∈ payloads columns rows eof :=
  List.mem_cons_of_mem _ (List.mem_append_left _ (List.mem_map_of_mem member))

theorem mem_payloads_row {columns : List ColumnDefinitionPacket} {rows : List (List Value)}
    {eof : Bytes} {row : List Value} (member : row ∈ rows) :
    rowPayload row ∈ payloads columns rows eof :=
  List.mem_cons_of_mem _ (List.mem_append_right _
    (List.mem_cons_of_mem _ (List.mem_append_left _ (List.mem_map_of_mem member))))

theorem packets_append (sequenceId : UInt8) (first second : List Bytes) :
    packets sequenceId (first ++ second) = packets sequenceId first ++
      packets (sequenceId + UInt8.ofNat first.length) second := by
  induction first generalizing sequenceId with
  | nil => simp [packets]
  | cons payload rest ih =>
      have next : sequenceId + 1 + UInt8.ofNat rest.length =
          sequenceId + UInt8.ofNat (rest.length + 1) := by
        rw [UInt8.ofNat_add, UInt8.add_assoc, UInt8.add_comm 1]
        rfl
      rw [List.cons_append, packets, packets, ih, next, List.append_assoc, List.length_cons]

theorem reads_eof {payload : Bytes} (ends : isEof payload = true) (sequenceId : UInt8) :
    Reads eof (packet sequenceId payload) () := by
  have short : payload.length < 2 ^ 24 := by
    simp only [isEof, Bool.and_eq_true, decide_eq_true_eq] at ends
    omega
  rw [← List.append_nil (packet sequenceId payload)]
  refine (reads_nextPayload sequenceId short).bind ?_
  rw [if_pos ends]
  exact Reads.pure ()

theorem reads_rowsUntilEof {width : Nat} {rows : List (List Value)} {last : Bytes}
    (widths : ∀ row ∈ rows, row.length = width)
    (short : ∀ row ∈ rows, (rowPayload row).length < 2 ^ 24)
    (ends : isEof last = true) (sequenceId : UInt8) :
    Reads (rowsUntilEof width) (packets sequenceId (rows.map rowPayload ++ [last]))
      (rows.map (·.map cellText)) := by
  intro rest
  have bound := length_le_packets sequenceId (rows.map rowPayload ++ [last])
  rw [List.length_append, List.length_map, List.length_singleton] at bound
  refine (reads_rowsWithin widths short ends ?_ sequenceId).run rest
  rw [List.length_append]
  omega

/-- The packets of a result set are read back, whatever the sequence id of the first. -/
theorem decode_packets {columns : List ColumnDefinitionPacket} {rows : List (List Value)}
    {last : Bytes} (count : columns.length < 2 ^ 64)
    (columnsShort : ∀ p ∈ columns, p.payload.length < 2 ^ 24)
    (widths : ∀ row ∈ rows, row.length = columns.length)
    (rowsShort : ∀ row ∈ rows, (rowPayload row).length < 2 ^ 24)
    (ends : isEof last = true) (sequenceId : UInt8) :
    decode (packets sequenceId (payloads columns rows last)) =
      some ⟨columns, rows.map (·.map cellText)⟩ := by
  have countShort : (lenencBytes columns.length).length < 2 ^ 24 := by
    unfold lenencBytes
    split_ifs <;> simp
  have header := reads_inPacket sequenceId countShort (reads_lenenc columns.length count)
  have definitions := reads_definitions columnsShort (sequenceId + 1)
  have after (id : UInt8) := reads_rowsUntilEof widths rowsShort ends id
  refine Reads.whole ?_
  rw [payloads, packets, packets_append, packets]
  refine header.bind (definitions.bind ((reads_eof ends _).bind ?_))
  rw [← List.append_nil (packets _ _)]
  exact (after _).bind (Reads.pure _)

/-! ## What fits

A packet holds less than 2 ^ 24 bytes, so a response that is read as a result set has no definition
and no row whose bytes are more, in whatever form they are written.
-/

def cellSize : Option Bytes → Nat
  | none => 1
  | some text => (lenencText text).length

theorem takes_lenencText : Takes lenencString fun text => (lenencText text).length := by
  apply takes_lenenc.bind
  intro n
  apply (takes_take n).mono (yields_take n)
  rintro text rfl
  have narrow : (lenencBytes (text.length % 2 ^ 64)).length ≤ (lenencBytes text.length).length := by
    rw [length_lenencBytes, length_lenencBytes]
    split_ifs <;> omega
  rw [lenencText, List.length_append]
  omega

theorem takes_byte : Takes byte fun _ => 1 := (takes_width 1).map UInt8.ofNat

theorem takes_columnDefinition : Takes columnDefinition fun p => p.payload.length := by
  have u16 : Takes (UInt16.ofNat <$> uint 2) fun _ => 2 := (takes_width 2).map UInt16.ofNat
  have u32 : Takes (UInt32.ofNat <$> uint 4) fun _ => 4 := (takes_width 4).map UInt32.ofNat
  refine takes_lenencText.bind fun catalog => takes_lenencText.bind fun schema =>
    takes_lenencText.bind fun table => takes_lenencText.bind fun orgTable =>
    takes_lenencText.bind fun name => takes_lenencText.bind fun orgName =>
    takes_byte.bind fun _ => u16.bind fun charset => u32.bind fun columnLength =>
    takes_byte.bind fun columnType => u16.bind fun flags => takes_byte.bind fun decimals =>
    (takes_width 2).bind fun _ => Takes.pure ?_
  simp only [ColumnDefinitionPacket.payload, List.length_append, List.length_singleton, length_le]
  omega

theorem takes_cell : Takes cell cellSize := by
  intro input a rest run
  change (if _ then _ else _) = _ at run
  split at run
  · rename_i null
    obtain ⟨more, rfl⟩ := List.head?_eq_some_iff.mp null
    obtain ⟨rfl, rfl⟩ : none = a ∧ more = rest := by simpa using run
    simp [cellSize, Nat.add_comm]
  · exact (takes_lenencText.map some) input a rest run

theorem yields_nextPayload : Yields nextPayload (·.length < 2 ^ 24) := by
  have length : Yields (uint 3) (· < 2 ^ 24) := fun _ _ _ run => uint_lt run
  have any : Yields (uint 1) fun _ => True := fun _ _ _ _ => trivial
  refine length.bind fun length short => any.bind fun _ _ => ?_
  refine (yields_take length).mono fun payload same => ?_
  rwa [same]

theorem yields_inPacket {α : Type} {r : Reader α} {size : α → Nat} (takes : Takes r size) :
    Yields (inPacket r) (size · < 2 ^ 24) := by
  refine yields_nextPayload.bind fun payload short => ?_
  split
  · rename_i a read
    exact Yields.pure ((takes.whole read).trans_lt short)
  · exact Yields.fail

def RowsFit (rows : List (List (Option Bytes))) : Prop :=
  ∀ row ∈ rows, (row.map cellSize).sum < 2 ^ 24

theorem yields_rowsWithin (width fuel : Nat) : Yields (rowsWithin width fuel) RowsFit := by
  induction fuel with
  | zero => exact Yields.fail
  | succ fuel ih =>
      refine yields_nextPayload.bind fun payload short => ?_
      split
      · exact Yields.pure (by simp [RowsFit])
      · split
        · rename_i row read
          have here := ((takes_cell.repeated width).whole read).trans_lt short
          exact ih.bind fun rows later => Yields.pure (List.forall_mem_cons.mpr ⟨here, later⟩)
        · exact Yields.fail

theorem decode_fits {response : Bytes} {rs : ResultSet} (decoded : decode response = some rs) :
    (∀ p ∈ rs.columns, p.payload.length < 2 ^ 24) ∧ RowsFit rs.rows := by
  have all : Yields resultSet fun rs =>
      (∀ p ∈ rs.columns, p.payload.length < 2 ^ 24) ∧ RowsFit rs.rows := by
    have definitions := (yields_inPacket takes_columnDefinition).repeated
    have rows (width : Nat) : Yields (rowsUntilEof width) RowsFit :=
      fun input => yields_rowsWithin width input.length input
    have any {α : Type} (r : Reader α) : Yields r fun _ => True := fun _ _ _ _ => trivial
    exact (any _).bind fun count _ => (definitions count).bind fun columns fits =>
      (any _).bind fun _ _ => (rows count).bind fun rows fits' => Yields.pure ⟨fits, fits'⟩
  unfold decode whole at decoded
  split at decoded
  · rename_i rs' run
    obtain rfl := Option.some.inj decoded
    exact all _ _ _ run
  · cases decoded

theorem length_rowPayload (values : List Value) :
    (rowPayload values).length = ((values.map cellText).map cellSize).sum := by
  have cell (value : Value) : (cellBytes value).length = cellSize (cellText value) := by
    unfold cellBytes cellText
    split <;> rfl
  rw [rowPayload, List.length_flatMap, List.map_map]
  congr 1
  exact List.map_congr_left fun value _ => cell value

end ResultSet

end TinySql
