import Mathlib.Algebra.BigOperators.Ring.List
import TinySql.Command.InsertThenFind
import TinySql.Command.Totality

/-!
# The lengths that packet headers tell

The header of a packet has three bytes for the length of its payload, and what is longer than they
can tell goes on in further packets. `writeHeader` drops the higher bits of a length instead.
-/

namespace TinySql
open Frame ResultSet StorageEngine Wire

/-- The longest payload of one packet, after which the next packet continues it. -/
def maxPayload : Nat := 2 ^ 24 - 1

/-- The bytes consist of packets with these payloads, and each header tells the length of what
follows it. -/
inductive Splits : List Bytes → Bytes → Prop
  | nil : Splits [] []
  | last {payload rest : Bytes} {payloads : List Bytes} (sequenceId : UInt8)
      (short : payload.length < maxPayload) (later : Splits payloads rest) :
      Splits (payload :: payloads) (packet sequenceId payload ++ rest)
  | more {chunk payload rest : Bytes} {payloads : List Bytes} (sequenceId : UInt8)
      (full : chunk.length = maxPayload) (later : Splits (payload :: payloads) rest) :
      Splits ((chunk ++ payload) :: payloads) (packet sequenceId chunk ++ rest)

theorem Splits.length {payloads : List Bytes} {bytes : Bytes} (splits : Splits payloads bytes) :
    bytes.length =
      (payloads.map fun payload => payload.length + 4 + 4 * (payload.length / maxPayload)).sum := by
  induction splits with
  | nil => rfl
  | @last payload rest payloads sequenceId short later ih =>
      rw [List.map_cons, List.sum_cons, List.length_append, length_packet, ih,
        Nat.div_eq_of_lt short]
      omega
  | @more chunk payload rest payloads sequenceId full later ih =>
      have chunks : (chunk ++ payload).length / maxPayload = payload.length / maxPayload + 1 := by
        rw [List.length_append, full, Nat.add_div_left _ (by decide)]
      rw [List.map_cons, List.sum_cons, chunks, List.length_append, List.length_append,
        length_packet, ih, List.map_cons, List.sum_cons]
      omega

theorem length_packets (sequenceId : UInt8) (payloads : List Bytes) :
    (packets sequenceId payloads).length = (payloads.map fun payload => payload.length + 4).sum := by
  induction payloads generalizing sequenceId with
  | nil => rfl
  | cons payload rest ih =>
      rw [packets, List.length_append, length_packet, ih, List.map_cons, List.sum_cons]
      omega

/-- One packet a payload tells the lengths exactly when no payload has to be continued: the headers
of the further packets would make the bytes longer. -/
theorem splits_packets_iff (sequenceId : UInt8) (payloads : List Bytes) :
    Splits payloads (packets sequenceId payloads) ↔
      ∀ payload ∈ payloads, payload.length < maxPayload := by
  constructor
  · intro splits
    have longer := splits.length
    have headers : (payloads.map fun payload =>
        payload.length + 4 + 4 * (payload.length / maxPayload)).sum =
          (payloads.map fun payload => payload.length + 4).sum +
            4 * (payloads.map fun payload => payload.length / maxPayload).sum := by
      rw [List.sum_map_add, List.sum_map_mul_left]
    rw [length_packets, headers] at longer
    have none : (payloads.map fun payload => payload.length / maxPayload).sum = 0 := by omega
    intro payload member
    have zero := List.sum_eq_zero_iff_forall_eq_nat.mp none _ (List.mem_map_of_mem member)
    exact (Nat.div_eq_zero_iff_lt (by decide)).mp zero
  · intro short
    induction payloads generalizing sequenceId with
    | nil => exact .nil
    | cons payload rest ih =>
        have later := ih (sequenceId + 1) fun payload member =>
          short payload (List.mem_cons_of_mem _ member)
        exact .last sequenceId (short payload List.mem_cons_self) later

/-! ## The result set of a SELECT -/

/-- The rows that are sent: those that match, from the OFFSET up to the LIMIT. -/
def sentRows (stmt : SelectStatement) (table : Table) : List Row :=
  applyLimit stmt.offset stmt.limit (table.rows.filter (satisfies stmt.whereClause table.columns))

def selectPayloads (stmt : SelectStatement) (dbName : Bytes) (table : Table)
    (positions : List Nat) : List Bytes :=
  sentPayloads ⟨columnsAt table positions, positions, sentRows stmt table⟩ stmt.tableName dbName

/-- The response is the result set of the SELECT in packets that tell their lengths. -/
def TellsLengths (stmt : SelectStatement) (e : Exec) (response : Bytes) : Prop :=
  ∃ table positions, e.storage.getTable e.session.currentDatabase stmt.tableName = some table ∧
    fieldPositions table stmt.columns = some positions ∧
    Splits (selectPayloads stmt e.session.currentDatabase table positions) response

/-- Every column definition and every row that is sent fits one packet. -/
def OnePacketEach (stmt : SelectStatement) (e : Exec) : Prop :=
  ∀ table positions, e.storage.getTable e.session.currentDatabase stmt.tableName = some table →
    fieldPositions table stmt.columns = some positions →
    (∀ p ∈ definitions (columnsAt table positions) stmt.tableName e.session.currentDatabase,
      p.payload.length < maxPayload) ∧
    ∀ row ∈ sentRows stmt table, (rowPayload (project positions row)).length < maxPayload

theorem short_sentPayloads_iff (result : SelectResult) (tableName dbName : Bytes) :
    (∀ payload ∈ sentPayloads result tableName dbName, payload.length < maxPayload) ↔
      (∀ p ∈ definitions result.columns tableName dbName, p.payload.length < maxPayload) ∧
        ∀ row ∈ result.rows, (rowPayload (project result.indices row)).length < maxPayload := by
  have count (n : Nat) : (lenencBytes n).length < maxPayload := by
    rw [length_lenencBytes]
    split_ifs <;> decide
  have eof : resultSetEof.payload.length < maxPayload := by decide
  rw [sentPayloads, List.forall_mem_cons, payloads, List.tail_cons, List.forall_mem_append,
    List.forall_mem_cons, List.forall_mem_append, List.forall_mem_singleton, List.forall_mem_map,
    List.forall_mem_map, List.forall_mem_map]
  constructor
  · rintro ⟨-, columns, -, rows, -⟩
    exact ⟨columns, rows⟩
  · rintro ⟨columns, rows⟩
    exact ⟨count _, columns, eof, rows, eof⟩

theorem tellsLengths_iff {stmt : SelectStatement} {e : Exec} {table : Table} {positions : List Nat}
    (found : e.storage.getTable e.session.currentDatabase stmt.tableName = some table)
    (at_ : fieldPositions table stmt.columns = some positions) (sequenceId : UInt8) :
    TellsLengths stmt e (packets sequenceId
        (selectPayloads stmt e.session.currentDatabase table positions)) ↔ OnePacketEach stmt e := by
  have short := short_sentPayloads_iff ⟨columnsAt table positions, positions, sentRows stmt table⟩
    stmt.tableName e.session.currentDatabase
  constructor
  · rintro ⟨table', positions', found', at_', splits⟩ table'' positions'' found'' at_''
    obtain rfl := Option.some.inj (found.symm.trans found')
    obtain rfl := Option.some.inj (found.symm.trans found'')
    obtain rfl := Option.some.inj (at_.symm.trans at_')
    obtain rfl := Option.some.inj (at_.symm.trans at_'')
    exact short.mp ((splits_packets_iff _ _).mp splits)
  · intro fit
    exact ⟨table, positions, found, at_, (splits_packets_iff _ _).mpr (short.mpr (fit _ _ found at_))⟩

theorem executeSelect_packets {stmt : SelectStatement} {e : Exec} (reached : Reached e.storage) :
    ∃ e' response, (executeSelect stmt).run e = .ok true e' ∧
      e'.events = e.events ++ [.respond response, .send response] ∧
      (response[4]? = some 0xFF ∨ ∃ table positions,
        e.storage.getTable e.session.currentDatabase stmt.tableName = some table ∧
        fieldPositions table stmt.columns = some positions ∧
        response = packets e.session.sequenceId
          (selectPayloads stmt e.session.currentDatabase table positions)) := by
  rcases selectRows_ends stmt e.session.currentDatabase e.storage with
    ⟨p, stops⟩ | ⟨table, columns, kept, found, resolved, filtered, ends⟩
  · refine ⟨_, _, (executeSelect_refused stops).trans (sendErr_run p _), rfl, .inl ?_⟩
    simp [packet, le, ErrPacket.payload]
  · obtain ⟨at_, all, -⟩ := resolveColumns_ok resolved
    obtain ⟨e', response, ran, events, shown⟩ :=
      executeSelect_sends ends (selectRows_inside reached.allAdmissible ends)
    refine ⟨e', response, ran, events, .inr ⟨table, columns.map Prod.snd, found, at_, ?_⟩⟩
    rw [shown, selectPayloads, all.columnsAt, sentRows, ← filterRows_matchesWhere filtered]

/-- The result set of a SELECT is sent in packets that tell their lengths exactly when each column
definition and each row fits one packet. -/
theorem executeSelect_tellsLengths_iff {stmt : SelectStatement} {e : Exec}
    (reached : Reached e.storage) :
    ∃ e' response, (executeSelect stmt).run e = .ok true e' ∧
      e'.events = e.events ++ [.respond response, .send response] ∧
      (response[4]? ≠ some 0xFF → (TellsLengths stmt e response ↔ OnePacketEach stmt e)) := by
  obtain ⟨e', response, ran, events, refused | ⟨table, positions, found, at_, shown⟩⟩ :=
    @executeSelect_packets stmt e reached
  · exact ⟨e', response, ran, events, fun rows => absurd refused rows⟩
  · refine ⟨e', response, ran, events, fun _ => ?_⟩
    rw [shown]
    exact tellsLengths_iff found at_ e.session.sequenceId

/-! ## A long text, twice in the field list -/

def insertText (text : Bytes) : InsertStatement where
  tableName := ascii "t"
  columns := []
  values := [.stringLiteral text]

def textStorage (text : Bytes) : StorageEngine :=
  Frame.final ((executeInsert (insertText text) (ascii "test")).run (oneColumnStorage (ascii "TEXT")))

theorem textStorage_reached (text : Bytes) : Reached (textStorage text) :=
  ⟨[.createTable (oneColumn (ascii "TEXT")) (ascii "test"), .insert (insertText text) (ascii "test")],
    .cons rfl (.cons rfl (.nil _))⟩

def textTable (text : Bytes) : Table :=
  { newTable (oneColumn (ascii "TEXT")) with rows := [[.string text]] }

theorem textStorage_table (text : Bytes) :
    (textStorage text).getTable (ascii "test") (ascii "t") = some (textTable text) := rfl

def textExec (text : Bytes) : Exec where
  session := { connectionId := 1, state := .authenticated, currentDatabase := ascii "test" }
  storage := textStorage text
  events := []

/-- `SELECT c, c FROM t`. -/
def selectTwice : SelectStatement where
  columns := [.identifier (ascii "c"), .identifier (ascii "c")]
  tableName := ascii "t"
  whereClause := none
  limit := -1
  offset := 0

theorem selectTwice_tellsLengths : ∃ e' response,
    (executeSelect selectTwice).run (textExec (ascii "a")) = .ok true e' ∧
      e'.events = (textExec (ascii "a")).events ++ [.respond response, .send response] ∧
      (response[4]? ≠ some 0xFF → (TellsLengths selectTwice (textExec (ascii "a")) response ↔
        OnePacketEach selectTwice (textExec (ascii "a")))) :=
  executeSelect_tellsLengths_iff (textStorage_reached _)

theorem selectTwice_positions (text : Bytes) :
    fieldPositions (textTable text) selectTwice.columns = some [0, 0] := rfl

theorem selectTwice_rows (text : Bytes) : sentRows selectTwice (textTable text) = [[.string text]] :=
  rfl

theorem selectTwice_run (text : Bytes) :
    (selectRows selectTwice (ascii "test")).run (textStorage text) =
      .ok ⟨columnsAt (textTable text) [0, 0], [0, 0], sentRows selectTwice (textTable text)⟩
        (textStorage text) := rfl

theorem twice_le_length (text : Bytes) :
    2 * text.length ≤ (rowPayload (project [0, 0] [.string text])).length := by
  have cell : text.length ≤ (cellBytes (.string text)).length := length_le_lenencText text
  have row : rowPayload (project [0, 0] [.string text]) =
      cellBytes (.string text) ++ (cellBytes (.string text) ++ []) := rfl
  rw [row, List.length_append, List.length_append]
  omega

/-- A text of 2 ^ 23 bytes is sent twice in one row, under a header that tells 8. -/
theorem long_row_truncated : ¬ ∀ (stmt : SelectStatement) (e e' : Exec) (response : Bytes),
    Reached e.storage → (executeSelect stmt).run e = .ok true e' →
      e'.events = e.events ++ [.respond response, .send response] → response[4]? ≠ some 0xFF →
      TellsLengths stmt e response := by
  intro all
  obtain ⟨text, long⟩ : ∃ text : Bytes, text.length = 2 ^ 23 :=
    ⟨List.replicate (2 ^ 23) 97, List.length_replicate⟩
  obtain ⟨e', response, ran, events, shown⟩ := @executeSelect_sends selectTwice (textExec text) _
    (selectTwice_run text) (selectRows_inside (textStorage_reached text).allAdmissible
      (selectTwice_run text))
  have rows : response[4]? ≠ some 0xFF := by
    have count : (columnsAt (textTable text) [0, 0]).length = 2 := rfl
    have two : lenencBytes (2 % 2 ^ 64) = [2] := by decide
    rw [shown, sentPayloads, count, two]
    simp [packets, packet, le]
  have tells := all _ _ e' response (textStorage_reached text) ran events rows
  have told := @tellsLengths_iff selectTwice (textExec text) _ _ (textStorage_table text)
    (selectTwice_positions text) 0
  rw [shown] at tells
  have short := (told.mp tells _ _ (textStorage_table text) (selectTwice_positions text)).2
    [.string text] (by rw [selectTwice_rows]; exact List.mem_singleton_self _)
  have twice := twice_le_length text
  unfold maxPayload at short
  omega

end TinySql
