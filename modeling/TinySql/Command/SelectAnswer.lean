import TinySql.Command.StatementLaws
import TinySql.Lib.Frame
import TinySql.Protocol.ResultSet

/-!
# The answer to a SELECT

`executeSelect` writes the packets of a result set one by one, each with the next sequence id. What
its receiver reads from them is the projection of the rows that satisfy the WHERE clause, as far as
OFFSET and LIMIT let them through.
-/

namespace TinySql
open Buffer Frame ResultSet StorageEngine Wire

/-! ## Sending packets -/

def Exec.counted (n : Nat) (e : Exec) : Exec :=
  { e with session := { e.session with sequenceId := e.session.sequenceId + UInt8.ofNat n } }

/-- A computation that writes packets with these payloads behind what is in a buffer. -/
def Sends (m : Buffer → ExecM Buffer) (payloads : List Bytes) : Prop :=
  ∀ b queue e, Sound b queue → ∃ b', (m b).run e = .ok b' (e.counted payloads.length) ∧
    Sound b' (queue ++ packets e.session.sequenceId payloads)

theorem Exec.counted_counted (m n : Nat) (e : Exec) :
    (e.counted m).counted n = e.counted (m + n) := by
  simp only [Exec.counted, UInt8.ofNat_add, UInt8.add_assoc]

theorem sends_encodeNext {encode : UInt8 → Buffer → Buffer} {payload : Bytes}
    (writes : ∀ b queue sequenceId, Sound b queue →
      Sound (encode sequenceId b) (queue ++ packet sequenceId payload)) :
    Sends (encodeNext encode) [payload] := by
  intro b queue e sound
  refine ⟨encode e.session.sequenceId b, rfl, ?_⟩
  rw [packets, packets, List.append_nil]
  exact writes b queue e.session.sequenceId sound

theorem Sends.nil : Sends pure [] := by
  intro b queue e sound
  refine ⟨b, ?_, by rwa [packets, List.append_nil]⟩
  simp [Exec.counted]

theorem Sends.bind {m n : Buffer → ExecM Buffer} {first second : List Bytes}
    (head : Sends m first) (tail : Sends n second) :
    Sends (fun b => m b >>= n) (first ++ second) := by
  intro b queue e sound
  obtain ⟨middle, ran, sound'⟩ := head b queue e sound
  obtain ⟨b', ran', sound''⟩ := tail middle _ (e.counted first.length) sound'
  refine ⟨b', ?_, ?_⟩
  · rw [EStateM.run_bind, ran]
    simp only [ran', Exec.counted_counted, List.length_append]
  · rw [packets_append, ← List.append_assoc]
    exact sound''

theorem sends_foldlM {α : Type} {f : Buffer → α → ExecM Buffer} {payload : α → Bytes}
    (items : List α) (step : ∀ a ∈ items, Sends (fun b => f b a) [payload a]) :
    Sends (fun b => items.foldlM f b) (items.map payload) := by
  induction items with
  | nil => exact Sends.nil
  | cons a rest ih =>
      simp only [List.foldlM_cons, List.map_cons]
      exact (step a List.mem_cons_self).bind
        (ih fun a member => step a (List.mem_cons_of_mem _ member))

/-! ## The result set of a SELECT -/

def project (positions : List Nat) (row : Row) : List Value := positions.map fun i => row.getD i .null

theorem getValue_run {row : Row} {i : Nat} (inside : i < row.length) (e : Exec) :
    (getValue row i).run e = .ok (row.getD i .null) e := by
  simp only [getValue, List.getElem?_eq_getElem inside, List.getD_eq_getElem?_getD,
    Option.getD_some]
  rfl

theorem mapM_getValue_run {row : Row} {positions : List Nat}
    (inside : ∀ i ∈ positions, i < row.length) (e : Exec) :
    (positions.mapM (getValue row)).run e = .ok (project positions row) e := by
  induction positions with
  | nil => rfl
  | cons i rest ih =>
      have here := getValue_run (inside i List.mem_cons_self) e
      have later := ih fun i member => inside i (List.mem_cons_of_mem _ member)
      rw [List.mapM_cons]
      simp only [EStateM.run_bind, here, later]
      rfl

theorem sends_row {row : Row} {positions : List Nat} (inside : ∀ i ∈ positions, i < row.length) :
    Sends (fun response => do
      let projected ← positions.mapM (getValue row)
      encodeNext (TextResultRowPacket.encode projected) response)
        [rowPayload (project positions row)] := by
  intro b queue e sound
  simp only [EStateM.run_bind, mapM_getValue_run inside]
  refine sends_encodeNext ?_ b queue e sound
  exact fun b queue sequenceId sound =>
    TextResultRowPacket.encode_sound (project positions row) sequenceId sound

def definitions (columns : List ColumnDef) (tableName dbName : Bytes) :
    List ColumnDefinitionPacket :=
  columns.map (ColumnDefinitionPacket.fromColumnDef · tableName dbName)

theorem length_definitions (columns : List ColumnDef) (tableName dbName : Bytes) :
    (definitions columns tableName dbName).length = columns.length := List.length_map _

/-- The number of columns is counted in a `uint64_t`. -/
theorem sends_columnCount (n : Nat) :
    Sends (encodeNext (Packet.writePacket (Buffer.empty.writeLenencInt (UInt64.ofNat n))))
      [lenencBytes (n % 2 ^ 64)] := by
  have number : (UInt64.ofNat n).toNat = n % 2 ^ 64 := UInt64.toNat_ofNat'
  have header := Sound.empty.writeLenencInt (UInt64.ofNat n)
  rw [number, List.nil_append] at header
  exact sends_encodeNext fun _ _ sequenceId sound => sound.writePacket header sequenceId

theorem sends_definitions (columns : List ColumnDef) (tableName dbName : Bytes) :
    Sends (fun response => columns.foldlM (fun response col => encodeNext
      (ColumnDefinitionPacket.fromColumnDef col tableName dbName).encode response) response)
        ((definitions columns tableName dbName).map (·.payload)) := by
  rw [definitions, List.map_map]
  exact sends_foldlM columns fun col _ => sends_encodeNext fun _ _ sequenceId sound =>
    (ColumnDefinitionPacket.fromColumnDef col tableName dbName).encode_sound sequenceId sound

theorem sends_eof : Sends (encodeNext resultSetEof.encode) [resultSetEof.payload] :=
  sends_encodeNext fun _ _ sequenceId sound => resultSetEof.encode_sound sequenceId sound

def sentPayloads (result : SelectResult) (tableName dbName : Bytes) : List Bytes :=
  lenencBytes (result.columns.length % 2 ^ 64) ::
    (payloads (definitions result.columns tableName dbName)
      (result.rows.map (project result.indices)) resultSetEof.payload).tail

theorem sentPayloads_eq {result : SelectResult} (tableName dbName : Bytes)
    (count : result.columns.length < 2 ^ 64) : sentPayloads result tableName dbName =
      payloads (definitions result.columns tableName dbName)
        (result.rows.map (project result.indices)) resultSetEof.payload := by
  rw [sentPayloads, Nat.mod_eq_of_lt count, payloads, length_definitions, List.tail_cons]

theorem encodeResultSet_run (result : SelectResult) (tableName dbName : Bytes)
    (inside : ∀ row ∈ result.rows, ∀ i ∈ result.indices, i < row.length) (e : Exec) :
    ∃ response e', (encodeResultSet result tableName dbName).run e = .ok response e' ∧
      e'.events = e.events ∧
      response.readable = packets e.session.sequenceId (sentPayloads result tableName dbName) := by
  have rows := sends_foldlM result.rows fun row member => sends_row (inside row member)
  have steps := (sends_columnCount result.columns.length).bind ((sends_definitions result.columns
    tableName dbName).bind (sends_eof.bind (rows.bind sends_eof)))
  obtain ⟨response, ran, sound⟩ := steps Buffer.empty [] e Sound.empty
  refine ⟨response, _, ran, rfl, ?_⟩
  rw [sound.readable, List.nil_append, sentPayloads, payloads, List.map_map]
  rfl

theorem encodeResultSet_inside (result : SelectResult) (tableName dbName : Bytes) (e : Exec) :
    Ensures (encodeResultSet result tableName dbName) e fun _ _ =>
      ∀ row ∈ result.rows, ∀ i ∈ result.indices, i < row.length := by
  have any {α : Type} (m : ExecM α) (e : Exec) : Ensures m e fun _ _ => True := fun _ _ _ => trivial
  have cell (row : Row) (i : Nat) (e : Exec) :
      Ensures (getValue row i) e fun _ _ => i < row.length := by
    unfold getValue
    split
    · rename_i value found
      exact Ensures.pure (List.getElem?_eq_some_iff.mp found).1
    · exact ensures_throw _
  have send (response : Buffer) (row : Row) (e : Exec) : Ensures (do
      let projected ← result.indices.mapM (getValue row)
      encodeNext (TextResultRowPacket.encode projected) response) e
        fun _ _ => ∀ i ∈ result.indices, i < row.length :=
    (ensures_mapM (cell row) _ e).bind fun _ _ inside => (any _ _).mono fun _ _ _ => inside
  refine (any _ e).bind fun _ e _ => (any _ e).bind fun _ e _ => (any _ e).bind fun _ e _ => ?_
  exact (ensures_foldlM send _ _ e).bind fun _ e inside => (any _ e).mono fun _ _ _ => inside

/-! ## What a SELECT asks for -/

def fieldPosition (table : Table) : Expression → Option Nat
  | .identifier name => table.getColumnIndex name
  | _ => none

/-- The positions of the columns in a field list: all for `*`, else those of the names. -/
def fieldPositions (table : Table) (exprs : List Expression) : Option (List Nat) :=
  if exprs = [.identifier (ascii "*")] then some (List.range table.columns.length)
  else exprs.mapM (fieldPosition table)

def columnsAt (table : Table) (positions : List Nat) : List ColumnDef :=
  positions.filterMap (table.columns[·]?)

def satisfies (whereClause : Option Expression) (columns : List ColumnDef) (row : Row) : Bool :=
  whereClause.all fun expr =>
    match ExpressionEvaluator.evaluate row columns expr with
    | .ok result => result
    | .error _ => false

/-- The rows that satisfy the WHERE clause, without the first OFFSET of them, LIMIT of them at
most. -/
def selectedRows (stmt : SelectStatement) (table : Table) : List Row :=
  let matching := table.rows.filter (satisfies stmt.whereClause table.columns)
  let remaining := matching.drop stmt.offset.toInt.toNat
  if stmt.limit < 0 then remaining else remaining.take stmt.limit.toInt.toNat

def Found (table : Table) (found : List (ColumnDef × Nat)) : Prop :=
  ∀ pair ∈ found, table.columns[pair.2]? = some pair.1

theorem Found.columnsAt {table : Table} {found : List (ColumnDef × Nat)}
    (here : Found table found) : columnsAt table (found.map Prod.snd) = found.map Prod.fst := by
  induction found with
  | nil => rfl
  | cons pair rest ih =>
      have first := here pair List.mem_cons_self
      have later := ih fun pair member => here pair (List.mem_cons_of_mem _ member)
      rw [List.map_cons, List.map_cons, TinySql.columnsAt, List.filterMap_cons_some first]
      exact congrArg _ later

theorem resolveColumn_cases (table : Table) (expr : Expression) :
    (∃ e, resolveColumn table expr = .error e) ∨ ∃ name i c, expr = .identifier name ∧
      table.getColumnIndex name = some i ∧ table.columns[i]? = some c ∧
        resolveColumn table expr = .ok (c, i) := by
  cases expr with
  | identifier name =>
      cases index : table.getColumnIndex name with
      | none => exact .inl ⟨_, by simp only [resolveColumn, index, Option.bind_none]; rfl⟩
      | some i =>
          obtain ⟨c, here, -⟩ := Table.getColumnIndex_some index
          refine .inr ⟨name, i, c, rfl, index, here, ?_⟩
          simp [resolveColumn, index, here]
  | _ => exact .inl ⟨_, rfl⟩

theorem mapM_resolveColumn_ok {table : Table} {exprs : List Expression}
    {found : List (ColumnDef × Nat)} (resolved : exprs.mapM (resolveColumn table) = .ok found) :
    exprs.mapM (fieldPosition table) = some (found.map Prod.snd) ∧ Found table found ∧
      found.length = exprs.length := by
  induction exprs generalizing found with
  | nil =>
      obtain rfl : [] = found := by simpa [pure, Except.pure] using resolved
      exact ⟨rfl, by rintro pair ⟨⟩, rfl⟩
  | cons expr rest ih =>
      rw [List.mapM_cons] at resolved
      rcases resolveColumn_cases table expr with
        ⟨e, stops⟩ | ⟨name, i, c, rfl, index, here, first⟩
      · rw [stops] at resolved
        cases resolved
      · rw [first] at resolved
        cases later : rest.mapM (resolveColumn table) with
        | error e =>
            rw [later] at resolved
            cases resolved
        | ok others =>
            rw [later] at resolved
            obtain rfl : (c, i) :: others = found := by
              simpa [pure, Except.pure, bind, Except.bind] using resolved
            obtain ⟨positions, all, length⟩ := ih later
            refine ⟨?_, ?_, by rw [List.length_cons, length, List.length_cons]⟩
            · simp only [List.mapM_cons, fieldPosition, index, positions]
              rfl
            · rintro pair member
              rcases List.mem_cons.mp member with rfl | member
              · exact here
              · exact all pair member

theorem resolveColumns_ok {table : Table} {exprs : List Expression}
    {found : List (ColumnDef × Nat)} (resolved : resolveColumns table exprs = .ok found) :
    fieldPositions table exprs = some (found.map Prod.snd) ∧ Found table found ∧
      (found.length = table.columns.length ∨ found.length = exprs.length) := by
  unfold resolveColumns at resolved
  unfold fieldPositions
  split_ifs at resolved ⊢ with star
  · obtain rfl : table.columns.zipIdx = found := by simpa using resolved
    refine ⟨by rw [List.zipIdx_map_snd, List.range_eq_range'], ?_, .inl List.length_zipIdx⟩
    rintro ⟨c, i⟩ member
    exact List.mem_zipIdx_iff_getElem?.mp member
  · obtain ⟨positions, all, length⟩ := mapM_resolveColumn_ok resolved
    exact ⟨positions, all, .inr length⟩

theorem filterRows_ok {keep : Row → Except Exn Bool} {rows kept : List Row}
    (filtered : filterRows keep rows = .ok kept) :
    kept = rows.filter fun row => match keep row with
      | .ok result => result
      | .error _ => false := by
  induction rows generalizing kept with
  | nil =>
      obtain rfl : [] = kept := by simpa [filterRows] using filtered
      rfl
  | cons row rest ih =>
      rw [filterRows] at filtered
      cases here : keep row with
      | error e =>
          rw [here] at filtered
          cases filtered
      | ok isMatch =>
          cases later : filterRows keep rest with
          | error e =>
              rw [here, later] at filtered
              cases filtered
          | ok others =>
              rw [here, later] at filtered
              obtain rfl : (if isMatch then row :: others else others) = kept := by
                simpa [pure, Except.pure, bind, Except.bind] using filtered
              rw [List.filter_cons, here, ← ih later]

theorem filterRows_matchesWhere {whereClause : Option Expression} {columns : List ColumnDef}
    {rows kept : List Row} (filtered : filterRows (matchesWhere whereClause columns) rows = .ok kept) :
    kept = rows.filter (satisfies whereClause columns) := by
  rw [filterRows_ok filtered]
  congr 1
  funext row
  unfold matchesWhere satisfies
  cases whereClause <;> rfl

theorem toSizeT_of_nonneg {n : Int32} (nonneg : 0 ≤ n) : toSizeT n = n.toInt.toNat := by
  have wide : 0 ≤ n.toInt64 := by
    rw [Int64.le_iff_toInt_le, Int32.toInt_toInt64]
    exact Int32.le_iff_toInt_le.mp nonneg
  rw [toSizeT, Int64.toNat_toUInt64_of_le wide]
  exact congrArg Int.toNat n.toInt_toInt64

theorem applyLimit_eq {offset : Int32} (nonneg : 0 ≤ offset) (limit : Int32) (rows : List Row) :
    applyLimit offset limit rows =
      if limit < 0 then rows.drop offset.toInt.toNat
      else (rows.drop offset.toInt.toNat).take limit.toInt.toNat := by
  unfold applyLimit
  rw [toSizeT_of_nonneg nonneg]
  by_cases beyond : rows.length ≤ offset.toInt.toNat
  · rw [if_pos beyond, List.drop_eq_nil_of_le beyond, List.take_nil, ite_self]
  · rw [if_neg beyond]
    by_cases negative : limit < 0
    · rw [if_pos negative, if_neg fun both => absurd both.1 (Int32.not_le.mpr negative)]
    · have counts : 0 ≤ limit := Int32.not_lt.mp negative
      rw [if_neg negative, toSizeT_of_nonneg counts]
      dsimp only
      split
      · rfl
      · rename_i whole
        rw [List.take_of_length_le]
        exact Nat.not_lt.mp fun cut => whole ⟨counts, cut⟩

theorem mem_of_applyLimit {offset limit : Int32} {rows : List Row} {row : Row}
    (member : row ∈ applyLimit offset limit rows) : row ∈ rows := by
  unfold applyLimit at member
  split at member
  · cases member
  · dsimp only at member
    split at member
    · exact List.mem_of_mem_drop (List.mem_of_mem_take member)
    · exact List.mem_of_mem_drop member

theorem selectRows_ok {stmt : SelectStatement} {dbName : Bytes} {s s' : StorageEngine}
    {result : SelectResult} (ran : (selectRows stmt dbName).run s = .ok result s') :
    ∃ table, s.getTable dbName stmt.tableName = some table ∧
      (∀ row ∈ result.rows, row ∈ table.rows) ∧
      ∀ i ∈ result.indices, i < table.columns.length := by
  rcases selectRows_ends stmt dbName s with
    ⟨p, stops⟩ | ⟨table, columns, kept, found, resolved, filtered, ends⟩
  · rw [stops] at ran
    cases ran
  · obtain ⟨rfl, -⟩ := EStateM.Result.ok.inj (ends.symm.trans ran)
    refine ⟨table, found, ?_, ?_⟩
    · intro row member
      have inside := mem_of_applyLimit member
      rw [filterRows_matchesWhere filtered] at inside
      exact List.mem_of_mem_filter inside
    · intro i member
      obtain ⟨pair, inside, rfl⟩ := List.mem_map.mp member
      exact (List.getElem?_eq_some_iff.mp ((resolveColumns_ok resolved).2.1 pair inside)).1

/-- A SELECT that is not answered with an ERR packet has found all columns of its field list, and
its rows are those it asks for. -/
theorem selectRows_cases {stmt : SelectStatement} {dbName : Bytes} {s : StorageEngine}
    {table : Table} (found : s.getTable dbName stmt.tableName = some table)
    (offset : 0 ≤ stmt.offset) :
    (∃ p, (selectRows stmt dbName).run s = .error p s) ∨ ∃ positions,
      fieldPositions table stmt.columns = some positions ∧
      (∀ i ∈ positions, i < table.columns.length) ∧
      (positions.length = table.columns.length ∨ positions.length = stmt.columns.length) ∧
      (columnsAt table positions).length = positions.length ∧
      (selectRows stmt dbName).run s =
        .ok ⟨columnsAt table positions, positions, selectedRows stmt table⟩ s := by
  rcases selectRows_ends stmt dbName s with
    ⟨p, stops⟩ | ⟨table', columns, kept, found', resolved, filtered, ends⟩
  · exact .inl ⟨p, stops⟩
  · obtain rfl := Option.some.inj (found.symm.trans found')
    obtain ⟨positions, all, count⟩ := resolveColumns_ok resolved
    refine .inr ⟨columns.map Prod.snd, positions, ?_, by rwa [List.length_map],
      by rw [all.columnsAt, List.length_map, List.length_map], ?_⟩
    · intro i member
      obtain ⟨pair, inside, rfl⟩ := List.mem_map.mp member
      exact (List.getElem?_eq_some_iff.mp (all pair inside)).1
    · rw [all.columnsAt, selectedRows, ← filterRows_matchesWhere filtered, ← applyLimit_eq offset]
      exact ends

theorem mem_of_selectedRows {stmt : SelectStatement} {table : Table} {row : Row}
    (member : row ∈ selectedRows stmt table) : row ∈ table.rows := by
  unfold selectedRows at member
  dsimp only at member
  split at member
  · exact List.mem_of_mem_filter (List.mem_of_mem_drop member)
  · exact List.mem_of_mem_filter (List.mem_of_mem_drop (List.mem_of_mem_take member))

def Exec.responded (bytes : Bytes) (e : Exec) : Exec :=
  { e.counted 1 with events := e.events ++ [.respond bytes, .send bytes] }

theorem sendErr_run (p : ErrPacket) (e : Exec) :
    (sendErr p).run e = .ok true (e.responded (packet e.session.sequenceId p.payload)) := by
  have sound := p.encode_sound e.session.sequenceId Sound.empty
  have more : (p.encode e.session.sequenceId Buffer.empty).readable ≠ [] := by
    rw [sound.readable]
    simp [packet, le]
  simp only [sendErr, encodeNext, EStateM.run_bind, nextSequenceId_run, EStateM.run_pure,
    responseCallback_run more, sound.readable]
  rfl

theorem length_of_mem_projected {positions : List Nat} {rows : List Row} {row : List Value}
    (member : row ∈ rows.map (project positions)) : row.length = positions.length := by
  obtain ⟨row, -, rfl⟩ := List.mem_map.mp member
  rw [project, List.length_map]

theorem executeSelect_refused {stmt : SelectStatement} {e : Exec} {p : ErrPacket} {s : StorageEngine}
    (ends : (selectRows stmt e.session.currentDatabase).run e.storage = .error p s) :
    (executeSelect stmt).run e = (sendErr p).run { e with storage := s } := by
  simp only [executeSelect, EStateM.run_bind, EStateM.run_get, onStorage_error ends]

/-- A SELECT whose rows are wide enough for its columns is answered with a result set. -/
theorem executeSelect_sends {stmt : SelectStatement} {e : Exec} {result : SelectResult}
    (ends : (selectRows stmt e.session.currentDatabase).run e.storage = .ok result e.storage)
    (inside : ∀ row ∈ result.rows, ∀ i ∈ result.indices, i < row.length) :
    ∃ e' response, (executeSelect stmt).run e = .ok true e' ∧
      e'.events = e.events ++ [.respond response, .send response] ∧
      response = packets e.session.sequenceId
        (sentPayloads result stmt.tableName e.session.currentDatabase) := by
  obtain ⟨response, e', encoded, events, shown⟩ :=
    encodeResultSet_run result stmt.tableName e.session.currentDatabase inside e
  have more : response.readable ≠ [] := by
    rw [shown]
    simp [sentPayloads, packets, packet, le]
  refine ⟨{ e' with events := e'.events ++ [.respond response.readable, .send response.readable] },
    response.readable, ?_, by simp only [events], shown⟩
  simp only [executeSelect, EStateM.run_bind, EStateM.run_get, onStorage_ok ends, encoded,
    responseCallback_run more]
  rfl

theorem executeSelect_sent {stmt : SelectStatement} {e : Exec} {result : SelectResult}
    (ends : (selectRows stmt e.session.currentDatabase).run e.storage = .ok result e.storage)
    (count : result.columns.length < 2 ^ 64)
    (inside : ∀ row ∈ result.rows, ∀ i ∈ result.indices, i < row.length) :
    ∃ e' response, (executeSelect stmt).run e = .ok true e' ∧
      e'.events = e.events ++ [.respond response, .send response] ∧
      response = packets e.session.sequenceId (payloads
        (definitions result.columns stmt.tableName e.session.currentDatabase)
        (result.rows.map (project result.indices)) resultSetEof.payload) := by
  obtain ⟨e', response, ran, events, shown⟩ := executeSelect_sends ends inside
  exact ⟨e', response, ran, events, by rw [shown, sentPayloads_eq _ _ count]⟩

theorem executeSelect_inside {stmt : SelectStatement} {e e' : Exec} {result : SelectResult}
    {kept : Bool}
    (ends : (selectRows stmt e.session.currentDatabase).run e.storage = .ok result e.storage)
    (ran : (executeSelect stmt).run e = .ok kept e') :
    ∀ row ∈ result.rows, ∀ i ∈ result.indices, i < row.length := by
  cases encoded : (encodeResultSet result stmt.tableName e.session.currentDatabase).run e with
  | ok response e₁ => exact encodeResultSet_inside _ _ _ _ _ _ encoded
  | error err e₁ =>
      simp only [executeSelect, EStateM.run_bind, EStateM.run_get, onStorage_ok ends, encoded] at ran
      cases ran

theorem executeSelect_run {stmt : SelectStatement} {e : Exec} {table : Table}
    (found : e.storage.getTable e.session.currentDatabase stmt.tableName = some table)
    (widths : ∀ row ∈ table.rows, row.length = table.columns.length)
    (offset : 0 ≤ stmt.offset)
    (count : table.columns.length < 2 ^ 64) (fields : stmt.columns.length < 2 ^ 64) :
    (∃ p : ErrPacket, (executeSelect stmt).run e =
      .ok true (e.responded (packet e.session.sequenceId p.payload))) ∨
    ∃ positions e' response, fieldPositions table stmt.columns = some positions ∧
      (∀ i ∈ positions, i < table.columns.length) ∧
      (columnsAt table positions).length = positions.length ∧ positions.length < 2 ^ 64 ∧
      response = packets e.session.sequenceId (payloads
        (definitions (columnsAt table positions) stmt.tableName e.session.currentDatabase)
        ((selectedRows stmt table).map (project positions)) resultSetEof.payload) ∧
      (executeSelect stmt).run e = .ok true e' ∧
      e'.events = e.events ++ [.respond response, .send response] := by
  rcases selectRows_cases found offset with
    ⟨p, stops⟩ | ⟨positions, asked, inside, length, same, ran⟩
  · exact .inl ⟨p, (executeSelect_refused stops).trans (sendErr_run p e)⟩
  · have short : positions.length < 2 ^ 64 := by
      rcases length with length | length <;> omega
    have narrow : ∀ row ∈ selectedRows stmt table, ∀ i ∈ positions, i < row.length := by
      intro row member i at_
      rw [widths row (mem_of_selectedRows member)]
      exact inside i at_
    have few : (columnsAt table positions).length < 2 ^ 64 := by rwa [same]
    obtain ⟨e', response, sent, events, shown⟩ := executeSelect_sent ran few narrow
    exact .inr ⟨positions, e', response, asked, inside, same, short, shown, sent, events⟩

/-! ## The columns, as they are received -/

/-- The type codes of the protocol. -/
def typeCode : DataType → UInt8
  | .boolean => 1
  | .int => 3
  | .float => 4
  | .double => 5
  | .bigint => 8
  | .varchar | .text | .nullType => 254

/-- A definition tells of a stored column: where it is, its name and its type, whether it is NOT NULL
in bit 0 of the flags, the PRIMARY KEY in bit 1 and AUTO_INCREMENT in bit 9. No other bit is set. -/
structure Describes (dbName tableName : Bytes) (col : ColumnDef) (p : ColumnDefinitionPacket) :
    Prop where
  schema : p.schema = dbName
  table : p.table = tableName
  orgTable : p.orgTable = tableName
  name : p.name = col.name
  orgName : p.orgName = col.name
  type : p.columnType = typeCode col.type
  flags : ∀ i, p.flags.toNat.testBit i =
    (i == 0 && col.notNull || i == 1 && col.primaryKey || i == 9 && col.autoIncrement)

theorem testBit_flag (k i : Nat) (b : Bool) :
    (if b then 2 ^ k else 0).testBit i = (i == k && b) := by
  cases b with
  | false => simp
  | true =>
      rw [if_pos rfl, Nat.testBit_two_pow, Bool.and_true, beq_eq_decide]
      exact decide_eq_decide.mpr eq_comm

theorem toNat_flags (col : ColumnDef) : col.flags.toNat =
    (if col.notNull then 2 ^ 0 else 0) ||| (if col.primaryKey then 2 ^ 1 else 0) |||
      (if col.autoIncrement then 2 ^ 9 else 0) := by
  unfold ColumnDef.flags
  cases col.notNull <;> cases col.primaryKey <;> cases col.autoIncrement <;> rfl

theorem describes_fromColumnDef (col : ColumnDef) (tableName dbName : Bytes) :
    Describes dbName tableName col (.fromColumnDef col tableName dbName) where
  schema := rfl
  table := rfl
  orgTable := rfl
  name := rfl
  orgName := rfl
  type := by
    rw [ColumnDefinitionPacket.fromColumnDef]
    cases col.type <;> rfl
  flags := by
    intro i
    rw [ColumnDefinitionPacket.fromColumnDef]
    simp only [toNat_flags, Nat.testBit_or, testBit_flag]

theorem describes_definitions (columns : List ColumnDef) (tableName dbName : Bytes) :
    List.Forall₂ (Describes dbName tableName) columns (definitions columns tableName dbName) := by
  induction columns with
  | nil => exact .nil
  | cons col rest ih => exact .cons (describes_fromColumnDef col tableName dbName) ih

/-- The response consists of the packets of a result set, and if their payloads fit, its receiver
reads definitions that tell of the columns in the field list, in their order, and the rows that the
statement asks for. -/
def IsResultSetOf (stmt : SelectStatement) (table : Table) (e : Exec) (response : Bytes) : Prop :=
  ∃ positions columns, fieldPositions table stmt.columns = some positions ∧
    List.Forall₂ (Describes e.session.currentDatabase stmt.tableName) (columnsAt table positions)
      columns ∧
    let rows := (selectedRows stmt table).map (project positions)
    let emitted := payloads columns rows resultSetEof.payload
    response = packets e.session.sequenceId emitted ∧
      ((∀ payload ∈ emitted, payload.length < 2 ^ 24) →
        decode response = some ⟨columns, rows.map (·.map cellText)⟩)

/-- Every SELECT is answered by one response, which is an ERR packet or the result set that is
asked for. A vector has no more elements than a `size_t` counts. -/
theorem select_answer {stmt : SelectStatement} {e : Exec} {table : Table}
    (found : e.storage.getTable e.session.currentDatabase stmt.tableName = some table)
    (widths : ∀ row ∈ table.rows, row.length = table.columns.length)
    (offset : 0 ≤ stmt.offset)
    (count : table.columns.length < 2 ^ 64) (fields : stmt.columns.length < 2 ^ 64) :
    ∃ e' response, (executeSelect stmt).run e = .ok true e' ∧
      e'.events = e.events ++ [.respond response, .send response] ∧
      (response[4]? ≠ some 0xFF → IsResultSetOf stmt table e response) := by
  rcases executeSelect_run found widths offset count fields with ⟨p, ran⟩ |
    ⟨positions, e', response, asked, -, same, short, shown, ran, events⟩
  · refine ⟨_, _, ran, rfl, fun noError => absurd ?_ noError⟩
    simp [packet, le, ErrPacket.payload]
  · refine ⟨e', response, ran, events, fun _ => ?_⟩
    refine ⟨positions, _, asked, describes_definitions _ _ _, shown, fun emitted => ?_⟩
    have length := length_definitions (columnsAt table positions) stmt.tableName
      e.session.currentDatabase
    rw [shown]
    refine decode_packets (by rwa [length, same])
      (fun p member => emitted _ (mem_payloads_column member)) ?_
      (fun row member => emitted _ (mem_payloads_row member)) rfl e.session.sequenceId
    intro row member
    rw [length, same, length_of_mem_projected member]

def sampleTable : Table :=
  { newTable { tableName := ascii "t"
               columns := [{ name := ascii "id", type := ascii "INT" },
                 { name := ascii "name", type := ascii "TEXT" }] } with
    rows := [[.int 1, .null]] }

def sampleExec : Exec where
  session := { connectionId := 1, state := .authenticated, currentDatabase := ascii "test" }
  storage := StorageEngine.initial.setTable (ascii "test") (Database.create (ascii "test"))
    (ascii "t") sampleTable
  events := []

def sampleSelect : SelectStatement where
  columns := [.identifier (ascii "*")]
  tableName := ascii "t"
  whereClause := none
  limit := -1
  offset := 0

theorem sampleSelect_answer : ∃ e' response, (executeSelect sampleSelect).run sampleExec =
    .ok true e' ∧ e'.events = sampleExec.events ++ [.respond response, .send response] ∧
      (response[4]? ≠ some 0xFF → IsResultSetOf sampleSelect sampleTable sampleExec response) :=
  select_answer (StorageEngine.getTable_setTable _ _ _ _ _) (by decide) (by decide) (by decide)
    (by decide)

end TinySql
