import TinySql.Command.Answers
import TinySql.Command.FaithfulInsert
import TinySql.Protocol.PacketRoundTrip

/-!
# What an INSERT reports

The OK packet of an INSERT is made with 0 for the affected rows and 1 for the last insert id,
whatever has been stored and generated.
-/

namespace TinySql
open Buffer Frame Run StorageEngine

/-- The packet that a client decodes from an OK response. -/
def decodedOk (response : Bytes) : Option OkPacket :=
  if response[4]? = some 0x00 then
    match OkPacket.new.decode.run (ofBytes response) with
    | .ok p _ => p
    | .error _ _ => none
  else none

def responseOf : Event → Option Bytes
  | .respond response => some response
  | _ => none

/-- The bytes of the responses that have been sent on the way from one state to another. -/
def responses (before after : Exec) : List Bytes :=
  (after.events.drop before.events.length).filterMap responseOf

def reports (before after : Exec) : List OkPacket := (responses before after).filterMap decodedOk

def rowCount (dbName tableName : Bytes) (s : StorageEngine) : Nat :=
  ((s.getTable dbName tableName).map (·.rows.length)).getD 0

/-- The values of the counter that an INSERT takes from its table. -/
def generatedValues (stmt : InsertStatement) (t : Table) : List Int64 :=
  (List.range (generations ((sources stmt t.columns).getD []))).map fun k =>
    t.nextAutoIncrement + Int64.ofNat k

/-- The id stands for one of the values, or is 0 where there are none. -/
def Identifies (id : UInt64) (values : List Int64) : Prop :=
  id ∈ values.map Int64.toUInt64 ∨ values = [] ∧ id = 0

/-! ## Runs of INSERTs on one table -/

/-- What a call of `executeInsert` is given besides its table. -/
structure InsertCall where
  columns : List Bytes
  values : List Expression

def InsertCall.statement (tableName : Bytes) (c : InsertCall) : InsertStatement :=
  ⟨tableName, c.columns, c.values⟩

/-- A server with the sum of the affected rows that it has reported. -/
structure Account where
  exec : Exec
  reported : Nat

namespace Account
variable (dbName tableName : Bytes)

def inserted (c : InsertCall) (e : Exec) : Exec :=
  final ((answer (executeInsert (c.statement tableName) dbName)).run e)

def call (c : InsertCall) (a : Account) : Account where
  exec := inserted dbName tableName c a.exec
  reported := a.reported +
    ((reports a.exec (inserted dbName tableName c a.exec)).map (·.affectedRows.toNat)).sum

def Step (a : Account) (c : InsertCall) (a' : Account) : Prop := a.call dbName tableName c = a'

/-- Each OK response of the call counts the rows that the call has appended, and names the value
that it has generated. -/
def Reports (a : Account) (c : InsertCall) : Prop :=
  ∀ p ∈ reports a.exec (a.call dbName tableName c).exec,
    rowCount dbName tableName (a.call dbName tableName c).exec.storage =
        rowCount dbName tableName a.exec.storage + p.affectedRows.toNat ∧
      ∀ t, a.exec.storage.getTable dbName tableName = some t →
        Identifies p.lastInsertId (generatedValues (c.statement tableName) t)

/-- The table has grown from this size by as many rows as have been reported. -/
def Balanced (start : Nat) (a : Account) : Prop :=
  rowCount dbName tableName a.exec.storage = start + a.reported

/-- There is no such table, the number of values is wrong, or a NOT NULL column is left NULL. -/
def Declines (a : Account) (c : InsertCall) : Prop :=
  ∀ t, dbName ≠ [] → a.exec.storage.getTable dbName tableName = some t →
    ¬ Accepted (c.statement tableName) t

end Account

/-! ## One call -/

theorem decodedOk_packet (p : OkPacket) (sequenceId : UInt8) (short : p.payload.length < 2 ^ 24) :
    decodedOk (packet sequenceId p.payload) = some p := by
  have shown : (ofBytes (packet sequenceId p.payload)).readable =
      (p.encode sequenceId Buffer.empty).readable ++ [] := by
    rw [(Sound.ofBytes _).readable, (p.encode_sound sequenceId Sound.empty).readable]
    simp
  obtain ⟨b, decodes, -⟩ := p.roundTrips short sequenceId [] _ shown
  rw [decodedOk, if_pos (p.first sequenceId), decodes]

theorem decodedOk_error (p : ErrPacket) (sequenceId : UInt8) :
    decodedOk (packet sequenceId p.payload) = none := by
  rw [decodedOk, if_neg]
  rw [p.first sequenceId]
  decide

theorem responses_responded {e e' : Exec} (bytes : Bytes) (before : e'.events = e.events) :
    responses e (e'.responded bytes) = [bytes] := by
  have events : (e'.responded bytes).events = e.events ++ [.respond bytes, .send bytes] := by
    rw [← before]
    rfl
  rw [responses, events, List.drop_left]
  rfl

theorem reports_ok {e : Exec} {body : StatementM OkPacket} {p : OkPacket} {s : StorageEngine}
    (ran : body.run e.storage = .ok p s) (short : p.payload.length < 2 ^ 24) :
    reports e (final ((answer body).run e)) = [p] := by
  have sent : responses e (final ((answer body).run e)) =
      [packet e.session.sequenceId p.payload] := by
    rw [answer_run_ok ran]
    exact responses_responded _ rfl
  rw [reports, sent, List.filterMap_cons_some (decodedOk_packet p _ short), List.filterMap_nil]

theorem reports_error {e : Exec} {body : StatementM OkPacket} {p : ErrPacket} {s : StorageEngine}
    (ran : body.run e.storage = .error p s) : reports e (final ((answer body).run e)) = [] := by
  have sent : responses e (final ((answer body).run e)) =
      [packet e.session.sequenceId p.payload] := by
    rw [answer_run_error ran]
    exact responses_responded _ rfl
  rw [reports, sent, List.filterMap_cons_none (decodedOk_error p _), List.filterMap_nil]

theorem executeInsert_outcome (stmt : InsertStatement) (dbName : Bytes) (s : StorageEngine) :
    (∃ t s', dbName ≠ [] ∧ s.getTable dbName stmt.tableName = some t ∧ Accepted stmt t ∧
      (executeInsert stmt dbName).run s = .ok (okPacket 1 []) s' ∧
      rowCount dbName stmt.tableName s' = rowCount dbName stmt.tableName s + 1) ∨
    (∀ t, dbName ≠ [] → s.getTable dbName stmt.tableName = some t → ¬ Accepted stmt t) ∧
      ∃ p s', (executeInsert stmt dbName).run s = .error p s' ∧
        rowCount dbName stmt.tableName s' = rowCount dbName stmt.tableName s := by
  rcases executeInsert_cases stmt dbName s with ⟨db, t, named, here, there⟩ | ⟨absent, p, -, stops⟩
  · have found := (getTable_of_getDatabase here stmt.tableName).trans there
    have only : ¬ Accepted stmt t → ∀ t', dbName ≠ [] →
        s.getTable dbName stmt.tableName = some t' → ¬ Accepted stmt t' := by
      intro declined t' _ found'
      rwa [← Option.some.inj (found.symm.trans found')]
    rw [executeInsert_spec named here there]
    cases known : sources stmt t.columns with
    | none =>
        have declined : ¬ Accepted stmt t := by
          rintro ⟨srcs, known', -⟩
          rw [known] at known'
          cases known'
        exact .inr ⟨only declined, _, s, rfl, rfl⟩
    | some srcs =>
        dsimp only
        by_cases refused : Refused srcs t.columns
        · have declined : ¬ Accepted stmt t := by
            rintro ⟨srcs', known', free⟩
            obtain rfl := Option.some.inj (known.symm.trans known')
            exact free refused
          rw [if_pos refused]
          refine .inr ⟨only declined, _, _, rfl, ?_⟩
          rw [rowCount, rowCount, getTable_setTable, found]
          rfl
        · rw [if_neg refused]
          refine .inl ⟨t, _, named, found, ⟨srcs, known, refused⟩, rfl, ?_⟩
          rw [rowCount, rowCount, getTable_setTable, found]
          simp [Table.inserted]
  · refine .inr ⟨?_, p, s, stops, rfl⟩
    intro t named found
    rcases absent with unnamed | none
    · exact absurd unnamed named
    · rw [none] at found
      cases found

namespace Account
variable {dbName tableName : Bytes} {a : Account} {c : InsertCall}

theorem declines_or (dbName tableName : Bytes) (a : Account) (c : InsertCall) :
    a.Declines dbName tableName c ∧ reports a.exec (a.call dbName tableName c).exec = [] ∧
      rowCount dbName tableName (a.call dbName tableName c).exec.storage =
        rowCount dbName tableName a.exec.storage ∨
    ¬ a.Declines dbName tableName c ∧
      reports a.exec (a.call dbName tableName c).exec = [okPacket 1 []] ∧
      rowCount dbName tableName (a.call dbName tableName c).exec.storage =
        rowCount dbName tableName a.exec.storage + 1 := by
  rcases executeInsert_outcome (c.statement tableName) dbName a.exec.storage with
    ⟨t, s', named, found, accepted, ran, grown⟩ | ⟨declined, p, s', ran, same⟩
  · refine .inr ⟨fun declines => declines t named found accepted, reports_ok ran (by decide), ?_⟩
    have storage : (a.call dbName tableName c).exec.storage = s' := by
      rw [call, inserted, answer_run_ok ran]
      rfl
    rw [storage]
    exact grown
  · refine .inl ⟨declined, reports_error ran, ?_⟩
    have storage : (a.call dbName tableName c).exec.storage = s' := by
      rw [call, inserted, answer_run_error ran]
      rfl
    rw [storage]
    exact same

theorem reported_call (c : InsertCall) (a : Account) :
    (a.call dbName tableName c).reported = a.reported := by
  rcases declines_or dbName tableName a c with ⟨-, silent, -⟩ | ⟨-, told, -⟩
  · simp only [call] at silent ⊢
    rw [silent]
    rfl
  · simp only [call] at told ⊢
    rw [told]
    rfl

theorem reports_iff : a.Reports dbName tableName c ↔ a.Declines dbName tableName c := by
  rcases declines_or dbName tableName a c with ⟨declines, silent, -⟩ | ⟨accepts, told, grown⟩
  · refine iff_of_true ?_ declines
    rw [Reports, silent]
    exact fun p member => absurd member List.not_mem_nil
  · refine iff_of_false ?_ accepts
    intro reported
    rw [Reports, told] at reported
    have counted := (reported (okPacket 1 []) List.mem_cons_self).1
    rw [grown] at counted
    have zero : (okPacket 1 []).affectedRows.toNat = 0 := rfl
    omega

theorem balanced_call_iff {start : Nat} (balanced : a.Balanced dbName tableName start) :
    (a.call dbName tableName c).Balanced dbName tableName start ↔
      a.Declines dbName tableName c := by
  rw [Balanced] at balanced ⊢
  rw [reported_call]
  rcases declines_or dbName tableName a c with ⟨declines, -, same⟩ | ⟨accepts, -, grown⟩
  · exact iff_of_true (same.trans balanced) declines
  · exact iff_of_false (by omega) accepts

end Account

def Exec.account (e : Exec) : Account := ⟨e, 0⟩

/-- In a run of INSERTs each OK response says what its call has done, and their affected rows make
up for the growth of the table, exactly when no call of the run is answered with OK. -/
theorem inserts_report_iff (dbName tableName : Bytes) (e : Exec) (run : List InsertCall) :
    Admits (Account.Step dbName tableName) (Account.Reports dbName tableName) e.account run ∧
        Always (Account.Step dbName tableName)
          (Account.Balanced dbName tableName (rowCount dbName tableName e.storage)) e.account run ↔
      Admits (Account.Step dbName tableName) (Account.Declines dbName tableName) e.account run := by
  constructor
  · rintro ⟨reports, -⟩
    exact reports.mono fun a c => Account.reports_iff.mp
  · intro declines
    constructor
    · exact declines.mono fun a c => Account.reports_iff.mpr
    · have keeps : ∀ a c a', Account.Balanced dbName tableName (rowCount dbName tableName e.storage) a →
          a.Declines dbName tableName c → a.Step dbName tableName c a' →
            Account.Balanced dbName tableName (rowCount dbName tableName e.storage) a' := by
        rintro a c a' balanced declined rfl
        exact (Account.balanced_call_iff balanced).mpr declined
      have shows : ∀ a c, Account.Balanced dbName tableName (rowCount dbName tableName e.storage) a →
          ¬ a.Declines dbName tableName c → ∃ a', a.Step dbName tableName c a' ∧
            ¬ Account.Balanced dbName tableName (rowCount dbName tableName e.storage) a' := by
        intro a c balanced accepted
        exact ⟨_, rfl, fun kept => accepted ((Account.balanced_call_iff balanced).mp kept)⟩
      have start : Account.Balanced dbName tableName (rowCount dbName tableName e.storage)
          e.account := rfl
      exact (always_iff_admits _ (fun _ balanced => balanced) keeps shows _ run start).mpr declines

/-- `INSERT INTO t VALUES (5)` on an empty table: the packet says that no row has been inserted. -/
theorem insert_reports_no_row : ¬ ∀ (dbName tableName : Bytes) (e : Exec) (run : List InsertCall),
    Reached e.storage →
      Admits (Account.Step dbName tableName) (Account.Reports dbName tableName) e.account run := by
  intro all
  have reported := all (ascii "test") (ascii "t")
    ⟨{ connectionId := 1 }, oneColumnStorage (ascii "INT"), []⟩
    [⟨[], [.numberLiteral (ascii "5")]⟩] (oneColumnStorage_reached _)
  have declines := Account.reports_iff.mp (admits_cons.mp reported).1
  refine declines (newTable (oneColumn (ascii "INT"))) (by decide) (oneColumnStorage_table _) ?_
  exact ⟨[.given (.numberLiteral (ascii "5"))], rfl, by decide⟩

end TinySql
