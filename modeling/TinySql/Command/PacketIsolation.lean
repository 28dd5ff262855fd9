import TinySql.Command.CommandHandler
import TinySql.Lib.Frame

/-!
# A command and the bytes behind its packet

How `dispatch` runs on a packet at the head of the buffer. COM_QUERY and COM_INIT_DB take all that
is in the buffer, whatever the length in the header says; the other commands take the command byte.
-/

namespace TinySql
open Buffer MySQLCommand

/-- The commands whose handlers read up to the end of the buffer. -/
def takesAll (cmdByte : UInt8) : Bool := cmdByte == COM_QUERY || cmdByte == COM_INIT_DB

/-- What a command does outside the buffer, given the bytes that its handler takes. -/
def commandBody (cmdByte : UInt8) (text : Bytes) : ExecM Bool := do
  match cmdByte with
  | COM_PING => handlePing
  | COM_QUIT => handleQuit
  | COM_QUERY => handleQuery text
  | COM_INIT_DB => handleInitDb text
  | _ =>
      let _ ← sendErr unknownCommand
      return false

theorem commandBody_congr {cmdByte : UInt8} (fixed : takesAll cmdByte = false)
    (text text' : Bytes) : commandBody cmdByte text = commandBody cmdByte text' := by
  unfold commandBody
  split
  · rfl
  · rfl
  · exact absurd fixed (by decide)
  · exact absurd fixed (by decide)
  · rfl

def taken (cmdByte : UInt8) (available : Nat) : Nat := if takesAll cmdByte then available else 0

theorem readAll_run (c : Context) : readAll.run c =
    .ok c.buffer.readable { c with buffer := c.buffer.advance c.buffer.readableBytes } := by
  have all : c.buffer.readable.take c.buffer.readableBytes = c.buffer.readable :=
    List.take_of_length_le (readable_length c.buffer).le
  simp only [readAll, EStateM.run_bind, EStateM.run_get, onBuffer_run, readString, next_run,
    if_neg (Nat.lt_irrefl _), all]

theorem handleCommandByte_run (cmdByte : UInt8) (c : Context) :
    (handleCommandByte cmdByte).run c = (onExec (commandBody cmdByte c.buffer.readable)).run
      { c with buffer := c.buffer.advance (taken cmdByte c.buffer.readableBytes) } := by
  unfold handleCommandByte commandBody
  split
  · rfl
  · rfl
  · rw [EStateM.run_bind, readAll_run]
    rfl
  · rw [EStateM.run_bind, readAll_run]
    rfl
  · rename_i noPing noQuit noQuery noInitDb
    have fixed : takesAll cmdByte = false := by
      simpa only [takesAll, Bool.or_eq_false_iff, beq_eq_false_iff_ne] using ⟨noQuery, noInitDb⟩
    rw [taken, if_neg (by rw [fixed]; decide), advance_zero]
    simp only [EStateM.run_bind, onExec_run]
    cases (sendErr unknownCommand).run c.exec <;> rfl

/-! ## A packet at the head of the buffer -/

def Exec.received (sequenceId : UInt8) (e : Exec) : Exec :=
  { e with session := { e.session with sequenceId := sequenceId } }

section Packet
variable {b : Buffer} {sequenceId cmdByte : UInt8} {rest tail : Bytes}

theorem dispatch_run (short : (cmdByte :: rest).length < 2 ^ 24)
    (shown : b.readable = packet sequenceId (cmdByte :: rest) ++ tail) (e : Exec) :
    dispatch.run ⟨b, e⟩ = (onExec (commandBody cmdByte (rest ++ tail))).run
      ⟨b.advance (5 + taken cmdByte (rest ++ tail).length), e.received sequenceId⟩ := by
  have length : payloadLength b.readable = rest.length + 1 := by
    rw [shown, payloadLength_packet _ _ _ short, List.length_cons]
  have first : (b.advance 3).readable = sequenceId :: cmdByte :: (rest ++ tail) := by
    rw [readable_advance, shown, drop_packet, List.cons_append]
  have second : (b.advance 4).readable = cmdByte :: (rest ++ tail) := by
    rw [← advance_advance b 3 1, readable_advance, first, List.drop_one, List.tail_cons]
  have third : (b.advance 5).readable = rest ++ tail := by
    rw [← advance_advance b 4 1, readable_advance, second, List.drop_one, List.tail_cons]
  have size : b.readableBytes = 4 + (rest.length + 1) + tail.length := by
    rw [← readable_length, shown, List.length_append, length_packet, List.length_cons]
  have header : ¬ b.readableBytes < 4 := by omega
  have whole : ¬ (b.advance 4).readableBytes < payloadLength b.readable := by
    rw [readableBytes_advance, length]
    omega
  have some : ¬ UInt32.ofNat (payloadLength b.readable) < 1 := by
    rw [UInt32.lt_iff_toNat_lt, toNat_payloadLength, length, UInt32.toNat_one]
    omega
  have handler := handleCommandByte_run cmdByte ⟨b.advance 5, e.received sequenceId⟩
  rw [third, ← readable_length (b.advance 5), third, advance_advance] at handler
  rw [← handler]
  simp only [dispatch, EStateM.run_bind, EStateM.run_get, if_neg header, onBuffer_run,
    readThreeBytes_run (show 3 ≤ b.readableBytes by omega), readUint8_run first, onExec_run,
    modifySession_run, advance_advance, Nat.reduceAdd, toNat_payloadLength, if_neg whole,
    if_neg some, readUint8_run second]
  rfl

/-- What a handler shows outside the buffer: how it ends, and the session, the storage and the
responses it leaves. -/
def outcome : EStateM.Result Exn Context Bool → Except Exn Bool × Exec
  | .ok a c => (.ok a, c.exec)
  | .error e c => (.error e, c.exec)

theorem final_onExec {α : Type} (m : ExecM α) (c : Context) :
    (Frame.final ((onExec m).run c)).buffer = c.buffer := by
  rw [onExec_run]
  split <;> rfl

theorem outcome_onExec (m : ExecM Bool) (b b' : Buffer) (e : Exec) :
    outcome ((onExec m).run ⟨b, e⟩) = outcome ((onExec m).run ⟨b', e⟩) := by
  simp only [onExec_run]
  cases m.run e <;> rfl

/-- The packet of `size` bytes at the head of the buffer `b` is consumed, and has the effect that
it has in the buffer `alone`. -/
def Isolated (size : Nat) (b alone : Buffer) (e : Exec) : Prop :=
  (Frame.final (dispatch.run ⟨b, e⟩)).buffer = b.advance size ∧
    outcome (dispatch.run ⟨b, e⟩) = outcome (dispatch.run ⟨alone, e⟩)

theorem advance_inj {m n : Nat} : b.advance m = b.advance n ↔ m = n := by
  simp [advance]

/-- A command is isolated from the bytes behind its packet exactly when there are none, for
COM_QUERY and COM_INIT_DB, and when its payload is the command byte alone, for any other. -/
theorem dispatch_isolated_iff {alone : Buffer} (short : (cmdByte :: rest).length < 2 ^ 24)
    (shown : b.readable = packet sequenceId (cmdByte :: rest) ++ tail)
    (only : alone.readable = packet sequenceId (cmdByte :: rest)) (e : Exec) :
    Isolated (4 + (cmdByte :: rest).length) b alone e ↔
      if takesAll cmdByte then tail = [] else rest = [] := by
  have ran := dispatch_run short shown e
  have whole : alone.readable = packet sequenceId (cmdByte :: rest) ++ [] := by
    rw [only, List.append_nil]
  have ran' := dispatch_run short whole e
  rw [Isolated, ran, ran', final_onExec, advance_inj, List.length_cons, List.append_nil]
  cases kind : takesAll cmdByte with
  | true =>
      simp only [taken, kind, if_true, List.length_append]
      constructor
      · rintro ⟨consumed, -⟩
        exact List.length_eq_zero_iff.mp (by omega)
      · rintro rfl
        rw [List.append_nil]
        exact ⟨by simp only [List.length_nil]; omega, outcome_onExec _ _ _ _⟩
  | false =>
      simp only [taken, kind, Bool.false_eq_true, if_false]
      constructor
      · rintro ⟨consumed, -⟩
        exact List.length_eq_zero_iff.mp (by omega)
      · rintro rfl
        rw [commandBody_congr kind ([] ++ tail) []]
        exact ⟨rfl, outcome_onExec _ _ _ _⟩

end Packet

def authenticatedExec : Exec :=
  ⟨{ connectionId := 1, state := .authenticated, username := ascii "root" }, .initial, []⟩

def pingPacket : Bytes := packet 0 [COM_PING]

def initDbPacket : Bytes := packet 0 (COM_INIT_DB :: ascii "test")

theorem ping_isolated : Isolated 5 (Buffer.ofBytes (pingPacket ++ initDbPacket))
    (Buffer.ofBytes pingPacket) authenticatedExec := by
  have short : [COM_PING].length < 2 ^ 24 := by decide
  have shown : (Buffer.ofBytes (pingPacket ++ initDbPacket)).readable =
      packet 0 [COM_PING] ++ initDbPacket := by decide
  have only : (Buffer.ofBytes pingPacket).readable = packet 0 [COM_PING] := by decide
  exact (dispatch_isolated_iff short shown only authenticatedExec).mpr rfl

/-- COM_INIT_DB takes the COM_PING packet behind it into the name of the database. -/
theorem initDb_not_isolated : ¬ ∀ (sequenceId : UInt8) (payload tail : Bytes) (b alone : Buffer)
    (e : Exec), e.session.isAuthenticated = true → payload ≠ [] → payload.length < 2 ^ 24 →
      b.readable = packet sequenceId payload ++ tail → alone.readable = packet sequenceId payload →
      Isolated (4 + payload.length) b alone e := by
  intro all
  have isolated := all 0 (COM_INIT_DB :: ascii "test") pingPacket
    (Buffer.ofBytes (initDbPacket ++ pingPacket)) (Buffer.ofBytes initDbPacket) authenticatedExec
    rfl (by decide) (by decide) (by decide) (by decide)
  exact absurd isolated.1 (by decide +kernel)

end TinySql
