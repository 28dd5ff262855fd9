import TinySql.Common.BufferRuns
import Mathlib.Data.Fin.VecNotation
import Mathlib.Logic.Equiv.Basic

/-!
# Length-encoded integers and strings

They are appended in their shortest form and read back from there. The three bytes of the 3-byte
form are read by calls of `readUint8` in one expression, whose order is left to the compiler.
-/

namespace TinySql.Buffer
open Wire

/-- An order of the calls in `readUint8() | (readUint8() << 8) | (readUint8() << 16)`: operand `i` is
the byte of call number `order i`. -/
abbrev CallOrder := Equiv.Perm (Fin 3)

/-- The expression with its calls in some order. -/
def readThreeBytesIn (order : CallOrder) : BufferM UInt32 := do
  let b0 ← readUint8
  let b1 ← readUint8
  let b2 ← readUint8
  let byte : Fin 3 → UInt8 := ![b0, b1, b2]
  return (byte (order 0)).toUInt32 ||| (byte (order 1)).toUInt32 <<< 8 |||
    (byte (order 2)).toUInt32 <<< 16

/-- `readLenencInt`, where the calls of its 3-byte form are made in some order. -/
def readLenencIntIn (order : CallOrder) : BufferM UInt64 := do
  if (← get).readableBytes < 1 then
    throw (.runtimeError (ascii "Buffer: not enough data for lenenc int"))
  let first ← readUint8
  if first < 0xFB then return first.toUInt64
  else if first = 0xFC then return (← readUint16).toUInt64
  else if first = 0xFD then
    if (← get).readableBytes < 3 then
      throw (.runtimeError (ascii "Buffer: not enough data for 3-byte lenenc int"))
    return (← readThreeBytesIn order).toUInt64
  else if first = 0xFE then readUint64
  else throw (.runtimeError (ascii "Buffer: invalid lenenc int (0xFF)"))

def readLenencStringIn (order : CallOrder) : BufferM Bytes := do
  let len ← readLenencIntIn order
  readString len.toNat

theorem readLenencIntIn_refl : readLenencIntIn (Equiv.refl _) = readLenencInt := rfl

/-! ## What is read -/

section Reading
variable {order : CallOrder} {b : Buffer} {rest : Bytes}

/-- The bytes that the 3-byte form has of a number. -/
def byteAt (val : UInt64) (i : Fin 3) : UInt8 := UInt8.ofNat (val.toNat / 256 ^ i.val)

def joinThree (byte : Fin 3 → UInt8) : UInt32 :=
  (byte 0).toUInt32 ||| (byte 1).toUInt32 <<< 8 ||| (byte 2).toUInt32 <<< 16

/-- What is read where a number has been written. -/
def readAs (order : CallOrder) (val : UInt64) : UInt64 :=
  if 0x10000 ≤ val ∧ val < 0x1000000 then (joinThree (byteAt val ∘ order)).toUInt64 else val

theorem toNat_joinThree (byte : Fin 3 → UInt8) :
    (joinThree byte).toNat = ofLe [byte 0, byte 1, byte 2] := toNat_join24 _ _ _

theorem joinThree_injective : Function.Injective joinThree := by
  intro f g same
  have numbers := congrArg UInt32.toNat same
  rw [toNat_joinThree, toNat_joinThree] at numbers
  have bytes : [f 0, f 1, f 2] = [g 0, g 1, g 2] := by
    rw [← le_ofLe [f 0, f 1, f 2], ← le_ofLe [g 0, g 1, g 2], numbers]
    rfl
  simp only [List.cons.injEq, and_true] at bytes
  obtain ⟨first, second, third⟩ := bytes
  funext i
  match i with
  | 0 => exact first
  | 1 => exact second
  | 2 => exact third

theorem readThreeBytesIn_run {byte : Fin 3 → UInt8}
    (shown : b.readable = byte 0 :: byte 1 :: byte 2 :: rest) :
    (readThreeBytesIn order).run b = .ok (joinThree (byte ∘ order)) (b.advance 3) := by
  have second : (b.advance 1).readable = byte 1 :: byte 2 :: rest := by simp [shown]
  have third : (b.advance 2).readable = byte 2 :: rest := by simp [shown]
  have all : ![byte 0, byte 1, byte 2] = byte := by
    funext i
    match i with
    | 0 => rfl
    | 1 => rfl
    | 2 => rfl
  rw [readThreeBytesIn, EStateM.run_bind, readUint8_run shown]
  dsimp only
  rw [EStateM.run_bind, readUint8_run second]
  dsimp only
  rw [EStateM.run_bind, advance_advance, readUint8_run third]
  dsimp only
  rw [all, advance_advance]
  rfl

/-- Only the 3-byte form is read by calls whose order is open. -/
theorem readLenencIntIn_other (other : b.readable.head? ≠ some 0xFD) :
    (readLenencIntIn order).run b = readLenencInt.run b := by
  simp only [readLenencIntIn, readLenencInt, EStateM.run_bind, EStateM.run_get]
  cases shown : b.readable with
  | nil =>
      have none : b.readableBytes < 1 := by
        rw [← readable_length, shown]
        exact Nat.zero_lt_one
      rw [if_pos none, if_pos none, EStateM.run_bind, EStateM.run_bind, EStateM.run_throw]
  | cons c rest =>
      have some : ¬ b.readableBytes < 1 := by
        rw [← readable_length, shown]
        exact Nat.not_lt.mpr (Nat.le_add_left 1 _)
      have different : c ≠ 0xFD := by simpa [shown] using other
      rw [if_neg some, if_neg some, EStateM.run_bind, EStateM.run_bind, readUint8_run shown]
      dsimp only
      rw [if_neg different, if_neg different]

theorem le_byteAt (val : UInt64) : [byteAt val 0, byteAt val 1, byteAt val 2] = le 3 val.toNat := by
  simp [byteAt, le, Nat.div_div_eq_div_mul]

theorem joinThree_byteAt {val : UInt64} (small : val.toNat < 0x1000000) :
    (joinThree (byteAt val)).toUInt64 = val := by
  rw [← UInt64.toNat_inj, UInt32.toNat_toUInt64, toNat_joinThree, le_byteAt]
  exact ofLe_le 3 val.toNat small

theorem readLenencIntIn_three {byte : Fin 3 → UInt8}
    (shown : b.readable = 0xFD :: byte 0 :: byte 1 :: byte 2 :: rest) :
    (readLenencIntIn order).run b = .ok (joinThree (byte ∘ order)).toUInt64 (b.advance 4) := by
  have behind : (b.advance 1).readable = byte 0 :: byte 1 :: byte 2 :: rest := by simp [shown]
  have some : ¬ b.readableBytes < 1 := by
    rw [← readable_length, shown]
    exact Nat.not_lt.mpr (Nat.le_add_left 1 _)
  have enough : ¬ (b.advance 1).readableBytes < 3 := by
    rw [← readable_length, behind]
    exact Nat.not_lt.mpr (Nat.le_add_left 3 _)
  rw [readLenencIntIn, EStateM.run_bind, EStateM.run_get]
  dsimp only
  rw [if_neg some, EStateM.run_bind, readUint8_run shown]
  dsimp only
  rw [if_neg (by decide), if_neg (by decide), if_pos rfl, EStateM.run_bind, EStateM.run_get]
  dsimp only
  rw [if_neg enough, EStateM.run_bind, readThreeBytesIn_run behind]
  dsimp only
  rw [advance_advance]
  rfl

theorem three_of_head {n : Nat} (marked : (lenencBytes n).head? = some 0xFD) :
    0x10000 ≤ n ∧ n < 0x1000000 := by
  unfold lenencBytes at marked
  split_ifs at marked with one two three
  · have same : UInt8.ofNat n = 0xFD := by simpa [le] using marked
    have number := congrArg UInt8.toNat same
    rw [UInt8.toNat_ofNat', Nat.mod_eq_of_lt (one.trans (by decide))] at number
    exact absurd number (Nat.ne_of_lt (one.trans (by decide)))
  · simp [le] at marked
  · exact ⟨Nat.not_lt.mp two, three⟩
  · simp [le] at marked

theorem lenencBytes_three {val : UInt64} (three : 0x10000 ≤ val ∧ val < 0x1000000) :
    lenencBytes val.toNat = [0xFD, byteAt val 0, byteAt val 1, byteAt val 2] := by
  have small : val.toNat < 0x1000000 := UInt64.lt_iff_toNat_lt.mp three.2
  have low : ¬ val.toNat < 0x10000 := Nat.not_lt.mpr (UInt64.le_iff_toNat_le.mp three.1)
  have lowest : ¬ val.toNat < 0xFB := fun below => low (below.trans (by decide))
  rw [lenencBytes, if_neg lowest, if_neg low, if_pos small, ← le_byteAt]
  rfl

theorem readLenencIntIn_run {val : UInt64} (shown : b.readable = lenencBytes val.toNat ++ rest) :
    (readLenencIntIn order).run b =
      .ok (readAs order val) (b.advance (lenencBytes val.toNat).length) := by
  by_cases three : 0x10000 ≤ val ∧ val < 0x1000000
  · rw [lenencBytes_three three] at shown ⊢
    rw [readAs, if_pos three]
    exact readLenencIntIn_three shown
  · rw [readAs, if_neg three, ← readLenencInt_implements.run shown (reads_lenenc64 val)]
    apply readLenencIntIn_other
    intro marked
    obtain ⟨first, more, bytes, -⟩ := lenencBytes_head val.toNat
    have head : (lenencBytes val.toNat).head? = some 0xFD := by
      rw [bytes] at shown ⊢
      rwa [shown] at marked
    obtain ⟨wide, small⟩ := three_of_head head
    exact three ⟨UInt64.le_iff_toNat_le.mpr wide, UInt64.lt_iff_toNat_lt.mpr small⟩

/-- The order of the calls does not matter to a number, or it puts equal bytes in each other's
places. -/
def InPlace (order : CallOrder) (val : UInt64) : Prop :=
  val < 0x10000 ∨ 0x1000000 ≤ val ∨ ∀ i, byteAt val (order i) = byteAt val i

theorem readAs_eq_iff (order : CallOrder) (val : UInt64) :
    readAs order val = val ↔ InPlace order val := by
  by_cases three : 0x10000 ≤ val ∧ val < 0x1000000
  · obtain ⟨wide, small⟩ := three
    have joined := joinThree_byteAt (UInt64.lt_iff_toNat_lt.mp small)
    have moved : readAs order val = val ↔ byteAt val ∘ order = byteAt val := by
      rw [readAs, if_pos ⟨wide, small⟩]
      nth_rewrite 2 [← joined]
      rw [UInt32.toUInt64_inj, joinThree_injective.eq_iff]
    rw [moved, funext_iff]
    constructor
    · exact fun same => .inr (.inr same)
    · rintro (low | high | same)
      · exact absurd low (UInt64.not_lt.mpr wide)
      · exact absurd small (UInt64.not_lt.mpr high)
      · exact same
  · rw [readAs, if_neg three]
    refine iff_of_true rfl ?_
    by_cases low : val < 0x10000
    · exact .inl low
    · exact .inr (.inl (UInt64.not_lt.mp fun small => three ⟨UInt64.not_lt.mp low, small⟩))

end Reading

/-! ## What is read back -/

/-- The indices of a buffer stand in order, with the vector before what is written. -/
structure Formed (b : Buffer) : Prop where
  written : b.data.length ≤ b.writeIndex
  allocated : b.writeIndex ≤ b.capacity

theorem Init.formed (init : Init) : Formed init.buffer := by
  cases init with
  | default => exact ⟨Nat.zero_le _, Nat.zero_le _⟩
  | capacity initialSize => exact ⟨Nat.zero_le _, Nat.zero_le _⟩
  | data bytes => exact ⟨Nat.le_refl _, Nat.le_refl _⟩

section Formed
variable {b b' : Buffer} {α : Type}

theorem ensureWritable_data (b : Buffer) (len : Nat) : (b.ensureWritable len).data = b.data := by
  simp only [ensureWritable, reserve]
  split_ifs <;> rfl

theorem ensureWritable_room (allocated : b.writeIndex ≤ b.capacity) (len : Nat) :
    b.writeIndex + len ≤ (b.ensureWritable len).capacity := by
  rw [ensureWritable]
  by_cases short : b.writableBytes < len
  · have grows : b.capacity < b.capacity + len := Nat.lt_add_of_pos_right (Nat.zero_lt_of_lt short)
    rw [if_pos short, reserve, if_pos grows]
    exact Nat.add_le_add_right allocated len
  · rw [if_neg short]
    simp only [writableBytes] at short
    omega

theorem Formed.append (formed : Formed b) (bytes : Bytes) : Formed (b.append bytes) where
  written := by
    rw [append_data, append_writeIndex, List.length_append]
    exact Nat.add_le_add_right formed.written _
  allocated := by
    have room := ensureWritable_room formed.allocated bytes.length
    have fits : (b.ensureWritable bytes.length).data.length + bytes.length ≤
        (b.ensureWritable bytes.length).capacity := by
      rw [ensureWritable_data]
      exact (Nat.add_le_add_right formed.written _).trans room
    rw [append_writeIndex, Buffer.append, insertEnd, if_pos fits]
    exact room

theorem Formed.writeLenencInt (formed : Formed b) (val : UInt64) : Formed (b.writeLenencInt val) := by
  unfold Buffer.writeLenencInt
  split_ifs
  · exact formed.append _
  · exact (formed.append _).append _
  · exact (((formed.append _).append _).append _).append _
  · exact (formed.append _).append _

theorem Formed.readFromFd (formed : Formed b) (delivered : Bytes) :
    Formed (b.readFromFd delivered) := by
  have written := formed.written
  have allocated := formed.allocated
  unfold Buffer.readFromFd
  dsimp only
  split_ifs with fits
  · refine ⟨?_, ?_⟩
    · exact (List.length_take_le _ _).trans (Nat.le_add_right_of_le written)
    · simp only [writableBytes] at fits ⊢
      omega
  · apply Formed.append
    exact ⟨(List.length_take_le _ _).trans (written.trans allocated), Nat.le_refl _⟩

theorem Formed.after {m : BufferM α} {r : Reader α} (implements : Implements m r)
    (formed : Formed b) (ran : Op.perform.after m b = some b') : Formed b' := by
  obtain ⟨a, ran⟩ := Op.perform.after_eq ran
  obtain ⟨used, rest, -, -, rfl⟩ := implements.returned ran
  exact ⟨formed.written, formed.allocated⟩

/-- Every operation keeps a buffer formed, a `readFromFd` too. -/
theorem Formed.perform {op : Op} (formed : Formed b) (ran : op.perform b = some b') : Formed b' := by
  cases op with
  | writeUint8 val => cases ran; exact formed.append _
  | writeUint16 val => cases ran; exact formed.append _
  | writeUint32 val => cases ran; exact formed.append _
  | writeUint64 val => cases ran; exact formed.append _
  | writeBytes bytes => cases ran; exact formed.append bytes
  | writeString str => cases ran; exact formed.append str
  | writeNullTerminatedString str => cases ran; exact (formed.append str).append [0]
  | writeLenencInt val => cases ran; exact formed.writeLenencInt val
  | writeLenencString str => cases ran; exact (formed.writeLenencInt _).append str
  | append bytes => cases ran; exact formed.append bytes
  | readFromFd delivered => cases ran; exact formed.readFromFd delivered
  | readUint8 => exact formed.after readUint8_implements ran
  | readUint16 => exact formed.after readUint16_implements ran
  | readUint32 => exact formed.after readUint32_implements ran
  | readUint64 => exact formed.after readUint64_implements ran
  | readBytes len => exact formed.after (readBytes_implements len) ran
  | readString len => exact formed.after (readString_implements len) ran
  | readNullTerminatedString => exact formed.after readNullTerminatedString_implements ran
  | readLenencInt => exact formed.after readLenencInt_implements ran
  | readLenencString => exact formed.after readLenencString_implements ran
  | retrieve len => exact formed.after (retrieve_implements len) ran
  | retrieveAll => cases ran; exact ⟨Nat.zero_le _, Nat.zero_le _⟩
  | skip n => exact formed.after (skip_implements n) ran

end Formed

/-- `setReaderIndex`, at an index up to the writer index. -/
def seek (index : Nat) (b : Buffer) : Buffer := { b with readIndex := index }

/-- Whatever the buffer holds and whatever is appended later, bytes of this form are appended, and
reading at their place takes exactly them and returns this value. -/
def Recovers {α : Type} (write : Buffer → Buffer) (form : Bytes → Prop) (read : BufferM α) (a : α) :
    Prop :=
  ∀ (b : Buffer) (behind : Bytes), Formed b → ∃ bytes, form bytes ∧
    (write b).data = b.data ++ bytes ∧ (write b).writeIndex = b.writeIndex + bytes.length ∧
    read.run (((write b).append behind).seek b.data.length) =
      .ok a (((write b).append behind).seek (b.data.length + bytes.length))

def IntegerRecovered (order : CallOrder) (val : UInt64) : Prop :=
  Recovers (writeLenencInt val)
    (fun bytes => bytes.length = (getLenencIntSize val).toNat ∧
      ∀ first ∈ bytes.head?, first ≠ 0xFB ∧ first ≠ 0xFF)
    (readLenencIntIn order) val

def StringRecovered (order : CallOrder) (str : Bytes) : Prop :=
  Recovers (writeLenencString str)
    (fun bytes => bytes.length =
      (getLenencIntSize (UInt64.ofNat str.length)).toNat + str.length)
    (readLenencStringIn order) str

section Recovering
variable {α : Type} {write : Buffer → Buffer} {bytes : Bytes}

theorem Appends.readable (appends : Appends write bytes) {b : Buffer} (formed : Formed b)
    (behind : Bytes) :
    ∃ rest, (((write b).append behind).seek b.data.length).readable = bytes ++ rest := by
  have both := appends.comp (appends_append behind)
  have written := formed.written
  simp only [Buffer.readable, seek, memory, readableBytes, List.rightpad, both.data, both.writeIndex,
    List.append_assoc, List.drop_left, List.length_append]
  rw [List.take_append, List.take_of_length_le (by omega)]
  exact ⟨_, rfl⟩

theorem Appends.recovers_iff (appends : Appends write bytes) {form : Bytes → Prop}
    (shape : form bytes) {read : BufferM α} {a : α} {condition : Prop}
    (reads : ∀ b rest, b.readable = bytes ++ rest →
      (read.run b = .ok a (b.advance bytes.length) ↔ condition)) :
    Recovers write form read a ↔ condition := by
  constructor
  · intro recovers
    obtain ⟨bytes', -, data, -, ran⟩ := recovers empty [] ⟨Nat.zero_le _, Nat.zero_le _⟩
    obtain rfl : bytes = bytes' := List.append_cancel_left ((appends.data empty).symm.trans data)
    obtain ⟨rest, shown⟩ := appends.readable (b := empty) ⟨Nat.zero_le _, Nat.zero_le _⟩ []
    exact (reads _ rest shown).mp ran
  · intro holds b behind formed
    obtain ⟨rest, shown⟩ := appends.readable formed behind
    exact ⟨bytes, shape, appends.data b, appends.writeIndex b, (reads _ rest shown).mpr holds⟩

theorem integerRecovered_iff (order : CallOrder) (val : UInt64) :
    IntegerRecovered order val ↔ InPlace order val := by
  apply (appends_writeLenencInt val).recovers_iff
  · refine ⟨(toNat_getLenencIntSize val).symm, ?_⟩
    obtain ⟨first, rest, bytes, notNull, -⟩ := lenencBytes_head val.toNat
    obtain ⟨notError, -⟩ := lenencBytes_first val.toNat
    rw [bytes] at notError ⊢
    rintro _ ⟨⟩
    exact ⟨notNull, fun error => notError (congrArg some error)⟩
  · intro b rest shown
    rw [readLenencIntIn_run shown, ← readAs_eq_iff]
    constructor
    · intro same
      injection same
    · intro same
      rw [same]

theorem stringRecovered_iff (order : CallOrder) (str : Bytes) (bound : str.length < 2 ^ 64) :
    StringRecovered order str ↔ InPlace order (UInt64.ofNat str.length) := by
  have length : (UInt64.ofNat str.length).toNat = str.length := by
    rw [UInt64.toNat_ofNat', Nat.mod_eq_of_lt bound]
  apply (appends_writeLenencString str).recovers_iff
  · rw [List.length_append, toNat_getLenencIntSize]
  · intro b rest shown
    rw [List.append_assoc] at shown
    have text : (b.advance (lenencBytes (UInt64.ofNat str.length).toNat).length).readable =
        str ++ rest := by
      simp [shown]
    rw [readLenencStringIn, EStateM.run_bind, readLenencIntIn_run shown, ← readAs_eq_iff,
      List.length_append, ← advance_advance]
    dsimp only
    constructor
    · intro ran
      rw [readString, next_run] at ran
      split_ifs at ran with short
      injection ran with taken
      have count := congrArg List.length taken
      rw [List.length_take, readable_length, Nat.min_eq_left (Nat.not_lt.mp short)] at count
      rw [← UInt64.toNat_inj, count, length]
    · intro same
      rw [length] at text
      rw [same, length]
      exact (readString_implements str.length).run text (reads_take str)

end Recovering

/-- Integers and strings are recovered but for numbers of the 3-byte form whose bytes the order of
the calls exchanges. -/
theorem lenenc_recovered_iff (order : CallOrder) :
    (∀ val, IntegerRecovered order val ↔ InPlace order val) ∧
      ∀ str : { str : Bytes // str.length < 2 ^ 64 },
        StringRecovered order str ↔ InPlace order (UInt64.ofNat str.val.length) :=
  ⟨integerRecovered_iff order, fun str => stringRecovered_iff order str str.property⟩

/-- Read from right to left, 0x010203 comes back as 0x030201. -/
theorem reversed_not_recovered : ¬ ∀ order val, IntegerRecovered order val := by
  intro all
  have inPlace := (integerRecovered_iff (Equiv.swap 0 2) 0x010203).mp (all _ _)
  exact absurd inPlace (by unfold InPlace; decide)

end TinySql.Buffer
