import TinySql.Lib.Padding
import TinySql.Protocol.PacketRoundTrip

/-!
# Decoders and the ends of their packets

A decoder reads its fields from everything that the buffer holds, so that it stops at the end of
the packet for some payloads only. Which these are is said here for each class.
-/

namespace TinySql
open Wire Buffer Packet CapabilityFlags

variable {α : Type}

/-- Where `decode` returns true it has consumed just the packet with this payload, and the fields do
not depend on the bytes behind it. No buffer has 2^64 bytes. -/
def RespectsBoundary (decode : BufferM (Option α)) (payload : Bytes) : Prop :=
  ∀ sequenceId tail (b : Buffer), b.readable = packet sequenceId payload ++ tail →
    b.readableBytes < 2 ^ 64 → ∀ p b', decode.run b = .ok (some p) b' →
      b' = b.advance (4 + payload.length) ∧
      ∀ sequenceId' tail' (c : Buffer), c.readable = packet sequenceId' payload ++ tail' →
        c.readableBytes < 2 ^ 64 → ∀ q c', decode.run c = .ok (some q) c' → q = p

/-- What `RespectsBoundary` asks of a format: behind the payload it leaves everything. -/
def Stops (format : Reader (Option α)) (payload : Bytes) : Prop :=
  ∀ tail p rest, 4 + payload.length + tail.length < 2 ^ 64 →
    format.run (payload ++ tail) = some (some p, rest) → rest = tail

theorem readPacket_true {readFields : UInt32 → BufferM (Option α)}
    {fields : UInt32 → Reader (Option α)}
    (implements : ∀ length, Implements (readFields length) (fields length)) {b b' : Buffer}
    {sequenceId : UInt8} {payload tail : Bytes} {a : Option α}
    (shown : b.readable = packet sequenceId payload ++ tail) (short : payload.length < 2 ^ 24)
    (ran : (readPacket readFields).run b = .ok a b') :
    ∃ used rest, payload ++ tail = used ++ rest ∧
      (fields (UInt32.ofNat payload.length)).run (payload ++ tail) = some (a, rest) ∧
      b' = b.advance (4 + used.length) := by
  have does := readPacket_run implements shown
  rw [Nat.mod_eq_of_lt short] at does
  cases fields : (fields (UInt32.ofNat payload.length)).run (payload ++ tail) with
  | none =>
      rw [fields] at does
      obtain ⟨e, b'', raised⟩ := does
      rw [ran] at raised
      cases raised
  | some found =>
      rw [fields] at does
      obtain ⟨used, split, ran'⟩ := does
      rw [ran] at ran'
      obtain ⟨rfl, rfl⟩ := EStateM.Result.ok.inj ran'
      exact ⟨used, found.2, split, rfl, rfl⟩

theorem respects_iff_stops {readFields : UInt32 → BufferM (Option α)}
    {fields : UInt32 → Reader (Option α)}
    (implements : ∀ length, Implements (readFields length) (fields length))
    (isLocal : ∀ length, Local (fields length)) {payload : Bytes} (short : payload.length < 2 ^ 24) :
    RespectsBoundary (readPacket readFields) payload ↔
      Stops (fields (UInt32.ofNat payload.length)) payload := by
  constructor
  · intro respects tail p rest bound run
    have sound := Sound.ofBytes (packet 0 payload ++ tail)
    have size : (ofBytes (packet 0 payload ++ tail)).readableBytes < 2 ^ 64 := by
      rw [← readable_length, sound.readable, List.length_append, length_packet]
      exact bound
    obtain ⟨used, split, reads⟩ := isLocal _ _ _ _ run
    have does := readPacket_run implements sound.readable
    rw [Nat.mod_eq_of_lt short, run] at does
    obtain ⟨taken, same, ran⟩ := does
    obtain ⟨consumed, -⟩ := respects 0 tail _ sound.readable size p _ ran
    have index := congrArg Buffer.readIndex consumed
    simp only [Buffer.advance] at index
    have length : taken.length = payload.length := by omega
    exact ((List.append_inj same length.symm).2).symm
  · intro stops sequenceId tail b shown bound p b' ran
    obtain ⟨used, rest, split, run, rfl⟩ := readPacket_true implements shown short ran
    have size : b.readableBytes = 4 + payload.length + tail.length :=
      (packet_append_readable shown).2.2.1
    obtain rfl : rest = tail := stops tail p rest (by omega) run
    obtain rfl : payload = used := List.append_cancel_right split
    refine ⟨rfl, fun sequenceId' tail' c shown' _ q c' ran' => ?_⟩
    obtain ⟨used', rest', split', run', -⟩ := readPacket_true implements shown' short ran'
    have again := (isLocal _).reads run tail'
    rw [run'] at again
    exact Option.some.inj (congrArg Prod.fst (Option.some.inj again))

/-! ## Packets that a decoder refuses -/

/-- The payload has a first byte, and it is none of these. -/
def Misheaded (headers : List UInt8) (payload : Bytes) : Prop :=
  ∃ first rest, payload = first :: rest ∧ first ∉ headers

theorem misheaded_of_not_mem {headers : List UInt8} {first : UInt8} {rest : Bytes}
    (unknown : first ∉ headers) : Misheaded headers (first :: rest) :=
  ⟨first, rest, rfl, unknown⟩

theorem headed_cons (headers : List UInt8) (fields : Reader α) (first : UInt8) (input : Bytes) :
    (headed headers fields).run (first :: input) =
      (if first ∈ headers then some <$> fields else pure none : Reader (Option α)).run input := by
  have read : (UInt8.ofNat <$> uint 1).run (first :: input) = some (first, input) :=
    reads_uint8 first input
  rw [headed, StateT.run_bind, read]
  rfl

theorem headed_run {headers : List UInt8} {fields : Reader α} {first : UInt8} {input rest : Bytes}
    {p : α} : (headed headers fields).run (first :: input) = some (some p, rest) ↔
      first ∈ headers ∧ fields.run input = some (p, rest) := by
  rw [headed_cons]
  by_cases known : first ∈ headers
  · rw [if_pos known, StateT.run_map]
    cases run : fields.run input with
    | none => simp [known]
    | some found => simp [known, Prod.ext_iff]
  · simp [known]

/-- Fields of a fixed width behind the first byte stop at the end of a payload of just that length. -/
theorem headed_stops_iff {fields : Reader α} {headers : List UInt8} {header : UInt8} {n : Nat}
    {payload : Bytes} (known : header ∈ headers) (small : n < 2 ^ 63)
    (short : payload.length < 2 ^ 24) (spans : Spans fields n) :
    Stops (headed headers fields) payload ↔ Misheaded headers payload ∨ payload.length = n + 1 := by
  constructor
  · intro stops
    cases payload with
    | nil =>
        have drained : n ≤ (zeros n).length ∧ [] = (zeros n).drop n := by simp [zeros]
        obtain ⟨p, run⟩ := spans.run_iff.mpr drained
        cases stops (header :: zeros n) p [] (by simp; omega) (headed_run.mpr ⟨known, run⟩)
    | cons first input =>
        by_cases accepted : first ∈ headers
        · right
          have enough : n ≤ (input ++ zeros n).length := by simp
          obtain ⟨p, run⟩ := spans.run_iff.mpr ⟨enough, rfl⟩
          have left := stops (zeros n) p ((input ++ zeros n).drop n) (by rw [length_zeros]; omega)
            (headed_run.mpr ⟨accepted, run⟩)
          have length := congrArg List.length left
          simp only [List.length_drop, List.length_append, length_zeros] at length
          simp only [List.length_cons]
          omega
        · exact Or.inl (misheaded_of_not_mem accepted)
  · intro ends tail p rest _ run
    cases payload with
    | nil =>
        rcases ends with ⟨first, rest, impossible, -⟩ | impossible
        · cases impossible
        · cases impossible
    | cons first input =>
        rw [List.cons_append] at run
        obtain ⟨accepted, run⟩ := headed_run.mp run
        have length : input.length = n := by
          rcases ends with ⟨other, others, same, unknown⟩ | length
          · obtain ⟨rfl, -⟩ := List.cons.inj same
            exact absurd accepted unknown
          · exact Nat.succ.inj length
        obtain ⟨-, left⟩ := spans.run_iff.mp ⟨p, run⟩
        rw [left, ← length, List.drop_left]

theorem restField_spans (n : Nat) (old : Bytes) : Spans (restField n old) n := by
  unfold restField
  split_ifs with some
  · exact Spans.take n
  · rw [Nat.eq_zero_of_not_pos some]
    exact Spans.pure old

/-! ## The status packets -/

theorem GenericPacket.stops {payload : Bytes} (short : payload.length < 2 ^ 24) :
    Stops (GenericPacket.format (UInt32.ofNat payload.length)) payload := by
  intro tail p rest _ run
  have spans : Spans (GenericPacket.format (UInt32.ofNat payload.length)) payload.length := by
    rw [GenericPacket.format, toNat_length short]
    exact (Spans.take _).bind fun _ => Spans.pure _
  obtain ⟨-, left⟩ := spans.run_iff.mp ⟨some p, run⟩
  rw [left, List.drop_left]

theorem EofPacket.stops_iff {payload : Bytes} (short : payload.length < 2 ^ 24) :
    Stops EofPacket.format payload ↔ Misheaded [0xFE] payload ∨ payload.length = 5 := by
  have spans : Spans EofPacket.fields 4 :=
    ((Spans.uint 2).map _).bind fun _ => ((Spans.uint 2).map _).bind fun _ => Spans.pure _
  exact headed_stops_iff List.mem_cons_self (by decide) short spans

theorem ErrPacket.stops_iff (self : ErrPacket) {payload : Bytes} (short : payload.length < 2 ^ 24) :
    Stops (self.format (UInt32.ofNat payload.length)) payload ↔
      Misheaded [0xFF] payload ∨ 9 ≤ payload.length := by
  obtain ⟨n, message⟩ : ∃ n, (UInt32.ofNat payload.length - 1 - 2 - 1 - 5).toNat = n := ⟨_, rfl⟩
  have wraps : n = (payload.length + 2 ^ 32 - 9) % 2 ^ 32 := by
    rw [← message]
    simp only [UInt32.toNat_sub, toNat_length short, UInt32.reduceToNat]
    omega
  have spans : Spans (self.fields (UInt32.ofNat payload.length)) (2 + (1 + (5 + (n + 0)))) := by
    rw [fields, message]
    exact ((Spans.uint 2).map _).bind fun _ => ((Spans.uint 1).map _).bind fun _ =>
      (Spans.take 5).bind fun _ => (restField_spans n _).bind fun _ => Spans.pure _
  have ends : payload.length = 2 + (1 + (5 + (n + 0))) + 1 ↔ 9 ≤ payload.length := by omega
  rw [← ends]
  exact headed_stops_iff List.mem_cons_self (by omega) short spans

namespace OkPacket

/-- Zero bytes behind the payload let its two integers come to their ends. They are in their shortest
form then, or that form already leaves no room in the payload for the other fields. -/
def Measured (payload : Bytes) : Prop :=
  ∀ affectedRows middle lastInsertId left,
    lenenc.run (payload.drop 1 ++ zeros 18) = some (affectedRows, middle) →
    lenenc.run middle = some (lastInsertId, left) →
    payload.length < 5 + (lenencBytes affectedRows).length + (lenencBytes lastInsertId).length ∨
    (payload.drop 1 ++ zeros 18).length =
      (lenencBytes affectedRows).length + (lenencBytes lastInsertId).length + left.length

def infoLength (length affectedRows lastInsertId : Nat) : Nat :=
  (length + 2 ^ 64 - (5 + (lenencBytes affectedRows).length + (lenencBytes lastInsertId).length)) %
    2 ^ 64

theorem tailFields_spans (self : OkPacket) {length : UInt32} {affectedRows lastInsertId : UInt64}
    {n : Nat} (info : OkPacket.rest length affectedRows lastInsertId = n) :
    Spans (self.tailFields length affectedRows lastInsertId) (4 + n) := by
  have parts := ((Spans.uint 2).map UInt16.ofNat).bind fun statusFlags =>
    ((Spans.uint 2).map UInt16.ofNat).bind fun warnings =>
      (restField_spans n self.info).bind fun info =>
        Spans.pure (OkPacket.mk affectedRows lastInsertId statusFlags warnings info)
  have width : 2 + (2 + (n + 0)) = 4 + n := by omega
  rw [tailFields, info, ← width]
  exact parts

theorem fields_run_iff (self : OkPacket) {length : Nat} (short : length < 2 ^ 24) {input rest : Bytes} :
    (∃ p, (self.fields (UInt32.ofNat length)).run input = some (p, rest)) ↔
      ∃ affectedRows middle lastInsertId left, lenenc.run input = some (affectedRows, middle) ∧
        lenenc.run middle = some (lastInsertId, left) ∧
        4 + infoLength length affectedRows lastInsertId ≤ left.length ∧
        rest = left.drop (4 + infoLength length affectedRows lastInsertId) := by
  have spans {affectedRows lastInsertId : Nat} (rows : affectedRows < 2 ^ 64)
      (id : lastInsertId < 2 ^ 64) :
      Spans (self.tailFields (UInt32.ofNat length) (UInt64.ofNat affectedRows)
        (UInt64.ofNat lastInsertId)) (4 + infoLength length affectedRows lastInsertId) := by
    apply self.tailFields_spans
    rw [rest_eq, toNat_length short, UInt64.toNat_ofNat', UInt64.toNat_ofNat',
      Nat.mod_eq_of_lt rows, Nat.mod_eq_of_lt id, infoLength]
  constructor
  · rintro ⟨p, run⟩
    obtain ⟨_, middle, rows, run⟩ := bind_run_some.mp run
    obtain ⟨affectedRows, first, rfl⟩ := map_run_some.mp rows
    obtain ⟨_, left, id, run⟩ := bind_run_some.mp run
    obtain ⟨lastInsertId, second, rfl⟩ := map_run_some.mp id
    obtain ⟨enough, drop⟩ := (spans (lenenc_lt first) (lenenc_lt second)).run_iff.mp ⟨p, run⟩
    exact ⟨affectedRows, middle, lastInsertId, left, first, second, enough, drop⟩
  · rintro ⟨affectedRows, middle, lastInsertId, left, first, second, enough, drop⟩
    obtain ⟨p, run⟩ := (spans (lenenc_lt first) (lenenc_lt second)).run_iff.mpr ⟨enough, drop⟩
    exact ⟨p, bind_run_some.mpr ⟨_, middle, map_run_some.mpr ⟨_, first, rfl⟩,
      bind_run_some.mpr ⟨_, left, map_run_some.mpr ⟨_, second, rfl⟩, run⟩⟩⟩

theorem infoLength_small {length affectedRows lastInsertId : Nat} (short : length < 2 ^ 24)
    (room : 5 + (lenencBytes affectedRows).length + (lenencBytes lastInsertId).length ≤ length) :
    infoLength length affectedRows lastInsertId + (5 + (lenencBytes affectedRows).length +
      (lenencBytes lastInsertId).length) = length := by
  unfold infoLength
  omega

theorem infoLength_large {length affectedRows lastInsertId : Nat}
    (short : length < 5 + (lenencBytes affectedRows).length + (lenencBytes lastInsertId).length) :
    infoLength length affectedRows lastInsertId + (5 + (lenencBytes affectedRows).length +
      (lenencBytes lastInsertId).length) = 2 ^ 64 + length := by
  have first := length_lenencBytes_le affectedRows
  have second := length_lenencBytes_le lastInsertId
  unfold infoLength
  omega

theorem measured_of_stops (self : OkPacket) {first : UInt8} {input : Bytes}
    (known : first ∈ [0x00, 0xFE]) (short : (first :: input).length < 2 ^ 24)
    (stops : Stops (self.format (UInt32.ofNat (first :: input).length)) (first :: input)) :
    Measured (first :: input) := by
  intro affectedRows middle lastInsertId left one two
  rw [List.drop_one, List.tail_cons] at one ⊢
  by_cases room : 5 + (lenencBytes affectedRows).length + (lenencBytes lastInsertId).length ≤
      (first :: input).length
  · right
    obtain ⟨n, info⟩ : ∃ n, infoLength (first :: input).length affectedRows lastInsertId = n :=
      ⟨_, rfl⟩
    have plain := infoLength_small short room
    rw [info] at plain
    -- More zero bytes are enough for the fields behind the integers.
    have one' := Local.lenenc.append one (zeros (4 + n))
    have two' := Local.lenenc.append two (zeros (4 + n))
    rw [List.append_assoc, ← zeros_add] at one'
    obtain ⟨p, run⟩ := (self.fields_run_iff short).mpr ⟨affectedRows, _, lastInsertId, _, one', two',
      by rw [info, List.length_append, length_zeros]; omega, rfl⟩
    have behind := stops (zeros (18 + (4 + n))) p _ (by rw [length_zeros]; omega)
      (headed_run.mpr ⟨known, run⟩)
    have size := congrArg List.length behind
    rw [info, List.length_drop, List.length_append, length_zeros, length_zeros] at size
    have least := takes_lenenc _ _ _ one
    have least' := takes_lenenc _ _ _ two
    simp only [List.length_append, length_zeros, List.length_cons] at least least' plain ⊢
    omega
  · left
    omega

/-- Where the payload has room for its fields and is measured, it holds both integers. -/
theorem integers_inside {input tail middle left : Bytes} {affectedRows lastInsertId : Nat}
    {first : UInt8} (measured : Measured (first :: input))
    (one : lenenc.run (input ++ tail) = some (affectedRows, middle))
    (two : lenenc.run middle = some (lastInsertId, left))
    (room : 5 + (lenencBytes affectedRows).length + (lenencBytes lastInsertId).length ≤
      (first :: input).length) :
    ∃ behind, left = behind ++ tail ∧ input.length =
      (lenencBytes affectedRows).length + (lenencBytes lastInsertId).length + behind.length := by
  simp only [Measured, List.drop_one, List.tail_cons, List.length_cons, List.length_append,
    length_zeros] at measured room
  rcases lenenc_zeros input with ⟨n, y, alone⟩ | ⟨other, y, rfl, bad⟩ | ⟨-, m, -, least, completed⟩
  · have both := Local.lenenc.append alone tail
    rw [one] at both
    obtain ⟨rfl, rfl⟩ := Prod.mk.inj (Option.some.inj both)
    have padded := Local.lenenc.append alone (zeros 18)
    rcases lenenc_zeros y with ⟨n, z, alone'⟩ | ⟨other, z, rfl, bad⟩ | ⟨-, m, -, least, completed⟩
    · have both' := Local.lenenc.append alone' tail
      rw [two] at both'
      obtain ⟨rfl, rfl⟩ := Prod.mk.inj (Option.some.inj both')
      have padded' := Local.lenenc.append alone' (zeros 18)
      have shortest := measured _ _ _ _ padded padded'
      rw [List.length_append, length_zeros] at shortest
      exact ⟨z, rfl, by omega⟩
    · rw [List.cons_append, lenenc_invalid bad] at two
      cases two
    · -- The payload ends inside the second integer: it has no room for the fields.
      obtain ⟨j, small, padded'⟩ := completed 9
      have shortest := measured _ _ _ _ padded padded'
      have smaller := length_lenencBytes_mono (least _ _ _ two)
      rw [length_zeros] at shortest
      omega
  · rw [List.cons_append, lenenc_invalid bad] at one
    cases one
  · obtain ⟨j, small, padded⟩ := completed 9
    have zero : lenenc.run (zeros (j + 9)) = some (0, zeros (j + 8)) := by
      rw [show j + 9 = 1 + (j + 8) by omega, zeros_add]
      exact (reads_lenenc 0 (by decide)).run _
    have shortest := measured _ _ _ _ padded zero
    have smaller := length_lenencBytes_mono (least _ _ _ one)
    have positive := length_lenencBytes_le lastInsertId
    rw [length_zeros, show (lenencBytes 0).length = 1 by rfl] at shortest
    omega

theorem stops_of_measured (self : OkPacket) {payload : Bytes} (short : payload.length < 2 ^ 24)
    (measured : Measured payload) : Stops (self.format (UInt32.ofNat payload.length)) payload := by
  intro tail p rest bound run
  -- The first byte may come from behind an empty payload.
  obtain ⟨first, input, split⟩ : ∃ first input, payload ++ tail = first :: input := by
    cases joined : payload ++ tail with
    | nil =>
        rw [joined] at run
        cases run
    | cons first input => exact ⟨first, input, rfl⟩
  have total := congrArg List.length split
  rw [List.length_append, List.length_cons] at total
  rw [split] at run
  obtain ⟨-, run⟩ := headed_run.mp run
  obtain ⟨affectedRows, middle, lastInsertId, left, one, two, enough, rfl⟩ :=
    (self.fields_run_iff short).mp ⟨p, run⟩
  have taken : (lenencBytes affectedRows).length + middle.length ≤ input.length :=
    takes_lenenc _ _ _ one
  have taken' : (lenencBytes lastInsertId).length + left.length ≤ middle.length :=
    takes_lenenc _ _ _ two
  by_cases room : 5 + (lenencBytes affectedRows).length + (lenencBytes lastInsertId).length ≤
      payload.length
  · cases payload with
    | nil => simp only [List.length_nil] at room; omega
    | cons other payload =>
        obtain ⟨rfl, rfl⟩ := List.cons.inj split
        obtain ⟨behind, rfl, length⟩ := integers_inside measured one two room
        have plain := infoLength_small short room
        have drop : 4 + infoLength (other :: payload).length affectedRows lastInsertId =
            behind.length := by
          rw [List.length_cons] at plain ⊢
          omega
        rw [drop, List.drop_left]
  · -- The length of the text is counted around, and no buffer holds as much.
    have large := infoLength_large (Nat.lt_of_not_le room)
    omega

theorem stops_iff (self : OkPacket) {payload : Bytes} (short : payload.length < 2 ^ 24) :
    Stops (self.format (UInt32.ofNat payload.length)) payload ↔
      Misheaded [0x00, 0xFE] payload ∨ Measured payload := by
  constructor
  · intro stops
    cases payload with
    | nil =>
        right
        intro affectedRows middle lastInsertId left one two
        left
        simp only [List.length_nil]
        omega
    | cons first input =>
        by_cases known : first ∈ [0x00, 0xFE]
        · exact Or.inr (self.measured_of_stops known short stops)
        · exact Or.inl (misheaded_of_not_mem known)
  · rintro (⟨first, input, rfl, unknown⟩ | measured)
    · intro tail p rest _ run
      exact absurd (headed_run.mp run).1 unknown
    · exact self.stops_of_measured short measured

end OkPacket

/-! ## The packets of the handshake -/

/-- The payload consists of the fields of the format, without a byte left. -/
def Filled (format : Reader α) (payload : Bytes) : Prop := ∃ p, Reads format payload p

theorem map_some_run {format : Reader α} {input rest : Bytes} {p : α} :
    (some <$> format).run input = some (some p, rest) ↔ format.run input = some (p, rest) := by
  rw [map_run_some]
  constructor
  · rintro ⟨q, run, same⟩
    rwa [← Option.some.inj same]
  · intro run
    exact ⟨p, run, rfl⟩

theorem Filled.stops {format : Reader α} {payload : Bytes} (filled : Filled format payload) :
    Stops (some <$> format) payload := by
  obtain ⟨q, reads⟩ := filled
  intro tail p rest _ run
  have alone := map_some_run.mp run
  rw [reads.run tail] at alone
  exact (congrArg Prod.snd (Option.some.inj alone)).symm

theorem Stops.filled {format : Reader α} {payload tail rest : Bytes} {p : α}
    (stops : Stops (some <$> format) payload) (isLocal : Local format)
    (bound : 4 + payload.length + tail.length < 2 ^ 64)
    (run : format.run (payload ++ tail) = some (p, rest)) : Filled format payload := by
  obtain rfl : rest = tail := stops tail p rest bound (map_some_run.mpr run)
  exact ⟨p, isLocal.reads run⟩

theorem reserved_completes (n : Nat) : Completes (reserved n) n := by
  induction n with
  | zero => exact Completes.pure ()
  | succ n ih =>
      have both := (Completes.uint 1).bind (Local.uint 1) fun _ => ih
      rwa [Nat.add_comm] at both

theorem HandshakeV10Packet.challengeField_completes (n i : Nat) (data : Vector UInt8 20) :
    Completes (challengeField n i data) n := by
  induction n generalizing i data with
  | zero => exact Completes.pure data
  | succ n ih =>
      have both := ((Completes.uint 1).map UInt8.ofNat).bind ((Local.uint 1).map _) fun byte =>
        ih (i + 1) (data.setIfInBounds i byte)
      rwa [Nat.add_comm 1 n] at both

theorem optionalField_completes (flags flag : UInt32) (old : Bytes) :
    Completes (optionalField flags flag old) (if hasFlag flags flag then 1 else 0) := by
  unfold optionalField
  split_ifs
  · exact Completes.untilZero
  · exact Completes.pure old

theorem HandshakeV10Packet.format_completes (self : HandshakeV10Packet) :
    Completes self.format 46 := by
  have name (flags : UInt32) : Completes (optionalField flags CLIENT_PLUGIN_AUTH
      self.authPluginName) 1 := by
    apply (optionalField_completes _ _ _).mono (optionalField_local _ _ _)
    split_ifs <;> decide
  have all : 46 = 1 + (1 + (4 + (8 + (1 + (2 + (1 + (2 + (2 + (1 + (10 + (12 + (1 + 0)))))))))))) := rfl
  rw [all]
  exact ((Completes.uint 1).map _).bind ((Local.uint 1).map _) fun _ =>
    Completes.untilZero.bind Local.untilZero fun _ =>
    ((Completes.uint 4).map _).bind ((Local.uint 4).map _) fun _ =>
    (challengeField_completes 8 0 _).bind (challengeField_local 8 0 _) fun _ =>
    ((Completes.uint 1).map _).bind ((Local.uint 1).map _) fun _ =>
    ((Completes.uint 2).map _).bind ((Local.uint 2).map _) fun _ =>
    ((Completes.uint 1).map _).bind ((Local.uint 1).map _) fun _ =>
    ((Completes.uint 2).map _).bind ((Local.uint 2).map _) fun _ =>
    ((Completes.uint 2).map _).bind ((Local.uint 2).map _) fun _ =>
    ((Completes.uint 1).map _).bind ((Local.uint 1).map _) fun _ =>
    (reserved_completes 10).bind (reserved_local 10) fun _ =>
    (challengeField_completes 12 8 _).bind (challengeField_local 12 8 _) fun _ =>
    (name _).bind (optionalField_local _ _ _) fun _ => Completes.pure _

theorem HandshakeV10Packet.stops_iff (self : HandshakeV10Packet) {payload : Bytes}
    (short : payload.length < 2 ^ 24) :
    Stops (some <$> self.format) payload ↔ Filled self.format payload := by
  constructor
  · intro stops
    obtain ⟨p, rest, run⟩ := self.format_completes payload
    exact stops.filled self.format_local (by rw [length_zeros]; omega) run
  · exact Filled.stops

namespace HandshakeResponse41Packet

/-- The fields in front of the response to the challenge. The flags decide about those behind it. -/
def loginFields : Reader UInt32 := do
  let capabilityFlags ← UInt32.ofNat <$> uint 4
  let _ ← UInt32.ofNat <$> uint 4
  let _ ← UInt8.ofNat <$> uint 1
  reserved 23
  let _ ← untilZero
  return capabilityFlags

def texts (self : HandshakeResponse41Packet) (flags : UInt32) : Reader (Bytes × Bytes) := do
  let database ← optionalField flags CLIENT_CONNECT_WITH_DB self.database
  let authPluginName ← optionalField flags CLIENT_PLUGIN_AUTH self.authPluginName
  return (database, authPluginName)

def textCount (flags : UInt32) : Nat :=
  (if hasFlag flags CLIENT_CONNECT_WITH_DB then 1 else 0) +
    if hasFlag flags CLIENT_PLUGIN_AUTH then 1 else 0

/-- The response to the challenge is counted, and its length stands in the payload as no number, or as
one that no buffer has room for. -/
def Hopeless (payload : Bytes) : Prop :=
  ∃ flags rest, loginFields.run payload = some (flags, rest) ∧
    hasFlag flags CLIENT_PLUGIN_AUTH_LENENC_CLIENT_DATA = true ∧
    ((∃ first left, rest = first :: left ∧ (first = 0xFB ∨ first = 0xFF)) ∨
      ∃ length left, lenenc.run rest = some (length, left) ∧
        2 ^ 64 ≤ 4 + (payload.length - left.length) + length + textCount flags)

theorem pure_run_some {β : Type} {a b : β} {input rest : Bytes} :
    (pure a : Reader β).run input = some (b, rest) ↔ a = b ∧ input = rest := by
  simp

theorem fields_run_iff (self : HandshakeResponse41Packet) {input rest : Bytes} :
    (∃ p, (handshakeFields self).run input = some (p, rest)) ↔
      ∃ flags middle authResponse behind both, loginFields.run input = some (flags, middle) ∧
        (authResponseField flags).run middle = some (authResponse, behind) ∧
        (self.texts flags).run behind = some (both, rest) := by
  simp only [handshakeFields, loginFields, texts, bind_run_some, pure_run_some]
  constructor
  · rintro ⟨p, flags, i1, r1, size, i2, r2, charset, i3, r3, u, i4, r4, username, i5, r5, authResponse,
      i6, r6, database, i7, r7, name, i8, r8, -, rfl⟩
    exact ⟨flags, i5, authResponse, i6, _, ⟨flags, i1, r1, size, i2, r2, charset, i3, r3, u, i4, r4,
      username, i5, r5, rfl, rfl⟩, r6, database, i7, r7, name, i8, r8, rfl, rfl⟩
  · rintro ⟨_, _, authResponse, i6, _, ⟨flags, i1, r1, size, i2, r2, charset, i3, r3, u, i4, r4,
      username, i5, r5, rfl, rfl⟩, r6, database, i7, r7, name, i8, r8, -, rfl⟩
    exact ⟨_, flags, i1, r1, size, i2, r2, charset, i3, r3, u, i4, r4, username, i5, r5, authResponse,
      i6, r6, database, i7, r7, name, i8, r8, rfl, rfl⟩

theorem loginFields_completes : Completes loginFields 33 := by
  have all : 33 = 4 + (4 + (1 + (23 + (1 + 0)))) := rfl
  rw [all]
  exact ((Completes.uint 4).map _).bind ((Local.uint 4).map _) fun _ =>
    ((Completes.uint 4).map _).bind ((Local.uint 4).map _) fun _ =>
    ((Completes.uint 1).map _).bind ((Local.uint 1).map _) fun _ =>
    (reserved_completes 23).bind (reserved_local 23) fun _ =>
    Completes.untilZero.bind Local.untilZero fun _ => Completes.pure _

theorem loginFields_local : Local loginFields :=
  ((Local.uint 4).map _).bind fun _ => ((Local.uint 4).map _).bind fun _ =>
    ((Local.uint 1).map _).bind fun _ => (reserved_local 23).bind fun _ =>
      Local.untilZero.bind fun _ => Local.pure _

theorem texts_completes (self : HandshakeResponse41Packet) (flags : UInt32) :
    Completes (self.texts flags) (textCount flags) := by
  have both := (optionalField_completes flags CLIENT_CONNECT_WITH_DB self.database).bind
    (optionalField_local _ _ _) fun database =>
      (optionalField_completes flags CLIENT_PLUGIN_AUTH self.authPluginName).bind
        (optionalField_local _ _ _) fun name => Completes.pure (database, name)
  rwa [Nat.add_zero] at both

theorem textCount_le (flags : UInt32) : textCount flags ≤ 2 := by
  unfold textCount
  split_ifs <;> decide

theorem reads_authResponse_zero (flags : UInt32) : Reads (authResponseField flags) [0] [] := by
  unfold authResponseField
  split_ifs
  · exact reads_lenencString [] (by decide)
  · exact (reads_uint 1 0 (by decide)).bind (reads_take [])
  · exact reads_untilZero [] (by decide)

theorem authResponse_run_counted {flags : UInt32}
    (counted : hasFlag flags CLIENT_PLUGIN_AUTH_LENENC_CLIENT_DATA = true) {input left : Bytes}
    {n : Nat} (read : lenenc.run input = some (n, left)) (enough : n ≤ left.length) :
    ∃ a, (authResponseField flags).run input = some (a, left.drop n) := by
  refine ⟨left.take n, ?_⟩
  rw [authResponseField, if_pos counted]
  exact bind_run_some.mpr ⟨n, left, read, if_pos enough⟩

/-- Unless its length is counted and stands in the input, or is none, zero bytes complete the response
to the challenge. -/
theorem authResponse_zeros (flags : UInt32) (input : Bytes) :
    (hasFlag flags CLIENT_PLUGIN_AUTH_LENENC_CLIENT_DATA = true ∧
      ((∃ first left, input = first :: left ∧ (first = 0xFB ∨ first = 0xFF)) ∨
        ∃ n left, lenenc.run input = some (n, left))) ∨
    ∃ k ≤ 2 ^ 57, ∃ a rest, (authResponseField flags).run (input ++ zeros k) = some (a, rest) := by
  cases counted : hasFlag flags CLIENT_PLUGIN_AUTH_LENENC_CLIENT_DATA with
  | true =>
      rcases lenenc_zeros input with alone | bad | ⟨-, m, small, -, completed⟩
      · exact Or.inl ⟨rfl, Or.inr alone⟩
      · exact Or.inl ⟨rfl, Or.inl bad⟩
      · right
        obtain ⟨left, -, run⟩ := completed m
        obtain ⟨a, taken⟩ := authResponse_run_counted counted run (by rw [length_zeros]; omega)
        exact ⟨9 + m, by omega, a, _, taken⟩
  | false =>
      right
      rw [authResponseField, if_neg (Bool.eq_false_iff.mp counted)]
      split_ifs
      · obtain ⟨n, middle, run⟩ := Completes.uint 1 input
        have small := uint_lt run
        obtain ⟨a, rest, taken⟩ := (Completes.take n).mono (Local.take n)
          (Nat.le_of_lt_succ small : n ≤ 255) middle
        refine ⟨1 + 255, by decide, a, rest, bind_run_some.mpr ⟨n, middle ++ zeros 255, ?_, taken⟩⟩
        rw [zeros_add, ← List.append_assoc]
        exact (Local.uint 1).append run _
      · obtain ⟨a, rest, run⟩ := Completes.untilZero input
        exact ⟨1, by decide, a, rest, run⟩

theorem exists_run_of_front (self : HandshakeResponse41Packet) {payload middle rest a : Bytes}
    {flags : UInt32} {k : Nat}
    (front : loginFields.run (payload ++ zeros k) = some (flags, middle))
    (auth : (authResponseField flags).run middle = some (a, rest)) :
    ∃ p left, (handshakeFields self).run (payload ++ zeros (k + textCount flags)) = some (p, left) := by
  obtain ⟨both, left, texts⟩ := self.texts_completes flags rest
  obtain ⟨p, run⟩ := (self.fields_run_iff).mpr ⟨flags, _, a, _, both,
    loginFields_local.append front (zeros (textCount flags)),
    (authResponseField_local flags).append auth (zeros (textCount flags)), texts⟩
  rw [zeros_add, ← List.append_assoc]
  exact ⟨p, left, run⟩

theorem exists_run (self : HandshakeResponse41Packet) {payload : Bytes}
    (short : payload.length < 2 ^ 24) (hopeful : ¬ Hopeless payload) :
    ∃ k, 4 + payload.length + k < 2 ^ 64 ∧
      ∃ p rest, (handshakeFields self).run (payload ++ zeros k) = some (p, rest) := by
  cases alone : loginFields.run payload with
  | none =>
      -- The payload ends in front of the response: what follows is zero.
      obtain ⟨flags, middle, run⟩ := loginFields_completes payload
      obtain ⟨taken, split⟩ := loginFields_local.suffix alone run
      have few := textCount_le flags
      have more := loginFields_local.append run (zeros 1)
      rw [List.append_assoc, ← zeros_add] at more
      have zero : middle ++ zeros 1 = [0] ++ middle := by
        have all : ∀ byte ∈ middle, byte = 0 := by
          intro byte member
          have inside : byte ∈ zeros 33 := by
            rw [split]
            exact List.mem_append_right taken member
          exact List.eq_of_mem_replicate inside
        rw [List.eq_replicate_of_mem all]
        exact List.replicate_succ'.symm.trans List.replicate_succ
      have auth := (reads_authResponse_zero flags).run middle
      rw [← zero] at auth
      exact ⟨33 + 1 + textCount flags, by omega, self.exists_run_of_front more auth⟩
  | some found =>
      obtain ⟨flags, middle⟩ := found
      have few := textCount_le flags
      have inside : middle.length ≤ payload.length := by
        obtain ⟨used, rfl, -⟩ := loginFields_local _ _ _ alone
        simp
      rcases authResponse_zeros flags middle with ⟨counted, bad | ⟨n, left, read⟩⟩ |
          ⟨k, small, a, rest, auth⟩
      · exact absurd ⟨flags, middle, alone, counted, Or.inl bad⟩ hopeful
      · have room : 4 + (payload.length - left.length) + n + textCount flags < 2 ^ 64 := by
          by_contra large
          exact hopeful ⟨flags, middle, alone, counted, Or.inr ⟨n, left, read, Nat.not_lt.mp large⟩⟩
        have shorter : left.length ≤ middle.length := by
          obtain ⟨used, rfl, -⟩ := Local.lenenc _ _ _ read
          simp
        have more := Local.lenenc.append read (zeros (n - left.length))
        obtain ⟨a, auth⟩ := authResponse_run_counted counted more
          (by rw [List.length_append, length_zeros]; omega)
        exact ⟨n - left.length + textCount flags, by omega,
          self.exists_run_of_front (loginFields_local.append alone _) auth⟩
      · exact ⟨k + textCount flags, by omega,
          self.exists_run_of_front (loginFields_local.append alone _) auth⟩

theorem texts_length (self : HandshakeResponse41Packet) {flags : UInt32} {input rest : Bytes}
    {both : Bytes × Bytes} (run : (self.texts flags).run input = some (both, rest)) :
    textCount flags ≤ input.length := by
  have terminated {input rest text : Bytes} {flag : UInt32} {old : Bytes}
      (run : (optionalField flags flag old).run input = some (text, rest)) :
      (if hasFlag flags flag then 1 else 0) + rest.length ≤ input.length := by
    unfold optionalField at run
    split_ifs at run ⊢
    · obtain ⟨rfl, -⟩ := untilZero_eq_some.mp run
      simp only [List.length_append, List.length_cons]
      omega
    · obtain ⟨-, rfl⟩ := pure_run_some.mp run
      omega
  obtain ⟨database, middle, first, run⟩ := bind_run_some.mp run
  obtain ⟨name, left, second, -⟩ := bind_run_some.mp run
  have taken := terminated first
  have taken' := terminated second
  unfold textCount
  omega

theorem Hopeless.stops {self : HandshakeResponse41Packet} {payload : Bytes}
    (hopeless : Hopeless payload) : Stops (some <$> handshakeFields self) payload := by
  intro tail p rest bound run
  obtain ⟨flags, middle, alone, counted, why⟩ := hopeless
  obtain ⟨_, _, a, behind, both, front, auth, texts⟩ :=
    (self.fields_run_iff).mp ⟨p, map_some_run.mp run⟩
  rw [loginFields_local.append alone tail] at front
  obtain ⟨rfl, rfl⟩ := Prod.mk.inj (Option.some.inj front)
  rw [authResponseField, if_pos counted] at auth
  obtain ⟨n, after, read, taken⟩ := bind_run_some.mp auth
  rcases why with ⟨first, left, rfl, bad⟩ | ⟨length, left, inside, large⟩
  · rw [List.cons_append, lenenc_invalid bad] at read
    cases read
  · rw [Local.lenenc.append inside tail] at read
    obtain ⟨rfl, rfl⟩ := Prod.mk.inj (Option.some.inj read)
    have texts := self.texts_length texts
    have shorter : left.length ≤ payload.length := by
      obtain ⟨used, rfl, -⟩ := loginFields_local _ _ _ alone
      obtain ⟨used', rfl, -⟩ := Local.lenenc _ _ _ inside
      simp only [List.length_append]
      omega
    rw [take_run] at taken
    split at taken
    · rename_i fits
      obtain ⟨-, rfl⟩ := Prod.mk.inj (Option.some.inj taken)
      rw [List.length_drop] at texts
      rw [List.length_append] at texts fits
      omega
    · cases taken

theorem stops_iff (self : HandshakeResponse41Packet) {payload : Bytes}
    (short : payload.length < 2 ^ 24) :
    Stops (some <$> handshakeFields self) payload ↔
      Filled (handshakeFields self) payload ∨ Hopeless payload := by
  constructor
  · intro stops
    by_cases hopeless : Hopeless payload
    · exact Or.inr hopeless
    · obtain ⟨k, bound, p, rest, run⟩ := self.exists_run short hopeless
      exact Or.inl (stops.filled (handshakeFields_local self) (by rwa [length_zeros]) run)
  · rintro (filled | hopeless)
    · exact filled.stops
    · exact hopeless.stops

end HandshakeResponse41Packet

/-- For which payloads a decoder stops at the end of its packet, whatever follows: always for a generic
packet, at a length of 5 for EOF and from 9 on for ERR, at a measured one for OK, and where nothing but
the fields is in it for the packets of the handshake; or where it is refused for any continuation. -/
theorem respectsBoundary_iff (ok : OkPacket) (err : ErrPacket) (greeting : HandshakeV10Packet)
    (response : HandshakeResponse41Packet) {payload : Bytes} (short : payload.length < 2 ^ 24) :
    RespectsBoundary GenericPacket.decode payload ∧
    (RespectsBoundary EofPacket.decode payload ↔ Misheaded [0xFE] payload ∨ payload.length = 5) ∧
    (RespectsBoundary err.decode payload ↔ Misheaded [0xFF] payload ∨ 9 ≤ payload.length) ∧
    (RespectsBoundary ok.decode payload ↔
      Misheaded [0x00, 0xFE] payload ∨ OkPacket.Measured payload) ∧
    (RespectsBoundary greeting.decode payload ↔ Filled greeting.format payload) ∧
    (RespectsBoundary response.decode payload ↔
      Filled (handshakeFields response) payload ∨ HandshakeResponse41Packet.Hopeless payload) := by
  refine ⟨?_, ?_, ?_, ?_, ?_, ?_⟩
  · exact (respects_iff_stops GenericPacket.readFields_implements GenericPacket.format_local
      short).mpr (GenericPacket.stops short)
  · exact (respects_iff_stops (fun _ => EofPacket.readFields_implements)
      (fun _ => EofPacket.format_local) short).trans (EofPacket.stops_iff short)
  · exact (respects_iff_stops err.readFields_implements err.format_local short).trans
      (err.stops_iff short)
  · exact (respects_iff_stops ok.readFields_implements ok.format_local short).trans
      (ok.stops_iff short)
  · exact (respects_iff_stops (fun _ => greeting.readFields_implements.map some)
      (fun _ => greeting.format_local.map some) short).trans (greeting.stops_iff short)
  · exact (respects_iff_stops (fun _ => response.readFields_implements.map some)
      (fun _ => (handshakeFields_local response).map some) short).trans (response.stops_iff short)

theorem respectsBoundary_iff_eof : RespectsBoundary EofPacket.decode [0xFE, 0, 0, 2, 0] ∧
    ¬ RespectsBoundary EofPacket.decode [0xFE, 0, 0, 2, 0, 7] := by
  constructor
  · have short : ([0xFE, 0, 0, 2, 0] : Bytes).length < 2 ^ 24 := by decide
    exact (respectsBoundary_iff .new .new HandshakeV10Packet.greetingOfZeros {} short).2.1.mpr
      (Or.inr rfl)
  · have short : ([0xFE, 0, 0, 2, 0, 7] : Bytes).length < 2 ^ 24 := by decide
    rw [(respectsBoundary_iff .new .new HandshakeV10Packet.greetingOfZeros {} short).2.1]
    rintro (⟨first, rest, same, unknown⟩ | five)
    · obtain ⟨rfl, -⟩ := List.cons.inj same
      exact unknown List.mem_cons_self
    · cases five

/-- A login with connection attributes, here an empty list of them, is left with these. -/
theorem attributes_left_behind :
    ¬ RespectsBoundary (HandshakeResponse41Packet.decode {}) (loginOfTest.payload ++ [0]) := by
  intro respects
  have short : (loginOfTest.payload ++ [0]).length < 2 ^ 24 := by decide
  have stops := (respects_iff_stops
    (fun _ => (HandshakeResponse41Packet.readFields_implements {}).map some)
    (fun _ => (handshakeFields_local {}).map some) short).mp respects
  have reads := loginOfTest.reads_payload loginOfTest_wellFormed (by decide)
  have left := stops [] loginOfTest [0] (by decide)
    (map_some_run.mpr (by rw [List.append_nil]; exact reads.run [0]))
  cases left

end TinySql
