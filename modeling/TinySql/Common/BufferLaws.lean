import TinySql.Common.Buffer
import TinySql.Lib.Wire

/-!
# What a `Buffer` shows

Every reader of a `Buffer` sees only its readable bytes. `Implements m r` says that the member
function `m` does on them what the reader `r` does on a byte string; the relation is closed under
sequencing, so a decoder written over the buffer is a reader. A buffer that has only been written
to is `Sound`, and what is appended to it becomes readable behind what was.
-/

namespace TinySql.Buffer
open Wire

@[simp] theorem readable_length (b : Buffer) : b.readable.length = b.readableBytes := by
  simp only [readable, memory, readableBytes, List.length_take, List.length_drop,
    List.length_rightpad, List.length_append]
  omega

@[simp] theorem readable_advance (b : Buffer) (n : Nat) :
    (b.advance n).readable = b.readable.drop n := by
  simp only [readable, advance, memory, readableBytes, List.drop_take, List.drop_drop]
  congr 1
  omega

theorem readableBytes_advance (b : Buffer) (n : Nat) :
    (b.advance n).readableBytes = b.readableBytes - n := by
  simp only [advance, readableBytes]
  omega

@[simp] theorem advance_advance (b : Buffer) (m n : Nat) :
    (b.advance m).advance n = b.advance (m + n) := by
  simp only [advance, Nat.add_assoc]

@[simp] theorem advance_zero (b : Buffer) : b.advance 0 = b := rfl

/-! ## Readers -/

/-- A member function that does on the readable bytes what a reader does on a byte string. -/
structure Implements {α : Type} (m : BufferM α) (r : Reader α) : Prop where
  reads : ∀ b a rest, r.run b.readable = some (a, rest) →
    ∃ used, b.readable = used ++ rest ∧ m.run b = .ok a (b.advance used.length)
  throws : ∀ b, r.run b.readable = none → ∃ e b', m.run b = .error e b'

variable {α β : Type}

theorem Implements.pure (a : α) : Implements (pure a) (pure a) where
  reads b a' rest run := by
    obtain ⟨rfl, rfl⟩ : a = a' ∧ b.readable = rest := by simpa using run
    exact ⟨[], rfl, rfl⟩
  throws b run := by simp at run

theorem Implements.bind {m : BufferM α} {r : Reader α} {f : α → BufferM β} {g : α → Reader β}
    (head : Implements m r) (tail : ∀ a, Implements (f a) (g a)) :
    Implements (m >>= f) (r >>= g) where
  reads b result rest run := by
    rw [StateT.run_bind] at run
    obtain ⟨⟨a, middle⟩, first, second⟩ := Option.bind_eq_some_iff.mp run
    obtain ⟨used, split, ran⟩ := head.reads b a middle first
    have shown : (b.advance used.length).readable = middle := by simp [split]
    obtain ⟨more, split', ran'⟩ := (tail a).reads (b.advance used.length) result rest
      (by rw [shown]; exact second)
    refine ⟨used ++ more, ?_, ?_⟩
    · rw [split, ← shown, split', List.append_assoc]
    · rw [EStateM.run_bind, ran]
      simpa using ran'
  throws b run := by
    rw [StateT.run_bind] at run
    cases first : r.run b.readable with
    | none =>
        obtain ⟨e, b', ran⟩ := head.throws b first
        exact ⟨e, b', by rw [EStateM.run_bind, ran]⟩
    | some pair =>
        obtain ⟨a, middle⟩ := pair
        obtain ⟨used, split, ran⟩ := head.reads b a middle first
        have shown : (b.advance used.length).readable = middle := by simp [split]
        have second : (g a).run middle = none := by simpa [first] using run
        obtain ⟨e, b', ran'⟩ := (tail a).throws (b.advance used.length) (by rw [shown]; exact second)
        exact ⟨e, b', by rw [EStateM.run_bind, ran]; exact ran'⟩

theorem Implements.map {m : BufferM α} {r : Reader α} (f : α → β) (here : Implements m r) :
    Implements (f <$> m) (f <$> r) := by
  rw [← bind_pure_comp, ← bind_pure_comp]
  exact here.bind fun a => Implements.pure (f a)

theorem Implements.run {α : Type} {m : BufferM α} {r : Reader α} {b : Buffer}
    {used rest : Bytes} {a : α} (implements : Implements m r) (shown : b.readable = used ++ rest)
    (reads : Reads r used a) : m.run b = .ok a (b.advance used.length) := by
  obtain ⟨taken, split, ran⟩ := implements.reads b a rest (by rw [shown]; exact reads rest)
  have same : taken = used := List.append_cancel_right (split.symm.trans shown)
  rw [ran, same]

/-- A member function that returns has done what its reader does. -/
theorem Implements.returned {m : BufferM α} {r : Reader α} {b b' : Buffer} {a : α}
    (implements : Implements m r) (ran : m.run b = .ok a b') : ∃ used rest,
      b.readable = used ++ rest ∧ r.run b.readable = some (a, rest) ∧ b' = b.advance used.length := by
  cases read : r.run b.readable with
  | none =>
      obtain ⟨e, b'', raised⟩ := implements.throws b read
      simp [raised] at ran
  | some found =>
      obtain ⟨a', rest⟩ := found
      obtain ⟨used, split, done⟩ := implements.reads b a' rest read
      obtain ⟨rfl, rfl⟩ : a' = a ∧ b.advance used.length = b' := by simpa [done] using ran
      exact ⟨used, rest, split, rfl, rfl⟩

theorem Implements.raise (e : Exn) : Implements (throw e : BufferM α) fail where
  reads _ _ _ run := nomatch run
  throws b _ := ⟨e, b, rfl⟩

theorem next_run (b : Buffer) (n : Nat) (what : Bytes) :
    (next n what).run b =
      if b.readableBytes < n then .error (.runtimeError what) b
      else .ok (b.readable.take n) (b.advance n) := by
  by_cases short : b.readableBytes < n
  · simp [next, short]
  · simp only [next, EStateM.run_bind, EStateM.run_get, if_neg short]
    rfl

theorem next_implements (n : Nat) (what : Bytes) : Implements (next n what) (take n) where
  reads b a rest run := by
    simp only [StateT.run, take, readable_length] at run
    split at run
    · rename_i enough
      obtain ⟨rfl, rfl⟩ : b.readable.take n = a ∧ b.readable.drop n = rest := by simpa using run
      refine ⟨b.readable.take n, (List.take_append_drop n _).symm, ?_⟩
      rw [next_run, if_neg (Nat.not_lt.mpr enough), List.length_take, readable_length,
        Nat.min_eq_left enough]
    · cases run
  throws b run := by
    simp only [StateT.run, take, readable_length] at run
    split at run
    · cases run
    · rename_i short
      exact ⟨_, b, by rw [next_run, if_pos (Nat.not_le.mp short)]⟩

theorem Implements.guard {m : BufferM α} {r : Reader α} {n : Nat} (e : Exn)
    (here : Implements m r) (short : ∀ input, input.length < n → r.run input = none) :
    Implements (do
      if (← get).readableBytes < n then throw e
      m) r where
  reads b a rest run := by
    have enough : ¬ b.readableBytes < n := by
      intro few
      rw [short b.readable (by rwa [readable_length])] at run
      cases run
    obtain ⟨used, split, ran⟩ := here.reads b a rest run
    refine ⟨used, split, ?_⟩
    simp only [EStateM.run_bind, EStateM.run_get, if_neg enough]
    exact ran
  throws b run := by
    by_cases few : b.readableBytes < n
    · exact ⟨e, b, by simp only [EStateM.run_bind, EStateM.run_get, if_pos few]; rfl⟩
    · obtain ⟨e', b', ran⟩ := here.throws b run
      refine ⟨e', b', ?_⟩
      simp only [EStateM.run_bind, EStateM.run_get, if_neg few]
      exact ran

theorem next_map_implements {f g : Bytes → α} (n : Nat) (what : Bytes)
    (agree : ∀ bytes, bytes.length = n → f bytes = g bytes) :
    Implements (do let bytes ← next n what; return f bytes) (g <$> take n) := by
  rw [← map_take_congr n agree, bind_pure_comp]
  exact (next_implements n what).map f

/-! ## Numbers -/

theorem or_shiftLeft {a b k : Nat} (bound : a < 2 ^ k) : a ||| b <<< k = a + b * 2 ^ k := by
  rw [Nat.or_comm, ← Nat.shiftLeft_add_eq_or_of_lt bound, Nat.shiftLeft_eq, Nat.add_comm]

theorem shiftLeft_byte {b k n : Nat} (byte : b < 2 ^ 8) (fits : k + 8 ≤ n) : b <<< k < 2 ^ n := by
  calc b <<< k = b * 2 ^ k := Nat.shiftLeft_eq b k
    _ < 2 ^ 8 * 2 ^ k := Nat.mul_lt_mul_of_pos_right byte (Nat.two_pow_pos k)
    _ = 2 ^ (k + 8) := by rw [Nat.pow_add, Nat.mul_comm]
    _ ≤ 2 ^ n := Nat.pow_le_pow_right (by decide) fits

theorem toNat_or_byte32 (val shift : UInt32) (b : UInt8) (fits : shift.toNat + 8 ≤ 32)
    (bound : val.toNat < 2 ^ shift.toNat) :
    (val ||| b.toUInt32 <<< shift).toNat = val.toNat + b.toNat * 2 ^ shift.toNat := by
  rw [UInt32.toNat_or, UInt32.toNat_shiftLeft, UInt8.toNat_toUInt32,
    Nat.mod_eq_of_lt (by omega : shift.toNat < 32),
    Nat.mod_eq_of_lt (shiftLeft_byte b.toNat_lt fits), or_shiftLeft bound]

theorem toNat_or_byte64 (val shift : UInt64) (b : UInt8) (fits : shift.toNat + 8 ≤ 64)
    (bound : val.toNat < 2 ^ shift.toNat) :
    (val ||| b.toUInt64 <<< shift).toNat = val.toNat + b.toNat * 2 ^ shift.toNat := by
  rw [UInt64.toNat_or, UInt64.toNat_shiftLeft, UInt8.toNat_toUInt64,
    Nat.mod_eq_of_lt (by omega : shift.toNat < 64),
    Nat.mod_eq_of_lt (shiftLeft_byte b.toNat_lt fits), or_shiftLeft bound]

theorem toNat_join16 (b0 b1 : UInt8) :
    (b0.toUInt16 ||| b1.toUInt16 <<< 8).toNat = ofLe [b0, b1] := by
  have h0 := b0.toNat_lt
  have fits : b1.toNat <<< 8 < 2 ^ 16 := shiftLeft_byte b1.toNat_lt (by decide)
  have shift : (b1.toUInt16 <<< 8).toNat = b1.toNat <<< 8 := by simpa using fits
  rw [UInt16.toNat_or, shift, UInt8.toNat_toUInt16, or_shiftLeft h0]
  simp only [ofLe]
  omega

theorem toNat_join24 (b0 b1 b2 : UInt8) :
    (b0.toUInt32 ||| b1.toUInt32 <<< 8 ||| b2.toUInt32 <<< 16).toNat = ofLe [b0, b1, b2] := by
  have h0 := b0.toNat_lt
  have h1 := b1.toNat_lt
  have first := toNat_or_byte32 b0.toUInt32 8 b1 (by decide) (by simpa using h0)
  simp only [UInt8.toNat_toUInt32, UInt32.reduceToNat] at first
  rw [toNat_or_byte32 _ 16 b2 (by decide) (by simp only [UInt32.reduceToNat]; omega), first]
  simp only [UInt32.reduceToNat, ofLe]
  omega

theorem toNat_join32 (b0 b1 b2 b3 : UInt8) :
    (b0.toUInt32 ||| b1.toUInt32 <<< 8 ||| b2.toUInt32 <<< 16 ||| b3.toUInt32 <<< 24).toNat =
      ofLe [b0, b1, b2, b3] := by
  have lower := toNat_join24 b0 b1 b2
  have bound := ofLe_lt [b0, b1, b2]
  simp only [List.length_cons, List.length_nil] at bound
  rw [toNat_or_byte32 _ 24 b3 (by decide) (by simp only [UInt32.reduceToNat]; omega), lower]
  simp only [UInt32.reduceToNat, ofLe]
  omega

theorem toNat_join64 (bytes : Bytes) (n : Nat) (small : n ≤ 8) (length : n ≤ bytes.length) :
    ((List.range n).foldl (fun (val : UInt64) i =>
      val ||| (bytes.getD i 0).toUInt64 <<< UInt64.ofNat (i * 8)) 0).toNat = ofLe (bytes.take n) := by
  induction n with
  | zero => simp [ofLe]
  | succ n ih =>
      have lower := ih (by omega) (by omega)
      have bound := ofLe_lt (bytes.take n)
      rw [List.length_take, Nat.min_eq_left (by omega)] at bound
      have shift : (UInt64.ofNat (n * 8)).toNat = n * 8 := by simp; omega
      have power : 2 ^ (n * 8) = 256 ^ n := by rw [Nat.mul_comm, Nat.pow_mul]
      rw [List.range_succ, List.foldl_append, List.foldl_cons, List.foldl_nil,
        toNat_or_byte64 _ _ _ (by omega) (by rw [shift, lower, power]; exact bound), lower, shift,
        power, List.take_add_one, List.getElem?_eq_getElem (by omega), Option.toList_some,
        ofLe_append_singleton, List.length_take, Nat.min_eq_left (by omega)]
      simp [List.getElem?_eq_getElem (show n < bytes.length by omega)]

/-! ## The fields of a packet -/

theorem number_implements {f : Bytes → α} (ofNat : Nat → α) (n : Nat) (what : Bytes)
    (agree : ∀ bytes, bytes.length = n → f bytes = ofNat (ofLe bytes)) :
    Implements (do let bytes ← next n what; return f bytes) (ofNat <$> uint n) := by
  have here := next_map_implements n what agree
  rwa [uint, Functor.map_map]

theorem readUint8_implements : Implements readUint8 (UInt8.ofNat <$> uint 1) := by
  refine number_implements UInt8.ofNat 1 _ fun bytes length => ?_
  obtain ⟨b, rfl⟩ := List.length_eq_one_iff.mp length
  simp [ofLe]

theorem reads_uint8 (val : UInt8) : Reads (UInt8.ofNat <$> uint 1) [val] val := by
  have reads := (reads_uint 1 val.toNat val.toNat_lt).map UInt8.ofNat
  rwa [UInt8.ofNat_toNat, show le 1 val.toNat = [val] by simp [le]] at reads

theorem reads_uint16 (val : UInt16) : Reads (UInt16.ofNat <$> uint 2) (le 2 val.toNat) val := by
  have reads := (reads_uint 2 val.toNat val.toNat_lt).map UInt16.ofNat
  rwa [UInt16.ofNat_toNat] at reads

theorem reads_uint32 (val : UInt32) : Reads (UInt32.ofNat <$> uint 4) (le 4 val.toNat) val := by
  have reads := (reads_uint 4 val.toNat val.toNat_lt).map UInt32.ofNat
  rwa [UInt32.ofNat_toNat] at reads

theorem readUint8_run {b : Buffer} {first : UInt8} {rest : Bytes}
    (shown : b.readable = first :: rest) : readUint8.run b = .ok first (b.advance 1) := by
  exact readUint8_implements.run (show b.readable = [first] ++ rest from shown) (reads_uint8 first)

theorem readUint16_implements : Implements readUint16 (UInt16.ofNat <$> uint 2) := by
  refine number_implements UInt16.ofNat 2 _ fun bytes length => ?_
  obtain ⟨b0, b1, rfl⟩ := List.length_eq_two.mp length
  rw [← toNat_join16, UInt16.ofNat_toNat]
  rfl

theorem readUint32_implements : Implements readUint32 (UInt32.ofNat <$> uint 4) := by
  refine number_implements UInt32.ofNat 4 _ fun bytes length => ?_
  match bytes, length with
  | [b0, b1, b2, b3], _ =>
      rw [← toNat_join32, UInt32.ofNat_toNat]
      rfl

theorem readUint64_implements : Implements readUint64 (UInt64.ofNat <$> uint 8) := by
  refine number_implements UInt64.ofNat 8 _ fun bytes length => ?_
  have joined := toNat_join64 bytes 8 (by decide) (by omega)
  rw [List.take_of_length_le (by omega)] at joined
  rw [← joined, UInt64.ofNat_toNat]

theorem readBytes_implements (n : Nat) : Implements (readBytes n) (take n) := next_implements n _

theorem readString_implements (n : Nat) : Implements (readString n) (take n) := next_implements n _

theorem retrieve_implements (n : Nat) : Implements (retrieve n) (take n) := next_implements n _

theorem readNullTerminatedString_implements : Implements readNullTerminatedString untilZero where
  reads b text rest run := by
    obtain ⟨split, clean⟩ := untilZero_eq_some.mp run
    have all : ∀ c ∈ text, (c != 0) = true := fun c member => by
      simpa using ne_of_mem_of_not_mem member clean
    have prefix_eq : b.readable.takeWhile (· != 0) = text := by
      rw [split, List.takeWhile_append_of_pos all]
      simp
    have longer : ¬ text.length = b.readable.length := by
      rw [split]
      simp
    refine ⟨text ++ [0], by simp [split], ?_⟩
    simp only [readNullTerminatedString, EStateM.run_bind, EStateM.run_get, prefix_eq, if_neg longer]
    simp only [List.length_append, List.length_singleton]
    rfl
  throws b run := by
    have everything : (b.readable.takeWhile (· != 0)).length = b.readable.length := by
      simp only [StateT.run, untilZero] at run
      split at run
      · cases run
      · rename_i back
        have := congrArg List.length
          (List.takeWhile_append_dropWhile (p := (· != 0)) (l := b.readable))
        simpa [back] using this
    refine ⟨.runtimeError (ascii "Buffer: no null terminator found"), b, ?_⟩
    simp only [readNullTerminatedString, EStateM.run_bind, EStateM.run_get, if_pos everything]
    rfl

theorem readThreeBytes_implements : Implements readThreeBytes (UInt32.ofNat <$> uint 3) := by
  have reader : UInt32.ofNat <$> uint 3 = (do
      let b0 ← UInt8.ofNat <$> uint 1
      let b1 ← UInt8.ofNat <$> uint 1
      let b2 ← UInt8.ofNat <$> uint 1
      return b0.toUInt32 ||| b1.toUInt32 <<< 8 ||| b2.toUInt32 <<< 16 : Reader UInt32) := by
    funext input
    match input with
    | [] => rfl
    | [_] => rfl
    | [_, _] => rfl
    | b0 :: b1 :: b2 :: rest =>
        have byte (b : UInt8) : UInt8.ofNat (ofLe [b]) = b := by simp [ofLe]
        change some (UInt32.ofNat (ofLe [b0, b1, b2]), rest) =
          some ((UInt8.ofNat (ofLe [b0])).toUInt32 ||| (UInt8.ofNat (ofLe [b1])).toUInt32 <<< 8 |||
            (UInt8.ofNat (ofLe [b2])).toUInt32 <<< 16, rest)
        rw [byte, byte, byte, ← toNat_join24, UInt32.ofNat_toNat]
  rw [reader]
  exact readUint8_implements.bind fun b0 => readUint8_implements.bind fun b1 =>
    readUint8_implements.bind fun b2 => Implements.pure _

/-- The first byte of a length-encoded integer, as a byte. -/
theorem lenenc_eq : UInt64.ofNat <$> lenenc = (UInt8.ofNat <$> uint 1) >>= fun first =>
    if first < 0xFB then pure first.toUInt64
    else if first = 0xFC then UInt64.ofNat <$> uint 2
    else if first = 0xFD then UInt64.ofNat <$> uint 3
    else if first = 0xFE then UInt64.ofNat <$> uint 8
    else fail := by
  rw [lenenc, map_bind, bind_map_left]
  refine uint_bind_congr fun n small => ?_
  have toNat : (UInt8.ofNat n).toNat = n := by
    rw [UInt8.toNat_ofNat']
    exact Nat.mod_eq_of_lt small
  have below : UInt8.ofNat n < 0xFB ↔ n < 0xFB := by
    rw [UInt8.lt_iff_toNat_lt, toNat]
    rfl
  have is (marker : UInt8) : UInt8.ofNat n = marker ↔ n = marker.toNat := by
    rw [← UInt8.toNat_inj, toNat]
  have value : (UInt8.ofNat n).toUInt64 = UInt64.ofNat n := by
    rw [← UInt64.toNat_inj, UInt8.toNat_toUInt64, toNat]
    simp
    omega
  simp only [below, is, value]
  repeat' split
  all_goals first | rfl | contradiction

/-- A number of fewer bytes is read as a type of their width, and then widened. -/
theorem widened {γ : Type} {width : Nat} {narrow : Nat → γ} {widen : γ → UInt64}
    (toNat : ∀ n < 256 ^ width, (widen (narrow n)).toNat = n) (fits : width ≤ 8) :
    UInt64.ofNat <$> uint width = widen <$> (narrow <$> uint width) := by
  rw [Functor.map_map]
  refine uint_map_congr fun n small => ?_
  have inside : n < 2 ^ 64 := small.trans_le (Nat.pow_le_pow_right (by decide) fits)
  rw [← UInt64.toNat_inj, toNat n small, UInt64.toNat_ofNat', Nat.mod_eq_of_lt inside]

theorem readLenencInt_implements : Implements readLenencInt (UInt64.ofNat <$> lenenc) := by
  rw [lenenc_eq]
  refine Implements.guard _ (readUint8_implements.bind fun first => ?_) ?_
  · split
    · exact Implements.pure _
    · split
      · have widen16 : ∀ n < 256 ^ 2, (UInt16.ofNat n).toUInt64.toNat = n := by
          intro n small
          rw [UInt16.toNat_toUInt64, UInt16.toNat_ofNat']
          exact Nat.mod_eq_of_lt small
        rw [widened widen16 (by decide)]
        exact readUint16_implements.map UInt16.toUInt64
      · split
        · have widen24 : ∀ n < 256 ^ 3, (UInt32.ofNat n).toUInt64.toNat = n := by
            intro n small
            rw [UInt32.toNat_toUInt64, UInt32.toNat_ofNat']
            exact Nat.mod_eq_of_lt (small.trans (by decide))
          rw [widened widen24 (by decide)]
          refine Implements.guard _ (readThreeBytes_implements.map UInt32.toUInt64) ?_
          intro input short
          rw [StateT.run_map, uint_map_short short]
          rfl
        · split
          · exact readUint64_implements
          · exact Implements.raise _
  · intro input short
    rw [StateT.run_bind, uint_map_short short]
    rfl

theorem lenencString_eq :
    lenencString = (UInt64.ofNat <$> lenenc) >>= fun len => take len.toNat := by
  rw [bind_map_left]
  refine bind_congr fun input n rest run => ?_
  rw [UInt64.toNat_ofNat', Nat.mod_eq_of_lt (lenenc_lt run)]

theorem readLenencString_implements : Implements readLenencString lenencString := by
  rw [lenencString_eq]
  exact readLenencInt_implements.bind fun len => readString_implements len.toNat

theorem skip_implements (n : Nat) : Implements (skip n) ((fun _ => ()) <$> take n) := by
  rw [← bind_pure_comp]
  exact (next_implements n _).bind fun _ => Implements.pure ()

/-! ## Writers -/

/-- What the readable region and the indices of a buffer should be: it shows the bytes that have
come in and have not been consumed, and the vector ends where the written bytes end. -/
structure Tracks (b : Buffer) (queue : Bytes) : Prop where
  readable : b.readable = queue
  ordered : b.readIndex ≤ b.writeIndex
  full : b.writeIndex = b.data.length

/-- A buffer that tracks its queue inside its allocation. -/
structure Sound (b : Buffer) (queue : Bytes) : Prop extends Tracks b queue where
  fits : b.data.length ≤ b.capacity

theorem readable_of_full {b : Buffer} (full : b.writeIndex = b.data.length) :
    b.readable = b.data.drop b.readIndex := by
  have memory : b.memory b.writeIndex = b.data ++ b.spare := by
    rw [Buffer.memory, List.rightpad, full]
    simp
  rw [readable, memory, readableBytes, full, ← List.drop_take, List.take_left]

theorem Sound.ofCapacity (n : Nat) : Sound (ofCapacity n) [] where
  readable := rfl
  ordered := Nat.le_refl 0
  full := rfl
  fits := Nat.zero_le n

theorem Sound.empty : Sound empty [] := Sound.ofCapacity 4096

theorem Sound.ofBytes (bytes : Bytes) : Sound (ofBytes bytes) bytes where
  readable := readable_of_full rfl
  ordered := Nat.zero_le _
  full := rfl
  fits := Nat.le_refl _

variable {b : Buffer} {queue : Bytes}

@[simp] theorem append_data (b : Buffer) (bytes : Bytes) :
    (b.append bytes).data = b.data ++ bytes := by
  simp only [Buffer.append, ensureWritable, reserve, insertEnd]
  split_ifs <;> rfl

@[simp] theorem append_readIndex (b : Buffer) (bytes : Bytes) :
    (b.append bytes).readIndex = b.readIndex := by
  simp only [Buffer.append, ensureWritable, reserve, insertEnd]
  split_ifs <;> rfl

@[simp] theorem append_writeIndex (b : Buffer) (bytes : Bytes) :
    (b.append bytes).writeIndex = b.writeIndex + bytes.length := by
  simp only [Buffer.append, ensureWritable, reserve, insertEnd]
  split_ifs <;> rfl

theorem append_fits {b : Buffer} (fits : b.data.length ≤ b.capacity) (bytes : Bytes) :
    (b.append bytes).data.length ≤ (b.append bytes).capacity := by
  simp only [Buffer.append, ensureWritable, reserve, insertEnd]
  split_ifs <;> simp_all

theorem Sound.append (sound : Sound b queue) (bytes : Bytes) :
    Sound (b.append bytes) (queue ++ bytes) := by
  have full : (b.append bytes).writeIndex = (b.append bytes).data.length := by
    simp [sound.full]
  have inside : b.readIndex ≤ b.data.length := sound.full ▸ sound.ordered
  refine ⟨⟨?_, ?_, full⟩, append_fits sound.fits bytes⟩
  · rw [readable_of_full full, append_data, append_readIndex,
      List.drop_append_of_le_length inside, ← readable_of_full sound.full, sound.readable]
  · rw [append_readIndex, append_writeIndex]
    exact Nat.le_add_right_of_le sound.ordered

theorem Sound.advance {used rest : Bytes} (sound : Sound b (used ++ rest)) :
    Sound (b.advance used.length) rest where
  readable := by simp [sound.readable]
  ordered := by
    have readable := congrArg List.length sound.readable
    have ordered := sound.ordered
    simp only [readable_length, readableBytes, List.length_append] at readable
    simp only [Buffer.advance]
    omega
  full := sound.full
  fits := sound.fits

theorem Sound.reset (b : Buffer) : Sound b.reset [] where
  readable := readable_of_full rfl
  ordered := Nat.le_refl 0
  full := rfl
  fits := Nat.zero_le b.capacity

theorem Sound.writeUint8 (sound : Sound b queue) (val : UInt8) :
    Sound (b.writeUint8 val) (queue ++ [val]) := sound.append [val]

theorem low_byte (n : Nat) : UInt8.ofNat (n &&& 0xFF) = UInt8.ofNat n := by
  rw [← UInt8.toNat_inj, UInt8.toNat_ofNat', UInt8.toNat_ofNat',
    show 0xFF = 2 ^ 8 - 1 by rfl, Nat.and_two_pow_sub_one_eq_mod, Nat.mod_mod]

theorem byte16 (val shift : UInt16) : ((val >>> shift) &&& 0xFF).toUInt8 =
    UInt8.ofNat (val.toNat / 2 ^ (shift.toNat % 16)) := by
  rw [← low_byte, ← Nat.shiftRight_eq_div_pow, ← UInt16.toNat_shiftRight]
  rfl

theorem byte32 (val shift : UInt32) : ((val >>> shift) &&& 0xFF).toUInt8 =
    UInt8.ofNat (val.toNat / 2 ^ (shift.toNat % 32)) := by
  rw [← low_byte, ← Nat.shiftRight_eq_div_pow, ← UInt32.toNat_shiftRight]
  rfl

theorem byte64 (val shift : UInt64) : ((val >>> shift) &&& 0xFF).toUInt8 =
    UInt8.ofNat (val.toNat / 2 ^ (shift.toNat % 64)) := by
  rw [← low_byte, ← Nat.shiftRight_eq_div_pow, ← UInt64.toNat_shiftRight]
  rfl

theorem Sound.writeUint16 (sound : Sound b queue) (val : UInt16) :
    Sound (b.writeUint16 val) (queue ++ le 2 val.toNat) := by
  have bytes : [(val &&& 0xFF).toUInt8, ((val >>> 8) &&& 0xFF).toUInt8] = le 2 val.toNat := by
    rw [byte16]
    exact congrArg (· :: _) (low_byte val.toNat)
  rw [Buffer.writeUint16, bytes]
  exact sound.append _

theorem Sound.writeUint32 (sound : Sound b queue) (val : UInt32) :
    Sound (b.writeUint32 val) (queue ++ le 4 val.toNat) := by
  have bytes : [(val &&& 0xFF).toUInt8, ((val >>> 8) &&& 0xFF).toUInt8,
      ((val >>> 16) &&& 0xFF).toUInt8, ((val >>> 24) &&& 0xFF).toUInt8] = le 4 val.toNat := by
    rw [byte32, byte32, byte32]
    simp only [le, Nat.div_div_eq_div_mul]
    exact congrArg (· :: _) (low_byte val.toNat)
  rw [Buffer.writeUint32, bytes]
  exact sound.append _

theorem le_eq_range (width n : Nat) :
    le width n = (List.range width).map fun i => UInt8.ofNat (n / 2 ^ (i * 8)) := by
  induction width generalizing n with
  | zero => rfl
  | succ width ih =>
      rw [le, ih, List.range_succ_eq_map, List.map_cons, List.map_map]
      congr 1
      · simp
      · refine List.map_congr_left fun i _ => ?_
        rw [Function.comp_apply, Nat.div_div_eq_div_mul, Nat.succ_mul i 8, Nat.pow_add,
          Nat.mul_comm (2 ^ (i * 8))]

theorem Sound.writeUint64 (sound : Sound b queue) (val : UInt64) :
    Sound (b.writeUint64 val) (queue ++ le 8 val.toNat) := by
  rw [le_eq_range]
  have bytes : (List.range 8).map (fun i => ((val >>> UInt64.ofNat (i * 8)) &&& 0xFF).toUInt8) =
      (List.range 8).map fun i => UInt8.ofNat (val.toNat / 2 ^ (i * 8)) := by
    refine List.map_congr_left fun i member => ?_
    have small : i < 8 := List.mem_range.mp member
    rw [byte64, UInt64.toNat_ofNat', Nat.mod_eq_of_lt (by omega), Nat.mod_eq_of_lt (by omega)]
  rw [Buffer.writeUint64, bytes]
  exact sound.append _

theorem Sound.writeString (sound : Sound b queue) (str : Bytes) :
    Sound (b.writeString str) (queue ++ str) := sound.append str

theorem Sound.writeNullTerminatedString (sound : Sound b queue) (str : Bytes) :
    Sound (b.writeNullTerminatedString str) (queue ++ (str ++ [0])) := by
  rw [← List.append_assoc]
  exact (sound.writeString str).writeUint8 0

theorem Sound.writeLenencInt (sound : Sound b queue) (val : UInt64) :
    Sound (b.writeLenencInt val) (queue ++ lenencBytes val.toNat) := by
  have below (n : UInt64) : val < n ↔ val.toNat < n.toNat := UInt64.lt_iff_toNat_lt
  simp only [Buffer.writeLenencInt, lenencBytes, below, UInt64.reduceToNat]
  by_cases one : val.toNat < 0xFB
  · rw [if_pos one, if_pos one]
    exact sound.writeUint8 val.toUInt8
  by_cases two : val.toNat < 0x10000
  · rw [if_neg one, if_neg one, if_pos two, if_pos two, ← List.append_assoc]
    have narrow : val.toUInt16.toNat = val.toNat := by
      rw [UInt64.toNat_toUInt16]
      exact Nat.mod_eq_of_lt two
    rw [← narrow]
    exact (sound.writeUint8 0xFC).writeUint16 val.toUInt16
  by_cases three : val.toNat < 0x1000000
  · rw [if_neg one, if_neg one, if_neg two, if_neg two, if_pos three, if_pos three,
      ← List.append_assoc]
    have written := (((sound.writeUint8 0xFD).writeUint8 (val &&& 0xFF).toUInt8).writeUint8
      ((val >>> 8) &&& 0xFF).toUInt8).writeUint8 ((val >>> 16) &&& 0xFF).toUInt8
    have low : (val &&& 0xFF).toUInt8 = UInt8.ofNat val.toNat := low_byte val.toNat
    rw [byte64, byte64, low] at written ⊢
    simp only [le, List.append_assoc, List.cons_append, List.nil_append, Nat.div_div_eq_div_mul]
      at written ⊢
    exact written
  · rw [if_neg one, if_neg one, if_neg two, if_neg two, if_neg three, if_neg three,
      ← List.append_assoc]
    exact (sound.writeUint8 0xFE).writeUint64 val

theorem Sound.writeLenencString (sound : Sound b queue) (str : Bytes)
    (bound : str.length < 2 ^ 64) :
    Sound (b.writeLenencString str) (queue ++ (lenencBytes str.length ++ str)) := by
  have written := (sound.writeLenencInt (UInt64.ofNat str.length)).writeString str
  rwa [UInt64.toNat_ofNat', Nat.mod_eq_of_lt bound, List.append_assoc] at written

/-! ## Writers on any buffer -/

/-- A writer that appends these bytes to the vector, whatever the buffer is. -/
structure Appends (write : Buffer → Buffer) (bytes : Bytes) : Prop where
  data : ∀ b, (write b).data = b.data ++ bytes
  readIndex : ∀ b, (write b).readIndex = b.readIndex
  writeIndex : ∀ b, (write b).writeIndex = b.writeIndex + bytes.length

section Appends
variable {write more : Buffer → Buffer} {bytes others : Bytes}

theorem appends_append (bytes : Bytes) : Appends (append bytes) bytes where
  data b := append_data b bytes
  readIndex b := append_readIndex b bytes
  writeIndex b := append_writeIndex b bytes

theorem Appends.comp (first : Appends write bytes) (second : Appends more others) :
    Appends (fun b => more (write b)) (bytes ++ others) where
  data b := by rw [second.data, first.data, List.append_assoc]
  readIndex b := by rw [second.readIndex, first.readIndex]
  writeIndex b := by rw [second.writeIndex, first.writeIndex, List.length_append, Nat.add_assoc]

/-- What a writer appends shows on the empty buffer. -/
theorem Appends.eq_of_sound (appends : Appends write bytes) (sound : Sound (write empty) others) :
    bytes = others := by
  have shown := readable_of_full sound.full
  rw [appends.data, appends.readIndex, sound.readable] at shown
  exact shown.symm

theorem appends_writeLenencInt (val : UInt64) :
    Appends (writeLenencInt val) (lenencBytes val.toNat) := by
  obtain ⟨bytes, appends⟩ : ∃ bytes, Appends (writeLenencInt val) bytes := by
    unfold Buffer.writeLenencInt
    split_ifs
    · exact ⟨_, appends_append _⟩
    · exact ⟨_, (appends_append _).comp (appends_append _)⟩
    · exact ⟨_, (((appends_append _).comp (appends_append _)).comp (appends_append _)).comp
        (appends_append _)⟩
    · exact ⟨_, (appends_append _).comp (appends_append _)⟩
  obtain rfl := appends.eq_of_sound (Sound.empty.writeLenencInt val)
  exact appends

theorem appends_writeLenencString (str : Bytes) :
    Appends (writeLenencString str) (lenencBytes (UInt64.ofNat str.length).toNat ++ str) :=
  (appends_writeLenencInt _).comp (appends_append str)

end Appends

theorem toNat_getLenencIntSize (val : UInt64) :
    (getLenencIntSize val).toNat = (lenencBytes val.toNat).length := by
  have below (n : UInt64) : val < n ↔ val.toNat < n.toNat := UInt64.lt_iff_toNat_lt
  simp only [getLenencIntSize, length_lenencBytes, below, UInt64.reduceToNat]
  split_ifs <;> rfl

theorem reads_lenenc64 (val : UInt64) :
    Reads (UInt64.ofNat <$> lenenc) (lenencBytes val.toNat) val := by
  have reads := (reads_lenenc val.toNat val.toNat_lt).map UInt64.ofNat
  rwa [UInt64.ofNat_toNat] at reads

end TinySql.Buffer
