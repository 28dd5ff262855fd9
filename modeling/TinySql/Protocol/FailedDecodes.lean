import TinySql.Protocol.PacketBoundaries

/-!
# Packets that are not decoded

A `decode` that returns false leaves the buffer as it was only when the header has not arrived. With
a header it has moved the reader index behind it.
-/

namespace TinySql
open Wire Buffer Packet

variable {α : Type}

/-- If `decode` returns false, the reader index is where it was. -/
def KeepsOnFailure (decode : BufferM (Option α)) (b : Buffer) : Prop :=
  ∀ b', decode.run b = .ok none b' → b'.readIndex = b.readIndex

/-- The header of the first packet has not arrived, or all of the packet has. -/
def Arrived (b : Buffer) : Prop :=
  b.readableBytes < 4 ∨ 4 + payloadLength b.readable ≤ b.readableBytes

/-- Fields that can refuse a payload do so by what stands behind the header. -/
theorem keepsOnFailure_iff {readFields : UInt32 → BufferM (Option α)}
    {fields : UInt32 → Reader (Option α)} {Refused : Bytes → Prop}
    (implements : ∀ length, Implements (readFields length) (fields length))
    (refuses : ∀ length input, (∃ rest, (fields length).run input = some (none, rest)) ↔ Refused input)
    (empty : ¬ Refused []) (b : Buffer) :
    KeepsOnFailure (readPacket readFields) b ↔ Arrived b ∧ ¬ Refused (b.readable.drop 4) := by
  by_cases header : b.readableBytes < 4
  · have nothing : b.readable.drop 4 = [] := by
      rw [List.drop_eq_nil_iff, readable_length]
      exact header.le
    refine iff_of_true ?_ ⟨.inl header, nothing ▸ empty⟩
    intro b' ran
    obtain rfl : b = b' := by simpa [readPacket_headless readFields header] using ran
    rfl
  · have run := readPacket_eq readFields (Nat.not_lt.mp header)
    by_cases short : b.readableBytes < 4 + payloadLength b.readable
    · rw [if_pos short] at run
      refine iff_of_false ?_ ?_
      · intro keeps
        have moved : b.readIndex + 4 = b.readIndex := keeps _ run
        omega
      · rintro ⟨early | whole, -⟩
        · exact header early
        · exact Nat.not_lt.mpr whole short
    · rw [if_neg short] at run
      have arrived : Arrived b := .inr (Nat.not_lt.mp short)
      rw [and_iff_right arrived, ← readable_advance, ← refuses (UInt32.ofNat (payloadLength b.readable))]
      constructor
      · rintro keeps ⟨rest, refused⟩
        obtain ⟨used, -, ran⟩ := (implements _).reads _ _ _ refused
        have moved : b.readIndex + 4 + used.length = b.readIndex := keeps _ (run.trans ran)
        omega
      · intro accepts b' ran
        rw [run] at ran
        obtain ⟨used, rest, -, refused, -⟩ := (implements _).returned ran
        exact absurd ⟨rest, refused⟩ accepts

theorem some_accepts {fields : Reader α} {input : Bytes} :
    (∃ rest, (some <$> fields).run input = some (none, rest)) ↔ False := by
  rw [iff_false]
  rintro ⟨rest, run⟩
  rw [StateT.run_map] at run
  cases read : fields.run input <;> simp [read] at run

/-- Fields that are read or throw. -/
theorem keepsOnFailure_some {readFields : UInt32 → BufferM (Option α)} {fields : UInt32 → Reader α}
    (implements : ∀ length, Implements (readFields length) (some <$> fields length)) (b : Buffer) :
    KeepsOnFailure (readPacket readFields) b ↔ Arrived b := by
  rw [keepsOnFailure_iff implements (fun _ _ => some_accepts) not_false b]
  exact and_iff_left not_false

theorem not_misheaded_nil {headers : List UInt8} : ¬ Misheaded headers [] := by
  rintro ⟨first, rest, nothing, -⟩
  cases nothing

theorem headed_refuses {headers : List UInt8} {fields : Reader α} {input : Bytes} :
    (∃ rest, (headed headers fields).run input = some (none, rest)) ↔ Misheaded headers input := by
  cases input with
  | nil =>
      refine iff_of_false ?_ not_misheaded_nil
      rintro ⟨rest, run⟩
      cases run
  | cons first input =>
      rw [headed_cons]
      by_cases known : first ∈ headers
      · rw [if_pos known, some_accepts, false_iff]
        rintro ⟨first', rest, same, unknown⟩
        obtain ⟨rfl, -⟩ := List.cons.inj same
        exact unknown known
      · rw [if_neg known]
        exact iff_of_true ⟨input, rfl⟩ (misheaded_of_not_mem known)

/-- The reader index is kept while there is no header to take, and where all of a packet that is not
refused by its first byte has arrived, since `decode` does not return false there. -/
theorem decode_keepsOnFailure_iff (b : Buffer) :
    (KeepsOnFailure GenericPacket.decode b ↔ Arrived b) ∧
    (∀ self : OkPacket, KeepsOnFailure self.decode b ↔
      Arrived b ∧ ¬ Misheaded [0x00, 0xFE] (b.readable.drop 4)) ∧
    (∀ self : ErrPacket, KeepsOnFailure self.decode b ↔
      Arrived b ∧ ¬ Misheaded [0xFF] (b.readable.drop 4)) ∧
    (KeepsOnFailure EofPacket.decode b ↔
      Arrived b ∧ ¬ Misheaded [0xFE] (b.readable.drop 4)) ∧
    (∀ self : HandshakeV10Packet, KeepsOnFailure self.decode b ↔ Arrived b) ∧
    ∀ self : HandshakeResponse41Packet, KeepsOnFailure self.decode b ↔ Arrived b := by
  refine ⟨?_, ?_, ?_, ?_, ?_, ?_⟩
  · have format (length : UInt32) : GenericPacket.format length =
        some <$> (GenericPacket.mk <$> take length.toNat) := by
      rw [Functor.map_map, ← bind_pure_comp]
      rfl
    exact keepsOnFailure_some (fun length => format length ▸ GenericPacket.readFields_implements length) b
  · intro self
    exact keepsOnFailure_iff self.readFields_implements (fun _ _ => headed_refuses)
      not_misheaded_nil b
  · intro self
    exact keepsOnFailure_iff self.readFields_implements (fun _ _ => headed_refuses)
      not_misheaded_nil b
  · exact keepsOnFailure_iff (fun _ => EofPacket.readFields_implements) (fun _ _ => headed_refuses)
      not_misheaded_nil b
  · intro self
    exact keepsOnFailure_some (fun _ => self.readFields_implements.map some) b
  · intro self
    exact keepsOnFailure_some (fun _ => self.readFields_implements.map some) b

/-- The header of a packet of one byte that has not arrived. -/
theorem header_consumed : ¬ ∀ b, KeepsOnFailure GenericPacket.decode b := by
  intro all
  have moved := all (ofBytes [1, 0, 0, 0]) ((ofBytes [1, 0, 0, 0]).advance 4) (by rfl)
  exact absurd moved (by decide)

end TinySql
