import TinySql.Lib.Wire

/-!
# Inputs continued by zero bytes

What a reader makes of an input that may end too early. Zero bytes behind it are the mildest
continuation: every field of a fixed width and every text ends in them, and no number that they
complete is larger with other bytes in their place.
-/

namespace Wire

variable {α β : Type}

def zeros (n : Nat) : List UInt8 := List.replicate n 0

@[simp] theorem length_zeros (n : Nat) : (zeros n).length = n := List.length_replicate

theorem zeros_add (m n : Nat) : zeros (m + n) = zeros m ++ zeros n :=
  List.replicate_append_replicate.symm

theorem ofLe_zeros (n : Nat) : ofLe (zeros n) = 0 := by
  induction n with
  | zero => rfl
  | succ n ih =>
      change 0 + 256 * ofLe (zeros n) = 0
      rw [ih]

theorem ofLe_append (x y : List UInt8) : ofLe (x ++ y) = ofLe x + 256 ^ x.length * ofLe y := by
  induction x with
  | nil => simp [ofLe]
  | cons first rest ih =>
      simp only [List.cons_append, ofLe, ih, List.length_cons, Nat.pow_succ]
      ring

theorem Local.append {r : Reader α} (here : Local r) {input rest : List UInt8} {a : α}
    (run : r.run input = some (a, rest)) (more : List UInt8) :
    r.run (input ++ more) = some (a, rest ++ more) := by
  obtain ⟨used, rfl, reads⟩ := here input a rest run
  rw [List.append_assoc]
  exact reads (rest ++ more)

/-- A reader that leaves just what follows an input reads that input. -/
theorem Local.reads {r : Reader α} (here : Local r) {input tail : List UInt8} {a : α}
    (run : r.run (input ++ tail) = some (a, tail)) : Reads r input a := by
  obtain ⟨used, split, reads⟩ := here _ a tail run
  rwa [List.append_cancel_right split]

/-! ## Readers of a fixed width -/

/-- The reader takes `n` bytes, whatever they are, and fails when there are fewer. -/
def Spans (r : Reader α) (n : Nat) : Prop :=
  ∀ input, (n ≤ input.length → ∃ a, r.run input = some (a, input.drop n)) ∧
    (input.length < n → r.run input = none)

theorem Spans.pure (a : α) : Spans (pure a : Reader α) 0 :=
  fun _ => ⟨fun _ => ⟨a, rfl⟩, fun short => absurd short (Nat.not_lt_zero _)⟩

theorem Spans.take (n : Nat) : Spans (take n) n :=
  fun _ => ⟨fun fits => ⟨_, if_pos fits⟩, fun short => if_neg (Nat.not_le.mpr short)⟩

theorem Spans.bind {r : Reader α} {f : α → Reader β} {m n : Nat} (head : Spans r m)
    (tail : ∀ a, Spans (f a) n) : Spans (r >>= f) (m + n) := by
  intro input
  rw [StateT.run_bind]
  by_cases fits : m ≤ input.length
  · obtain ⟨a, run⟩ := (head input).1 fits
    have rest : (input.drop m).length = input.length - m := List.length_drop
    rw [run, ← List.drop_drop]
    constructor
    · intro all
      exact (tail a (input.drop m)).1 (by omega)
    · intro short
      exact (tail a (input.drop m)).2 (by omega)
  · rw [(head input).2 (Nat.lt_of_not_le fits)]
    exact ⟨fun all => absurd (Nat.le_of_add_right_le all) fits, fun _ => rfl⟩

theorem Spans.map {r : Reader α} {n : Nat} (f : α → β) (here : Spans r n) : Spans (f <$> r) n := by
  rw [← bind_pure_comp]
  exact here.bind fun a => Spans.pure (f a)

theorem Spans.uint (width : Nat) : Spans (uint width) width := (Spans.take width).map ofLe

theorem Spans.run_iff {r : Reader α} {n : Nat} (here : Spans r n) {input rest : List UInt8} :
    (∃ a, r.run input = some (a, rest)) ↔ n ≤ input.length ∧ rest = input.drop n := by
  constructor
  · rintro ⟨a, run⟩
    by_cases fits : n ≤ input.length
    · obtain ⟨a', run'⟩ := (here input).1 fits
      rw [run] at run'
      exact ⟨fits, congrArg Prod.snd (Option.some.inj run')⟩
    · rw [(here input).2 (Nat.lt_of_not_le fits)] at run
      cases run
  · rintro ⟨fits, rfl⟩
    exact (here input).1 fits

/-! ## Readers that any input lets come to an end -/

/-- However an input ends, `n` zero bytes behind it let the reader come to its end. -/
def Completes (r : Reader α) (n : Nat) : Prop :=
  ∀ input, ∃ a rest, r.run (input ++ zeros n) = some (a, rest)

theorem Completes.pure (a : α) : Completes (pure a : Reader α) 0 := fun _ => ⟨a, _, rfl⟩

theorem Completes.take (n : Nat) : Completes (take n) n := by
  intro input
  have inside : n ≤ (input ++ zeros n).length := by
    rw [List.length_append, length_zeros]
    exact Nat.le_add_left n _
  exact ⟨_, _, if_pos inside⟩

theorem Completes.map {r : Reader α} {n : Nat} (f : α → β) (here : Completes r n) :
    Completes (f <$> r) n := by
  intro input
  obtain ⟨a, rest, run⟩ := here input
  exact ⟨f a, rest, by rw [StateT.run_map, run]; rfl⟩

theorem Completes.uint (width : Nat) : Completes (uint width) width := (Completes.take width).map ofLe

theorem Completes.untilZero : Completes untilZero 1 := by
  intro input
  induction input with
  | nil => exact ⟨[], [], rfl⟩
  | cons first rest ih =>
      by_cases stop : first = 0
      · subst stop
        exact ⟨[], rest ++ zeros 1, untilZero_eq_some.mpr ⟨rfl, by simp⟩⟩
      · obtain ⟨text, left, run⟩ := ih
        obtain ⟨split, clean⟩ := untilZero_eq_some.mp run
        refine ⟨first :: text, left, untilZero_eq_some.mpr ⟨?_, ?_⟩⟩
        · rw [List.cons_append, split, List.cons_append]
        · rw [List.mem_cons, not_or]
          exact ⟨fun same => stop same.symm, clean⟩

theorem Completes.bind {r : Reader α} {f : α → Reader β} {m n : Nat} (isLocal : Local r)
    (head : Completes r m) (tail : ∀ a, Completes (f a) n) : Completes (r >>= f) (m + n) := by
  intro input
  obtain ⟨a, middle, first⟩ := head input
  obtain ⟨b, rest, second⟩ := tail a middle
  refine ⟨b, rest, ?_⟩
  rw [zeros_add, ← List.append_assoc, StateT.run_bind, isLocal.append first]
  exact second

theorem Completes.mono {r : Reader α} {m n : Nat} (isLocal : Local r) (here : Completes r m)
    (more : m ≤ n) : Completes r n := by
  intro input
  obtain ⟨a, rest, run⟩ := here input
  obtain ⟨extra, rfl⟩ := Nat.exists_eq_add_of_le more
  refine ⟨a, rest ++ zeros extra, ?_⟩
  rw [zeros_add, ← List.append_assoc]
  exact isLocal.append run _

/-! ## Length-encoded integers -/

/-- The first byte tells the form: the number itself, a number of a fixed width, or none. -/
theorem lenenc_form (first : UInt8) :
    (∀ rest, lenenc.run (first :: rest) = some (first.toNat, rest)) ∨
    (∃ width, 0 < width ∧ width ≤ 8 ∧ ∀ rest, lenenc.run (first :: rest) = (uint width).run rest) ∨
    first = 0xFB ∨ first = 0xFF := by
  have start (rest : List UInt8) : lenenc.run (first :: rest) =
      (if first.toNat < 0xFB then pure first.toNat
        else if first.toNat = 0xFC then uint 2
        else if first.toNat = 0xFD then uint 3
        else if first.toNat = 0xFE then uint 8 else fail : Reader Nat).run rest := by
    rfl
  by_cases small : first.toNat < 0xFB
  · left
    intro rest
    rw [start, if_pos small]
    rfl
  right
  have wide (width : Nat) (positive : 0 < width) (most : width ≤ 8)
      (branch : ∀ rest, lenenc.run (first :: rest) = (uint width).run rest) :
      (∃ width, 0 < width ∧ width ≤ 8 ∧ ∀ rest, lenenc.run (first :: rest) = (uint width).run rest) ∨
      first = 0xFB ∨ first = 0xFF :=
    Or.inl ⟨width, positive, most, branch⟩
  by_cases two : first.toNat = 0xFC
  · exact wide 2 (by decide) (by decide) fun rest => by rw [start, if_neg small, if_pos two]
  by_cases three : first.toNat = 0xFD
  · exact wide 3 (by decide) (by decide) fun rest => by
      rw [start, if_neg small, if_neg two, if_pos three]
  by_cases eight : first.toNat = 0xFE
  · exact wide 8 (by decide) (by decide) fun rest => by
      rw [start, if_neg small, if_neg two, if_neg three, if_pos eight]
  · right
    have bound := first.toNat_lt
    simp only [← UInt8.toNat_inj, UInt8.reduceToNat]
    omega

theorem lenenc_invalid {first : UInt8} (bad : first = 0xFB ∨ first = 0xFF) (rest : List UInt8) :
    lenenc.run (first :: rest) = none := by
  rcases bad with rfl | rfl <;> rfl

theorem length_lenencBytes_mono {m n : Nat} (less : m ≤ n) :
    (lenencBytes m).length ≤ (lenencBytes n).length := by
  simp only [length_lenencBytes]
  split_ifs <;> omega

theorem bind_run_some {r : Reader α} {f : α → Reader β} {input rest : List UInt8} {b : β} :
    (r >>= f).run input = some (b, rest) ↔
      ∃ a middle, r.run input = some (a, middle) ∧ (f a).run middle = some (b, rest) := by
  rw [StateT.run_bind]
  constructor
  · intro run
    obtain ⟨⟨a, middle⟩, first, second⟩ := Option.bind_eq_some_iff.mp run
    exact ⟨a, middle, first, second⟩
  · rintro ⟨a, middle, first, second⟩
    exact Option.bind_eq_some_iff.mpr ⟨(a, middle), first, second⟩

theorem map_run_some {r : Reader α} {f : α → β} {input rest : List UInt8} {b : β} :
    (f <$> r).run input = some (b, rest) ↔ ∃ a, r.run input = some (a, rest) ∧ f a = b := by
  rw [← bind_pure_comp, bind_run_some]
  constructor
  · rintro ⟨a, middle, first, done⟩
    obtain ⟨rfl, rfl⟩ : f a = b ∧ middle = rest := by simpa using done
    exact ⟨a, first, rfl⟩
  · rintro ⟨a, first, rfl⟩
    exact ⟨a, rest, first, rfl⟩

theorem uint_zeros {width k : Nat} {x : List UInt8} (short : x.length < width)
    (enough : width ≤ x.length + k) :
    (uint width).run (x ++ zeros k) = some (ofLe x, zeros (k - (width - x.length))) := by
  have inside : width ≤ (x ++ zeros k).length := by
    rw [List.length_append, length_zeros]
    exact enough
  obtain ⟨extra, rfl⟩ := Nat.exists_eq_add_of_lt short
  have front : (x ++ zeros k).take (x.length + extra + 1) = x ++ zeros (extra + 1) := by
    rw [Nat.add_assoc, List.take_append, List.take_of_length_le (Nat.le_add_right _ _),
      Nat.add_sub_cancel_left, zeros, List.take_replicate, Nat.min_eq_left (by omega)]
    rfl
  have back : (x ++ zeros k).drop (x.length + extra + 1) = zeros (k - (extra + 1)) := by
    rw [Nat.add_assoc, List.drop_append, List.drop_of_length_le (Nat.le_add_right _ _),
      Nat.add_sub_cancel_left, zeros, List.drop_replicate, List.nil_append]
    rfl
  rw [uint, StateT.run_map, take_run, if_pos inside, front, back]
  have value : ofLe (x ++ zeros (extra + 1)) = ofLe x := by
    rw [ofLe_append, ofLe_zeros, Nat.mul_zero, Nat.add_zero]
  have left : x.length + extra + 1 - x.length = extra + 1 := by omega
  rw [left]
  exact congrArg (fun n => some (n, zeros (k - (extra + 1)))) value

/-- A length-encoded integer is read from an input alone, or it has no form, or the input ends inside
it; then zero bytes complete it to a number that is as small as any. -/
theorem lenenc_zeros (x : List UInt8) :
    (∃ n left, lenenc.run x = some (n, left)) ∨
    (∃ first left, x = first :: left ∧ (first = 0xFB ∨ first = 0xFF)) ∨
    (lenenc.run x = none ∧ ∃ m < 2 ^ 56,
      (∀ tail n rest, lenenc.run (x ++ tail) = some (n, rest) → m ≤ n) ∧
      ∀ k, ∃ left ≤ 8, lenenc.run (x ++ zeros (9 + k)) = some (m, zeros (left + k))) := by
  cases x with
  | nil =>
      right; right
      refine ⟨rfl, 0, by decide, fun _ n _ _ => Nat.zero_le n, fun k => ⟨8, Nat.le_refl 8, ?_⟩⟩
      have front : lenenc.run (zeros 9) = some (0, zeros 8) := rfl
      rw [List.nil_append, zeros_add, zeros_add 8 k]
      exact Local.lenenc.append front (zeros k)
  | cons first y =>
      rcases lenenc_form first with one | ⟨width, positive, most, wide⟩ | bad
      · exact Or.inl ⟨_, _, one y⟩
      · by_cases inside : width ≤ y.length
        · left
          refine ⟨ofLe (y.take width), y.drop width, ?_⟩
          rw [wide, uint, StateT.run_map, take_run, if_pos inside]
          rfl
        · right; right
          have short : y.length < width := Nat.lt_of_not_le inside
          refine ⟨by rw [wide, uint_short short], ofLe y, ?_, fun tail n rest run => ?_, fun k => ?_⟩
          · calc ofLe y < 256 ^ y.length := ofLe_lt y
              _ ≤ 256 ^ 7 := Nat.pow_le_pow_right (by decide) (by omega)
          · -- The number begins with the bytes that are there.
            rw [List.cons_append, wide, uint, StateT.run_map, take_run] at run
            split at run
            · obtain ⟨rfl, -⟩ : ofLe ((y ++ tail).take width) = n ∧ (y ++ tail).drop width = rest := by
                simpa using run
              rw [List.take_append, List.take_of_length_le short.le, ofLe_append]
              exact Nat.le_add_right _ _
            · cases run
          · refine ⟨9 - (width - y.length), by omega, ?_⟩
            rw [List.cons_append, wide, uint_zeros short (by omega)]
            congr 3
            omega
      · right; left
        exact ⟨first, y, rfl, bad⟩

/-- What a reader finds only with the bytes behind an input ends among these bytes. -/
theorem Local.suffix {r : Reader α} (here : Local r) {input tail rest : List UInt8} {a : α}
    (alone : r.run input = none) (run : r.run (input ++ tail) = some (a, rest)) :
    ∃ taken, tail = taken ++ rest := by
  obtain ⟨used, split, reads⟩ := here _ a rest run
  rcases List.append_eq_append_iff.mp split with ⟨taken, rfl, behind⟩ | ⟨left, rfl, -⟩
  · exact ⟨taken, behind⟩
  · rw [reads.run left] at alone
    cases alone

end Wire
