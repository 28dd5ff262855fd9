import Mathlib.Data.List.TakeWhile
import Mathlib.Data.Nat.Bitwise
import Mathlib.Tactic.Ring

/-!
# Byte formats

Readers of byte strings, and the two notions their laws are stated in. `Reads r bytes a`: the
reader `r` takes exactly `bytes` off any input that starts with them, and returns `a`. `Local r`:
what `r` returns is decided by the bytes it takes, so that bytes appended to its input stay behind
it. Both are closed under sequencing, so the laws of a format follow from those of its fields.
-/

namespace Wire

/-- A reader takes bytes off the front of its input, or fails. -/
abbrev Reader (α : Type) := StateT (List UInt8) Option α

variable {α β : Type}

/-- The reader takes exactly these bytes, whatever follows them. -/
def Reads (r : Reader α) (bytes : List UInt8) (a : α) : Prop :=
  ∀ rest, r.run (bytes ++ rest) = some (a, rest)

/-- The bytes behind those a reader takes have no influence on it. -/
def Local (r : Reader α) : Prop :=
  ∀ input a rest, r.run input = some (a, rest) → ∃ bytes, input = bytes ++ rest ∧ Reads r bytes a

theorem Reads.run {r : Reader α} {bytes : List UInt8} {a : α} (reads : Reads r bytes a)
    (rest : List UInt8) : r.run (bytes ++ rest) = some (a, rest) :=
  reads rest

theorem Reads.pure (a : α) : Reads (pure a) [] a := fun _ => rfl

theorem Reads.bind {r : Reader α} {f : α → Reader β} {first second : List UInt8} {a : α} {b : β}
    (head : Reads r first a) (tail : Reads (f a) second b) :
    Reads (r >>= f) (first ++ second) b := by
  intro rest
  rw [List.append_assoc, StateT.run_bind, head.run]
  exact tail.run rest

theorem Reads.map {r : Reader α} {bytes : List UInt8} {a : α} (f : α → β)
    (reads : Reads r bytes a) : Reads (f <$> r) bytes (f a) := by
  intro rest
  rw [StateT.run_map, reads.run]
  rfl

theorem Local.pure (a : α) : Local (pure a : Reader α) := by
  intro input b rest run
  obtain ⟨rfl, rfl⟩ : a = b ∧ input = rest := by simpa using run
  exact ⟨[], rfl, Reads.pure a⟩

theorem Local.bind {r : Reader α} {f : α → Reader β} (head : Local r) (tail : ∀ a, Local (f a)) :
    Local (r >>= f) := by
  intro input b rest run
  rw [StateT.run_bind] at run
  obtain ⟨⟨a, middle⟩, first, second⟩ := Option.bind_eq_some_iff.mp run
  obtain ⟨bytes, rfl, reads⟩ := head input a middle first
  obtain ⟨more, rfl, reads'⟩ := tail a middle b rest second
  exact ⟨bytes ++ more, by rw [List.append_assoc], reads.bind reads'⟩

theorem Local.map {r : Reader α} (f : α → β) (here : Local r) : Local (f <$> r) := by
  rw [← bind_pure_comp]
  exact here.bind fun a => Local.pure (f a)

def fail : Reader α := fun _ => none

theorem Local.fail : Local (fail : Reader α) := fun _ _ _ run => nomatch run

/-! ## Fixed-width fields -/

def take (n : Nat) : Reader (List UInt8) := fun input =>
  if n ≤ input.length then some (input.take n, input.drop n) else none

theorem reads_take (bytes : List UInt8) : Reads (take bytes.length) bytes bytes := by
  intro rest
  simp [take, StateT.run]

theorem Local.take (n : Nat) : Local (take n) := by
  intro input a rest run
  simp only [StateT.run, Wire.take] at run
  split at run
  · rename_i fits
    obtain ⟨rfl, rfl⟩ : input.take n = a ∧ input.drop n = rest := by simpa using run
    refine ⟨input.take n, (List.take_append_drop n input).symm, ?_⟩
    have reads := reads_take (input.take n)
    rwa [List.length_take, Nat.min_eq_left fits] at reads
  · cases run

theorem take_run (n : Nat) (input : List UInt8) :
    (take n).run input = if n ≤ input.length then some (input.take n, input.drop n) else none :=
  rfl

theorem map_take_congr {f g : List UInt8 → α} (n : Nat)
    (agree : ∀ bytes, bytes.length = n → f bytes = g bytes) : f <$> take n = g <$> take n := by
  funext input
  change (f <$> take n).run input = (g <$> take n).run input
  rw [StateT.run_map, StateT.run_map, take_run]
  split
  · rename_i fits
    simp [agree (input.take n) (by simp [fits])]
  · rfl

/-- The little-endian bytes of a number, least significant byte first. -/
def le : Nat → Nat → List UInt8
  | 0, _ => []
  | width + 1, n => UInt8.ofNat n :: le width (n / 256)

/-- The number that little-endian bytes stand for. -/
def ofLe : List UInt8 → Nat
  | [] => 0
  | b :: rest => b.toNat + 256 * ofLe rest

@[simp] theorem length_le (width n : Nat) : (le width n).length = width := by
  induction width generalizing n with
  | zero => rfl
  | succ width ih => simp [le, ih]

theorem ofLe_le (width n : Nat) (bound : n < 256 ^ width) : ofLe (le width n) = n := by
  induction width generalizing n with
  | zero =>
      have : n = 0 := by simpa using bound
      simp [le, ofLe, this]
  | succ width ih =>
      have smaller : n / 256 < 256 ^ width := by
        rw [Nat.div_lt_iff_lt_mul (by decide)]
        simpa [Nat.pow_succ] using bound
      simp only [le, ofLe, ih _ smaller, UInt8.toNat_ofNat']
      omega

theorem le_ofLe (bytes : List UInt8) : le bytes.length (ofLe bytes) = bytes := by
  induction bytes with
  | nil => rfl
  | cons b rest ih =>
      have small := b.toNat_lt
      have low : UInt8.ofNat (b.toNat + 256 * ofLe rest) = b := by
        rw [← UInt8.toNat_inj, UInt8.toNat_ofNat']
        omega
      have high : (b.toNat + 256 * ofLe rest) / 256 = ofLe rest := by omega
      rw [List.length_cons, ofLe, le, low, high, ih]

theorem le_mod {width k : Nat} (fits : width ≤ k) (n : Nat) :
    le width (n % 256 ^ k) = le width n := by
  induction width generalizing n k with
  | zero => rfl
  | succ width ih =>
      obtain ⟨k, rfl⟩ : ∃ j, k = j + 1 := ⟨k - 1, by omega⟩
      have low : UInt8.ofNat (n % 256 ^ (k + 1)) = UInt8.ofNat n := by
        rw [← UInt8.toNat_inj, UInt8.toNat_ofNat', UInt8.toNat_ofNat', Nat.pow_succ']
        exact Nat.mod_mod_of_dvd n (Nat.dvd_mul_right 256 _)
      rw [le, le, low, Nat.pow_succ', Nat.mod_mul_right_div_self, ih (by omega)]

theorem ofLe_lt (bytes : List UInt8) : ofLe bytes < 256 ^ bytes.length := by
  induction bytes with
  | nil => simp [ofLe]
  | cons b rest ih =>
      have := b.toNat_lt
      simp only [ofLe, List.length_cons, Nat.pow_succ]
      omega

theorem ofLe_append_singleton (bytes : List UInt8) (b : UInt8) :
    ofLe (bytes ++ [b]) = ofLe bytes + b.toNat * 256 ^ bytes.length := by
  induction bytes with
  | nil => simp [ofLe]
  | cons first rest ih =>
      simp only [List.cons_append, ofLe, ih, List.length_cons, Nat.pow_succ]
      ring

def uint (width : Nat) : Reader Nat := ofLe <$> take width

theorem uint_short {width : Nat} {input : List UInt8} (short : input.length < width) :
    (uint width).run input = none := by
  rw [uint, StateT.run_map, take_run, if_neg (Nat.not_le.mpr short)]
  rfl

theorem uint_map_short {f : Nat → α} {width : Nat} {input : List UInt8}
    (short : input.length < width) : (f <$> uint width).run input = none := by
  rw [StateT.run_map, uint_short short]
  rfl

theorem uint_lt {width n : Nat} {input rest : List UInt8}
    (run : (uint width).run input = some (n, rest)) : n < 256 ^ width := by
  rw [uint, StateT.run_map, take_run] at run
  split at run
  · rename_i fits
    obtain ⟨rfl, -⟩ : ofLe (input.take width) = n ∧ input.drop width = rest := by simpa using run
    simpa [Nat.min_eq_left fits] using ofLe_lt (input.take width)
  · cases run

theorem bind_congr {r : Reader α} {f g : α → Reader β}
    (agree : ∀ input a rest, r.run input = some (a, rest) → f a = g a) : r >>= f = r >>= g := by
  funext input
  change (r >>= f).run input = (r >>= g).run input
  rw [StateT.run_bind, StateT.run_bind]
  cases run : r.run input with
  | none => rfl
  | some pair =>
      obtain ⟨a, rest⟩ := pair
      change (f a).run rest = (g a).run rest
      rw [agree input a rest run]

theorem uint_bind_congr {width : Nat} {f g : Nat → Reader α}
    (agree : ∀ n < 256 ^ width, f n = g n) : uint width >>= f = uint width >>= g :=
  bind_congr fun _ n _ run => agree n (uint_lt run)

theorem uint_map_congr {width : Nat} {f g : Nat → α} (agree : ∀ n < 256 ^ width, f n = g n) :
    f <$> uint width = g <$> uint width := by
  rw [← bind_pure_comp, ← bind_pure_comp]
  exact uint_bind_congr fun n small => by rw [agree n small]

theorem reads_uint (width n : Nat) (bound : n < 256 ^ width) : Reads (uint width) (le width n) n := by
  have reads := (reads_take (le width n)).map ofLe
  rwa [length_le, ofLe_le width n bound] at reads

theorem Local.uint (width : Nat) : Local (uint width) := (Local.take width).map ofLe

/-! ## Fields of variable width -/

/-- The bytes before the first zero byte, which is taken too. -/
def untilZero : Reader (List UInt8) := fun input =>
  match input.dropWhile (· != 0) with
  | _ :: rest => some (input.takeWhile (· != 0), rest)
  | [] => none

theorem untilZero_eq_some {input text rest : List UInt8} :
    untilZero.run input = some (text, rest) ↔ input = text ++ 0 :: rest ∧ 0 ∉ text := by
  simp only [untilZero, StateT.run]
  constructor
  · intro run
    cases back : input.dropWhile (· != 0) with
    | nil => simp [back] at run
    | cons b tail =>
        simp only [back, Option.some.injEq, Prod.mk.injEq] at run
        obtain ⟨rfl, rfl⟩ := run
        have stop : b = 0 := by
          have := List.head_dropWhile_not (· != 0) (show input.dropWhile (· != 0) ≠ [] by simp [back])
          simpa [back] using this
        subst stop
        refine ⟨?_, fun member => ?_⟩
        · rw [← back, List.takeWhile_append_dropWhile]
        · simpa using List.mem_takeWhile_imp member
  · rintro ⟨rfl, clean⟩
    have all : ∀ b ∈ text, (b != 0) = true := by
      intro b member
      simpa using ne_of_mem_of_not_mem member clean
    rw [List.takeWhile_append_of_pos all, List.dropWhile_append_of_pos all]
    simp

theorem reads_untilZero (text : List UInt8) (clean : 0 ∉ text) :
    Reads untilZero (text ++ [0]) text := by
  intro rest
  exact untilZero_eq_some.mpr ⟨by simp, clean⟩

theorem Local.untilZero : Local untilZero := by
  intro input text rest run
  obtain ⟨rfl, clean⟩ := untilZero_eq_some.mp run
  exact ⟨text ++ [0], by simp, reads_untilZero text clean⟩

/-- A length-encoded integer: one byte below 251, or a marker and 2, 3 or 8 bytes. -/
def lenenc : Reader Nat := do
  let first ← uint 1
  if first < 0xFB then return first
  else if first = 0xFC then uint 2
  else if first = 0xFD then uint 3
  else if first = 0xFE then uint 8
  else fail

/-- The bytes of a length-encoded integer, in the shortest form. -/
def lenencBytes (n : Nat) : List UInt8 :=
  if n < 0xFB then le 1 n
  else if n < 0x10000 then le 1 0xFC ++ le 2 n
  else if n < 0x1000000 then le 1 0xFD ++ le 3 n
  else le 1 0xFE ++ le 8 n

theorem reads_lenenc (n : Nat) (bound : n < 2 ^ 64) : Reads lenenc (lenencBytes n) n := by
  have marked (marker width : Nat) (small : marker < 256) (fits : n < 256 ^ width)
      (branch : (if marker < 0xFB then pure marker
        else if marker = 0xFC then uint 2
        else if marker = 0xFD then uint 3
        else if marker = 0xFE then uint 8 else fail) = uint width) :
      Reads lenenc (le 1 marker ++ le width n) n := by
    refine (reads_uint 1 marker (by omega)).bind ?_
    rw [branch]
    exact reads_uint width n fits
  unfold lenencBytes
  split
  · rename_i small
    rw [← List.append_nil (le 1 n)]
    refine (reads_uint 1 n (by omega)).bind ?_
    rw [if_pos small]
    exact Reads.pure n
  · split
    · exact marked 0xFC 2 (by decide) (by omega) rfl
    · split
      · exact marked 0xFD 3 (by decide) (by omega) rfl
      · exact marked 0xFE 8 (by decide) (by omega) rfl

theorem Local.lenenc : Local lenenc := by
  refine (Local.uint 1).bind fun first => ?_
  repeat' split
  · exact Local.pure first
  · exact Local.uint 2
  · exact Local.uint 3
  · exact Local.uint 8
  · exact Local.fail

theorem lenenc_lt {input rest : List UInt8} {n : Nat} (run : lenenc.run input = some (n, rest)) :
    n < 2 ^ 64 := by
  rw [lenenc, StateT.run_bind] at run
  obtain ⟨⟨first, middle⟩, head, tail⟩ := Option.bind_eq_some_iff.mp run
  have small := uint_lt head
  dsimp only at tail
  split at tail
  · obtain ⟨rfl, -⟩ : first = n ∧ middle = rest := by simpa using tail
    omega
  · split at tail
    · exact (uint_lt tail).trans (by decide)
    · split at tail
      · exact (uint_lt tail).trans (by decide)
      · split at tail
        · exact uint_lt tail
        · cases tail

def lenencString : Reader (List UInt8) := do
  let length ← lenenc
  take length

theorem reads_lenencString (text : List UInt8) (bound : text.length < 2 ^ 64) :
    Reads lenencString (lenencBytes text.length ++ text) text :=
  (reads_lenenc text.length bound).bind (reads_take text)

theorem Local.lenencString : Local lenencString := Local.lenenc.bind fun n => Local.take n

/-- The first byte of a length-encoded integer is no mark of its own, and the widest form has the
numbers that need it. -/
theorem lenencBytes_head (n : Nat) : ∃ first rest, lenencBytes n = first :: rest ∧
    first ≠ 0xFB ∧ (first = 0xFE → 0x1000000 ≤ n) := by
  unfold lenencBytes
  split
  · rename_i small
    refine ⟨UInt8.ofNat n, [], by simp [le], ?_, ?_⟩
    · rw [ne_eq, ← UInt8.toNat_inj, UInt8.toNat_ofNat', Nat.mod_eq_of_lt (by omega)]
      exact Nat.ne_of_lt small
    · rw [← UInt8.toNat_inj, UInt8.toNat_ofNat', Nat.mod_eq_of_lt (by omega)]
      exact fun same => absurd same (Nat.ne_of_lt (small.trans (by decide)))
  · split
    · exact ⟨0xFC, le 2 n, rfl, by decide, fun same => absurd same (by decide)⟩
    · split
      · exact ⟨0xFD, le 3 n, rfl, by decide, fun same => absurd same (by decide)⟩
      · exact ⟨0xFE, le 8 n, rfl, by decide, fun _ => by omega⟩

/-- The first byte of a length-encoded integer is zero for zero alone, and never 0xFF. -/
theorem lenencBytes_first (n : Nat) : (lenencBytes n)[0]? ≠ some 0xFF ∧
    ((lenencBytes n)[0]? = some 0x00 ↔ n = 0) := by
  unfold lenencBytes
  split
  · rename_i small
    have same : (UInt8.ofNat n).toNat = n := by
      rw [UInt8.toNat_ofNat', Nat.mod_eq_of_lt (by omega)]
    constructor
    · simp only [le, List.getElem?_cons_zero, ne_eq, Option.some.injEq, ← UInt8.toNat_inj, same]
      exact Nat.ne_of_lt (small.trans (by decide))
    · simp only [le, List.getElem?_cons_zero, Option.some.injEq, ← UInt8.toNat_inj, same]
      rfl
  · split
    · exact ⟨by simp [le], by simp [le]; omega⟩
    · split
      · exact ⟨by simp [le], by simp [le]; omega⟩
      · exact ⟨by simp [le], by simp [le]; omega⟩

/-! ## Repetition -/

/-- What a reader makes of a byte string that it has to take as a whole. -/
def whole (r : Reader α) (bytes : List UInt8) : Option α :=
  match r.run bytes with
  | some (a, []) => some a
  | _ => none

theorem Reads.whole {r : Reader α} {bytes : List UInt8} {a : α} (reads : Reads r bytes a) :
    whole r bytes = some a := by
  have run := reads.run []
  rw [List.append_nil] at run
  simp only [Wire.whole, run]

def repeated (r : Reader α) : Nat → Reader (List α)
  | 0 => pure []
  | n + 1 => do
      let first ← r
      let others ← repeated r n
      return first :: others

theorem Reads.repeated_cons {r : Reader α} {first others : List UInt8} {a : α} {as : List α}
    (head : Reads r first a) (tail : Reads (repeated r as.length) others as) :
    Reads (repeated r (a :: as).length) (first ++ others) (a :: as) := by
  refine head.bind ?_
  rw [← List.append_nil others]
  exact tail.bind (Reads.pure _)

theorem reads_repeated {r : Reader α} {encode : β → List UInt8} {decoded : β → α} {items : List β}
    (reads : ∀ item ∈ items, Reads r (encode item) (decoded item)) :
    Reads (repeated r items.length) (items.flatMap encode) (items.map decoded) := by
  induction items with
  | nil => exact Reads.pure []
  | cons item rest ih =>
      have others := ih fun item member => reads item (List.mem_cons_of_mem _ member)
      have length : (rest.map decoded).length = rest.length := List.length_map _
      rw [← length] at others
      have all := (reads item List.mem_cons_self).repeated_cons others
      rwa [List.length_cons, length] at all

/-! ## What readers return

Everything that a reader returns has a property, and has taken at least a number of bytes. Where the
size is that of the shortest form, this bounds what a reader can find in an input.
-/

def Yields (r : Reader α) (P : α → Prop) : Prop :=
  ∀ input a rest, r.run input = some (a, rest) → P a

def Takes (r : Reader α) (size : α → Nat) : Prop :=
  ∀ input a rest, r.run input = some (a, rest) → size a + rest.length ≤ input.length

section Returns
variable {r : Reader α} {f : α → Reader β} {P : α → Prop} {Q : β → Prop} {size : α → Nat}

theorem Yields.pure {a : α} (holds : P a) : Yields (pure a) P := by
  intro input b rest run
  obtain ⟨rfl, -⟩ : a = b ∧ input = rest := by simpa using run
  exact holds

theorem Yields.fail : Yields (fail : Reader α) P := fun _ _ _ run => nomatch run

theorem Yields.bind (head : Yields r P) (tail : ∀ a, P a → Yields (f a) Q) :
    Yields (r >>= f) Q := by
  intro input b rest run
  rw [StateT.run_bind] at run
  obtain ⟨⟨a, middle⟩, first, second⟩ := Option.bind_eq_some_iff.mp run
  exact tail a (head input a middle first) middle b rest second

theorem Yields.mono {P' : α → Prop} (here : Yields r P) (weaker : ∀ a, P a → P' a) : Yields r P' :=
  fun input a rest run => weaker a (here input a rest run)

theorem Yields.repeated (here : Yields r P) (n : Nat) :
    Yields (repeated r n) fun as => ∀ a ∈ as, P a := by
  induction n with
  | zero => exact Yields.pure (by simp)
  | succ n ih => exact here.bind fun a first => ih.bind fun as others =>
      Yields.pure (List.forall_mem_cons.mpr ⟨first, others⟩)

theorem Takes.pure {a : α} (free : size a = 0) : Takes (pure a) size := by
  intro input b rest run
  obtain ⟨rfl, rfl⟩ : a = b ∧ input = rest := by simpa using run
  rw [free, Nat.zero_add]

theorem Takes.fail : Takes (fail : Reader α) size := fun _ _ _ run => nomatch run

theorem Takes.bind {total : β → Nat} (head : Takes r size)
    (tail : ∀ a, Takes (f a) fun b => total b - size a) : Takes (r >>= f) total := by
  intro input b rest run
  rw [StateT.run_bind] at run
  obtain ⟨⟨a, middle⟩, first, second⟩ := Option.bind_eq_some_iff.mp run
  have taken := head input a middle first
  have left := tail a middle b rest second
  dsimp only at left
  omega

theorem Takes.map {total : β → Nat} (g : α → β) (here : Takes r fun a => total (g a)) :
    Takes (g <$> r) total := by
  rw [← bind_pure_comp]
  apply here.bind
  exact fun a => Takes.pure (Nat.sub_self _)

theorem Takes.repeated (here : Takes r size) (n : Nat) :
    Takes (repeated r n) fun as => (as.map size).sum := by
  induction n with
  | zero => exact Takes.pure rfl
  | succ n ih =>
      apply here.bind
      intro a
      apply ih.bind
      intro as
      apply Takes.pure
      simp

theorem Takes.mono {size' : α → Nat} (here : Takes r size) (yields : Yields r P)
    (less : ∀ a, P a → size' a ≤ size a) : Takes r size' := by
  intro input a rest run
  have taken := here input a rest run
  have := less a (yields input a rest run)
  omega

theorem Takes.whole {bytes : List UInt8} {a : α} (here : Takes r size)
    (read : whole r bytes = some a) : size a ≤ bytes.length := by
  unfold Wire.whole at read
  split at read
  · rename_i a' run
    obtain rfl := Option.some.inj read
    have taken := here bytes _ [] run
    simpa using taken
  · cases read

end Returns

theorem yields_take (n : Nat) : Yields (take n) (·.length = n) := by
  intro input bytes rest run
  rw [take_run] at run
  split at run
  · rename_i fits
    obtain ⟨rfl, -⟩ : input.take n = bytes ∧ input.drop n = rest := by simpa using run
    exact List.length_take_of_le fits
  · cases run

theorem takes_take (n : Nat) : Takes (take n) List.length := by
  intro input bytes rest run
  rw [take_run] at run
  split at run
  · obtain ⟨rfl, rfl⟩ : input.take n = bytes ∧ input.drop n = rest := by simpa using run
    rw [← List.length_append, List.take_append_drop]
  · cases run

theorem takes_uint {width : Nat} {size : Nat → Nat} (fits : ∀ n < 256 ^ width, size n ≤ width) :
    Takes (uint width) size := by
  intro input n rest run
  have small := fits n (uint_lt run)
  rw [uint, StateT.run_map, take_run] at run
  split at run
  · obtain ⟨-, rfl⟩ : ofLe (input.take width) = n ∧ input.drop width = rest := by simpa using run
    rw [List.length_drop]
    omega
  · cases run

theorem takes_width (width : Nat) : Takes (uint width) fun _ => width :=
  takes_uint fun _ _ => Nat.le_refl width

theorem length_lenencBytes (n : Nat) : (lenencBytes n).length =
    if n < 0xFB then 1 else if n < 0x10000 then 3 else if n < 0x1000000 then 4 else 9 := by
  unfold lenencBytes
  split_ifs <;> simp

/-- No form of a length-encoded integer is shorter. -/
theorem takes_lenenc : Takes lenenc fun n => (lenencBytes n).length := by
  have wide {width : Nat} (fits : ∀ n < 256 ^ width, (lenencBytes n).length ≤ width + 1) :
      Takes (uint width) fun n => (lenencBytes n).length - 1 :=
    takes_uint fun n small => Nat.sub_le_of_le_add (fits n small)
  apply (takes_width 1).bind
  intro first
  split
  · rename_i small
    apply Takes.pure
    rw [length_lenencBytes, if_pos small]
  · split
    · exact wide fun n small => by rw [length_lenencBytes]; split_ifs <;> omega
    · split
      · exact wide fun n small => by rw [length_lenencBytes]; split_ifs <;> omega
      · split
        · exact wide fun n small => by rw [length_lenencBytes]; split_ifs <;> omega
        · exact Takes.fail

end Wire
