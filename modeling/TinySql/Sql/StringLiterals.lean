import TinySql.Sql.RoundTrip

/-!
# String literals

A backslash in front of each backslash and each quote is enough to bring any text through the lexer,
unless a NUL is in it: that ends the literal, and the lexer goes on behind it.
-/

namespace TinySql.Lexer

inductive Quote where
  | single
  | double

def Quote.byte : Quote → UInt8
  | .single => '\''.toUInt8
  | .double => '"'.toUInt8

/-- The text with a backslash in front of each backslash and each quote. -/
def escape (quote : UInt8) (text : Bytes) : Bytes :=
  text.flatMap fun b => if b = '\\'.toUInt8 ∨ b = quote then ['\\'.toUInt8, b] else [b]

def literal (quote : Quote) (text : Bytes) : Bytes :=
  quote.byte :: (escape quote.byte text ++ [quote.byte])

/-- In front of what follows the literal is one STRING token with just this text, and the lexer goes
on behind the closing quote. -/
def ReadsBack (quote : Quote) (text tail : Bytes) : Prop :=
  ∀ l : Lexer, l.rest = literal quote text ++ tail →
    l.nextToken.1.type = .STRING ∧ l.nextToken.1.literal = text ∧ l.nextToken.2.rest = tail

/-! ## The loop -/

section Loop
variable {quote b c : UInt8} {text rest tail : Bytes} {l : Lexer}

theorem readQuoted_stop (stop : b = quote ∨ b = 0) : readQuoted quote (b :: rest) l = ([], l) := by
  cases rest <;> rw [readQuoted, if_pos stop]

theorem readQuoted_plain (more : ¬ (b = quote ∨ b = 0)) (plain : b ≠ '\\'.toUInt8) :
    readQuoted quote (b :: rest) l =
      (b :: (readQuoted quote rest l.readChar).1, (readQuoted quote rest l.readChar).2) := by
  cases rest <;> simp only [readQuoted, if_neg more, if_neg plain]

theorem readQuoted_escape (other : quote ≠ '\\'.toUInt8) :
    readQuoted quote ('\\'.toUInt8 :: c :: rest) l =
      (unescape c :: (readQuoted quote rest l.readChar.readChar).1,
        (readQuoted quote rest l.readChar.readChar).2) := by
  have more : ¬ ('\\'.toUInt8 = quote ∨ '\\'.toUInt8 = 0) := by
    rintro (same | zero)
    · exact other same.symm
    · exact absurd zero (by decide)
  rw [readQuoted, if_neg more, if_pos rfl]

theorem escape_cons (quote b : UInt8) (text : Bytes) : escape quote (b :: text) =
    (if b = '\\'.toUInt8 ∨ b = quote then ['\\'.toUInt8, b] else [b]) ++ escape quote text :=
  List.flatMap_cons

/-- The loop gives back an escaped text without NUL, in front of a quote or a NUL. -/
theorem readQuoted_escaped {stop : UInt8} (other : quote ≠ '\\'.toUInt8)
    (same : unescape quote = quote) (stops : stop = quote ∨ stop = 0) (clean : 0 ∉ text)
    (input : l.rest = escape quote text ++ stop :: tail) :
    ∃ l', readQuoted quote l.rest l = (text, l') ∧ l'.rest = stop :: tail := by
  rw [input]
  induction text generalizing l with
  | nil => exact ⟨l, readQuoted_stop stops, input⟩
  | cons b text ih =>
      rw [List.mem_cons, not_or] at clean
      obtain ⟨first, clean⟩ := clean
      rw [escape_cons] at input ⊢
      by_cases special : b = '\\'.toUInt8 ∨ b = quote
      · rw [if_pos special] at input ⊢
        have next : l.readChar.readChar.rest = escape quote text ++ stop :: tail := by simp [input]
        obtain ⟨l', ran, left⟩ := ih clean next
        have restored : unescape b = b := by
          rcases special with rfl | rfl
          · decide
          · exact same
        refine ⟨l', ?_, left⟩
        simp only [List.cons_append, List.nil_append]
        rw [readQuoted_escape other, ran, restored]
      · rw [if_neg special] at input ⊢
        obtain ⟨plain, noQuote⟩ := not_or.mp special
        have next : l.readChar.rest = escape quote text ++ stop :: tail := by simp [input]
        obtain ⟨l', ran, left⟩ := ih clean next
        refine ⟨l', ?_, left⟩
        simp only [List.cons_append, List.nil_append]
        rw [readQuoted_plain (not_or.mpr ⟨noQuote, Ne.symm first⟩) plain, ran]

end Loop

/-! ## The token -/

theorem nextToken_quoted {quote : Quote} {stop : UInt8} {spaces text tail : Bytes} {l : Lexer}
    (stops : stop = quote.byte ∨ stop = 0) (clean : 0 ∉ text)
    (input : l.rest = spaces ++ quote.byte :: (escape quote.byte text ++ stop :: tail))
    (blank : ∀ b ∈ spaces, isWhitespace b = true) :
    l.nextToken.1.type = .STRING ∧ l.nextToken.1.literal = text ∧ l.nextToken.2.rest = tail := by
  have visible : isWhitespace quote.byte = false := by cases quote <;> decide
  have plain : quote.byte ≠ '-'.toUInt8 ∧ quote.byte ≠ '/'.toUInt8 ∧ quote.byte ≠ '#'.toUInt8 := by
    cases quote <;> decide
  obtain ⟨l', left, token⟩ := nextToken_behind input blank visible plain
  have here : l'.ch = quote.byte := by simp [ch, left]
  have string : l'.tokenHere = (⟨.STRING, (l'.readString l'.ch).1, l'.line, l'.column⟩,
      (l'.readString l'.ch).2) := by
    unfold tokenHere
    rw [here]
    cases quote <;> rfl
  have opened : l'.readChar.rest = escape quote.byte text ++ stop :: tail := by simp [left]
  obtain ⟨l'', ran, left'⟩ := readQuoted_escaped (by cases quote <;> decide)
    (by cases quote <;> decide) stops clean opened
  rw [token, string, here, readString, ran]
  exact ⟨rfl, rfl, by simp [left']⟩

/-- A string literal is read back as it was escaped exactly when there is no NUL in its text. -/
theorem readsBack_iff (quote : Quote) (text tail : Bytes) :
    ReadsBack quote text tail ↔ 0 ∉ text := by
  constructor
  · intro readsBack dirty
    obtain ⟨before, after, rfl, clean⟩ := List.eq_append_cons_of_mem dirty
    have nul : ¬ ((0 : UInt8) = '\\'.toUInt8 ∨ (0 : UInt8) = quote.byte) := by
      cases quote <;> decide
    have cut : escape quote.byte (before ++ 0 :: after) =
        escape quote.byte before ++ 0 :: escape quote.byte after := by
      rw [escape, List.flatMap_append, List.flatMap_cons, if_neg nul]
      rfl
    have input : literal quote (before ++ 0 :: after) ++ tail = [] ++ quote.byte ::
        (escape quote.byte before ++ 0 :: (escape quote.byte after ++ quote.byte :: tail)) := by
      simp [literal, cut]
    have start := rest_locate ⟨literal quote (before ++ 0 :: after) ++ tail, 0, 1, 0⟩
    have ends := (nextToken_quoted (.inr rfl) clean (start.trans input) nofun).2.1
    have whole := (readsBack _ start).2.1
    exact absurd (List.self_eq_append_right.mp (ends.symm.trans whole)) (List.cons_ne_nil 0 after)
  · intro clean l input
    have closed : l.rest = [] ++ quote.byte :: (escape quote.byte text ++ quote.byte :: tail) := by
      simp [input, literal]
    exact nextToken_quoted (.inl rfl) clean closed nofun

/-- The text that is one NUL: the token is empty, and the closing quote opens another literal. -/
theorem nul_not_read_back : ¬ ∀ quote text tail, ReadsBack quote text tail := by
  intro all
  have read := (all .single [0] [] ⟨['\''.toUInt8, 0, '\''.toUInt8], 0, 1, 0⟩ rfl).2.1
  exact absurd read (by decide)

end TinySql.Lexer
