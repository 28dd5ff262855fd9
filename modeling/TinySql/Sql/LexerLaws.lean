import TinySql.Sql.Lexer
import Mathlib.Data.List.TakeWhile

/-!
# What the lexer leaves

Every token but EOF takes characters off the input, and EOF takes none, so that it stays the next
token for ever.
-/

namespace TinySql.Lexer

variable {l : Lexer}

@[simp] theorem rest_locate (l : Lexer) : l.locate.rest = l.rest := by
  unfold locate
  split <;> rfl

theorem rest_create (input : Bytes) : (create input).rest = input := rest_locate _

@[simp] theorem rest_readChar (l : Lexer) : l.readChar.rest = l.rest.tail := by
  simp [readChar]

theorem ch_readChar (l : Lexer) : l.readChar.ch = l.peekChar := by
  simp [ch, peekChar]

theorem rest_ne_nil (more : l.ch ≠ 0) : l.rest ≠ [] := by
  intro empty
  apply more
  simp [ch, empty]

theorem length_readChar (l : Lexer) : l.readChar.rest.length ≤ l.rest.length := by
  simp

theorem length_readChar_lt (more : l.ch ≠ 0) : l.readChar.rest.length < l.rest.length := by
  have := List.length_pos_iff.mpr (rest_ne_nil more)
  simp
  omega

/-! ## Loops -/

theorem length_readWhile (p : UInt8 → Bool) (input : Bytes) (l : Lexer) :
    (readWhile p input l).2.rest.length ≤ l.rest.length := by
  induction input generalizing l with
  | nil => simp [readWhile]
  | cons b rest ih =>
      rw [readWhile]
      split
      · exact (ih l.readChar).trans (length_readChar l)
      · exact Nat.le_refl _

theorem length_skipWhile (p : UInt8 → Bool) (l : Lexer) :
    (l.skipWhile p).rest.length ≤ l.rest.length :=
  length_readWhile p l.rest l

theorem length_skipBlock (input : Bytes) (l : Lexer) :
    (skipBlock input l).rest.length ≤ l.rest.length := by
  induction input generalizing l with
  | nil => exact Nat.le_refl _
  | cons b rest ih =>
      rw [skipBlock]
      split
      · exact Nat.le_refl _
      · split
        · exact (length_readChar _).trans (length_readChar l)
        · exact (ih l.readChar).trans (length_readChar l)

theorem length_ite {c : Prop} [Decidable c] {l l' : Lexer} (shorter : l'.rest.length ≤ l.rest.length) :
    (if c then l' else l).rest.length ≤ l.rest.length := by
  split
  · exact shorter
  · exact Nat.le_refl _

theorem length_line (l : Lexer) : l.skipLine.skipWhitespace.rest.length ≤ l.rest.length :=
  (length_skipWhile _ _).trans (length_skipWhile _ l)

theorem length_block (l : Lexer) :
    (skipBlock l.readChar.readChar.rest l.readChar.readChar).skipWhitespace.rest.length ≤
      l.rest.length := by
  apply (length_skipWhile _ _).trans
  apply (length_skipBlock _ _).trans
  exact (length_readChar _).trans (length_readChar l)

theorem length_skipComment (l : Lexer) : l.skipComment.rest.length ≤ l.rest.length := by
  unfold skipComment
  apply (length_ite (length_line _)).trans
  apply (length_ite (length_block _)).trans
  exact length_ite (length_line l)

theorem length_readQuoted (quote : UInt8) : ∀ (input : Bytes) (l : Lexer),
    (readQuoted quote input l).2.rest.length ≤ l.rest.length
  | [], l => Nat.le_refl _
  | [b], l => by
      rw [readQuoted]
      split
      · exact Nat.le_refl _
      · split
        · exact (length_readChar _).trans (length_readChar l)
        · exact length_readChar l
  | b :: c :: rest, l => by
      have behindEscape := length_readQuoted quote rest l.readChar.readChar
      have behindOne := length_readQuoted quote (c :: rest) l.readChar
      rw [readQuoted]
      split
      · exact Nat.le_refl _
      · split
        · exact behindEscape.trans ((length_readChar _).trans (length_readChar l))
        · exact behindOne.trans (length_readChar l)

theorem length_readString_lt (quote : UInt8) (more : l.ch ≠ 0) :
    (l.readString quote).2.rest.length < l.rest.length := by
  have quoted := length_readQuoted quote l.readChar.rest l.readChar
  have closed := length_readChar (readQuoted quote l.readChar.rest l.readChar).2
  have opened := length_readChar_lt more
  simp only [readString]
  omega

/-! ## Words and numbers -/

theorem readWhile_append {p : UInt8 → Bool} {word tail : Bytes} {l : Lexer}
    (input : l.rest = word ++ tail) (all : ∀ b ∈ word, p b = true)
    (stop : ∀ b ∈ tail.head?, p b = false) :
    ∃ l', readWhile p l.rest l = (word, l') ∧ l'.rest = tail := by
  rw [input]
  induction word generalizing l with
  | nil =>
      cases tail with
      | nil => exact ⟨l, rfl, input⟩
      | cons b rest =>
          have stopped := stop b (by simp)
          exact ⟨l, by simp [readWhile, stopped], input⟩
  | cons b word ih =>
      have first := all b List.mem_cons_self
      have next : l.readChar.rest = word ++ tail := by simp [input]
      obtain ⟨l', ran, left⟩ := ih next (fun b member => all b (List.mem_cons_of_mem _ member))
      exact ⟨l', by simp [readWhile, first, ran], left⟩

theorem length_readIdentifier_lt (letter : isLetter l.ch = true) (more : l.ch ≠ 0) :
    l.readIdentifier.2.rest.length < l.rest.length := by
  obtain ⟨b, rest, input⟩ := List.exists_cons_of_ne_nil (rest_ne_nil more)
  have first : l.ch = b := by simp [ch, input]
  rw [first] at letter
  have taken := length_readWhile (fun ch => isLetter ch || isDigit ch) rest l.readChar
  have shorter := length_readChar_lt more
  simp only [readIdentifier, input, readWhile, letter, Bool.true_or, if_true] at taken ⊢
  simp only [input] at shorter
  omega

theorem length_readNumber_lt (digit : isDigit l.ch = true) (more : l.ch ≠ 0) :
    l.readNumber.2.rest.length < l.rest.length := by
  obtain ⟨b, rest, input⟩ := List.exists_cons_of_ne_nil (rest_ne_nil more)
  have first : l.ch = b := by simp [ch, input]
  rw [first] at digit
  have whole := length_readWhile isDigit rest l.readChar
  have shorter := length_readChar_lt more
  have run : (readWhile isDigit l.rest l).2.rest.length < l.rest.length := by
    simp only [input, readWhile, digit, if_true] at whole shorter ⊢
    omega
  unfold readNumber
  dsimp only
  split
  · have fraction := length_readWhile isDigit (readWhile isDigit l.rest l).2.readChar.rest
      (readWhile isDigit l.rest l).2.readChar
    have point := length_readChar (readWhile isDigit l.rest l).2
    dsimp only
    omega
  · exact run

/-! ## Tokens -/

theorem lookupKeyword_ne_eof (identifier : Bytes) : lookupKeyword identifier ≠ .EOF_TOKEN := by
  have none : ∀ entry ∈ keywords, entry.2 ≠ .EOF_TOKEN := by decide
  unfold lookupKeyword
  split
  · rename_i keyword type found
    exact none _ (List.mem_of_find?_eq_some found)
  · decide

structure Taken (l : Lexer) (result : Token × Lexer) : Prop where
  more : result.1.type ≠ .EOF_TOKEN
  shorter : result.2.rest.length < l.rest.length

theorem taken_single {type : TokenType} (more : l.ch ≠ 0) (other : type ≠ .EOF_TOKEN) :
    Taken l (l.single type) :=
  ⟨other, length_readChar_lt more⟩

theorem taken_pair {type : TokenType} (more : l.ch ≠ 0) (other : type ≠ .EOF_TOKEN) :
    Taken l (l.pair type) :=
  ⟨other, (length_readChar _).trans_lt (length_readChar_lt more)⟩

theorem tokenHere_end (atEnd : l.ch = 0) :
    l.tokenHere = (⟨.EOF_TOKEN, [], l.line, l.column⟩, l) := by
  unfold tokenHere
  rw [atEnd]
  rfl

theorem tokenHere_taken (more : l.ch ≠ 0) : Taken l l.tokenHere := by
  have one {type : TokenType} (other : type ≠ .EOF_TOKEN) : Taken l (l.single type) :=
    taken_single more other
  have two {type : TokenType} (other : type ≠ .EOF_TOKEN) : Taken l (l.pair type) :=
    taken_pair more other
  unfold tokenHere
  split
  case h_1 zero =>
    apply absurd _ more
    apply UInt8.toNat_inj.mp
    exact congrArg Char.toNat zero
  case h_8 | h_10 =>
    split
    · exact two (by decide)
    · exact one (by decide)
  case h_9 =>
    split
    · exact two (by decide)
    · split
      · exact two (by decide)
      · exact one (by decide)
  case h_16 | h_17 => exact ⟨by simp, length_readString_lt l.ch more⟩
  case h_18 =>
    split
    · exact ⟨lookupKeyword_ne_eof _, length_readIdentifier_lt ‹_› more⟩
    · split
      · exact ⟨by simp, length_readNumber_lt ‹_› more⟩
      · exact one (by decide)
  all_goals exact one (by decide)

theorem skipWhile_end {p : UInt8 → Bool} (atEnd : l.ch = 0) (stop : p 0 = false) :
    l.skipWhile p = l := by
  unfold skipWhile
  cases input : l.rest with
  | nil => rfl
  | cons b rest =>
      have first : b = 0 := by simpa [ch, input] using atEnd
      simp [readWhile, first, stop]

theorem skipComment_end (atEnd : l.ch = 0) : l.skipComment = l := by
  have noMinus : ¬ (0 : UInt8) = '-'.toUInt8 := by decide
  have noSlash : ¬ (0 : UInt8) = '/'.toUInt8 := by decide
  have noHash : ¬ (0 : UInt8) = '#'.toUInt8 := by decide
  simp [skipComment, atEnd, noMinus, noSlash, noHash]

theorem nextToken_end (atEnd : l.ch = 0) :
    l.nextToken = (⟨.EOF_TOKEN, [], l.line, l.column⟩, l) := by
  have spaces : l.skipWhitespace = l := skipWhile_end atEnd (by decide)
  have noMinus : ¬ (0 : UInt8) = '-'.toUInt8 := by decide
  rw [nextToken, nextTokenWithin, spaces, skipComment_end atEnd, atEnd]
  rw [if_neg fun both => noMinus both.1]
  exact tokenHere_end atEnd

/-- Where `nextToken` finds its token, behind whitespace and comments. -/
def visibleWithin : Nat → Lexer → Lexer
  | 0, l => l
  | n + 1, l =>
      let l := l.skipWhitespace.skipComment
      if l.ch = '-'.toUInt8 ∧ l.peekChar = '-'.toUInt8 then visibleWithin n l.skipComment else l

def visible (l : Lexer) : Lexer := visibleWithin (l.rest.length + 1) l

theorem nextTokenWithin_eq (n : Nat) (l : Lexer) :
    nextTokenWithin n l = (visibleWithin n l).tokenHere := by
  induction n generalizing l with
  | zero => rfl
  | succ n ih =>
      rw [nextTokenWithin, visibleWithin]
      split
      · exact ih _
      · rfl

theorem nextToken_eq (l : Lexer) : l.nextToken = l.visible.tokenHere := nextTokenWithin_eq _ l

theorem length_visibleWithin (n : Nat) (l : Lexer) :
    (visibleWithin n l).rest.length ≤ l.rest.length := by
  induction n generalizing l with
  | zero => exact Nat.le_refl _
  | succ n ih =>
      have skipped : l.skipWhitespace.skipComment.rest.length ≤ l.rest.length :=
        (length_skipComment _).trans (length_skipWhile _ l)
      rw [visibleWithin]
      split
      · exact (ih _).trans ((length_skipComment _).trans skipped)
      · exact skipped

theorem nextTokenWithin_cases (n : Nat) (l : Lexer) :
    ((nextTokenWithin n l).1.type = .EOF_TOKEN ∧ (nextTokenWithin n l).2.ch = 0) ∨
      Taken l (nextTokenWithin n l) := by
  rw [nextTokenWithin_eq]
  by_cases atEnd : (visibleWithin n l).ch = 0
  · rw [tokenHere_end atEnd]
    exact .inl ⟨rfl, atEnd⟩
  · have taken := tokenHere_taken atEnd
    exact .inr ⟨taken.more, taken.shorter.trans_le (length_visibleWithin n l)⟩

theorem length_skipWhile_lt {p : UInt8 → Bool} (first : p l.ch = true) (more : l.ch ≠ 0) :
    (l.skipWhile p).rest.length < l.rest.length := by
  obtain ⟨b, rest, input⟩ := List.exists_cons_of_ne_nil (rest_ne_nil more)
  have here : l.ch = b := by simp [ch, input]
  rw [here] at first
  have taken := length_readWhile p rest l.readChar
  have shorter := length_readChar_lt more
  simp only [skipWhile, input, readWhile, first, if_true] at taken shorter ⊢
  omega

theorem length_skipComment_lt (dashes : l.ch = '-'.toUInt8 ∧ l.peekChar = '-'.toUInt8) :
    l.skipComment.rest.length < l.rest.length := by
  have line : l.skipLine.rest.length < l.rest.length := by
    apply length_skipWhile_lt
    · rw [dashes.1]
      decide
    · rw [dashes.1]
      decide
  have behind := length_skipWhile isWhitespace l.skipLine
  unfold skipComment
  apply (length_ite (length_line _)).trans_lt
  apply (length_ite (length_block _)).trans_lt
  rw [if_pos dashes]
  exact behind.trans_lt line

/-- The bound is never reached: comments that are skipped shorten the input. -/
theorem visibleWithin_enough {n : Nat} (enough : l.rest.length < n) (k : Nat) :
    visibleWithin (n + k) l = visibleWithin n l := by
  induction n generalizing l with
  | zero => exact absurd enough (Nat.not_lt_zero _)
  | succ n ih =>
      have skipped : l.skipWhitespace.skipComment.rest.length ≤ l.rest.length :=
        (length_skipComment _).trans (length_skipWhile _ l)
      rw [Nat.succ_add, visibleWithin, visibleWithin]
      split
      · rename_i dashes
        apply ih
        have := length_skipComment_lt dashes
        omega
      · rfl

theorem visibleWithin_of_lt {n : Nat} (enough : l.rest.length < n) :
    visibleWithin n l = l.visible := by
  obtain ⟨k, rfl⟩ := Nat.exists_eq_add_of_lt enough
  rw [visible, Nat.add_right_comm]
  exact visibleWithin_enough (Nat.lt_succ_self _) k

theorem nextTokenWithin_of_lt {n : Nat} (enough : l.rest.length < n) :
    nextTokenWithin n l = l.nextToken := by
  rw [nextTokenWithin_eq, nextToken_eq, visibleWithin_of_lt enough]

/-- A token is EOF, and stays it, or it shortens the input. -/
theorem nextToken_cases (l : Lexer) :
    (l.nextToken.1.type = .EOF_TOKEN ∧ l.nextToken.2.ch = 0) ∨ Taken l l.nextToken :=
  nextTokenWithin_cases _ l

def Numbered (t : Token) : Prop :=
  t.type = .NUMBER → ∃ b rest, t.literal = b :: rest ∧ isDigit b = true

theorem readNumber_numbered (digit : isDigit l.ch = true) :
    ∃ rest, l.readNumber.1 = l.ch :: rest := by
  have more : l.ch ≠ 0 := by
    intro atEnd
    rw [atEnd] at digit
    cases digit
  obtain ⟨b, rest, input⟩ := List.exists_cons_of_ne_nil (rest_ne_nil more)
  have here : l.ch = b := by simp [ch, input]
  rw [here] at digit ⊢
  simp only [readNumber, input, readWhile, digit, if_true]
  split
  · exact ⟨_, List.cons_append⟩
  · exact ⟨_, rfl⟩

theorem lookupKeyword_ne_number (identifier : Bytes) : lookupKeyword identifier ≠ .NUMBER := by
  have none : ∀ entry ∈ keywords, entry.2 ≠ .NUMBER := by decide
  unfold lookupKeyword
  split
  · rename_i keyword type found
    exact none _ (List.mem_of_find?_eq_some found)
  · decide

theorem tokenHere_numbered (l : Lexer) : Numbered l.tokenHere.1 := by
  have one {type : TokenType} (other : type ≠ .NUMBER) : Numbered (l.single type).1 :=
    fun number => absurd number other
  have two {type : TokenType} (other : type ≠ .NUMBER) : Numbered (l.pair type).1 :=
    fun number => absurd number other
  unfold tokenHere
  split
  case h_1 => exact nofun
  case h_8 | h_10 =>
    split
    · exact two (by decide)
    · exact one (by decide)
  case h_9 =>
    split
    · exact two (by decide)
    · split
      · exact two (by decide)
      · exact one (by decide)
  case h_16 | h_17 => exact nofun
  case h_18 =>
    split
    · exact fun number => absurd number (lookupKeyword_ne_number _)
    · split
      · rename_i digit
        obtain ⟨rest, literal⟩ := readNumber_numbered digit
        exact fun _ => ⟨l.ch, rest, literal, digit⟩
      · exact one (by decide)
  all_goals exact one (by decide)

theorem nextToken_numbered (l : Lexer) : Numbered l.nextToken.1 := by
  rw [nextToken_eq]
  exact tokenHere_numbered _

/-! ## The tokens of a text -/

-- From here on only `nextToken_cases` and `nextToken_end` say what `nextToken` does.
attribute [local irreducible] nextToken

def tokens (l : Lexer) : List Token :=
  if _ : l.nextToken.1.type = .EOF_TOKEN then [] else l.nextToken.1 :: l.nextToken.2.tokens
termination_by l.rest.length
decreasing_by
  rename_i more
  exact ((nextToken_cases l).resolve_left fun ends => more ends.1).shorter

theorem tokens_eof (eof : l.nextToken.1.type = .EOF_TOKEN) : l.tokens = [] := by
  rw [tokens, dif_pos eof]

theorem tokens_more (more : l.nextToken.1.type ≠ .EOF_TOKEN) :
    l.tokens = l.nextToken.1 :: l.nextToken.2.tokens := by
  rw [tokens, dif_neg more]

theorem tokens_end (atEnd : l.ch = 0) : l.tokens = [] := by
  apply tokens_eof
  rw [nextToken_end atEnd]

theorem tokens_nextToken (l : Lexer) : l.nextToken.2.tokens = l.tokens.tail := by
  cases nextToken_cases l with
  | inl ends => rw [tokens_eof ends.1, tokens_end ends.2, List.tail_nil]
  | inr taken => rw [tokens_more taken.more, List.tail_cons]

theorem nextToken_of_tokens {t : Token} {ts : List Token} (tokens : l.tokens = t :: ts) :
    l.nextToken.1 = t := by
  by_cases eof : l.nextToken.1.type = .EOF_TOKEN
  · rw [tokens_eof eof] at tokens
    cases tokens
  · rw [tokens_more eof] at tokens
    exact (List.cons.inj tokens).1

theorem nextToken_of_tokens_nil (tokens : l.tokens = []) : l.nextToken.1.type = .EOF_TOKEN := by
  apply Decidable.byContradiction
  intro more
  rw [tokens_more more] at tokens
  cases tokens

theorem length_tokens (l : Lexer) : l.tokens.length ≤ l.rest.length := by
  induction l using tokens.induct with
  | case1 l eof =>
      rw [tokens_eof eof]
      exact Nat.zero_le _
  | case2 l more ih =>
      have taken := (nextToken_cases l).resolve_left fun ends => more ends.1
      have := taken.shorter
      rw [tokens_more more, List.length_cons]
      omega

theorem tokens_ne_eof (l : Lexer) : ∀ t ∈ l.tokens, t.type ≠ .EOF_TOKEN := by
  induction l using tokens.induct with
  | case1 l eof =>
      rw [tokens_eof eof]
      exact nofun
  | case2 l more ih =>
      rw [tokens_more more]
      exact List.forall_mem_cons.mpr ⟨more, ih⟩

theorem tokens_numbered (l : Lexer) : ∀ t ∈ l.tokens, Numbered t := by
  induction l using tokens.induct with
  | case1 l eof =>
      rw [tokens_eof eof]
      exact nofun
  | case2 l more ih =>
      rw [tokens_more more]
      exact List.forall_mem_cons.mpr ⟨nextToken_numbered l, ih⟩

end TinySql.Lexer
