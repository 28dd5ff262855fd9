import TinySql.Sql.QueryLaws
import Mathlib.Logic.Function.Iterate

/-!
# Lexing and parsing end

Whatever the lexer does is to read characters, and a token that is not EOF takes one at least. The
loops of the parser end within a number of turns that the tokens in front of it bound.
-/

namespace TinySql.Lexer

variable {l l' l'' : Lexer}

/-! ## Reading characters -/

/-- The second lexer has read some characters more. -/
def Later (l l' : Lexer) : Prop := ∃ k, l' = readChar^[k] l

theorem Later.refl (l : Lexer) : Later l l := ⟨0, rfl⟩

theorem later_readChar (l : Lexer) : Later l l.readChar := ⟨1, rfl⟩

theorem Later.trans (first : Later l l') (second : Later l' l'') : Later l l'' := by
  obtain ⟨k, rfl⟩ := first
  obtain ⟨n, rfl⟩ := second
  exact ⟨n + k, (Function.iterate_add_apply readChar n k l).symm⟩

theorem Later.ite {c : Prop} [Decidable c] (later : Later l l') :
    Later l (if c then l' else l) := by
  split
  · exact later
  · exact .refl l

@[simp] theorem position_readChar (l : Lexer) : l.readChar.position = l.position + 1 := by
  unfold readChar locate
  split <;> rfl

theorem position_iterate (k : Nat) (l : Lexer) : (readChar^[k] l).position = l.position + k := by
  induction k generalizing l with
  | zero => rfl
  | succ k ih =>
      rw [Function.iterate_succ_apply, ih, position_readChar]
      omega

theorem Later.position_lt (later : Later l l') (shorter : l'.rest.length < l.rest.length) :
    l.position < l'.position := by
  obtain ⟨k, rfl⟩ := later
  rw [position_iterate]
  cases k with
  | zero => exact absurd shorter (Nat.lt_irrefl _)
  | succ k => omega

theorem later_readWhile (p : UInt8 → Bool) (input : Bytes) (l : Lexer) :
    Later l (readWhile p input l).2 := by
  induction input generalizing l with
  | nil => exact .refl l
  | cons b rest ih =>
      rw [readWhile]
      split
      · exact (later_readChar l).trans (ih l.readChar)
      · exact .refl l

theorem later_skipWhile (p : UInt8 → Bool) (l : Lexer) : Later l (l.skipWhile p) :=
  later_readWhile p l.rest l

theorem later_skipBlock (input : Bytes) (l : Lexer) : Later l (skipBlock input l) := by
  induction input generalizing l with
  | nil => exact .refl l
  | cons b rest ih =>
      rw [skipBlock]
      split
      · exact .refl l
      · split
        · exact (later_readChar l).trans (later_readChar _)
        · exact (later_readChar l).trans (ih l.readChar)

theorem later_skipComment (l : Lexer) : Later l l.skipComment := by
  have line (l : Lexer) : Later l l.skipLine.skipWhitespace :=
    (later_skipWhile _ l).trans (later_skipWhile _ _)
  have block (l : Lexer) :
      Later l (skipBlock l.readChar.readChar.rest l.readChar.readChar).skipWhitespace :=
    (later_readChar l).trans <| (later_readChar _).trans <|
      (later_skipBlock _ _).trans (later_skipWhile _ _)
  exact ((line l).ite).trans <| ((block _).ite).trans (line _).ite

theorem later_readQuoted (quote : UInt8) : ∀ (input : Bytes) (l : Lexer),
    Later l (readQuoted quote input l).2
  | [], l => .refl l
  | [b], l => by
      rw [readQuoted]
      split
      · exact .refl l
      · split
        · exact (later_readChar l).trans (later_readChar _)
        · exact later_readChar l
  | b :: c :: rest, l => by
      have behindEscape := later_readQuoted quote rest l.readChar.readChar
      have behindOne := later_readQuoted quote (c :: rest) l.readChar
      rw [readQuoted]
      split
      · exact .refl l
      · split
        · exact (later_readChar l).trans ((later_readChar _).trans behindEscape)
        · exact (later_readChar l).trans behindOne

theorem later_readString (quote : UInt8) (l : Lexer) : Later l (l.readString quote).2 :=
  (later_readChar l).trans ((later_readQuoted quote _ _).trans (later_readChar _))

theorem later_readNumber (l : Lexer) : Later l l.readNumber.2 := by
  have whole := later_readWhile isDigit l.rest l
  unfold readNumber
  dsimp only
  split
  · exact whole.trans ((later_readChar _).trans (later_readWhile _ _ _))
  · exact whole

/-! ## Tokens -/

theorem later_tokenHere (l : Lexer) : Later l l.tokenHere.2 := by
  have one (type : TokenType) : Later l (l.single type).2 := later_readChar l
  have two (type : TokenType) : Later l (l.pair type).2 :=
    (later_readChar l).trans (later_readChar _)
  unfold tokenHere
  split
  case h_1 => exact .refl l
  case h_8 | h_10 =>
    split
    · exact two _
    · exact one _
  case h_9 =>
    split
    · exact two _
    · split
      · exact two _
      · exact one _
  case h_16 | h_17 => exact later_readString _ l
  case h_18 =>
    split
    · exact later_readWhile _ _ l
    · split
      · exact later_readNumber l
      · exact one _
  all_goals exact one _

theorem later_visibleWithin (n : Nat) (l : Lexer) : Later l (visibleWithin n l) := by
  induction n generalizing l with
  | zero => exact .refl l
  | succ n ih =>
      have skipped : Later l l.skipWhitespace.skipComment :=
        (later_skipWhile _ l).trans (later_skipComment _)
      rw [visibleWithin]
      split
      · exact skipped.trans ((later_skipComment _).trans (ih _))
      · exact skipped

theorem later_visible (l : Lexer) : Later l l.visible := later_visibleWithin _ l

theorem later_nextToken (l : Lexer) : Later l l.nextToken.2 := by
  rw [nextToken_eq]
  exact (later_visible l).trans (later_tokenHere _)

/-- A call of `nextToken` calls itself no more often than there are characters left, and returns EOF
or moves on. -/
def Advances (l : Lexer) : Prop :=
  (∀ n, l.rest.length < n → nextTokenWithin n l = l.nextToken) ∧
    (l.nextToken.1.type = .EOF_TOKEN ∨ l.position < l.nextToken.2.position)

theorem advances (l : Lexer) : l.Advances := by
  constructor
  · intro n enough
    exact nextTokenWithin_of_lt enough
  · exact (nextToken_cases l).imp And.left fun taken =>
      (later_nextToken l).position_lt taken.shorter

/-! ## `tokenize` -/

-- From here on only the laws of the lexer say what `nextToken` does.
attribute [local irreducible] nextToken

/-- `tokenize`: the tokens up to EOF, or none if the turns of its loop do not suffice. -/
def tokenizeWithin : Nat → Lexer → Option (List Token)
  | 0, _ => none
  | n + 1, l =>
      let (token, l) := l.nextToken
      if token.type = .EOF_TOKEN then some [token]
      else (tokenizeWithin n l).map (token :: ·)

theorem tokenizeWithin_eof (n : Nat) (eof : l.nextToken.1.type = .EOF_TOKEN) :
    tokenizeWithin (n + 1) l = some [l.nextToken.1] := by
  simp only [tokenizeWithin, if_pos eof]

theorem tokenizeWithin_more (n : Nat) (more : l.nextToken.1.type ≠ .EOF_TOKEN) :
    tokenizeWithin (n + 1) l = (tokenizeWithin n l.nextToken.2).map (l.nextToken.1 :: ·) := by
  simp only [tokenizeWithin, if_neg more]

theorem literal_eof (eof : l.nextToken.1.type = .EOF_TOKEN) : l.nextToken.1.literal = [] := by
  rw [nextToken_eq] at eof ⊢
  by_cases atEnd : l.visible.ch = 0
  · rw [tokenHere_end atEnd]
  · exact absurd eof (tokenHere_taken atEnd).more

theorem tokenizeWithin_enough (l : Lexer) : ∃ eof : Token,
    (eof.type = .EOF_TOKEN ∧ eof.literal = []) ∧
      ∀ n, l.tokens.length < n → tokenizeWithin n l = some (l.tokens ++ [eof]) := by
  induction l using tokens.induct with
  | case1 l eof =>
      refine ⟨l.nextToken.1, ⟨eof, literal_eof eof⟩, ?_⟩
      intro n enough
      obtain ⟨n, rfl⟩ := Nat.exists_eq_succ_of_ne_zero (Nat.ne_zero_of_lt enough)
      rw [tokenizeWithin_eof n eof, tokens_eof eof]
      rfl
  | case2 l more ih =>
      obtain ⟨eof, isEof, within⟩ := ih
      refine ⟨eof, isEof, ?_⟩
      intro n enough
      obtain ⟨n, rfl⟩ := Nat.exists_eq_succ_of_ne_zero (Nat.ne_zero_of_lt enough)
      rw [tokens_more more] at enough ⊢
      rw [tokenizeWithin_more n more, within n (Nat.lt_of_succ_lt_succ enough)]
      rfl

theorem tokens_of_tokenize {n : Nat} {ts : List Token} (ran : tokenizeWithin n l = some ts) :
    ∃ eof, ts = l.tokens ++ [eof] := by
  induction n generalizing l ts with
  | zero => cases ran
  | succ n ih =>
      by_cases eof : l.nextToken.1.type = .EOF_TOKEN
      · rw [tokenizeWithin_eof n eof] at ran
        rw [tokens_eof eof]
        exact ⟨l.nextToken.1, (Option.some.inj ran).symm⟩
      · rw [tokenizeWithin_more n eof] at ran
        obtain ⟨later, within, rfl⟩ := Option.map_eq_some_iff.mp ran
        obtain ⟨last, rfl⟩ := ih within
        exact ⟨last, by rw [tokens_more eof, List.cons_append]⟩

def tokenize (input : Bytes) : Option (List Token) :=
  tokenizeWithin (input.length + 1) (create input)

/-- The loop of `tokenize` ends, with at most one token for each character and EOF. -/
def TokenizeEnds (input : Bytes) : Prop :=
  ∃ ts : List Token, ts.length ≤ input.length + 1 ∧
    ∀ n, input.length < n → tokenizeWithin n (create input) = some ts

theorem length_tokens_create (input : Bytes) :
    (create input).tokens.length ≤ input.length := by
  have few := length_tokens (create input)
  rwa [rest_create] at few

theorem tokenizeEnds (input : Bytes) : TokenizeEnds input := by
  have few := length_tokens_create input
  obtain ⟨eof, -, within⟩ := tokenizeWithin_enough (create input)
  refine ⟨(create input).tokens ++ [eof], ?_, fun n enough => within n (few.trans_lt enough)⟩
  rw [List.length_append]
  exact Nat.succ_le_succ few

end TinySql.Lexer

namespace TinySql.Parser

-- The laws of the lexer say all that is needed of `nextToken`.
attribute [local irreducible] Lexer.nextToken

/-! ## The loops of the parser -/

/-- Two turns or calls for each token that is left, and two more, are enough for the loop, whatever
the parser has read: it returns. -/
def Terminates {α : Type} (loop : Nat → ParserM α) : Prop :=
  ∀ ts p n, Reads ts p → 2 * ts.length + 2 ≤ n → ∃ a q, (loop n).run p = .ok a q

section Terminates
variable {α : Type}

theorem Null.returns {n : Nat} {m : ParserM (Option α)} {p : Parser} (null : Null n m p) :
    ∃ a q, m.run p = .ok a q := by
  obtain ⟨q, ran, -⟩ := null
  exact ⟨none, q, ran⟩

theorem Ends.returns {n : Nat} {Q : α → Prop} {m : ParserM α} {p : Parser} (ends : Ends n Q m p) :
    ∃ a q, m.run p = .ok a q := by
  obtain ⟨a, q, ran, -⟩ := ends
  exact ⟨a, q, ran⟩

theorem terminates_of_ends {loop : Nat → ParserM α} {Q : α → Prop}
    (ends : ∀ k n p, Within n p → n < k → Ends n Q (loop k) p) : Terminates loop := by
  intro ts p n reads enough
  exact (ends n _ p ⟨ts, reads, Nat.le_refl _⟩ (by omega)).returns

end Terminates

theorem parseExpressionWithin_terminates : Terminates parseExpressionWithin := by
  intro ts p n reads enough
  exact ((expression_ends n).2.1 _ p ⟨ts, reads, Nat.le_refl _⟩ enough).returns

theorem parsePrimaryExpression_terminates : Terminates parsePrimaryExpression := by
  intro ts p n reads enough
  rcases (expression_ends n).1 _ p ⟨ts, reads, Nat.le_refl _⟩ (by omega) with ⟨e, ran, -⟩ | null
  · exact ⟨some e, p.next, ran⟩
  · exact null.returns

theorem parseBinaryExpression_terminates (precedence : Nat) (left : Expression) :
    Terminates fun n => parseBinaryExpression n precedence left := by
  intro ts p n reads enough
  rcases (expression_ends n).2.2 _ p precedence left ⟨ts, reads, Nat.le_refl _⟩ enough with
    ⟨-, e, q, ran, -⟩ | null
  · exact ⟨some e, q, ran⟩
  · exact null.returns

theorem parseExpressions_terminates : Terminates parseExpressions := by
  intro ts p n reads enough
  exact (parseExpressions_null ⟨ts, reads, Nat.le_refl _⟩ (by omega)).returns

theorem skipSemicolons_terminates : Terminates skipSemicolons := by
  intro ts p n reads enough
  obtain ⟨q, ran, -⟩ := skipSemicolons_run n reads (by omega)
  exact ⟨(), q, ran⟩

/-- The loops and the recursive functions of the parser. -/
structure LoopsTerminate : Prop where
  semicolons : Terminates skipSemicolons
  expression : Terminates parseExpressionWithin
  primary : Terminates parsePrimaryExpression
  binary : ∀ precedence left, Terminates fun n => parseBinaryExpression n precedence left
  expressions : Terminates parseExpressions
  columnNames : Terminates parseColumnNames
  constraints : ∀ col, Terminates fun n => parseConstraints n col
  columnDefinitions : Terminates parseColumnDefinitions

theorem loopsTerminate : LoopsTerminate where
  semicolons := skipSemicolons_terminates
  expression := parseExpressionWithin_terminates
  primary := parsePrimaryExpression_terminates
  binary := parseBinaryExpression_terminates
  expressions := parseExpressions_terminates
  columnNames := terminates_of_ends parseColumnNames_ends
  constraints := fun col => terminates_of_ends fun k n p => parseConstraints_ends k n p col
  columnDefinitions := terminates_of_ends parseColumnDefinitions_ends

/-- The parser returns, or it throws the exception of `std::stoi`. -/
def ParseEnds (input : Bytes) : Prop :=
  (∃ stmt errors, parseQuery input = .ok (stmt, errors)) ∨
    parseQuery input = .error (.outOfRange (ascii "stoi"))

theorem parseEnds (input : Bytes) : ParseEnds input := by
  rcases parseQuery_cases input with ⟨-, throws⟩ | ⟨-, stmt, errors, returned, -⟩
  · exact .inr throws
  · exact .inl ⟨stmt, errors, returned⟩

/-- Lexing and parsing end on every text, and so do the loops in every state of theirs. -/
theorem lexing_and_parsing_end : (∀ l : Lexer, l.Advances) ∧ LoopsTerminate ∧
    ∀ input, Lexer.TokenizeEnds input ∧ ParseEnds input :=
  ⟨Lexer.advances, loopsTerminate, fun input => ⟨Lexer.tokenizeEnds input, parseEnds input⟩⟩

end TinySql.Parser
