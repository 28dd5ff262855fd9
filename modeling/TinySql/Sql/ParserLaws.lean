import TinySql.Lib.Frame
import TinySql.Sql.LexerLaws
import TinySql.Sql.Parser

/-!
# What the parser makes of its tokens

A parser always stands in front of a lexer, two tokens of which it has read. Its loops end within
their bounds. `parseBinaryExpression` takes every token for an operator when it begins at precedence
0, so that no expression is ever parsed.
-/

namespace TinySql.Parser
open Frame

-- The laws of the lexer say all that is needed of `nextToken`.
attribute [local irreducible] Lexer.nextToken

def standing (l : Lexer) (errors : List Bytes) : Parser :=
  ⟨l.nextToken.2.nextToken.2, l.nextToken.1, l.nextToken.2.nextToken.1, errors⟩

theorem create_standing (input : Bytes) : create input = standing (Lexer.create input) [] := rfl

def Reads (ts : List Token) (p : Parser) : Prop :=
  ∃ l errors, p = standing l errors ∧ l.tokens = ts

section Reads
variable {ts : List Token} {p : Parser}

theorem Reads.next (reads : Reads ts p) : Reads ts.tail p.next := by
  obtain ⟨l, errors, rfl, rfl⟩ := reads
  exact ⟨l.nextToken.2, errors, rfl, Lexer.tokens_nextToken l⟩

theorem Reads.current {t : Token} (reads : Reads (t :: ts) p) : p.currentToken = t := by
  obtain ⟨l, errors, rfl, tokens⟩ := reads
  exact Lexer.nextToken_of_tokens tokens

theorem Reads.eof (reads : Reads [] p) : p.currentToken.type = .EOF_TOKEN := by
  obtain ⟨l, errors, rfl, tokens⟩ := reads
  exact Lexer.nextToken_of_tokens_nil tokens

theorem Reads.errors (reads : Reads ts p) (errors : List Bytes) :
    Reads ts { p with errors := errors } := by
  obtain ⟨l, _, rfl, tokens⟩ := reads
  exact ⟨l, errors, rfl, tokens⟩

theorem Reads.bound (reads : Reads ts p) : 2 * ts.length + 2 ≤ p.bound := by
  obtain ⟨l, errors, rfl, rfl⟩ := reads
  have first := congrArg List.length (Lexer.tokens_nextToken l)
  have second := congrArg List.length (Lexer.tokens_nextToken l.nextToken.2)
  have third := Lexer.length_tokens l.nextToken.2.nextToken.2
  simp only [List.length_tail] at first second
  simp only [Parser.bound, standing]
  omega

end Reads

def Within (n : Nat) (p : Parser) : Prop := ∃ ts, Reads ts p ∧ ts.length ≤ n

section Within
variable {n m : Nat} {p : Parser}

theorem Within.mono (within : Within n p) (le : n ≤ m) : Within m p := by
  obtain ⟨ts, reads, few⟩ := within
  exact ⟨ts, reads, few.trans le⟩

theorem Within.next (within : Within n p) : Within (n - 1) p.next := by
  obtain ⟨ts, reads, few⟩ := within
  refine ⟨ts.tail, reads.next, ?_⟩
  rw [List.length_tail]
  omega

theorem Within.pos (within : Within n p) (more : p.currentToken.type ≠ .EOF_TOKEN) : 0 < n := by
  obtain ⟨ts, reads, few⟩ := within
  cases ts with
  | nil => exact absurd reads.eof more
  | cons t ts => exact (Nat.zero_lt_succ _).trans_le few

theorem Within.errors (within : Within n p) (errors : List Bytes) :
    Within n { p with errors := errors } := by
  obtain ⟨ts, reads, few⟩ := within
  exact ⟨ts, reads.errors errors, few⟩

end Within

/-- The function returns null, and the tokens are no more than they were. -/
def Null {α : Type} (n : Nat) (m : ParserM (Option α)) (p : Parser) : Prop :=
  ∃ p', m.run p = .ok none p' ∧ Within n p'

theorem nextToken_run (p : Parser) : nextToken.run p = .ok () p.next := rfl

theorem fail_null {α : Type} {n : Nat} {p : Parser} (within : Within n p) (message : Bytes) :
    Null n (fail message : ParserM (Option α)) p :=
  ⟨_, rfl, within.errors _⟩

theorem expectAndNext_run (type : TokenType) (p : Parser) :
    (p.currentToken.type = type ∧ (expectAndNext type).run p = .ok true p.next) ∨
      (p.currentToken.type ≠ type ∧ ∃ errors,
        (expectAndNext type).run p = .ok false { p with errors := errors }) := by
  by_cases same : p.currentToken.type = type
  · left
    refine ⟨same, ?_⟩
    simp only [expectAndNext, EStateM.run_bind, EStateM.run_get, same, ne_eq, not_true, if_false,
      nextToken_run]
    rfl
  · right
    simp only [expectAndNext, EStateM.run_bind, EStateM.run_get, ne_eq, same, not_false_eq_true,
      if_true]
    exact ⟨trivial, _, rfl⟩

theorem expectAndNext_within {n : Nat} {p : Parser} (within : Within n p) (type : TokenType) :
    ∃ b p', (expectAndNext type).run p = .ok b p' ∧ Within n p' := by
  rcases expectAndNext_run type p with ⟨-, ran⟩ | ⟨-, errors, ran⟩
  · exact ⟨_, _, ran, within.next.mono (Nat.sub_le _ _)⟩
  · exact ⟨_, _, ran, within.errors errors⟩

/-! ## Expressions -/

/-- How `parsePrimaryExpression` ends: behind one token, or with null. -/
def Primary (n : Nat) (m : ParserM (Option Expression)) (p : Parser) : Prop :=
  (∃ e, m.run p = .ok (some e) p.next ∧ 0 < n) ∨ Null n m p

/-- How `parseBinaryExpression` ends: never with an expression at precedence 0. -/
def Binary (n precedence : Nat) (m : ParserM (Option Expression)) (p : Parser) : Prop :=
  (0 < precedence ∧ ∃ e p', m.run p = .ok (some e) p' ∧ Within n p') ∨ Null n m p

def PrimaryEnds (fuel : Nat) : Prop :=
  ∀ n p, Within n p → 2 * n + 1 ≤ fuel → Primary n (parsePrimaryExpression fuel) p

def ExpressionEnds (fuel : Nat) : Prop :=
  ∀ n p, Within n p → 2 * n + 2 ≤ fuel → Null n (parseExpressionWithin fuel) p

def BinaryEnds (fuel : Nat) : Prop :=
  ∀ n p precedence left, Within n p → 2 * n + 2 ≤ fuel →
    Binary n precedence (parseBinaryExpression fuel precedence left) p

theorem primary_step {fuel : Nat} (expression : ExpressionEnds fuel) : PrimaryEnds (fuel + 1) := by
  intro n p within enough
  have operand {e : Expression} (more : p.currentToken.type ≠ .EOF_TOKEN)
      (run : (parsePrimaryExpression (fuel + 1)).run p = .ok (some e) p.next) :
      Primary n (parsePrimaryExpression (fuel + 1)) p :=
    .inl ⟨e, run, within.pos more⟩
  cases type : p.currentToken.type
  case IDENTIFIER | NUMBER | STRING | ASTERISK =>
    apply operand
    · simp [type]
    · simp only [parsePrimaryExpression, EStateM.run_bind, EStateM.run_get, type]
      rfl
  case LPAREN =>
    right
    have positive := within.pos (by simp [type])
    obtain ⟨q, ran, inside⟩ := expression (n - 1) p.next within.next (by omega)
    obtain ⟨b, q', closed, inside'⟩ := expectAndNext_within inside .RPAREN
    refine ⟨q', ?_, inside'.mono (by omega)⟩
    simp only [parsePrimaryExpression, EStateM.run_bind, EStateM.run_get, type, nextToken_run, ran,
      closed]
    cases b <;> rfl
  all_goals
    right
    simp only [Null, parsePrimaryExpression, EStateM.run_bind, EStateM.run_get, type]
    exact fail_null within _

theorem expression_step {fuel : Nat} (primary : PrimaryEnds fuel) (binary : BinaryEnds fuel) :
    ExpressionEnds (fuel + 1) := by
  intro n p within enough
  rcases primary n p within (by omega) with ⟨e, ran, positive⟩ | ⟨q, ran, inside⟩
  · rcases binary (n - 1) p.next 0 e within.next (by omega) with ⟨absurd, -⟩ | ⟨q, ran', inside⟩
    · exact False.elim (Nat.lt_irrefl 0 absurd)
    · refine ⟨q, ?_, inside.mono (by omega)⟩
      simp only [parseExpressionWithin, EStateM.run_bind, ran, ran']
  · refine ⟨q, ?_, inside⟩
    simp only [parseExpressionWithin, EStateM.run_bind, ran]
    rfl

theorem Binary.again {n m precedence : Nat} {loop again : ParserM (Option Expression)}
    {p q : Parser} (fewer : m ≤ n) (same : loop.run p = again.run q)
    (ends : Binary m precedence again q) : Binary n precedence loop p := by
  rcases ends with ⟨positive, e, q', ran, inside⟩ | ⟨q', ran, inside⟩
  · exact .inl ⟨positive, e, q', same.trans ran, inside.mono fewer⟩
  · exact .inr ⟨q', same.trans ran, inside.mono fewer⟩

theorem binary_step {fuel : Nat} (primary : PrimaryEnds fuel) (binary : BinaryEnds fuel) :
    BinaryEnds (fuel + 1) := by
  intro n p precedence left within enough
  by_cases ends : getPrecedence p.currentToken.type < precedence
  · left
    refine ⟨by omega, left, p, ?_, within⟩
    simp only [parseBinaryExpression, EStateM.run_bind, EStateM.run_get, if_pos ends]
    rfl
  · rcases primary (n - 1) p.next within.next (by omega) with ⟨right, ran, positive⟩ | ⟨q, ran, inside⟩
    · have behind := within.next.next
      by_cases higher : getPrecedence p.currentToken.type <
          getPrecedence p.next.next.currentToken.type
      · rcases binary _ _ (getPrecedence p.currentToken.type + 1) right behind (by omega) with
          ⟨-, right', q, ran', inside⟩ | ⟨q, ran', inside⟩
        · have later := binary _ _ precedence (.binary left p.currentToken.literal right') inside
            (by omega)
          apply later.again (by omega)
          simp only [parseBinaryExpression, EStateM.run_bind, EStateM.run_get, if_neg ends,
            nextToken_run, ran, if_pos higher, ran']
        · right
          refine ⟨q, ?_, inside.mono (by omega)⟩
          simp only [parseBinaryExpression, EStateM.run_bind, EStateM.run_get, if_neg ends,
            nextToken_run, ran, if_pos higher, ran']
          rfl
      · have later := binary _ _ precedence (.binary left p.currentToken.literal right) behind
          (by omega)
        apply later.again (by omega)
        simp only [parseBinaryExpression, EStateM.run_bind, EStateM.run_get, if_neg ends,
          nextToken_run, ran, if_neg higher]
    · right
      refine ⟨q, ?_, inside.mono (by omega)⟩
      simp only [parseBinaryExpression, EStateM.run_bind, EStateM.run_get, if_neg ends,
        nextToken_run, ran]
      rfl

theorem expression_ends (fuel : Nat) :
    PrimaryEnds fuel ∧ ExpressionEnds fuel ∧ BinaryEnds fuel := by
  induction fuel with
  | zero =>
      refine ⟨?_, ?_, ?_⟩
      · intro n p within enough
        omega
      · intro n p within enough
        omega
      · intro n p precedence left within enough
        omega
  | succ fuel ih =>
      obtain ⟨primary, expression, binary⟩ := ih
      exact ⟨primary_step expression, expression_step primary binary, binary_step primary binary⟩

theorem parseExpression_run (p : Parser) :
    parseExpression.run p = (parseExpressionWithin p.bound).run p :=
  run_get_bind (fun p => parseExpressionWithin p.bound) p

/-- No expression is ever parsed. -/
theorem parseExpression_null {n : Nat} {p : Parser} (within : Within n p) :
    Null n parseExpression p := by
  obtain ⟨ts, reads, few⟩ := within
  have enough := reads.bound
  generalize fuel : p.bound = k at enough
  obtain ⟨q, ran, inside⟩ := (expression_ends k).2.1 _ p ⟨ts, reads, Nat.le_refl _⟩ enough
  refine ⟨q, ?_, inside.mono few⟩
  rw [parseExpression_run, fuel, ran]

theorem parseExpressions_null {n fuel : Nat} {p : Parser} (within : Within n p)
    (enough : 0 < fuel) : Null n (parseExpressions fuel) p := by
  obtain ⟨q, ran, inside⟩ := parseExpression_null within
  cases fuel with
  | zero => exact absurd enough (Nat.lt_irrefl 0)
  | succ fuel =>
      refine ⟨q, ?_, inside⟩
      simp only [parseExpressions, EStateM.run_bind, ran]
      rfl

theorem bound_pos (p : Parser) : 0 < p.bound := by
  unfold bound
  omega

/-! ## The clauses of a SELECT -/

theorem parseColumns_star {p : Parser} (star : p.currentToken.type = .ASTERISK) :
    parseColumns.run p = .ok (some [.identifier (ascii "*")]) p.next := by
  rw [parseColumns, run_get_bind, if_pos star]
  rfl

theorem parseColumns_null {n : Nat} {p : Parser} (within : Within n p)
    (other : p.currentToken.type ≠ .ASTERISK) : Null n parseColumns p := by
  obtain ⟨q, ran, inside⟩ := parseExpressions_null within (bound_pos p)
  refine ⟨q, ?_, inside⟩
  rw [parseColumns, run_get_bind, if_neg other, run_get_bind, ran]

/-! ## Loops over tokens -/

/-- The function returns such a result, and the tokens are no more than they were. -/
def Ends {α : Type} (n : Nat) (Q : α → Prop) (m : ParserM α) (p : Parser) : Prop :=
  ∃ a q, m.run p = .ok a q ∧ Q a ∧ Within n q

section Ends
variable {α β : Type} {n k : Nat} {Q : α → Prop} {R : β → Prop} {p : Parser}

theorem Null.ends {m : ParserM (Option α)} (null : Null n m p) : Ends n (· = none) m p := by
  obtain ⟨q, ran, inside⟩ := null
  exact ⟨none, q, ran, rfl, inside⟩

theorem Ends.pure {a : α} (holds : Q a) (within : Within n p) :
    Ends n Q (Pure.pure a : ParserM α) p :=
  ⟨a, p, rfl, holds, within⟩

theorem Ends.mono {m : ParserM α} (ends : Ends n Q m p) (le : n ≤ k) : Ends k Q m p := by
  obtain ⟨a, q, ran, holds, inside⟩ := ends
  exact ⟨a, q, ran, holds, inside.mono le⟩

theorem Ends.bind {m : ParserM α} {f : α → ParserM β} (ends : Ends n Q m p)
    (later : ∀ a q, Q a → Within n q → Ends n R (f a) q) : Ends n R (m >>= f) p := by
  obtain ⟨a, q, ran, holds, inside⟩ := ends
  obtain ⟨b, q', ran', holds', inside'⟩ := later a q holds inside
  refine ⟨b, q', ?_, holds', inside'⟩
  rw [run_bind_ok ran, ran']

theorem Ends.get {f : Parser → ParserM β} (ends : Ends n R (f p) p) :
    Ends n R (MonadState.get >>= f) p := ends

theorem Ends.next {f : Unit → ParserM β} (ends : Ends (n - 1) R (f ()) p.next) :
    Ends n R (nextToken >>= f) p := by
  obtain ⟨b, q, ran, holds, inside⟩ := ends
  refine ⟨b, q, ?_, holds, inside.mono (Nat.sub_le _ _)⟩
  rw [run_bind_ok (nextToken_run p), ran]

theorem fail_ends {Q : Option α → Prop} (within : Within n p) (message : Bytes) (holds : Q none) :
    Ends n Q (fail message) p := by
  obtain ⟨q, ran, inside⟩ := fail_null within message
  exact ⟨none, q, ran, holds, inside⟩

theorem expectAndNext_ends (within : Within n p) (type : TokenType) :
    Ends n (fun _ => True) (expectAndNext type) p := by
  obtain ⟨b, q, ran, inside⟩ := expectAndNext_within within type
  exact ⟨b, q, ran, trivial, inside⟩

/-- A loop that is given the bound of its parser has enough of it. -/
theorem Ends.bounded {loop : Nat → ParserM α}
    (total : ∀ k n p, Within n p → n < k → Ends n Q (loop k) p) (within : Within n p) :
    Ends n Q (loop p.bound) p := by
  obtain ⟨ts, reads, few⟩ := within
  have enough := reads.bound
  have ends := total p.bound ts.length p ⟨ts, reads, Nat.le_refl _⟩ (by omega)
  exact ends.mono few

end Ends

theorem parseColumnNames_ends (k n : Nat) (p : Parser) (within : Within n p) (enough : n < k) :
    Ends n (fun _ => True) (parseColumnNames k) p := by
  induction k generalizing n p with
  | zero => exact absurd enough (Nat.not_lt_zero n)
  | succ k ih =>
      rw [parseColumnNames]
      apply Ends.get
      dsimp only
      by_cases name : p.currentToken.type = .IDENTIFIER
      · have positive := within.pos (by simp [name])
        rw [if_neg (not_not_intro name)]
        apply Ends.next
        apply Ends.get
        have behind := within.next
        by_cases comma : p.next.currentToken.type = .COMMA
        · rw [if_neg (not_not_intro comma)]
          apply Ends.next
          have later := ih _ _ behind.next (by omega)
          exact later.bind fun names q _ inside => .pure trivial inside
        · rw [if_pos comma]
          exact .pure trivial behind
      · rw [if_pos name]
        exact fail_ends within _ trivial

theorem parseConstraints_ends (k n : Nat) (p : Parser) (col : ColumnDefinition)
    (within : Within n p) (enough : n < k) :
    Ends n (fun _ => True) (parseConstraints k col) p := by
  induction k generalizing n p col with
  | zero => exact absurd enough (Nat.not_lt_zero n)
  | succ k ih =>
      -- Each turn takes one token at least, the name of the constraint.
      have behind := within.next
      have positive (more : p.currentToken.type ≠ .EOF_TOKEN) : n - 1 < k := by
        have := within.pos more
        omega
      rw [parseConstraints]
      apply Ends.get
      cases type : p.currentToken.type
      case PRIMARY =>
        have fewer := positive (by simp [type])
        apply Ends.next
        apply Ends.get
        split
        · apply Ends.next
          exact ih _ _ _ behind.next (by omega)
        · exact ih _ _ _ behind fewer
      case NOT =>
        have fewer := positive (by simp [type])
        apply Ends.next
        apply Ends.get
        split
        · apply Ends.next
          exact ih _ _ _ behind.next (by omega)
        · exact ih _ _ _ behind fewer
      case AUTO_INCREMENT =>
        apply Ends.next
        exact ih _ _ _ behind (positive (by simp [type]))
      case DEFAULT =>
        have fewer := positive (by simp [type])
        apply Ends.next
        apply Ends.get
        apply Ends.next
        exact ih _ _ _ behind.next (by omega)
      all_goals exact .pure trivial within

theorem parseColumnDefinitions_ends (k n : Nat) (p : Parser) (within : Within n p)
    (enough : n < k) : Ends n (fun _ => True) (parseColumnDefinitions k) p := by
  induction k generalizing n p with
  | zero => exact absurd enough (Nat.not_lt_zero n)
  | succ k ih =>
      rw [parseColumnDefinitions]
      apply Ends.get
      dsimp only
      split
      · exact .pure trivial within
      · by_cases name : p.currentToken.type = .IDENTIFIER
        · have positive := within.pos (by simp [name])
          have behind := within.next.next
          rw [if_neg (not_not_intro name)]
          apply Ends.next
          apply Ends.get
          apply Ends.next
          apply Ends.get
          have constraints := Ends.bounded (fun k n q => parseConstraints_ends k n q
            { name := p.currentToken.literal, type := p.next.currentToken.literal }) behind
          apply constraints.bind
          intro col q _ inside
          apply Ends.get
          split
          · apply Ends.next
            have later := ih _ _ inside.next (by omega)
            exact later.bind fun cols q _ inside => .pure trivial inside
          · exact .pure trivial inside
        · rw [if_pos name]
          exact fail_ends within _ trivial

/-! ## The statements without an expression -/

def Plain : Option Statement → Prop
  | some (.select _) | some (.insert _) => False
  | _ => True

section Statements
variable {n : Nat} {p : Parser}

theorem Ends.expect {α : Type} {Q : α → Prop} {type : TokenType} {a : α} {m : ParserM α}
    (within : Within n p) (refused : Q a) (later : ∀ q, Within n q → Ends n Q m q) :
    Ends n Q (do if !(← expectAndNext type) then return a else m) p := by
  apply (expectAndNext_ends within type).bind
  intro b q _ inside
  cases b with
  | false => exact .pure refused inside
  | true => exact later q inside

theorem parseName_ends (within : Within n p) (message : String) :
    Ends n (fun _ => True) (parseName message) p := by
  apply Ends.get
  dsimp only
  split
  · exact fail_ends within _ trivial
  · apply Ends.next
    exact .pure trivial within.next

theorem parseDropTableStatement_ends (within : Within n p) :
    Ends n (fun _ => True) parseDropTableStatement p :=
  .expect within trivial fun _ inside => .expect inside trivial fun _ inside =>
    parseName_ends inside _

theorem parseUseStatement_ends (within : Within n p) :
    Ends n (fun _ => True) parseUseStatement p :=
  .expect within trivial fun _ inside => parseName_ends inside _

theorem parseShowStatement_ends (within : Within n p) : Ends n Plain parseShowStatement p := by
  refine Ends.expect (Q := Plain) within trivial fun q inside => ?_
  apply Ends.get
  split
  · apply Ends.next
    exact .pure (by exact trivial) inside.next
  · apply Ends.next
    exact .pure (by exact trivial) inside.next
  · exact fail_ends inside _ trivial

theorem parseCreateTableStatement_ends (within : Within n p) :
    Ends n (fun _ => True) parseCreateTableStatement p := by
  apply Ends.expect within trivial
  intro q inside
  apply Ends.expect inside trivial
  intro q inside
  apply Ends.get
  dsimp only
  split
  · exact fail_ends inside _ trivial
  · apply Ends.next
    apply Ends.expect inside.next trivial
    intro q inside
    apply Ends.get
    apply (Ends.bounded parseColumnDefinitions_ends inside).bind
    intro columns q _ inside
    cases columns with
    | none => exact .pure trivial inside
    | some columns =>
        exact .expect inside trivial fun _ inside => .pure trivial inside

theorem parseColumnList_ends (within : Within n p) :
    Ends n (fun _ => True) parseColumnList p := by
  apply Ends.get
  split
  · apply Ends.next
    apply Ends.get
    apply (Ends.bounded parseColumnNames_ends within.next).bind
    intro columns q _ inside
    cases columns with
    | none => exact .pure trivial inside
    | some columns =>
        apply (expectAndNext_ends inside _).bind
        intro b q _ inside
        cases b <;> exact .pure trivial inside
  · exact .pure trivial within

/-- No INSERT is ever parsed: its values are expressions. -/
theorem parseInsertStatement_none (within : Within n p) :
    Ends n (· = none) parseInsertStatement p := by
  refine Ends.expect (Q := (· = none)) within rfl fun q inside => ?_
  refine Ends.expect (Q := (· = none)) inside rfl fun q inside => ?_
  apply Ends.get
  dsimp only
  split
  · exact fail_ends inside _ rfl
  · apply Ends.next
    apply (parseColumnList_ends inside.next).bind
    intro columns q _ inside
    cases columns with
    | none => exact .pure rfl inside
    | some columns =>
        refine Ends.expect (Q := (· = none)) inside rfl fun q inside => ?_
        refine Ends.expect (Q := (· = none)) inside rfl fun q inside => ?_
        apply Ends.get
        apply (parseExpressions_null inside (bound_pos q)).ends.bind
        rintro values q rfl inside
        exact .pure rfl inside

end Statements

end TinySql.Parser
