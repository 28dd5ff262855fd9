import TinySql.Sql.QueryLaws

/-!
# Null results and recorded errors

A parsing function returns null exactly when it has recorded an error on the way. This includes a
pair of parentheses, which is read to its end also when what is inside has failed.
-/

namespace TinySql.Parser
open Frame

variable {α β : Type}

/-- Null comes with a new error, and anything else without one. -/
def Tells (m : ParserM (Option α)) : Prop := ∀ p, Ensures m p fun a q =>
  if a.isSome then q.errors = p.errors else p.errors.length < q.errors.length

def Silent (m : ParserM α) : Prop := ∀ p, Ensures m p fun _ q => q.errors = p.errors

section Rules
variable {m : ParserM α}

theorem silent_nextToken : Silent nextToken := by
  intro p a q ran
  cases ran
  rfl

theorem silent_get : Silent (get : ParserM Parser) := by
  intro p a q ran
  cases ran
  rfl

theorem silent_pure (a : α) : Silent (pure a) := fun _ => .pure rfl

theorem Silent.bind {f : α → ParserM β} (first : Silent m) (later : ∀ a, Silent (f a)) :
    Silent (m >>= f) := by
  intro p
  refine Ensures.bind (first p) ?_
  intro a q kept
  exact (later a q).mono fun _ _ kept' => kept'.trans kept

theorem Tells.after {f : α → ParserM (Option β)} (first : Silent m) (later : ∀ a, Tells (f a)) :
    Tells (m >>= f) := by
  intro p
  refine Ensures.bind (first p) ?_
  intro a q kept b q' ran
  have told := later a q b q' ran
  rwa [kept] at told

theorem Tells.get {f : Parser → ParserM (Option β)} (later : ∀ p, Tells (f p)) :
    Tells (MonadState.get >>= f) := .after silent_get later

theorem Tells.next {f : Unit → ParserM (Option β)} (later : Tells (f ())) :
    Tells (nextToken >>= f) := .after silent_nextToken fun _ => later

theorem Tells.some (a : α) : Tells (pure (some a)) := fun _ => .pure rfl

theorem tells_fail (message : Bytes) : Tells (fail message : ParserM (Option α)) := by
  intro p a q ran
  cases ran
  simp

theorem tells_throw (e : Exn) : Tells (throw e : ParserM (Option α)) := fun _ => ensures_throw e

theorem Tells.bind {m : ParserM (Option α)} {f : Option α → ParserM (Option β)} (first : Tells m)
    (stops : f none = pure none) (later : ∀ a, Tells (f (Option.some a))) : Tells (m >>= f) := by
  intro p
  refine Ensures.bind (first p) ?_
  intro a q told
  cases a with
  | none =>
      rw [stops]
      exact .pure told
  | some a =>
      intro b q' ran
      have told' := later a q b q' ran
      rwa [show q.errors = p.errors from told] at told'

theorem Tells.map {m : ParserM (Option α)} (g : α → β) (first : Tells m) :
    Tells (do return (← m).map g) :=
  first.bind rfl fun a => .some (g a)

theorem Tells.ite {c : Prop} [Decidable c] {m n : ParserM (Option α)} (yes : Tells m)
    (no : Tells n) : Tells (if c then m else n) := by
  split
  · exact yes
  · exact no

theorem expectAndNext_ensures (type : TokenType) (p : Parser) : Ensures (expectAndNext type) p
    fun found q => if found then q.errors = p.errors else p.errors.length < q.errors.length := by
  apply Ensures.get
  dsimp only
  split
  · intro found q ran
    cases ran
    simp
  · intro found q ran
    cases ran
    rfl

theorem Tells.expect {type : TokenType} {f : Bool → ParserM (Option β)} (stops : f false = pure none)
    (later : Tells (f true)) : Tells (expectAndNext type >>= f) := by
  intro p
  refine Ensures.bind (expectAndNext_ensures type p) ?_
  intro found q told
  cases found with
  | false =>
      rw [stops]
      exact .pure told
  | true =>
      intro b q' ran
      have told' := later q b q' ran
      rwa [show q.errors = p.errors from told] at told'

/-- Whatever a function has returned, a closing token that is missing makes it null. -/
theorem Tells.close {m : ParserM (Option α)} (first : Tells m) (type : TokenType) :
    Tells (do
      let a ← m
      if ← expectAndNext type then return a else return none) := by
  intro p
  refine Ensures.bind (first p) ?_
  intro a q told
  refine Ensures.bind (expectAndNext_ensures type q) ?_
  intro found q' told'
  cases found with
  | false =>
      apply Ensures.pure
      cases a with
      | none => exact Nat.lt_trans told told'
      | some a => rwa [show q.errors = p.errors from told] at told'
  | true =>
      apply Ensures.pure
      rwa [← show q'.errors = q.errors from told'] at told

end Rules

/-! ## Expressions -/

theorem expressions_tell (n : Nat) : Tells (parseExpressionWithin n) ∧
    Tells (parsePrimaryExpression n) ∧
    ∀ precedence left, Tells (parseBinaryExpression n precedence left) := by
  induction n with
  | zero => exact ⟨tells_throw _, tells_throw _, fun _ _ => tells_throw _⟩
  | succ n ih =>
      obtain ⟨expression, primary, binary⟩ := ih
      refine ⟨?_, ?_, ?_⟩
      · exact primary.bind rfl fun left => binary 0 left
      · apply Tells.get
        intro p
        dsimp only
        cases p.currentToken.type
        case IDENTIFIER | NUMBER | STRING | ASTERISK => exact .next (.some _)
        case LPAREN => exact .next (expression.close .RPAREN)
        all_goals exact tells_fail _
      · intro precedence left
        apply Tells.get
        intro p
        apply Tells.ite
        · exact .some left
        · apply Tells.next
          refine primary.bind rfl ?_
          intro right
          apply Tells.get
          intro q
          apply Tells.ite
          · exact (binary _ right).bind rfl fun right => binary precedence _
          · exact binary precedence _

theorem parseExpression_tells : Tells parseExpression :=
  .get fun p => (expressions_tell p.bound).1

theorem parseExpressions_tells (n : Nat) : Tells (parseExpressions n) := by
  induction n with
  | zero => exact tells_throw _
  | succ n ih =>
      refine parseExpression_tells.bind rfl ?_
      intro expr
      apply Tells.get
      intro p
      apply Tells.ite
      · exact .some _
      · exact .next (ih.map _)

/-! ## Statements -/

theorem parseSelectStatement_tells : Tells parseSelectStatement := by
  have columns : Tells parseColumns := by
    apply Tells.get
    intro p
    apply Tells.ite
    · exact .next (.some _)
    · exact .get fun p => parseExpressions_tells p.bound
  have table : Tells parseFrom := by
    apply Tells.get
    intro p
    apply Tells.ite
    · exact .next (.get fun q => .ite (tells_fail _) (.next (.some _)))
    · exact .some _
  have condition : Tells parseWhere := by
    apply Tells.get
    intro p
    apply Tells.ite
    · exact .next (parseExpression_tells.map _)
    · exact .some _
  have number : Tells parseLimit := by
    apply Tells.get
    intro p
    apply Tells.ite
    · apply Tells.next
      apply Tells.get
      intro q
      apply Tells.ite
      · exact tells_fail _
      · split
        · exact tells_throw _
        · exact .next (.some _)
    · exact .some _
  apply Tells.expect rfl
  refine columns.bind rfl ?_
  intro columns
  refine table.bind rfl ?_
  intro tableName
  refine condition.bind rfl ?_
  intro whereClause
  refine number.bind rfl ?_
  intro limit
  exact .some _

theorem parseColumnNames_tells (n : Nat) : Tells (parseColumnNames n) := by
  induction n with
  | zero => exact tells_throw _
  | succ n ih =>
      apply Tells.get
      intro p
      apply Tells.ite
      · exact tells_fail _
      · exact .next (.get fun q => .ite (.some _) (.next (ih.map _)))

theorem parseInsertStatement_tells : Tells parseInsertStatement := by
  have columns : Tells parseColumnList := by
    apply Tells.get
    intro p
    apply Tells.ite
    · apply Tells.next
      apply Tells.get
      intro q
      refine (parseColumnNames_tells q.bound).bind rfl ?_
      exact fun columns => .expect rfl (.some columns)
    · exact .some _
  apply Tells.expect rfl
  apply Tells.expect rfl
  apply Tells.get
  intro p
  apply Tells.ite
  · exact tells_fail _
  · apply Tells.next
    refine columns.bind rfl ?_
    intro columns
    apply Tells.expect rfl
    apply Tells.expect rfl
    apply Tells.get
    intro q
    refine (parseExpressions_tells q.bound).bind rfl ?_
    exact fun values => .expect rfl (.some _)

theorem parseConstraints_silent (n : Nat) (col : ColumnDefinition) :
    Silent (parseConstraints n col) := by
  induction n generalizing col with
  | zero => exact fun _ => ensures_throw _
  | succ n ih =>
      apply silent_get.bind
      intro p
      dsimp only
      split
      · apply silent_nextToken.bind
        intro _
        apply silent_get.bind
        intro q
        split
        · exact silent_nextToken.bind fun _ => ih _
        · exact ih _
      · apply silent_nextToken.bind
        intro _
        apply silent_get.bind
        intro q
        split
        · exact silent_nextToken.bind fun _ => ih _
        · exact ih _
      · exact silent_nextToken.bind fun _ => ih _
      · exact silent_nextToken.bind fun _ => silent_get.bind fun _ =>
          silent_nextToken.bind fun _ => ih _
      · exact silent_pure col

theorem parseColumnDefinitions_tells (n : Nat) : Tells (parseColumnDefinitions n) := by
  induction n with
  | zero => exact tells_throw _
  | succ n ih =>
      apply Tells.get
      intro p
      apply Tells.ite
      · exact .some _
      · apply Tells.ite
        · exact tells_fail _
        · apply Tells.next
          apply Tells.get
          intro q
          apply Tells.next
          apply Tells.get
          intro r
          apply Tells.after (parseConstraints_silent _ _)
          intro col
          exact .get fun s => .ite (.next (ih.map _)) (.some _)

theorem parseCreateTableStatement_tells : Tells parseCreateTableStatement := by
  apply Tells.expect rfl
  apply Tells.expect rfl
  apply Tells.get
  intro p
  apply Tells.ite
  · exact tells_fail _
  · apply Tells.next
    apply Tells.expect rfl
    apply Tells.get
    intro q
    refine (parseColumnDefinitions_tells q.bound).bind rfl ?_
    exact fun columns => .expect rfl (.some _)

theorem parseName_tells (message : String) : Tells (parseName message) :=
  .get fun _ => .ite (tells_fail _) (.next (.some _))

theorem parseDropTableStatement_tells : Tells parseDropTableStatement :=
  .expect rfl (.expect rfl (parseName_tells _))

theorem parseShowStatement_tells : Tells parseShowStatement := by
  apply Tells.expect rfl
  apply Tells.get
  intro p
  split
  · exact .next (.some _)
  · exact .next (.some _)
  · exact tells_fail _

theorem parseUseStatement_tells : Tells parseUseStatement :=
  .expect rfl (parseName_tells _)

/-! ## The three outcomes of `parse` -/

/-- Only in front of the end of the text is null returned without an error. -/
theorem parseHere_ensures (q : Parser) : Ensures parseHere q fun stmt q' =>
    if q.currentToken.type = .EOF_TOKEN then stmt = none ∧ q'.errors = q.errors
    else if stmt.isSome then q'.errors = q.errors else q.errors.length < q'.errors.length := by
  apply Ensures.get
  dsimp only
  cases type : q.currentToken.type
  case EOF_TOKEN => exact .pure ⟨rfl, rfl⟩
  case SELECT => exact parseSelectStatement_tells.map Statement.select q
  case INSERT => exact parseInsertStatement_tells.map Statement.insert q
  case CREATE => exact parseCreateTableStatement_tells.map Statement.createTable q
  case DROP => exact parseDropTableStatement_tells.map Statement.dropTable q
  case SHOW => exact parseShowStatement_tells q
  case USE => exact parseUseStatement_tells.map Statement.useDatabase q
  all_goals exact tells_fail _ q

/-- The tokens of the text are semicolons, and perhaps there is none. -/
def Blank (input : Bytes) : Prop := ∀ t ∈ (Lexer.create input).tokens, t.type = .SEMICOLON

theorem blank_iff (input : Bytes) : Blank input ↔ statementTokens input = [] := by
  simp [Blank, statementTokens, List.dropWhile_eq_nil_iff]

/-- Null and an error, a statement and no error, or nothing at all in the text. -/
def Exclusive (input : Bytes) (stmt : Option Statement) (errors : List Bytes) : Prop :=
  (stmt = none ∧ errors ≠ []) ∨ ((∃ s, stmt = some s) ∧ errors = []) ∨
    (stmt = none ∧ errors = [] ∧ Blank input)

theorem parse_exclusive {input : Bytes} {stmt : Option Statement} {p : Parser}
    (ran : parse.run (create input) = .ok stmt p) : Exclusive input stmt p.errors := by
  obtain ⟨q, same, reads, fresh⟩ := parse_run input
  have told := parseHere_ensures q stmt p (same.symm.trans ran)
  rw [fresh, reads.type] at told
  by_cases done : (front (statementTokens input)).type = .EOF_TOKEN
  · rw [if_pos done] at told
    obtain ⟨rfl, none⟩ := told
    refine .inr (.inr ⟨rfl, none, (blank_iff input).mpr ?_⟩)
    cases tokens : statementTokens input with
    | nil => rfl
    | cons t ts =>
        have member : t ∈ statementTokens input := by simp [tokens]
        rw [tokens] at done
        exact absurd done (Lexer.tokens_ne_eof _ t ((List.dropWhile_sublist _).mem member))
  · rw [if_neg done] at told
    cases stmt with
    | none => exact .inl ⟨rfl, List.length_pos_iff.mp told⟩
    | some s => exact .inr (.inl ⟨⟨s, rfl⟩, told⟩)

end TinySql.Parser
