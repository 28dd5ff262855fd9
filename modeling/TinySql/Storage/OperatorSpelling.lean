import TinySql.Sql.ParserSoundness
import TinySql.Sql.RoundTrip
import TinySql.Storage.WhereSafety
import Mathlib.Data.Tree.Basic

/-!
# How operators are spelled

The lexer gives one type of token to all spellings of an operator. The tree keeps the spelling, and
the evaluator knows one of them for each type.
-/

namespace TinySql
open ExpressionEvaluator

/-! ## Trees with the operators that the lexer read -/

/-- The spelling of an operator that the evaluator compares with. -/
def canonicalSpelling : TokenType → Option Bytes
  | .AND => some (ascii "AND")
  | .OR => some (ascii "OR")
  | .EQ => some (ascii "=")
  | .NE => some (ascii "!=")
  | .LT => some (ascii "<")
  | .LE => some (ascii "<=")
  | .GT => some (ascii ">")
  | .GE => some (ascii ">=")
  | _ => none

structure LexedToken where
  token : Token
  lexed : ∃ l : Lexer, l.nextToken.1 = token

namespace LexedToken

/-- The type is that of a logical operator or a comparison. -/
def Known (op : LexedToken) : Prop := canonicalSpelling op.token.type ≠ none

/-- The canonical spelling; other operators stay as they are. -/
def canonical (op : LexedToken) : Bytes := (canonicalSpelling op.token.type).getD op.token.literal

def Canonical (op : LexedToken) : Prop := op.token.literal = op.canonical

end LexedToken

/-- A condition whose operators are tokens. -/
inductive WhereTree where
  | identifier (name : Bytes)
  | number (value : Bytes)
  | string (value : Bytes)
  | binary (left : WhereTree) (op : LexedToken) (right : WhereTree)

namespace WhereTree

def asLexed : WhereTree → Expression
  | identifier name => .identifier name
  | number value => .numberLiteral value
  | string value => .stringLiteral value
  | binary left op right => .binary left.asLexed op.token.literal right.asLexed

def canonical : WhereTree → Expression
  | identifier name => .identifier name
  | number value => .numberLiteral value
  | string value => .stringLiteral value
  | binary left op right => .binary left.canonical op.canonical right.canonical

/-- The operators where they stand, without their operands. -/
def operators : WhereTree → BinaryTree LexedToken
  | binary left op right => .node op left.operators right.operators
  | _ => .nil

def All (P : LexedToken → Prop) : WhereTree → Prop
  | binary left op right => left.All P ∧ P op ∧ right.All P
  | _ => True

theorem canonical_of_all {tree : WhereTree} (all : tree.All LexedToken.Canonical) :
    tree.asLexed = tree.canonical := by
  induction tree with
  | identifier | number | string => rfl
  | binary left op right ihLeft ihRight =>
      obtain ⟨isLeft, same, isRight⟩ := all
      rw [asLexed, canonical, ihLeft isLeft, ihRight isRight, same]

theorem all_of_operators {P : LexedToken → Prop} {tree tree' : WhereTree}
    (same : tree'.operators = tree.operators) (all : tree.All P) : tree'.All P := by
  induction tree generalizing tree' with
  | identifier | number | string => cases tree' <;> trivial
  | binary left op right ihLeft ihRight =>
      cases tree' with
      | identifier | number | string => trivial
      | binary left' op' right' =>
          obtain ⟨isLeft, here, isRight⟩ := all
          obtain ⟨rfl, left, right⟩ := BinaryTree.node.inj same
          exact ⟨ihLeft left isLeft, here, ihRight right isRight⟩

end WhereTree

/-! ## What the parser builds -/

namespace Parser
open Frame

attribute [local irreducible] Lexer.nextToken

def FromTree (expr : Expression) : Prop := ∃ tree : WhereTree, tree.asLexed = expr

variable {ts : List Token} {p : Parser}

theorem Reads.lexed (reads : Reads ts p) : ∃ l : Lexer, l.nextToken.1 = p.currentToken := by
  obtain ⟨l, errors, rfl, -⟩ := reads
  exact ⟨l, rfl⟩

theorem fromTree_binary {left right : Expression} (reads : Reads ts p) (isLeft : FromTree left)
    (isRight : FromTree right) : FromTree (.binary left p.currentToken.literal right) := by
  obtain ⟨left, rfl⟩ := isLeft
  obtain ⟨right, rfl⟩ := isRight
  exact ⟨.binary left ⟨p.currentToken, reads.lexed⟩ right, rfl⟩

theorem parsePrimary_step {n : Nat} (reads : Reads ts p)
    (inside : ∀ ts p, Reads ts p →
      Builds (parseExpressionWithin n) p fun expr _ => FromTree expr) :
    Builds (parsePrimaryExpression (n + 1)) p fun expr _ => FromTree expr := by
  apply Ensures.get
  dsimp only
  cases p.currentToken.type
  case IDENTIFIER =>
    apply ensures_next
    exact builds_some reads.next ⟨.identifier p.currentToken.literal, rfl⟩
  case NUMBER =>
    apply ensures_next
    exact builds_some reads.next ⟨.number p.currentToken.literal, rfl⟩
  case STRING =>
    apply ensures_next
    exact builds_some reads.next ⟨.string p.currentToken.literal, rfl⟩
  case ASTERISK =>
    apply ensures_next
    exact builds_some reads.next ⟨.identifier (ascii "*"), rfl⟩
  case LPAREN =>
    apply ensures_next
    refine Ensures.bind (inside _ _ reads.next) ?_
    intro expr q built
    rcases expectAndNext_run .RPAREN q with ⟨-, ran⟩ | ⟨-, errors, ran⟩
    · intro a q' ran'
      rw [run_bind_ok ran] at ran'
      cases ran'
      intro x same
      obtain ⟨rest, behind, tree⟩ := built x same
      exact ⟨rest.tail, behind.next, tree⟩
    · intro a q' ran'
      rw [run_bind_ok ran] at ran'
      cases ran'
      nofun
  all_goals exact builds_fail _

/-- Operators get the text of the tokens that the lexer returned. -/
theorem expressions_fromTree (n : Nat) :
    (∀ ts p, Reads ts p → Builds (parseExpressionWithin n) p fun expr _ => FromTree expr) ∧
    (∀ ts p, Reads ts p → Builds (parsePrimaryExpression n) p fun expr _ => FromTree expr) ∧
    ∀ ts p precedence left, Reads ts p → FromTree left →
      Builds (parseBinaryExpression n precedence left) p fun expr _ => FromTree expr := by
  induction n with
  | zero =>
      refine ⟨?_, ?_, ?_⟩
      · exact fun _ _ _ => ensures_throw _
      · exact fun _ _ _ => ensures_throw _
      · exact fun _ _ _ _ _ _ => ensures_throw _
  | succ n ih =>
      obtain ⟨expression, primary, binary⟩ := ih
      refine ⟨?_, ?_, ?_⟩
      · intro ts p reads
        refine (primary ts p reads).bind rfl ?_
        intro left q rest behind tree
        exact binary rest q 0 left behind tree
      · exact fun ts p reads => parsePrimary_step reads expression
      · intro ts p precedence left reads isLeft
        apply Ensures.get
        dsimp only
        split
        · exact builds_some reads isLeft
        · apply ensures_next
          refine (primary _ _ reads.next).bind rfl ?_
          intro right q rest behind isRight
          apply Ensures.get
          dsimp only
          split
          · refine (binary rest q _ right behind isRight).bind rfl ?_
            intro right q rest behind isRight
            exact binary rest q precedence _ behind (fromTree_binary reads isLeft isRight)
          · exact binary rest q precedence _ behind (fromTree_binary reads isLeft isRight)

end Parser

/-! ## The spellings of a token -/

theorem eq_of_ofUInt8 {b : UInt8} {c : Char} (same : Char.ofUInt8 b = c) : b = c.toUInt8 := by
  rw [← same, Lexer.toUInt8_ofUInt8]

theorem eq_canonical_of_word {word spelling : Bytes} (boolean : isBooleanOperator word = true)
    (known : canonicalSpelling (lookupKeyword word) = some spelling) : word = spelling := by
  have connective (name : String)
      (here : canonicalSpelling (lookupKeyword (ascii name)) = some (ascii name))
      (known : canonicalSpelling (lookupKeyword (ascii name)) = some spelling) :
      ascii name = spelling :=
    Option.some.inj (here.symm.trans known)
  have symbol (name : String) (none : canonicalSpelling (lookupKeyword (ascii name)) = none)
      (known : canonicalSpelling (lookupKeyword (ascii name)) = some spelling) :
      ascii name = spelling := by
    rw [none] at known
    cases known
  simp only [isBooleanOperator, decide_eq_true_eq, List.mem_cons, List.not_mem_nil,
    or_false] at boolean
  rcases boolean with rfl | rfl | rfl | rfl | rfl | rfl | rfl | rfl
  · exact connective "AND" (by decide +kernel) known
  · exact connective "OR" (by decide +kernel) known
  · exact symbol "=" (by decide +kernel) known
  · exact symbol "!=" (by decide +kernel) known
  · exact symbol "<" (by decide +kernel) known
  · exact symbol ">" (by decide +kernel) known
  · exact symbol "<=" (by decide +kernel) known
  · exact symbol ">=" (by decide +kernel) known

/-- What the token at hand is to the evaluator: nothing, or an operator in its canonical spelling. -/
def Spelled (t : Token) : Prop :=
  ∀ spelling, canonicalSpelling t.type = some spelling → isBooleanOperator t.literal = true →
    t.literal = spelling

theorem tokenHere_spelled (l : Lexer) : Spelled l.tokenHere.1 := by
  have other {t : Token} (none : canonicalSpelling t.type = none) : Spelled t := by
    intro spelling known
    rw [none] at known
    cases known
  have same {t : Token} (known : canonicalSpelling t.type = some t.literal) : Spelled t :=
    fun spelling other _ => Option.some.inj (known.symm.trans other)
  have single {type : TokenType} {c : Char} (here : Char.ofUInt8 l.ch = c)
      (known : canonicalSpelling type = some [c.toUInt8]) : Spelled (l.single type).1 := by
    apply same
    rw [← eq_of_ofUInt8 here] at known
    exact known
  have pair {type : TokenType} {c d : Char} (here : Char.ofUInt8 l.ch = c)
      (sees : l.peekChar = d.toUInt8)
      (known : canonicalSpelling type = some [c.toUInt8, d.toUInt8]) : Spelled (l.pair type).1 := by
    apply same
    rw [← eq_of_ofUInt8 here, ← sees, ← Lexer.ch_readChar] at known
    exact known
  unfold Lexer.tokenHere
  split
  case h_7 here => exact single here (by decide)
  case h_8 here =>
    split
    · exact pair here ‹_› (by decide)
    · exact other rfl
  case h_9 here =>
    split
    · exact pair here ‹_› (by decide)
    · split
      · rename_i sees
        -- The type of != has a second spelling, which the evaluator does not know.
        intro spelling known boolean
        have literal : (l.pair .NE).1.literal = ascii "<>" := by
          simp only [Lexer.pair, Lexer.ch_readChar, sees, eq_of_ofUInt8 here]
          decide
        rw [literal] at boolean
        exact absurd boolean (by decide)
      · exact single here (by decide)
  case h_10 here =>
    split
    · exact pair here ‹_› (by decide)
    · exact single here (by decide)
  case h_18 =>
    split
    · intro spelling known boolean
      exact eq_canonical_of_word boolean known
    · split
      · exact other rfl
      · exact other rfl
  all_goals exact other rfl

theorem nextToken_spelled (l : Lexer) : Spelled l.nextToken.1 := by
  rw [Lexer.nextToken_eq]
  exact tokenHere_spelled _

/-- The evaluator knows no spelling of such a token but the canonical one. -/
theorem eq_canonical_of_boolean {op : LexedToken} (known : op.Known)
    (boolean : isBooleanOperator op.token.literal = true) : op.token.literal = op.canonical := by
  obtain ⟨t, l, rfl⟩ := op
  obtain ⟨spelling, known⟩ := Option.ne_none_iff_exists'.mp known
  rw [LexedToken.canonical, known]
  exact nextToken_spelled l spelling known boolean

theorem canonical_isOperatorSymbol {op : LexedToken} (known : op.Known) :
    IsOperatorSymbol op.canonical := by
  unfold LexedToken.Known at known
  unfold LexedToken.canonical
  cases type : op.token.type
  case AND => exact .and
  case OR => exact .or
  case EQ => exact .compare .equal
  case NE => exact .compare .notEqual
  case LT => exact .compare .less
  case LE => exact .compare .lessEqual
  case GT => exact .compare .greater
  case GE => exact .compare .greaterEqual
  all_goals exact absurd (by rw [type]; rfl) known

/-! ## Operands that lead to an operator -/

def truthColumns : List ColumnDef :=
  [{ name := ascii "t", type := .boolean }, { name := ascii "f", type := .boolean }]

def truthRow : Row := [.bool true, .bool false]

def truthName (b : Bool) : Bytes := if b then ascii "t" else ascii "f"

def Truthful : WhereTree → Prop
  | .identifier name => ∃ b, name = truthName b
  | .binary left _ right => Truthful left ∧ Truthful right
  | _ => False

/-- The expression is true or false, as a condition and as a value. -/
def Settles (expr : Expression) (b : Bool) : Prop :=
  evaluate truthRow truthColumns expr = .ok b ∧
    evaluateValue truthRow truthColumns expr = .ok (.bool b)

def Throws {α : Type} (r : Except Exn α) : Prop := ∃ e, r = .error e

def Fails (expr : Expression) : Prop :=
  Throws (evaluate truthRow truthColumns expr) ∧ Throws (evaluateValue truthRow truthColumns expr)

section Throws
variable {α β : Type} {r : Except Exn α}

theorem Throws.bind {f : α → Except Exn β} (throws : Throws r) : Throws (r >>= f) := by
  obtain ⟨e, rfl⟩ := throws
  exact ⟨e, rfl⟩

theorem Throws.map {f : α → β} (throws : Throws r) : Throws (f <$> r) := by
  obtain ⟨e, rfl⟩ := throws
  exact ⟨e, rfl⟩

theorem throws_or_ok (r : Except Exn α) : Throws r ∨ ∃ a, r = .ok a := by
  cases r with
  | error e => exact .inl ⟨e, rfl⟩
  | ok a => exact .inr ⟨a, rfl⟩

end Throws

section Operators
variable {op : Bytes} {left right : Unit → Except Exn Bool}
  {leftValue rightValue : Unit → Except Exn Value} {l r : Expression} {a b : Bool}

theorem settles_truthName (b : Bool) : Settles (.identifier (truthName b)) b := by
  cases b <;> exact ⟨by decide +kernel, by decide +kernel⟩

theorem exists_operands (known : IsOperatorSymbol op) (b : Bool) : ∃ x y,
    evaluateBinaryExpression op (fun _ => .ok x) (fun _ => .ok y) (fun _ => .ok (.bool x))
      (fun _ => .ok (.bool y)) = .ok b := by
  cases known with
  | and => exact ⟨b, b, by cases b <;> rfl⟩
  | or => exact ⟨b, b, by cases b <;> rfl⟩
  | compare c =>
      cases c with
      | equal => exact ⟨true, b, by cases b <;> rfl⟩
      | notEqual => exact ⟨true, !b, by cases b <;> rfl⟩
      | less => exact ⟨!b, true, by cases b <;> rfl⟩
      | greater => exact ⟨true, !b, by cases b <;> rfl⟩
      | lessEqual => exact ⟨true, b, by cases b <;> rfl⟩
      | greaterEqual => exact ⟨b, true, by cases b <;> rfl⟩

theorem settles_binary (known : IsOperatorSymbol op) {x y : Bool} (isLeft : Settles l x)
    (isRight : Settles r y)
    (result : evaluateBinaryExpression op (fun _ => .ok x) (fun _ => .ok y)
      (fun _ => .ok (.bool x)) (fun _ => .ok (.bool y)) = .ok b) : Settles (.binary l op r) b := by
  have truth : evaluate truthRow truthColumns (.binary l op r) = .ok b := by
    rw [evaluate, isLeft.1, isLeft.2, isRight.1, isRight.2, result]
  refine ⟨truth, ?_⟩
  rw [evaluateValue_binary known.boolean, truth]
  rfl

theorem exists_settles_binary (known : IsOperatorSymbol op) (isLeft : Settles l a)
    (isRight : Settles r b) : ∃ c, Settles (.binary l op r) c := by
  obtain ⟨c, result⟩ : HasValue (evaluateBinaryExpression op (fun _ => .ok a) (fun _ => .ok b)
      (fun _ => .ok (.bool a)) (fun _ => .ok (.bool b))) :=
    evaluateBinaryExpression_hasValue known ⟨a, rfl⟩ ⟨b, rfl⟩ ⟨_, rfl⟩ ⟨_, rfl⟩
  exact ⟨c, settles_binary known isLeft isRight result⟩

theorem fails_of_throws (throws : Throws (evaluate truthRow truthColumns (.binary l op r))) :
    Fails (.binary l op r) := by
  refine ⟨throws, ?_⟩
  cases boolean : isBooleanOperator op with
  | true =>
      rw [evaluateValue_binary boolean]
      exact throws.map
  | false =>
      rw [evaluateValue, if_neg (by simp [boolean])]
      exact ⟨_, rfl⟩

theorem fails_left (isLeft : Fails l) : Fails (.binary l op r) := by
  apply fails_of_throws
  rw [evaluate, evaluateBinaryExpression]
  split
  · exact isLeft.1.bind
  · split
    · exact isLeft.1.bind
    · exact isLeft.2.bind

theorem exists_left (known : IsOperatorSymbol op) :
    ∃ x, ∀ l r, Settles l x → Fails r → Fails (.binary l op r) := by
  cases known with
  | and =>
      refine ⟨true, ?_⟩
      intro l r isLeft isRight
      apply fails_of_throws
      rw [evaluate, isLeft.1]
      exact isRight.1
  | or =>
      refine ⟨false, ?_⟩
      intro l r isLeft isRight
      apply fails_of_throws
      rw [evaluate, isLeft.1]
      exact isRight.1
  | compare c =>
      refine ⟨true, ?_⟩
      intro l r isLeft isRight
      apply fails_of_throws
      rw [evaluate, evaluateBinaryExpression_symbol, isLeft.2]
      exact isRight.2.bind

theorem compareValues_unknown {u v : Value} (unknown : isBooleanOperator op = false)
    (isLeft : u.isNull = false) (isRight : v.isNull = false) : Throws (compareValues u op v) := by
  simp only [isBooleanOperator, decide_eq_false_iff_not, List.mem_cons, List.not_mem_nil, or_false,
    not_or] at unknown
  rw [compareValues, isLeft, isRight]
  simp only [unknown, if_false, Bool.or_self]
  exact ⟨_, rfl⟩

/-- An operator that the evaluator does not know throws, unless an operand is NULL. -/
theorem fails_of_unknown (unknown : isBooleanOperator op = false)
    (isLeft : ∀ u, evaluateValue truthRow truthColumns l = .ok u → u.isNull = false)
    (isRight : ∀ v, evaluateValue truthRow truthColumns r = .ok v → v.isNull = false) :
    Fails (.binary l op r) := by
  apply fails_of_throws
  have noAnd : op ≠ ascii "AND" := by
    rintro rfl
    exact absurd unknown (by decide)
  have noOr : op ≠ ascii "OR" := by
    rintro rfl
    exact absurd unknown (by decide)
  rw [evaluate, evaluateBinaryExpression, if_neg noAnd, if_neg noOr]
  rcases throws_or_ok (evaluateValue truthRow truthColumns l) with throws | ⟨u, first⟩
  · exact throws.bind
  · rw [first]
    rcases throws_or_ok (evaluateValue truthRow truthColumns r) with throws | ⟨v, second⟩
    · exact throws.bind
    · rw [second]
      exact compareValues_unknown unknown (isLeft u first) (isRight v second)

end Operators

/-! ## The tree with the operators -/

section Trees
variable {tree : WhereTree}

/-- No operand is NULL, whatever the operators are. -/
theorem value_of_truthful (truthful : Truthful tree) :
    ∀ v, evaluateValue truthRow truthColumns tree.asLexed = .ok v → v.isNull = false := by
  intro v returns
  cases tree with
  | number | string => cases truthful
  | identifier name =>
      obtain ⟨b, rfl⟩ := truthful
      rw [WhereTree.asLexed, (settles_truthName b).2] at returns
      cases returns
      rfl
  | binary left op right =>
      rw [WhereTree.asLexed, evaluateValue] at returns
      split at returns
      · obtain ⟨b, -, rfl⟩ := map_eq_ok.mp returns
        rfl
      · cases returns

theorem exists_settles (known : tree.All LexedToken.Known) (b : Bool) : ∃ tree' : WhereTree,
    tree'.operators = tree.operators ∧ Truthful tree' ∧ Settles tree'.canonical b := by
  induction tree generalizing b with
  | identifier | number | string =>
      exact ⟨.identifier (truthName b), rfl, ⟨b, rfl⟩, settles_truthName b⟩
  | binary left op right ihLeft ihRight =>
      obtain ⟨isLeft, here, isRight⟩ := known
      have symbol := canonical_isOperatorSymbol here
      obtain ⟨x, y, result⟩ := exists_operands symbol b
      obtain ⟨left', leftSame, leftTruthful, leftSettles⟩ := ihLeft isLeft x
      obtain ⟨right', rightSame, rightTruthful, rightSettles⟩ := ihRight isRight y
      refine ⟨.binary left' op right', ?_, ⟨leftTruthful, rightTruthful⟩, ?_⟩
      · rw [WhereTree.operators, WhereTree.operators, leftSame, rightSame]
      · exact settles_binary symbol leftSettles rightSettles result

/-- Another spelling makes some tree with these operators throw that is else true or false. -/
theorem exists_fails (known : tree.All LexedToken.Known) (other : ¬ tree.All LexedToken.Canonical) :
    ∃ tree' : WhereTree, tree'.operators = tree.operators ∧
      (∃ b, Settles tree'.canonical b) ∧ Fails tree'.asLexed := by
  induction tree with
  | identifier | number | string => exact absurd trivial other
  | binary left op right ihLeft ihRight =>
      obtain ⟨isLeft, here, isRight⟩ := known
      have symbol := canonical_isOperatorSymbol here
      have build {left' right' : WhereTree} {x y : Bool} (leftSame : left'.operators = left.operators)
          (rightSame : right'.operators = right.operators) (leftSettles : Settles left'.canonical x)
          (rightSettles : Settles right'.canonical y)
          (fails : Fails (WhereTree.binary left' op right').asLexed) :
          ∃ tree' : WhereTree, tree'.operators = (WhereTree.binary left op right).operators ∧
            (∃ b, Settles tree'.canonical b) ∧ Fails tree'.asLexed := by
        refine ⟨.binary left' op right', ?_, ?_, fails⟩
        · rw [WhereTree.operators, WhereTree.operators, leftSame, rightSame]
        · exact exists_settles_binary symbol leftSettles rightSettles
      by_cases leftAll : left.All LexedToken.Canonical
      · by_cases same : op.Canonical
        · have rightOther : ¬ right.All LexedToken.Canonical := fun rightAll => other ⟨leftAll, same, rightAll⟩
          obtain ⟨right', rightSame, ⟨y, rightSettles⟩, rightFails⟩ := ihRight isRight rightOther
          obtain ⟨x, goesOn⟩ := exists_left symbol
          obtain ⟨left', leftSame, -, leftSettles⟩ := exists_settles isLeft x
          have leftLexed := WhereTree.canonical_of_all (WhereTree.all_of_operators leftSame leftAll)
          apply build leftSame rightSame leftSettles rightSettles
          rw [WhereTree.asLexed, same, leftLexed]
          exact goesOn _ _ leftSettles rightFails
        · obtain ⟨left', leftSame, leftTruthful, leftSettles⟩ := exists_settles isLeft true
          obtain ⟨right', rightSame, rightTruthful, rightSettles⟩ := exists_settles isRight true
          apply build leftSame rightSame leftSettles rightSettles
          have unknown : isBooleanOperator op.token.literal = false :=
            Bool.eq_false_iff.mpr fun boolean => same (eq_canonical_of_boolean here boolean)
          exact fails_of_unknown unknown (value_of_truthful leftTruthful)
            (value_of_truthful rightTruthful)
      · obtain ⟨left', leftSame, ⟨x, leftSettles⟩, leftFails⟩ := ihLeft isLeft leftAll
        obtain ⟨right', rightSame, -, rightSettles⟩ := exists_settles isRight true
        apply build leftSame rightSame leftSettles rightSettles
        exact fails_left leftFails

end Trees

/-- Both trees match the row, or neither does, or both throw. -/
def SameResult (tree : WhereTree) : Prop :=
  ∀ (columns : List ColumnDef) (row : Row),
    (evaluate row columns tree.asLexed).toOption = (evaluate row columns tree.canonical).toOption

/-- Spelling does not matter, for all operands of the operators, exactly when every spelling is the
canonical one. -/
theorem sameResult_iff {tree : WhereTree} (known : tree.All LexedToken.Known) :
    (∀ tree' : WhereTree, tree'.operators = tree.operators → SameResult tree') ↔
      tree.All LexedToken.Canonical := by
  constructor
  · intro same
    by_contra other
    obtain ⟨tree', operators, ⟨b, settles⟩, fails⟩ := exists_fails known other
    obtain ⟨e, throws⟩ := fails.1
    have result := same tree' operators truthColumns truthRow
    rw [throws, settles.1] at result
    cases result
  · intro all tree' operators columns row
    rw [WhereTree.canonical_of_all (WhereTree.all_of_operators operators all)]

def notEqualToken : LexedToken :=
  ⟨⟨.NE, ascii "<>", 1, 1⟩, Lexer.create (ascii "<>"), by decide +kernel⟩

def notEqualTree : WhereTree :=
  .binary (.identifier (ascii "c")) notEqualToken (.number (ascii "1"))

theorem notEqual_matters :
    ¬ ∀ tree : WhereTree, tree.operators = notEqualTree.operators → SameResult tree := by
  intro same
  have isKnown : notEqualToken.Known := by
    intro unknown
    cases unknown
  have known : notEqualTree.All LexedToken.Known := ⟨trivial, isKnown, trivial⟩
  obtain ⟨-, canonical, -⟩ := (sameResult_iff known).mp same
  have other : notEqualToken.token.literal ≠ notEqualToken.canonical := by decide
  exact other canonical

/-- On a row that holds 5, `c <> 1` throws and `c != 1` matches. -/
theorem notEqual_throws : ¬ ∀ tree : WhereTree, tree.All LexedToken.Known → SameResult tree := by
  intro all
  have result := all notEqualTree ⟨trivial, nofun, trivial⟩ [{ name := ascii "c", type := .int }]
    [.int 5]
  exact absurd result (by decide +kernel)

end TinySql
