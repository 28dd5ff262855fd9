import TinySql.Lib.Precedence
import TinySql.Sql.ParserSoundness
import TinySql.Sql.Termination

/-!
# Binary expressions

`parseBinaryExpression` climbs precedences over its tokens, as long as its minimum precedence is at
least 1.
-/

namespace TinySql.Parser
open Precedence

attribute [local irreducible] Lexer.nextToken

/-- A token that `parsePrimaryExpression` takes for an operand of its own. -/
structure Operand where
  token : Token
  kind : token.type = .IDENTIFIER ∨ token.type = .NUMBER ∨ token.type = .STRING

structure Operator where
  token : Token
  known : 0 < getPrecedence token.type

def Operand.expression (x : Operand) : Expression :=
  match x.token.type with
  | .NUMBER => .numberLiteral x.token.literal
  | .STRING => .stringLiteral x.token.literal
  | _ => .identifier x.token.literal

def Operator.precedence (op : Operator) : Nat := getPrecedence op.token.type

/-- The tree with the texts of its tokens. -/
def treeExpression : Tree Operand Operator → Expression
  | .leaf x => x.expression
  | .node left op right => .binary (treeExpression left) op.token.literal (treeExpression right)

def stream (steps : List (Operator × Operand)) : List Token :=
  steps.flatMap fun s => [s.1.token, s.2.token]

section Climbing
variable {ts behind : List Token} {q : Parser} {x : Operand} {op : Operator} {n p : Nat}
  {left tree : Tree Operand Operator} {steps rest : List (Operator × Operand)}

theorem parsePrimary_operand (reads : Reads (x.token :: ts) q) :
    Reaches (parsePrimaryExpression (n + 1)) q (some x.expression) ts := by
  have next : Reads ts q.next := reads.next
  rw [parsePrimaryExpression]
  apply Reaches.get
  dsimp only
  rw [reads.current, Operand.expression]
  rcases x.kind with type | type | type
  · rw [type]
    apply Reaches.next
    exact .pure next
  · rw [type]
    apply Reaches.next
    exact .pure next
  · rw [type]
    apply Reaches.next
    exact .pure next

/-- What the parser sees at the head of the steps that are left. -/
theorem precedence_ahead (reads : Reads (stream steps ++ behind) q)
    (stops : ∀ t ∈ behind.head?, getPrecedence t.type = 0) :
    (∃ s ∈ steps.head?, getPrecedence q.currentToken.type = s.1.precedence) ∨
      steps = [] ∧ getPrecedence q.currentToken.type = 0 := by
  cases steps with
  | cons s steps =>
      left
      have current : q.currentToken = s.1.token := reads.current
      refine ⟨s, rfl, ?_⟩
      rw [current]
      rfl
  | nil =>
      right
      refine ⟨rfl, ?_⟩
      cases behind with
      | nil =>
          have eof : q.currentToken.type = .EOF_TOKEN := reads.eof
          rw [eof]
          rfl
      | cons t behind =>
          have current : q.currentToken = t := reads.current
          rw [current]
          exact stops t rfl

theorem precedence_lt_iff (reads : Reads (stream steps ++ behind) q)
    (stops : ∀ t ∈ behind.head?, getPrecedence t.type = 0) (positive : 0 < n) :
    getPrecedence q.currentToken.type < n ↔ ∀ s ∈ steps.head?, s.1.precedence < n := by
  rcases precedence_ahead reads stops with ⟨s, head, here⟩ | ⟨rfl, zero⟩
  · rw [here]
    constructor
    · intro lower s' head'
      obtain rfl := Option.mem_unique head head'
      exact lower
    · exact fun lower => lower s head
  · rw [zero]
    refine iff_of_true positive ?_
    intro s head
    cases head

/-- One turn of the loop takes an operator and its right operand, and then goes on to the left or,
at a tighter operator, into the right. -/
theorem parseBinary_round {left : Expression} {a : Option Expression} {ts : List Token}
    (here : p ≤ op.precedence) (reads : Reads (stream ((op, x) :: steps) ++ behind) q)
    (looser : ∀ q', Reads (stream steps ++ behind) q' →
      getPrecedence q'.currentToken.type < op.precedence + 1 →
      Reaches (parseBinaryExpression (n + 1) p (.binary left op.token.literal x.expression)) q' a ts)
    (tighter : ∀ q', Reads (stream steps ++ behind) q' →
      op.precedence < getPrecedence q'.currentToken.type → ∃ right between,
        Reaches (parseBinaryExpression (n + 1) (op.precedence + 1) x.expression) q' (some right)
          between ∧
        ∀ q'', Reads between q'' →
          Reaches (parseBinaryExpression (n + 1) p (.binary left op.token.literal right)) q'' a ts) :
    Reaches (parseBinaryExpression (n + 2) p left) q a ts := by
  have current : q.currentToken = op.token := reads.current
  have high : ¬ getPrecedence op.token.type < p := Nat.not_lt.mpr here
  rw [parseBinaryExpression]
  apply Reaches.get
  dsimp only
  rw [current, if_neg high]
  apply Reaches.next
  apply (parsePrimary_operand reads.next).bind
  intro q' reads'
  apply Reaches.get
  dsimp only
  by_cases next : getPrecedence op.token.type < getPrecedence q'.currentToken.type
  · rw [if_pos next]
    obtain ⟨right, between, inner, later⟩ := tighter q' reads' next
    exact inner.bind later
  · rw [if_neg next]
    exact looser q' reads' (Nat.lt_succ_of_le (Nat.not_lt.mp next))

theorem parseBinary_climbs (climbs : Climbs Operator.precedence p left steps tree rest)
    (positive : 0 < p) (stops : ∀ t ∈ behind.head?, getPrecedence t.type = 0)
    (reads : Reads (stream steps ++ behind) q) (enough : steps.length < n) :
    Reaches (parseBinaryExpression n p (treeExpression left)) q (some (treeExpression tree))
      (stream rest ++ behind) := by
  induction climbs generalizing n q with
  | stop ends =>
      obtain ⟨n, rfl⟩ := Nat.exists_eq_succ_of_ne_zero (Nat.ne_zero_of_lt enough)
      rw [parseBinaryExpression]
      apply Reaches.get
      dsimp only
      rw [if_pos ((precedence_lt_iff reads stops positive).mpr ends)]
      exact .pure reads
  | @turn p left tree op x steps rest here next later ih =>
      obtain ⟨n, rfl⟩ := Nat.exists_eq_succ_of_ne_zero (Nat.ne_zero_of_lt enough)
      have fewer : steps.length < n := Nat.lt_of_succ_lt_succ enough
      obtain ⟨k, rfl⟩ := Nat.exists_eq_succ_of_ne_zero (Nat.ne_zero_of_lt fewer)
      apply parseBinary_round here reads
      · exact fun q' reads' _ => ih positive reads' fewer
      · intro q' reads' higher
        have lower : getPrecedence q'.currentToken.type < op.precedence + 1 :=
          (precedence_lt_iff reads' stops (Nat.succ_pos _)).mpr fun s head =>
            Nat.lt_succ_of_le (next s head)
        exact absurd higher (Nat.not_lt.mpr (Nat.le_of_lt_succ lower))
  | @tighter p left right tree op x steps between rest s here head next inner later ihInner ih =>
      obtain ⟨n, rfl⟩ := Nat.exists_eq_succ_of_ne_zero (Nat.ne_zero_of_lt enough)
      have fewer : steps.length < n := Nat.lt_of_succ_lt_succ enough
      obtain ⟨k, rfl⟩ := Nat.exists_eq_succ_of_ne_zero (Nat.ne_zero_of_lt fewer)
      apply parseBinary_round here reads
      · intro q' reads' lower
        have lower := (precedence_lt_iff reads' stops (Nat.succ_pos _)).mp lower s head
        exact absurd next (Nat.not_lt.mpr (Nat.le_of_lt_succ lower))
      · intro q' reads' _
        refine ⟨_, _, ihInner (Nat.succ_pos _) reads' fewer, fun q'' reads'' => ?_⟩
        exact ih positive reads'' (inner.length_le.trans_lt fewer)

end Climbing

/-- At a minimum precedence of at least 1, the operators before the first one below it become the
one tree that groups them by their precedence. -/
theorem parseBinaryExpression_groups {p n : Nat} {x : Operand} {steps : List (Operator × Operand)}
    {behind : List Token} {q : Parser} (positive : 0 < p)
    (stops : ∀ t ∈ behind.head?, getPrecedence t.type = 0)
    (reads : Reads (stream steps ++ behind) q) (enough : steps.length < n) :
    ∃ tree : Tree Operand Operator,
      (∀ tree', IsGrouping Operator.precedence x (steps.takeWhile fun s => p ≤ s.1.precedence) tree' ↔
        tree' = tree) ∧
      Reaches (parseBinaryExpression n p x.expression) q (some (treeExpression tree))
        (stream (steps.dropWhile fun s => p ≤ s.1.precedence) ++ behind) := by
  obtain ⟨tree, grouping, climbs⟩ := exists_climbs Operator.precedence p x steps
  refine ⟨tree, ?_, parseBinary_climbs climbs positive stops reads enough⟩
  intro tree'
  constructor
  · exact grouping.unique
  · rintro rfl
    exact grouping

theorem reads_of_tokenize {n : Nat} {input : Bytes} {ts : List Token} {eof : Token}
    (ran : Lexer.tokenizeWithin n (Lexer.create input) = some (ts ++ [eof])) :
    Reads ts (create input) := by
  obtain ⟨last, same⟩ := Lexer.tokens_of_tokenize ran
  exact ⟨_, [], create_standing input, (List.append_inj_left' same rfl).symm⟩

def sumText : Bytes := ascii "+ b * c OR 1;"

def sumSteps : List (Operator × Operand) := [
  (⟨⟨.PLUS, ascii "+", 1, 1⟩, by decide⟩, ⟨⟨.IDENTIFIER, ascii "b", 1, 3⟩, by decide⟩),
  (⟨⟨.ASTERISK, ascii "*", 1, 5⟩, by decide⟩, ⟨⟨.IDENTIFIER, ascii "c", 1, 7⟩, by decide⟩),
  (⟨⟨.OR, ascii "OR", 1, 9⟩, by decide⟩, ⟨⟨.NUMBER, ascii "1", 1, 12⟩, by decide⟩)]

def sumStart : Operand := ⟨⟨.IDENTIFIER, ascii "a", 0, 0⟩, by decide⟩

theorem sum_groups : ∃ tree : Tree Operand Operator,
    (∀ tree', IsGrouping Operator.precedence sumStart
      (sumSteps.takeWhile fun s => 2 ≤ s.1.precedence) tree' ↔ tree' = tree) ∧
    Reaches (parseBinaryExpression 4 2 sumStart.expression) (create sumText)
      (some (treeExpression tree))
      (stream (sumSteps.dropWhile fun s => 2 ≤ s.1.precedence) ++ [⟨.SEMICOLON, ascii ";", 1, 13⟩]) := by
  have ran : Lexer.tokenizeWithin 9 (Lexer.create sumText) =
      some ((stream sumSteps ++ [⟨.SEMICOLON, ascii ";", 1, 13⟩]) ++ [⟨.EOF_TOKEN, [], 1, 14⟩]) := by
    decide +kernel
  have reads := reads_of_tokenize ran
  have stops : ∀ t ∈ [(⟨.SEMICOLON, ascii ";", 1, 13⟩ : Token)].head?, getPrecedence t.type = 0 := by
    rintro t ⟨⟩
    rfl
  have enough : sumSteps.length < 4 := by decide
  exact parseBinaryExpression_groups (by decide) stops reads enough

end TinySql.Parser
