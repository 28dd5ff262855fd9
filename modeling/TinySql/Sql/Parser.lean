import TinySql.Sql.Ast
import TinySql.Sql.Lexer

/-!
# `Parser`

Recursive descent over the current token and the next one. A parser that returns null has, in most
cases, recorded an error; the loops and the recursion are bounded by the input that is left.
-/

namespace TinySql

structure Parser where
  lexer : Lexer
  currentToken : Token
  peekToken : Token
  errors : List Bytes

/-- A parsing function: what it has read when it throws stays read. -/
abbrev ParserM := EStateM Exn Parser

namespace Parser

def next (p : Parser) : Parser :=
  let (token, lexer) := p.lexer.nextToken
  { p with lexer := lexer, currentToken := p.peekToken, peekToken := token }

/-- `Parser(const std::string& input)`, which reads two tokens. -/
def create (input : Bytes) : Parser := (Parser.mk (Lexer.create input) {} {} []).next.next

def nextToken : ParserM Unit := modify next

def addError (message : Bytes) : ParserM Unit :=
  modify fun p =>
    { p with
      errors := p.errors ++ [ascii "Parse error at line " ++ natToString p.currentToken.line ++
        ascii ", column " ++ natToString p.currentToken.column ++ ascii ": " ++ message] }

def fail {α : Type} (message : Bytes) : ParserM (Option α) := do
  addError message
  return none

/-- `expectAndNext`: whether the current token is of the type; if it is, move on. -/
def expectAndNext (type : TokenType) : ParserM Bool := do
  let token := (← get).currentToken
  if token.type ≠ type then
    addError (ascii "Expected " ++ ascii (tokenTypeToString type) ++ ascii ", got " ++ token.literal)
    return false
  else
    nextToken
    return true

def getPrecedence : TokenType → Nat
  | .OR => 1
  | .AND => 2
  | .EQ | .NE | .LT | .LE | .GT | .GE => 3
  | .PLUS | .MINUS => 4
  | .ASTERISK | .SLASH | .PERCENT => 5
  | _ => 0

def bound (p : Parser) : Nat := 2 * p.lexer.rest.length + 6

/-! ## Expressions -/

mutual

def parseExpressionWithin : Nat → ParserM (Option Expression)
  | 0 => throw .outOfFuel
  | n + 1 => do
      match ← parsePrimaryExpression n with
      | none => return none
      | some left => parseBinaryExpression n 0 left

def parsePrimaryExpression : Nat → ParserM (Option Expression)
  | 0 => throw .outOfFuel
  | n + 1 => do
      let token := (← get).currentToken
      match token.type with
      | .IDENTIFIER =>
          nextToken
          return some (.identifier token.literal)
      | .NUMBER =>
          nextToken
          return some (.numberLiteral token.literal)
      | .STRING =>
          nextToken
          return some (.stringLiteral token.literal)
      | .ASTERISK =>
          nextToken
          return some (.identifier (ascii "*"))
      | .LPAREN =>
          nextToken
          let expr ← parseExpressionWithin n
          if ← expectAndNext .RPAREN then return expr else return none
      | _ => fail (ascii "Unexpected token in expression: " ++ token.literal)

/-- `parseBinaryExpression`, one turn of its loop at a time. -/
def parseBinaryExpression : Nat → Nat → Expression → ParserM (Option Expression)
  | 0, _, _ => throw .outOfFuel
  | n + 1, precedence, left => do
      let token := (← get).currentToken
      let currentPrecedence := getPrecedence token.type
      if currentPrecedence < precedence then return some left
      nextToken
      match ← parsePrimaryExpression n with
      | none => return none
      | some right =>
          let nextPrecedence := getPrecedence (← get).currentToken.type
          if currentPrecedence < nextPrecedence then
            match ← parseBinaryExpression n (currentPrecedence + 1) right with
            | none => return none
            | some right => parseBinaryExpression n precedence (.binary left token.literal right)
          else parseBinaryExpression n precedence (.binary left token.literal right)

end

def parseExpression : ParserM (Option Expression) := do
  parseExpressionWithin (← get).bound

def parseExpressions : Nat → ParserM (Option (List Expression))
  | 0 => throw .outOfFuel
  | n + 1 => do
      match ← parseExpression with
      | none => return none
      | some expr =>
          if (← get).currentToken.type ≠ .COMMA then return some [expr]
          nextToken
          return (← parseExpressions n).map (expr :: ·)

/-! ## SELECT -/

def parseColumns : ParserM (Option (List Expression)) := do
  if (← get).currentToken.type = .ASTERISK then
    nextToken
    return some [.identifier (ascii "*")]
  else parseExpressions (← get).bound

/-- The FROM clause: the name of a table, empty when there is no such clause. -/
def parseFrom : ParserM (Option Bytes) := do
  if (← get).currentToken.type = .FROM then
    nextToken
    let token := (← get).currentToken
    if token.type ≠ .IDENTIFIER then fail (ascii "Expected table name after FROM")
    else
      nextToken
      return some token.literal
  else return some []

def parseWhere : ParserM (Option (Option Expression)) := do
  if (← get).currentToken.type = .WHERE then
    nextToken
    return (← parseExpression).map some
  else return some none

/-- The LIMIT clause; `std::stoi` may throw. -/
def parseLimit : ParserM (Option Int32) := do
  if (← get).currentToken.type = .LIMIT then
    nextToken
    let token := (← get).currentToken
    if token.type ≠ .NUMBER then fail (ascii "Expected number after LIMIT")
    else
      match stoi token.literal with
      | .error e => throw e
      | .ok limit =>
          nextToken
          return some limit
  else return some (-1)

def parseSelectStatement : ParserM (Option SelectStatement) := do
  if !(← expectAndNext .SELECT) then return none
  let some columns ← parseColumns | return none
  let some tableName ← parseFrom | return none
  let some whereClause ← parseWhere | return none
  let some limit ← parseLimit | return none
  return some { columns := columns, tableName := tableName, whereClause := whereClause,
                limit := limit }

/-! ## INSERT -/

def parseColumnNames : Nat → ParserM (Option (List Bytes))
  | 0 => throw .outOfFuel
  | n + 1 => do
      let token := (← get).currentToken
      if token.type ≠ .IDENTIFIER then fail (ascii "Expected column name")
      else
        nextToken
        if (← get).currentToken.type ≠ .COMMA then return some [token.literal]
        nextToken
        return (← parseColumnNames n).map (token.literal :: ·)

/-- The column names in parentheses, none when there is no such list. -/
def parseColumnList : ParserM (Option (List Bytes)) := do
  if (← get).currentToken.type = .LPAREN then
    nextToken
    let some columns ← parseColumnNames (← get).bound | return none
    if ← expectAndNext .RPAREN then return some columns else return none
  else return some []

def parseInsertStatement : ParserM (Option InsertStatement) := do
  if !(← expectAndNext .INSERT) then return none
  if !(← expectAndNext .INTO) then return none
  let token := (← get).currentToken
  if token.type ≠ .IDENTIFIER then fail (ascii "Expected table name after INTO")
  else
    nextToken
    let some columns ← parseColumnList | return none
    if !(← expectAndNext .VALUES) then return none
    if !(← expectAndNext .LPAREN) then return none
    let some values ← parseExpressions (← get).bound | return none
    if !(← expectAndNext .RPAREN) then return none
    return some ⟨token.literal, columns, values⟩

/-! ## CREATE TABLE -/

/-- The constraints behind a column's type, in any order. -/
def parseConstraints : Nat → ColumnDefinition → ParserM ColumnDefinition
  | 0, _ => throw .outOfFuel
  | n + 1, col => do
      match (← get).currentToken.type with
      | .PRIMARY =>
          nextToken
          if (← get).currentToken.type = .KEY then
            nextToken
            parseConstraints n { col with primaryKey := true }
          else parseConstraints n col
      | .NOT =>
          nextToken
          if (← get).currentToken.type = .NULL_TOKEN then
            nextToken
            parseConstraints n { col with notNull := true }
          else parseConstraints n col
      | .AUTO_INCREMENT =>
          nextToken
          parseConstraints n { col with autoIncrement := true }
      | .DEFAULT =>
          nextToken
          let token := (← get).currentToken
          nextToken
          parseConstraints n { col with defaultValue := token.literal }
      | _ => return col

/-- The column definitions up to the closing parenthesis. -/
def parseColumnDefinitions : Nat → ParserM (Option (List ColumnDefinition))
  | 0 => throw .outOfFuel
  | n + 1 => do
      let token := (← get).currentToken
      if token.type = .RPAREN then return some []
      else if token.type ≠ .IDENTIFIER then fail (ascii "Expected column name")
      else
        nextToken
        let type := (← get).currentToken.literal
        nextToken
        let col ← parseConstraints (← get).bound { name := token.literal, type := type }
        if (← get).currentToken.type = .COMMA then
          nextToken
          return (← parseColumnDefinitions n).map (col :: ·)
        else return some [col]

def parseCreateTableStatement : ParserM (Option CreateTableStatement) := do
  if !(← expectAndNext .CREATE) then return none
  if !(← expectAndNext .TABLE) then return none
  let token := (← get).currentToken
  if token.type ≠ .IDENTIFIER then fail (ascii "Expected table name")
  else
    nextToken
    if !(← expectAndNext .LPAREN) then return none
    let some columns ← parseColumnDefinitions (← get).bound | return none
    if !(← expectAndNext .RPAREN) then return none
    return some ⟨token.literal, columns⟩

/-! ## The other statements -/

def parseName (message : String) : ParserM (Option Bytes) := do
  let token := (← get).currentToken
  if token.type ≠ .IDENTIFIER then fail (ascii message)
  else
    nextToken
    return some token.literal

/-- `parseDropTableStatement`: the name of the table. -/
def parseDropTableStatement : ParserM (Option Bytes) := do
  if !(← expectAndNext .DROP) then return none
  if !(← expectAndNext .TABLE) then return none
  parseName "Expected table name"

def parseShowStatement : ParserM (Option Statement) := do
  if !(← expectAndNext .SHOW) then return none
  match (← get).currentToken.type with
  | .TABLES =>
      nextToken
      return some .showTables
  | .DATABASES =>
      nextToken
      return some .showDatabases
  | _ => fail (ascii "Unexpected token after SHOW")

/-- `parseUseStatement`: the name of the database. -/
def parseUseStatement : ParserM (Option Bytes) := do
  if !(← expectAndNext .USE) then return none
  parseName "Expected database name"

def skipSemicolons : Nat → ParserM Unit
  | 0 => throw .outOfFuel
  | n + 1 => do
      if (← get).currentToken.type = .SEMICOLON then
        nextToken
        skipSemicolons n

def parse : ParserM (Option Statement) := do
  modify fun p => { p with errors := [] }
  skipSemicolons (← get).bound
  let token := (← get).currentToken
  match token.type with
  | .EOF_TOKEN => return none
  | .SELECT => return (← parseSelectStatement).map .select
  | .INSERT => return (← parseInsertStatement).map .insert
  | .CREATE => return (← parseCreateTableStatement).map .createTable
  | .DROP => return (← parseDropTableStatement).map .dropTable
  | .SHOW => parseShowStatement
  | .USE => return (← parseUseStatement).map .useDatabase
  | _ => fail (ascii "Unexpected token: " ++ token.literal)

end Parser

/-- A `Parser` on a text, run once: the statement and the recorded errors, or what it throws. -/
def parseQuery (input : Bytes) : Except Exn (Option Statement × List Bytes) :=
  match Parser.parse.run (Parser.create input) with
  | .ok stmt p => .ok (stmt, p.errors)
  | .error e _ => .error e

end TinySql
