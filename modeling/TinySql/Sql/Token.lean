import TinySql.Common.Bytes

/-!
# Tokens

The types of tokens under the source's names, the keywords, and the names that error messages use.
-/

namespace TinySql

inductive TokenType where
  | EOF_TOKEN | ILLEGAL | IDENTIFIER | NUMBER | STRING | SELECT | FROM | WHERE | INSERT | INTO
  | VALUES | UPDATE | DELETE | CREATE | TABLE | DROP | ALTER | INDEX | DATABASE | USE | SHOW
  | TABLES | DATABASES | DESCRIBE | DESC | INT | INTEGER | VARCHAR | CHAR | TEXT | FLOAT | DOUBLE
  | DECIMAL | DATE | DATETIME | TIMESTAMP | BOOLEAN | BOOL | PRIMARY | KEY | FOREIGN | UNIQUE
  | NOT | NULL_TOKEN | DEFAULT | AUTO_INCREMENT | PLUS | MINUS | ASTERISK | SLASH | PERCENT | EQ
  | NE | LT | LE | GT | GE | AND | OR | COMMA | SEMICOLON | DOT | LPAREN | RPAREN | AS | LIMIT
  | OFFSET | ORDER | BY | GROUP | HAVING | JOIN | LEFT | RIGHT | INNER | OUTER | ON | DISTINCT
  | ALL | COUNT | SUM | AVG | MAX | MIN | IN | BETWEEN | LIKE | IS | ASC | ASCENDING | DESCENDING
  deriving DecidableEq, Repr

/-- `Token`; a new one is ILLEGAL. -/
structure Token where
  type : TokenType := .ILLEGAL
  literal : Bytes := []
  line : Nat := 0
  column : Nat := 0
  deriving DecidableEq, Repr

def tokenTypeToString : TokenType → String
  | .EOF_TOKEN => "EOF"
  | .ILLEGAL => "ILLEGAL"
  | .IDENTIFIER => "IDENTIFIER"
  | .NUMBER => "NUMBER"
  | .STRING => "STRING"
  | .SELECT => "SELECT"
  | .FROM => "FROM"
  | .WHERE => "WHERE"
  | .INSERT => "INSERT"
  | .INTO => "INTO"
  | .VALUES => "VALUES"
  | .UPDATE => "UPDATE"
  | .DELETE => "DELETE"
  | .CREATE => "CREATE"
  | .TABLE => "TABLE"
  | .DROP => "DROP"
  | .DATABASE => "DATABASE"
  | .USE => "USE"
  | .SHOW => "SHOW"
  | .TABLES => "TABLES"
  | .DATABASES => "DATABASES"
  | .INT => "INT"
  | .VARCHAR => "VARCHAR"
  | .ASTERISK => "*"
  | .COMMA => ","
  | .SEMICOLON => ";"
  | .LPAREN => "("
  | .RPAREN => ")"
  | .EQ => "="
  | _ => "UNKNOWN"

/-- The keywords that stand for a token type of their own. -/
def keywords : List (String × TokenType) := [
  ("SELECT", .SELECT), ("FROM", .FROM), ("WHERE", .WHERE), ("INSERT", .INSERT), ("INTO", .INTO),
  ("VALUES", .VALUES), ("UPDATE", .UPDATE), ("DELETE", .DELETE), ("CREATE", .CREATE),
  ("TABLE", .TABLE), ("DROP", .DROP), ("ALTER", .ALTER), ("INDEX", .INDEX),
  ("DATABASE", .DATABASE), ("USE", .USE), ("SHOW", .SHOW), ("TABLES", .TABLES),
  ("DATABASES", .DATABASES), ("DESCRIBE", .DESCRIBE), ("DESC", .DESC), ("INT", .INT),
  ("INTEGER", .INTEGER), ("VARCHAR", .VARCHAR), ("CHAR", .CHAR), ("TEXT", .TEXT),
  ("FLOAT", .FLOAT), ("DOUBLE", .DOUBLE), ("DECIMAL", .DECIMAL), ("DATE", .DATE),
  ("DATETIME", .DATETIME), ("TIMESTAMP", .TIMESTAMP), ("BOOLEAN", .BOOLEAN), ("BOOL", .BOOL),
  ("PRIMARY", .PRIMARY), ("KEY", .KEY), ("FOREIGN", .FOREIGN), ("UNIQUE", .UNIQUE),
  ("NOT", .NOT), ("NULL", .NULL_TOKEN), ("DEFAULT", .DEFAULT),
  ("AUTO_INCREMENT", .AUTO_INCREMENT), ("AND", .AND), ("OR", .OR), ("AS", .AS),
  ("LIMIT", .LIMIT), ("OFFSET", .OFFSET), ("ORDER", .ORDER), ("BY", .BY), ("GROUP", .GROUP),
  ("HAVING", .HAVING), ("JOIN", .JOIN), ("LEFT", .LEFT), ("RIGHT", .RIGHT), ("INNER", .INNER),
  ("OUTER", .OUTER), ("ON", .ON), ("DISTINCT", .DISTINCT), ("ALL", .ALL), ("COUNT", .COUNT),
  ("SUM", .SUM), ("AVG", .AVG), ("MAX", .MAX), ("MIN", .MIN), ("IN", .IN), ("BETWEEN", .BETWEEN),
  ("LIKE", .LIKE), ("IS", .IS), ("ASC", .ASC)]

/-- `toupper` of the C locale. -/
def toUpper (b : UInt8) : UInt8 := if 'a'.toUInt8 ≤ b && b ≤ 'z'.toUInt8 then b - 32 else b

def lookupKeyword (identifier : Bytes) : TokenType :=
  match keywords.find? fun (keyword, _) => ascii keyword == identifier.map toUpper with
  | some (_, type) => type
  | none => .IDENTIFIER

end TinySql
