import TinySql.Sql.QueryLaws

/-!
# Parsing what a statement prints

`toString` prints words with spaces in front of them, and the lexer reads each of them back.
-/

namespace TinySql.Lexer

variable {l : Lexer} {spaces word tail : Bytes}

/-! ## The tokens of words -/

def isWordChar (b : UInt8) : Bool := isLetter b || isDigit b

def isWord (word : Bytes) : Bool := word.head?.any isLetter && word.all isWordChar

theorem toUInt8_ofUInt8 (b : UInt8) : (Char.ofUInt8 b).toUInt8 = b := UInt8.toUInt8_toUInt32 b

theorem tokenHere_word (first : isWordChar l.ch = true) : l.tokenHere =
    if isLetter l.ch then
      let (text, after) := l.readIdentifier
      (⟨lookupKeyword text, text, l.line, l.column⟩, after)
    else
      let (text, after) := l.readNumber
      (⟨.NUMBER, text, l.line, l.column⟩, after) := by
  have other {c : Char} (same : Char.ofUInt8 l.ch = c) (special : isWordChar c.toUInt8 = false) :
      False := by
    rw [← same, toUInt8_ofUInt8, first] at special
    cases special
  unfold tokenHere
  split
  case h_18 =>
    split
    · rfl
    · rename_i noLetter
      have digit : isDigit l.ch = true := by simpa [isWordChar, noLetter] using first
      rw [if_pos digit]
  all_goals exact (other ‹_› (by decide)).elim

theorem tokens_cons {t : Token} {l' : Lexer} (token : l.nextToken = (t, l'))
    (more : t.type ≠ .EOF_TOKEN) : l.tokens = t :: l'.tokens := by
  have here : l.nextToken.1.type ≠ .EOF_TOKEN := by rwa [token]
  rw [tokens_more here, token]

theorem nextToken_behind {b : UInt8} {rest : Bytes} (input : l.rest = spaces ++ b :: rest)
    (blank : ∀ b ∈ spaces, isWhitespace b = true) (visible : isWhitespace b = false)
    (plain : b ≠ '-'.toUInt8 ∧ b ≠ '/'.toUInt8 ∧ b ≠ '#'.toUInt8) :
    ∃ l' : Lexer, l'.rest = b :: rest ∧ l.nextToken = l'.tokenHere := by
  obtain ⟨l', ran, left⟩ := readWhile_append input blank (by simpa using visible)
  have here : l'.ch = b := by simp [ch, left]
  have skipped : l.skipWhitespace = l' := congrArg Prod.snd ran
  have noComment : l'.skipComment = l' := by
    simp [skipComment, here, plain]
  refine ⟨l', left, ?_⟩
  rw [nextToken, nextTokenWithin, skipped, noComment, here]
  exact if_neg fun dashes => plain.1 dashes.1

theorem isWordChar_plain {b : UInt8} (word : isWordChar b = true) : isWhitespace b = false ∧
    b ≠ '-'.toUInt8 ∧ b ≠ '/'.toUInt8 ∧ b ≠ '#'.toUInt8 := by
  refine ⟨?_, ?_, ?_, ?_⟩
  · apply Bool.eq_false_iff.mpr
    intro space
    simp only [isWhitespace, Bool.or_eq_true, beq_iff_eq] at space
    rcases space with ((rfl | rfl) | rfl) | rfl <;> cases word
  all_goals
    rintro rfl
    cases word

theorem isLetter_of_isDigit {b : UInt8} (digit : isDigit b = true) : isLetter b = false := by
  obtain ⟨low, high⟩ := isDigit_iff.mp digit
  have a : 'a'.toUInt8.toNat = 97 := rfl
  have capital : 'A'.toUInt8.toNat = 65 := rfl
  have score : '_'.toUInt8.toNat = 95 := rfl
  apply Bool.eq_false_iff.mpr
  intro letter
  simp only [isLetter, Bool.or_eq_true, Bool.and_eq_true, decide_eq_true_eq, beq_iff_eq,
    UInt8.le_iff_toNat_le, ← UInt8.toNat_inj] at letter
  omega

theorem tokens_word (input : l.rest = spaces ++ (word ++ tail))
    (blank : ∀ b ∈ spaces, isWhitespace b = true) (isWord : isWord word = true)
    (stop : ∀ b ∈ tail.head?, isWordChar b = false) :
    ∃ (t : Token) (l' : Lexer), l.tokens = t :: l'.tokens ∧ t.type = lookupKeyword word ∧
      t.literal = word ∧ l'.rest = tail := by
  obtain ⟨first, all⟩ := Bool.and_eq_true_iff.mp isWord
  have all := List.all_eq_true.mp all
  cases word with
  | nil => cases first
  | cons b word =>
      have letter : isLetter b = true := first
      obtain ⟨visible, plain⟩ := isWordChar_plain (all b List.mem_cons_self)
      obtain ⟨l', left, token⟩ := nextToken_behind input blank visible plain
      have here : l'.ch = b := by simp [ch, left]
      obtain ⟨l'', ran, left'⟩ := readWhile_append (p := isWordChar) left all stop
      have read : l'.readIdentifier = (b :: word, l'') := ran
      rw [tokenHere_word (by rw [here]; exact all b List.mem_cons_self), here] at token
      rw [if_pos letter, read] at token
      exact ⟨_, l'', tokens_cons token (lookupKeyword_ne_eof _), rfl, rfl, left'⟩

section Numbers
variable {whole fraction : Bytes}

theorem readNumber_integer (input : l.rest = whole ++ tail) (integer : IsInteger whole)
    (stop : ∀ b ∈ tail.head?, isDigit b = false ∧ b ≠ '.'.toUInt8) :
    ∃ l', l.readNumber = (whole, l') ∧ l'.rest = tail := by
  obtain ⟨l', ran, left⟩ := readWhile_append input integer.2 fun b head => (stop b head).1
  have ends : l'.ch ≠ '.'.toUInt8 := by
    rw [ch, left]
    cases tail with
    | nil => decide
    | cons b rest => exact (stop b (by simp)).2
  exact ⟨l', by simp only [readNumber, ran, if_neg ends], left⟩

theorem readNumber_decimal (input : l.rest = whole ++ '.'.toUInt8 :: (fraction ++ tail))
    (integer : IsInteger whole) (digits : IsInteger fraction)
    (stop : ∀ b ∈ tail.head?, isDigit b = false) :
    ∃ l', l.readNumber = (whole ++ '.'.toUInt8 :: fraction, l') ∧ l'.rest = tail := by
  obtain ⟨l', ran, left⟩ := readWhile_append input integer.2 (by simp; decide)
  have point : l'.ch = '.'.toUInt8 := by simp [ch, left]
  have behind : l'.readChar.rest = fraction ++ tail := by simp [left]
  obtain ⟨l'', ran', left'⟩ := readWhile_append behind digits.2 stop
  exact ⟨l'', by simp only [readNumber, ran, if_pos point, ran'], left'⟩

theorem tokens_number {b : UInt8} {rest number : Bytes} (input : l.rest = spaces ++ b :: rest)
    (blank : ∀ b ∈ spaces, isWhitespace b = true) (digit : isDigit b = true)
    (read : ∀ l' : Lexer, l'.rest = b :: rest →
      ∃ l'', l'.readNumber = (number, l'') ∧ l''.rest = tail) :
    ∃ (t : Token) (l' : Lexer), l.tokens = t :: l'.tokens ∧ t.type = .NUMBER ∧ t.literal = number ∧
      l'.rest = tail := by
  have noLetter := isLetter_of_isDigit digit
  have first : isWordChar b = true := by simp [isWordChar, digit]
  obtain ⟨visible, plain⟩ := isWordChar_plain first
  obtain ⟨l', left, token⟩ := nextToken_behind input blank visible plain
  have here : l'.ch = b := by simp [ch, left]
  obtain ⟨l'', number, left'⟩ := read l' left
  rw [tokenHere_word (by rw [here]; exact first), here, noLetter, number] at token
  rw [if_neg (by decide)] at token
  have more : TokenType.NUMBER ≠ .EOF_TOKEN := by decide
  exact ⟨_, l'', tokens_cons token more, rfl, rfl, left'⟩

theorem tokens_integer (input : l.rest = spaces ++ (whole ++ tail))
    (blank : ∀ b ∈ spaces, isWhitespace b = true) (integer : IsInteger whole)
    (stop : ∀ b ∈ tail.head?, isDigit b = false ∧ b ≠ '.'.toUInt8) :
    ∃ (t : Token) (l' : Lexer), l.tokens = t :: l'.tokens ∧ t.type = .NUMBER ∧ t.literal = whole ∧
      l'.rest = tail := by
  obtain ⟨b, rest, rfl⟩ := List.exists_cons_of_ne_nil integer.1
  exact tokens_number input blank (integer.2 b List.mem_cons_self) fun l' here =>
    readNumber_integer here integer stop

theorem tokens_decimal (input : l.rest = spaces ++ (whole ++ '.'.toUInt8 :: (fraction ++ tail)))
    (blank : ∀ b ∈ spaces, isWhitespace b = true) (integer : IsInteger whole)
    (digits : IsInteger fraction) (stop : ∀ b ∈ tail.head?, isDigit b = false) :
    ∃ (t : Token) (l' : Lexer), l.tokens = t :: l'.tokens ∧ t.type = .NUMBER ∧
      t.literal = whole ++ '.'.toUInt8 :: fraction ∧ l'.rest = tail := by
  obtain ⟨b, rest, rfl⟩ := List.exists_cons_of_ne_nil integer.1
  exact tokens_number input blank (integer.2 b List.mem_cons_self) fun l' here =>
    readNumber_decimal here integer digits stop

end Numbers

/-- A mark of one character. -/
theorem tokens_single {b : UInt8} {type : TokenType} (input : l.rest = spaces ++ b :: tail)
    (blank : ∀ b ∈ spaces, isWhitespace b = true) (visible : isWhitespace b = false)
    (plain : b ≠ '-'.toUInt8 ∧ b ≠ '/'.toUInt8 ∧ b ≠ '#'.toUInt8) (more : type ≠ .EOF_TOKEN)
    (mark : ∀ l' : Lexer, l'.ch = b → l'.tokenHere = l'.single type) :
    ∃ (t : Token) (l' : Lexer), l.tokens = t :: l'.tokens ∧ t.type = type ∧ l'.rest = tail := by
  obtain ⟨l', left, token⟩ := nextToken_behind input blank visible plain
  rw [mark l' (by simp [ch, left])] at token
  exact ⟨_, l'.readChar, tokens_cons token more, rfl, by simp [left]⟩

theorem tokenHere_asterisk (here : l.ch = '*'.toUInt8) : l.tokenHere = l.single .ASTERISK := by
  unfold tokenHere
  rw [here]
  rfl

theorem tokens_asterisk (input : l.rest = spaces ++ '*'.toUInt8 :: tail)
    (blank : ∀ b ∈ spaces, isWhitespace b = true) :
    ∃ (t : Token) (l' : Lexer), l.tokens = t :: l'.tokens ∧ t.type = .ASTERISK ∧ l'.rest = tail := by
  exact tokens_single input blank (by decide) (by decide) (by decide) fun _ => tokenHere_asterisk

theorem tokens_nil (input : l.rest = []) : l.tokens = [] :=
  tokens_end (by simp [ch, input])

end TinySql.Lexer

namespace TinySql
open Lexer TinySql.Parser

attribute [local irreducible] Lexer.nextToken

/-! ## What is printed -/

def IsName (name : Bytes) : Prop := isWord name = true ∧ lookupKeyword name = .IDENTIFIER

/-- The operators that `getPrecedence` ranks 1 to 5. -/
def IsOperator (op : Bytes) : Prop :=
  op.map toUpper ∈ ["OR", "AND", "=", "!=", "<>", "<", "<=", ">", ">=", "+", "-", "*", "/", "%"].map
    ascii

inductive IsExpression : Expression → Prop where
  | identifier {name : Bytes} : IsName name → IsExpression (.identifier name)
  | integer {digits : Bytes} : IsInteger digits → IsExpression (.numberLiteral digits)
  | decimal {whole fraction : Bytes} : IsInteger whole → IsInteger fraction →
      IsExpression (.numberLiteral (whole ++ '.'.toUInt8 :: fraction))
  | string {text : Bytes} : (∀ b ∈ text, b ∉ ['\''.toUInt8, '"'.toUInt8, '\\'.toUInt8, 0]) →
      IsExpression (.stringLiteral text)
  | binary {left right : Expression} {op : Bytes} : IsExpression left → IsOperator op →
      IsExpression right → IsExpression (.binary left op right)

structure IsSelect (stmt : SelectStatement) : Prop where
  columns : stmt.columns = [.identifier (ascii "*")] ∨
    stmt.columns ≠ [] ∧ ∀ expr ∈ stmt.columns, IsExpression expr
  table : stmt.tableName = [] ∨ IsName stmt.tableName
  condition : ∀ expr ∈ stmt.whereClause, IsExpression expr
  limit : stmt.limit = -1 ∨ 0 ≤ stmt.limit
  offset : stmt.offset = 0

structure IsInsert (stmt : InsertStatement) : Prop where
  table : IsName stmt.tableName
  columns : ∀ name ∈ stmt.columns, IsName name
  values : stmt.values ≠ [] ∧ ∀ expr ∈ stmt.values, IsExpression expr

/-- A statement and the text that it prints. -/
inductive Prints : Statement → Bytes → Prop where
  | select {stmt : SelectStatement} : IsSelect stmt → Prints (.select stmt) stmt.toString
  | insert {stmt : InsertStatement} : IsInsert stmt → Prints (.insert stmt) stmt.toString

/-! ## A SELECT of all columns -/

def fromText (tableName : Bytes) : Bytes :=
  if tableName = [] then [] else ascii " FROM " ++ tableName

def limitText (limit : Int32) : Bytes :=
  if 0 ≤ limit then ascii " LIMIT " ++ intToString limit.toInt else []

theorem starStatement_toString (tableName : Bytes) (limit : Int32) :
    (starStatement tableName limit).toString =
      ascii "SELECT" ++ (ascii " " ++ '*'.toUInt8 :: (fromText tableName ++ limitText limit)) := by
  have some : ¬ [Expression.identifier (ascii "*")] = [] := nofun
  have noOffset : ¬ (0 : Int32) < 0 := by decide
  simp only [SelectStatement.toString, starStatement, some, noOffset, if_false, List.append_nil,
    List.append_assoc]
  rfl

theorem stoi_intToString {limit : Int32} (counts : 0 ≤ limit) :
    stoi (intToString limit.toInt) = .ok limit ∧ IsInteger (intToString limit.toInt) := by
  have nonneg : 0 ≤ limit.toInt := Int32.le_iff_toInt_le.mp counts
  have small := limit.toInt_lt
  have same : (limit.toInt.natAbs : Int) = limit.toInt := Int.natAbs_of_nonneg nonneg
  have integer := natToString_isInteger limit.toInt.natAbs
  rw [intToString, if_neg (Int.not_lt.mpr nonneg), stoi_digits integer, digitsValue_natToString,
    if_pos (by omega), same, Int32.ofInt_toInt]
  exact ⟨rfl, integer⟩

theorem blank_space : ∀ b ∈ ascii " ", isWhitespace b = true :=
  List.all_eq_true.mp (by decide +kernel)

theorem stops_space (tail : Bytes) : ∀ b ∈ (ascii " " ++ tail).head?, isWordChar b = false := by
  intro b head
  obtain rfl := Option.some.inj head
  decide

theorem limitOf_limitText {l : Lexer} {limit : Int32} (allowed : limit = -1 ∨ 0 ≤ limit)
    (input : l.rest = limitText limit) : limitOf l.tokens = .ok (some limit) ∧
      (front l.tokens).type ≠ .FROM ∧ (front l.tokens).type ≠ .WHERE := by
  by_cases counts : 0 ≤ limit
  · obtain ⟨number, integer⟩ := stoi_intToString counts
    rw [limitText, if_pos counts] at input
    have first : l.rest =
        ascii " " ++ (ascii "LIMIT" ++ (ascii " " ++ intToString limit.toInt)) := input
    obtain ⟨t, l', tokens, type, -, rest⟩ := tokens_word first blank_space (by decide +kernel)
      (stops_space _)
    rw [← List.append_nil (intToString _)] at rest
    obtain ⟨t', l'', tokens', type', literal, -⟩ := tokens_integer rest blank_space integer nofun
    have keyword : lookupKeyword (ascii "LIMIT") = .LIMIT := by decide +kernel
    rw [keyword] at type
    refine ⟨?_, by simp [tokens, type], by simp [tokens, type]⟩
    simp [limitOf, tokens, tokens', type, type', literal, number]
  · obtain rfl := allowed.resolve_right counts
    rw [limitText, if_neg counts] at input
    rw [tokens_nil input]
    exact ⟨rfl, by decide, by decide⟩

theorem stops_limitText (limit : Int32) :
    ∀ b ∈ (limitText limit).head?, isWordChar b = false := by
  unfold limitText
  split
  · exact stops_space _
  · exact nofun

theorem fromOf_fromText {l : Lexer} {tableName : Bytes} {limit : Int32}
    (named : tableName = [] ∨ IsName tableName) (allowed : limit = -1 ∨ 0 ≤ limit)
    (input : l.rest = fromText tableName ++ limitText limit) :
    ∃ l' : Lexer, fromOf l.tokens = some (tableName, l'.tokens) ∧ l'.rest = limitText limit := by
  by_cases none : tableName = []
  · subst none
    have other := (limitOf_limitText allowed input).2.1
    exact ⟨l, by rw [fromOf, if_neg other], input⟩
  · obtain ⟨name, plain⟩ := named.resolve_left none
    rw [fromText, if_neg none] at input
    have clause : l.rest =
        ascii " " ++ (ascii "FROM" ++ (ascii " " ++ (tableName ++ limitText limit))) := by
      rw [input, List.append_assoc]
      rfl
    obtain ⟨t, l', tokens, type, -, rest⟩ := tokens_word clause blank_space (by decide +kernel)
      (stops_space _)
    obtain ⟨t', l'', tokens', type', literal, rest'⟩ := tokens_word rest blank_space name
      (stops_limitText limit)
    have keyword : lookupKeyword (ascii "FROM") = .FROM := by decide +kernel
    rw [keyword] at type
    rw [plain] at type'
    exact ⟨l'', by simp [fromOf, tokens, tokens', type, type', literal], rest'⟩

theorem parseQuery_starStatement {tableName : Bytes} {limit : Int32}
    (named : tableName = [] ∨ IsName tableName) (allowed : limit = -1 ∨ 0 ≤ limit) :
    parseQuery (starStatement tableName limit).toString =
      .ok (some (.select (starStatement tableName limit)), []) := by
  have input : (Lexer.create (starStatement tableName limit).toString).rest =
      [] ++ (ascii "SELECT" ++ (ascii " " ++ '*'.toUInt8 ::
        (fromText tableName ++ limitText limit))) :=
    (rest_locate _).trans (starStatement_toString tableName limit)
  obtain ⟨t, l, tokens, type, -, rest⟩ := tokens_word input nofun (by decide +kernel) (stops_space _)
  obtain ⟨t', l', tokens', type', rest'⟩ := tokens_asterisk rest blank_space
  obtain ⟨l'', table, rest''⟩ := fromOf_fromText named allowed rest'
  obtain ⟨number, -, noWhere⟩ := limitOf_limitText allowed rest''
  have keyword : lookupKeyword (ascii "SELECT") = .SELECT := by decide +kernel
  rw [keyword] at type
  have statement : statementTokens (starStatement tableName limit).toString = t :: t' :: l'.tokens := by
    rw [statementTokens, tokens, tokens', List.dropWhile_cons_of_neg (by simp [type])]
  have select : selectOf (statementTokens (starStatement tableName limit).toString) =
      .ok (some (starStatement tableName limit)) := by
    simp [selectOf, statement, type, type', table, noWhere, number]
  have parsed := parseQuery_select (by rw [statement]; exact type)
  rwa [select] at parsed

/-! ## Round trips -/

/-- The parser gives back what a statement prints exactly for the SELECTs of all columns without a
condition. -/
theorem round_trip_iff {stmt : Statement} {text : Bytes} (prints : Prints stmt text) :
    parseQuery text = .ok (some stmt, []) ↔ ∃ select : SelectStatement,
      stmt = .select select ∧ select.columns = [.identifier (ascii "*")] ∧
        select.whereClause = none := by
  constructor
  · intro parsed
    rcases parseQuery_cases text with ⟨-, throws⟩ | ⟨-, stmt', errors, returned, shape⟩
    · rw [throws] at parsed
      cases parsed
    · obtain ⟨rfl, rfl⟩ := Prod.mk.inj (Except.ok.inj (returned.symm.trans parsed))
      rcases shape with plain | ⟨tableName, limit, same⟩
      · cases prints <;> exact plain.elim
      · exact ⟨_, Option.some.inj same, rfl, rfl⟩
  · rintro ⟨select, rfl, star, noCondition⟩
    cases prints with
    | select printed =>
        obtain ⟨columns, tableName, whereClause, limit, offset⟩ := select
        obtain rfl := star
        obtain rfl := noCondition
        obtain rfl := printed.offset
        exact parseQuery_starStatement printed.table printed.limit

theorem isName_users : IsName (ascii "users") := ⟨by decide +kernel, by decide +kernel⟩

theorem star_round_trip :
    parseQuery (starStatement (ascii "users") 5).toString =
      .ok (some (.select (starStatement (ascii "users") 5)), []) := by
  have printed : IsSelect (starStatement (ascii "users") 5) :=
    ⟨.inl rfl, .inr isName_users, nofun, .inr (by decide), rfl⟩
  exact (round_trip_iff (.select printed)).mpr ⟨_, rfl, rfl, rfl⟩

def selectName : SelectStatement where
  columns := [.identifier (ascii "name")]
  tableName := ascii "users"

theorem column_not_parsed : ¬ ∀ (stmt : Statement) (text : Bytes), Prints stmt text →
    parseQuery text = .ok (some stmt, []) := by
  intro all
  have name : IsName (ascii "name") := ⟨by decide +kernel, by decide +kernel⟩
  have columns : ∀ expr ∈ selectName.columns, IsExpression expr := by
    rintro expr (_ | ⟨_, ⟨⟩⟩)
    exact .identifier name
  have printed : IsSelect selectName :=
    ⟨.inr ⟨nofun, columns⟩, .inr isName_users, nofun, .inl rfl, rfl⟩
  exact absurd (all _ _ (.select printed)) (by decide +kernel)

end TinySql
