import TinySql.Sql.ErrorReports
import TinySql.Sql.ParserSoundness
import TinySql.Sql.StringLiterals
import TinySql.Sql.Termination

/-!
# The texts of CREATE TABLE

A table as SQL describes it: columns with a type, perhaps a length in parentheses, and constraints.
The parser takes one token for the type, so that it knows all of this but the length.
-/

namespace TinySql
open Grammar Lexer TinySql.Parser

inductive ColumnConstraint where
  | primaryKey
  | notNull
  | autoIncrement
  | defaultNumber (number : Bytes)
  | defaultString (text : Bytes)
  deriving DecidableEq, Repr

structure ColumnSpec where
  name : Bytes
  typeName : Bytes
  length : Option Bytes := none
  constraints : List ColumnConstraint := []
  deriving DecidableEq, Repr

structure TableSpec where
  name : Bytes
  columns : List ColumnSpec
  deriving DecidableEq, Repr

/-! ## What the parser should return -/

def ColumnConstraint.apply (col : ColumnDefinition) : ColumnConstraint → ColumnDefinition
  | primaryKey => { col with primaryKey := true }
  | notNull => { col with notNull := true }
  | autoIncrement => { col with autoIncrement := true }
  | defaultNumber value | defaultString value => { col with defaultValue := value }

def ColumnSpec.definition (c : ColumnSpec) : ColumnDefinition :=
  c.constraints.foldl ColumnConstraint.apply { name := c.name, type := c.typeName }

def TableSpec.statement (spec : TableSpec) : CreateTableStatement :=
  ⟨spec.name, spec.columns.map ColumnSpec.definition⟩

/-! ## Tokens -/

/-- A type of token, and its text where that matters. -/
structure Lexeme where
  type : TokenType
  text : Option Bytes := none

def Lexeme.Matches (x : Lexeme) (t : Token) : Prop :=
  t.type = x.type ∧ ∀ text ∈ x.text, t.literal = text

def Spells (xs : List Lexeme) (ts : List Token) : Prop := List.Forall₂ Lexeme.Matches xs ts

namespace ColumnConstraint

def lexemes : ColumnConstraint → List Lexeme
  | primaryKey => [⟨.PRIMARY, none⟩, ⟨.KEY, none⟩]
  | notNull => [⟨.NOT, none⟩, ⟨.NULL_TOKEN, none⟩]
  | autoIncrement => [⟨.AUTO_INCREMENT, none⟩]
  | defaultNumber number => [⟨.DEFAULT, none⟩, ⟨.NUMBER, some number⟩]
  | defaultString text => [⟨.DEFAULT, none⟩, ⟨.STRING, some text⟩]

end ColumnConstraint

def lengthLexemes : Option Bytes → List Lexeme
  | none => []
  | some digits => [⟨.LPAREN, none⟩, ⟨.NUMBER, some digits⟩, ⟨.RPAREN, none⟩]

namespace ColumnSpec

def lexemes (c : ColumnSpec) : List Lexeme :=
  ⟨.IDENTIFIER, some c.name⟩ :: ⟨lookupKeyword c.typeName, some c.typeName⟩ ::
    (lengthLexemes c.length ++ c.constraints.flatMap ColumnConstraint.lexemes)

end ColumnSpec

def columnLexemes : List ColumnSpec → List Lexeme
  | [] => []
  | [c] => c.lexemes
  | c :: rest => c.lexemes ++ ⟨.COMMA, none⟩ :: columnLexemes rest

def TableSpec.lexemes (spec : TableSpec) : List Lexeme :=
  ⟨.CREATE, none⟩ :: ⟨.TABLE, none⟩ :: ⟨.IDENTIFIER, some spec.name⟩ :: ⟨.LPAREN, none⟩ ::
    (columnLexemes spec.columns ++ [⟨.RPAREN, none⟩])

/-! ## Texts -/

inductive Lexeme.Written : Lexeme → Bytes → Prop where
  | word {text : Option Bytes} {word : Bytes} : isWord word = true → (∀ given ∈ text, word = given) →
      Written ⟨lookupKeyword word, text⟩ word
  | integer {digits : Bytes} : IsInteger digits → Written ⟨.NUMBER, some digits⟩ digits
  | decimal {whole fraction : Bytes} : IsInteger whole → IsInteger fraction →
      Written ⟨.NUMBER, some (whole ++ '.'.toUInt8 :: fraction)⟩ (whole ++ '.'.toUInt8 :: fraction)
  | string {text : Bytes} (quote : Quote) : 0 ∉ text →
      Written ⟨.STRING, some text⟩ (literal quote text)
  | leftParen : Written ⟨.LPAREN, none⟩ ['('.toUInt8]
  | rightParen : Written ⟨.RPAREN, none⟩ [')'.toUInt8]
  | comma : Written ⟨.COMMA, none⟩ [','.toUInt8]

/-- Where a lexeme may end: at a space or at the end of the text. -/
def Spaced (tail : Bytes) : Prop := ∀ b ∈ tail.head?, b = ' '.toUInt8

theorem tokens_written {x : Lexeme} {text tail : Bytes} {l : Lexer} (written : x.Written text)
    (input : l.rest = [' '.toUInt8] ++ (text ++ tail)) (spaced : Spaced tail) :
    ∃ (t : Token) (l' : Lexer), l.tokens = t :: l'.tokens ∧ x.Matches t ∧ l'.rest = tail := by
  have mark {b : UInt8} {type : TokenType} (input : l.rest = [' '.toUInt8] ++ b :: tail)
      (visible : isWhitespace b = false)
      (plain : b ≠ '-'.toUInt8 ∧ b ≠ '/'.toUInt8 ∧ b ≠ '#'.toUInt8) (more : type ≠ .EOF_TOKEN)
      (single : ∀ l' : Lexer, l'.ch = b → l'.tokenHere = l'.single type) :
      ∃ (t : Token) (l' : Lexer), l.tokens = t :: l'.tokens ∧ Lexeme.Matches ⟨type, none⟩ t ∧
        l'.rest = tail := by
    obtain ⟨t, l', tokens, type, left⟩ := tokens_single input blank_space visible plain more single
    exact ⟨t, l', tokens, ⟨type, nofun⟩, left⟩
  cases written with
  | word isWord given =>
      have stop : ∀ b ∈ tail.head?, isWordChar b = false := by
        intro b head
        rw [spaced b head]
        decide
      obtain ⟨t, l', tokens, type, literal, left⟩ := tokens_word input blank_space isWord stop
      exact ⟨t, l', tokens, ⟨type, fun text member => literal.trans (given text member)⟩, left⟩
  | integer digits =>
      have stop : ∀ b ∈ tail.head?, isDigit b = false ∧ b ≠ '.'.toUInt8 := by
        intro b head
        rw [spaced b head]
        decide
      obtain ⟨t, l', tokens, type, literal, left⟩ := tokens_integer input blank_space digits stop
      exact ⟨t, l', tokens, ⟨type, by simpa using literal⟩, left⟩
  | decimal whole fraction =>
      have stop : ∀ b ∈ tail.head?, isDigit b = false := by
        intro b head
        rw [spaced b head]
        decide
      rw [List.append_assoc, List.cons_append] at input
      obtain ⟨t, l', tokens, type, literal, left⟩ :=
        tokens_decimal input blank_space whole fraction stop
      exact ⟨t, l', tokens, ⟨type, by simpa using literal⟩, left⟩
  | @string text quote clean =>
      have closed : l.rest = [' '.toUInt8] ++
          quote.byte :: (escape quote.byte text ++ quote.byte :: tail) := by
        simp [input, literal]
      obtain ⟨type, literal, left⟩ := nextToken_quoted (.inl rfl) clean closed blank_space
      have more : l.nextToken.1.type ≠ .EOF_TOKEN := by simp [type]
      exact ⟨_, _, tokens_more more, ⟨type, by simpa using literal⟩, left⟩
  | leftParen | rightParen | comma =>
      apply mark input (by decide) (by decide) (by decide)
      intro l' here
      unfold tokenHere
      rw [here]
      rfl

def Writable (xs : List Lexeme) : Prop := ∀ x ∈ xs, ∃ text, x.Written text

theorem exists_text {xs : List Lexeme} (written : Writable xs) :
    ∃ input, Spells xs (Lexer.create input).tokens := by
  suffices all : ∃ input, Spaced input ∧ ∀ l : Lexer, l.rest = input → Spells xs l.tokens by
    obtain ⟨input, -, spells⟩ := all
    exact ⟨input, spells _ (rest_locate _)⟩
  induction xs with
  | nil =>
      refine ⟨[], nofun, ?_⟩
      intro l input
      rw [tokens_nil input]
      exact .nil
  | cons x xs ih =>
      obtain ⟨text, here⟩ := written x List.mem_cons_self
      obtain ⟨tail, spaced, spells⟩ := ih fun x member => written x (List.mem_cons_of_mem _ member)
      refine ⟨[' '.toUInt8] ++ (text ++ tail), by simp [Spaced], ?_⟩
      intro l input
      obtain ⟨t, l', tokens, matched, left⟩ := tokens_written here input spaced
      rw [tokens]
      exact .cons matched (spells l' left)

/-- The number or the text of a default can be written down. -/
def ColumnConstraint.Valid : ColumnConstraint → Prop
  | defaultNumber number => IsInteger number ∨ ∃ whole fraction, IsInteger whole ∧
      IsInteger fraction ∧ number = whole ++ '.'.toUInt8 :: fraction
  | defaultString text => 0 ∉ text
  | _ => True

structure ColumnSpec.Valid (c : ColumnSpec) : Prop where
  name : IsName c.name
  typeName : isWord c.typeName = true
  length : ∀ digits ∈ c.length, IsInteger digits
  constraints : ∀ constraint ∈ c.constraints, constraint.Valid

structure TableSpec.Valid (spec : TableSpec) : Prop where
  name : IsName spec.name
  columns : ∀ c ∈ spec.columns, c.Valid

section Written

theorem writable_nil : Writable [] := nofun

theorem writable_cons {x : Lexeme} {xs : List Lexeme} {text : Bytes} (here : x.Written text)
    (later : Writable xs) : Writable (x :: xs) :=
  List.forall_mem_cons.mpr ⟨⟨text, here⟩, later⟩

theorem writable_append {xs ys : List Lexeme} (first : Writable xs) (second : Writable ys) :
    Writable (xs ++ ys) :=
  List.forall_mem_append.mpr ⟨first, second⟩

theorem written_keyword {type : TokenType} (word : String) (isWord : isWord (ascii word) = true)
    (keyword : lookupKeyword (ascii word) = type) : Lexeme.Written ⟨type, none⟩ (ascii word) := by
  rw [← keyword]
  exact .word isWord nofun

theorem written_name {name : Bytes} (isName : IsName name) :
    Lexeme.Written ⟨.IDENTIFIER, some name⟩ name := by
  rw [← isName.2]
  exact .word isName.1 (by simp)

theorem constraint_writable {constraint : ColumnConstraint} (valid : constraint.Valid) :
    Writable constraint.lexemes := by
  have keyword {type : TokenType} {xs : List Lexeme} (word : String)
      (isWord : isWord (ascii word) = true) (keyword : lookupKeyword (ascii word) = type)
      (later : Writable xs) : Writable (⟨type, none⟩ :: xs) :=
    writable_cons (written_keyword word isWord keyword) later
  have default {xs : List Lexeme} (later : Writable xs) : Writable (⟨.DEFAULT, none⟩ :: xs) :=
    keyword "DEFAULT" (by decide +kernel) (by decide +kernel) later
  cases constraint with
  | primaryKey =>
      apply keyword "PRIMARY" (by decide +kernel) (by decide +kernel)
      exact keyword "KEY" (by decide +kernel) (by decide +kernel) writable_nil
  | notNull =>
      apply keyword "NOT" (by decide +kernel) (by decide +kernel)
      exact keyword "NULL" (by decide +kernel) (by decide +kernel) writable_nil
  | autoIncrement =>
      exact keyword "AUTO_INCREMENT" (by decide +kernel) (by decide +kernel) writable_nil
  | defaultNumber number =>
      rcases valid with integer | ⟨whole, fraction, digits, digits', rfl⟩
      · exact default (writable_cons (.integer integer) writable_nil)
      · exact default (writable_cons (.decimal digits digits') writable_nil)
  | defaultString text => exact default (writable_cons (.string .single valid) writable_nil)

theorem column_writable {c : ColumnSpec} (valid : c.Valid) : Writable c.lexemes := by
  have length : Writable (lengthLexemes c.length) := by
    cases given : c.length with
    | none => exact writable_nil
    | some digits =>
        have integer := valid.length digits given
        exact writable_cons .leftParen <| writable_cons (.integer integer) <|
          writable_cons .rightParen writable_nil
  have constraints : Writable (c.constraints.flatMap ColumnConstraint.lexemes) := by
    intro x member
    obtain ⟨constraint, given, inside⟩ := List.mem_flatMap.mp member
    exact constraint_writable (valid.constraints constraint given) x inside
  apply writable_cons (written_name valid.name)
  apply writable_cons (.word valid.typeName (by simp))
  exact writable_append length constraints

theorem columns_writable {columns : List ColumnSpec} (valid : ∀ c ∈ columns, c.Valid) :
    Writable (columnLexemes columns) := by
  induction columns using columnLexemes.induct with
  | case1 => exact writable_nil
  | case2 c => exact column_writable (valid c List.mem_cons_self)
  | case3 c rest more ih =>
      rw [columnLexemes]
      · have later := ih fun c member => valid c (List.mem_cons_of_mem _ member)
        exact writable_append (column_writable (valid c List.mem_cons_self))
          (writable_cons .comma later)
      · exact more

/-- Every table of names and types that are words has a text. -/
theorem table_written {spec : TableSpec} (valid : spec.Valid) :
    ∃ input, Spells spec.lexemes (Lexer.create input).tokens := by
  apply exists_text
  have columns := columns_writable valid.columns
  apply writable_cons (written_keyword "CREATE" (by decide +kernel) (by decide +kernel))
  apply writable_cons (written_keyword "TABLE" (by decide +kernel) (by decide +kernel))
  apply writable_cons (written_name valid.name)
  exact writable_cons .leftParen (writable_append columns (writable_cons .rightParen writable_nil))

end Written

/-! ## Constraints -/

section Spells
variable {xs ys : List Lexeme} {ts : List Token}

theorem Spells.cons_inv {x : Lexeme} (spells : Spells (x :: xs) ts) :
    ∃ t rest, ts = t :: rest ∧ x.Matches t ∧ Spells xs rest := by
  cases spells with
  | cons matched rest => exact ⟨_, _, rfl, matched, rest⟩

theorem Spells.append_inv (spells : Spells (xs ++ ys) ts) :
    ∃ first second, ts = first ++ second ∧ Spells xs first ∧ Spells ys second := by
  induction xs generalizing ts with
  | nil => exact ⟨[], ts, rfl, .nil, spells⟩
  | cons x xs ih =>
      obtain ⟨t, rest, rfl, matched, later⟩ := Spells.cons_inv spells
      obtain ⟨first, second, rfl, here, behind⟩ := ih later
      exact ⟨t :: first, second, rfl, .cons matched here, behind⟩

theorem constraints_of_spells {constraints : List ColumnConstraint}
    (spells : Spells (constraints.flatMap ColumnConstraint.lexemes) ts) (col : ColumnDefinition)
    (behind : List Token) :
    Constraints col (ts ++ behind) (constraints.foldl ColumnConstraint.apply col) behind := by
  induction constraints generalizing col ts with
  | nil =>
      cases spells
      exact .none col behind
  | cons constraint constraints ih =>
      rw [List.flatMap_cons] at spells
      obtain ⟨first, second, rfl, here, later⟩ := Spells.append_inv spells
      have rest := ih later (constraint.apply col)
      rw [List.foldl_cons, List.append_assoc]
      cases constraint with
      | primaryKey =>
          obtain ⟨t, _, rfl, isPrimary, here⟩ := here.cons_inv
          obtain ⟨key, _, rfl, isKey, ⟨⟩⟩ := here.cons_inv
          exact .primaryKey isPrimary.1 isKey.1 rest
      | notNull =>
          obtain ⟨t, _, rfl, isNot, here⟩ := here.cons_inv
          obtain ⟨null, _, rfl, isNull, ⟨⟩⟩ := here.cons_inv
          exact .notNull isNot.1 isNull.1 rest
      | autoIncrement =>
          obtain ⟨t, _, rfl, isAuto, ⟨⟩⟩ := here.cons_inv
          exact .autoIncrement isAuto.1 rest
      | defaultNumber number | defaultString text =>
          obtain ⟨t, _, rfl, isDefault, here⟩ := here.cons_inv
          obtain ⟨value, _, rfl, isValue, ⟨⟩⟩ := here.cons_inv
          have same := isValue.2 _ rfl
          subst same
          exact .default isDefault.1 rest

theorem column_of_spells {c : ColumnSpec} (spells : Spells c.lexemes ts) :
    ∃ name type tail, ts = name :: type :: tail ∧ name.type = .IDENTIFIER ∧
      (c.length = none → ∀ behind, Constraints { name := name.literal, type := type.literal }
        (tail ++ behind) c.definition behind) ∧
      (c.length ≠ none → ∃ opening inside, tail = opening :: inside ∧ opening.type = .LPAREN) := by
  obtain ⟨name, _, rfl, isName, spells⟩ := spells.cons_inv
  obtain ⟨type, tail, rfl, isType, spells⟩ := spells.cons_inv
  refine ⟨name, type, tail, rfl, isName.1, ?_, ?_⟩
  · intro short behind
    rw [short] at spells
    rw [isName.2 _ rfl, isType.2 _ rfl]
    exact constraints_of_spells spells _ behind
  · intro long
    obtain ⟨digits, long⟩ := Option.ne_none_iff_exists'.mp long
    rw [long] at spells
    obtain ⟨opening, inside, rfl, opens, -⟩ := spells.cons_inv
    exact ⟨opening, inside, rfl, opens.1⟩

/-- Without lengths the columns are those of the grammar. -/
theorem columns_of_spells {columns : List ColumnSpec} (spells : Spells (columnLexemes columns) ts)
    (short : ∀ c ∈ columns, c.length = none) (behind : List Token) :
    Columns (ts ++ behind) (columns.map ColumnSpec.definition) behind := by
  induction columns using columnLexemes.induct generalizing ts with
  | case1 =>
      cases spells
      exact .none behind
  | case2 c =>
      obtain ⟨name, type, tail, rfl, isName, constraints, -⟩ := column_of_spells spells
      exact .last isName (constraints (short c List.mem_cons_self) behind)
  | case3 c rest more ih =>
      rw [columnLexemes] at spells
      · obtain ⟨first, _, rfl, here, later⟩ := Spells.append_inv spells
        obtain ⟨comma, between, rfl, isComma, later⟩ := Spells.cons_inv later
        obtain ⟨name, type, tail, rfl, isName, constraints, -⟩ := column_of_spells here
        have constraints := constraints (short c List.mem_cons_self) (comma :: (between ++ behind))
        have columns := ih later fun c member => short c (List.mem_cons_of_mem _ member)
        rw [List.append_assoc]
        exact .more isName constraints isComma.1 columns
      · exact more

/-- A length is a token that no column goes on with. -/
theorem parseColumns_stuck {columns : List ColumnSpec} (spells : Spells (columnLexemes columns) ts)
    (long : ∃ c ∈ columns, c.length ≠ none) (behind : List Token) :
    ∃ cols opening rest, opening.type = .LPAREN ∧ ∀ (p : Parser) (k : Nat),
      Reads (ts ++ behind) p → (ts ++ behind).length < k →
        Reaches (parseColumnDefinitions k) p (some cols) (opening :: rest) := by
  have stuck {c : ColumnSpec} {first : List Token} (here : Spells c.lexemes first)
      (long : c.length ≠ none) (behind : List Token) :
      ∃ cols opening rest, opening.type = .LPAREN ∧ ∀ (p : Parser) (k : Nat),
        Reads (first ++ behind) p → (first ++ behind).length < k →
          Reaches (parseColumnDefinitions k) p (some cols) (opening :: rest) := by
    obtain ⟨name, type, _, rfl, isName, -, opened⟩ := column_of_spells here
    obtain ⟨opening, inside, rfl, opens⟩ := opened long
    refine ⟨[{ name := name.literal, type := type.literal }], opening, inside ++ behind, opens, ?_⟩
    intro p k reads enough
    obtain ⟨k, rfl⟩ := Nat.exists_eq_succ_of_ne_zero (Nat.ne_zero_of_lt enough)
    exact parseColumn_last isName (.none _ _) (by simp [opens, constraintWords]) reads
  induction columns using columnLexemes.induct generalizing ts with
  | case1 => simp at long
  | case2 c => exact stuck spells (by simpa using long) behind
  | case3 c rest more ih =>
      rw [columnLexemes] at spells
      · obtain ⟨first, _, rfl, here, later⟩ := Spells.append_inv spells
        obtain ⟨comma, between, rfl, isComma, later⟩ := Spells.cons_inv later
        rw [List.append_assoc]
        by_cases short : c.length = none
        · have longer : ∃ c ∈ rest, c.length ≠ none := by simpa [short] using long
          obtain ⟨cols, opening, left, opens, reaches⟩ := ih later longer
          obtain ⟨name, type, tail, rfl, isName, constraints, -⟩ := column_of_spells here
          have constraints := constraints short (comma :: (between ++ behind))
          refine ⟨c.definition :: cols, opening, left, opens, ?_⟩
          intro p k reads enough
          simp only [List.cons_append, List.length_cons, List.length_append] at enough
          obtain ⟨k, rfl⟩ := Nat.exists_eq_succ_of_ne_zero (Nat.ne_zero_of_lt enough)
          apply parseColumn_more isName constraints isComma.1 reads
          intro q inside
          exact reaches q k inside (by simp only [List.length_append]; omega)
        · exact stuck here short _
      · exact more

end Spells

/-! ## The statement -/

/-- Whatever text has these tokens, the parser reports no error and returns just this table. -/
def Understood (spec : TableSpec) (input : Bytes) : Prop :=
  parseQuery input = .ok (some (.createTable spec.statement), [])

theorem statementTokens_of_spells {spec : TableSpec} {input : Bytes}
    (spells : Spells spec.lexemes (Lexer.create input).tokens) : ∃ create table name opening ts closing,
      statementTokens input = create :: table :: name :: opening :: (ts ++ [closing]) ∧
      create.type = .CREATE ∧ table.type = .TABLE ∧ name.type = .IDENTIFIER ∧
      name.literal = spec.name ∧ opening.type = .LPAREN ∧ Spells (columnLexemes spec.columns) ts ∧
      closing.type = .RPAREN := by
  rw [statementTokens]
  generalize (Lexer.create input).tokens = tokens at spells
  obtain ⟨create, _, rfl, isCreate, spells⟩ := spells.cons_inv
  obtain ⟨table, _, rfl, isTable, spells⟩ := spells.cons_inv
  obtain ⟨name, _, rfl, isName, spells⟩ := spells.cons_inv
  obtain ⟨opening, _, rfl, opens, spells⟩ := spells.cons_inv
  obtain ⟨ts, _, rfl, columns, spells⟩ := spells.append_inv
  obtain ⟨closing, _, rfl, closes, ⟨⟩⟩ := spells.cons_inv
  refine ⟨create, table, name, opening, ts, closing, ?_, isCreate.1, isTable.1, isName.1,
    isName.2 _ rfl, opens.1, columns, closes.1⟩
  rw [List.dropWhile_cons_of_neg (by simp [isCreate.1])]

theorem understood_of_short {spec : TableSpec} {input : Bytes}
    (spells : Spells spec.lexemes (Lexer.create input).tokens)
    (short : ∀ c ∈ spec.columns, c.length = none) : Understood spec input := by
  obtain ⟨create, table, name, opening, ts, closing, tokens, isCreate, isTable, isName, named, opens,
    columns, closes⟩ := statementTokens_of_spells spells
  obtain ⟨q, ran, reads, -⟩ := parse_run input
  rw [tokens] at reads
  have sentence : Sentence (create :: table :: name :: opening :: (ts ++ [closing]))
      (.createTable ⟨name.literal, spec.columns.map ColumnSpec.definition⟩) [] :=
    .createTable isCreate isTable isName opens (columns_of_spells columns short [closing]) closes
  obtain ⟨q', parsed, -⟩ := parseHere_complete sentence (by simp) reads
  rw [named] at parsed
  have whole := ran.trans parsed
  have clean : q'.errors = [] := by
    rcases parse_exclusive whole with ⟨none, -⟩ | ⟨-, clean⟩ | ⟨none, -⟩
    · cases none
    · exact clean
    · cases none
  rw [Understood, parseQuery_ok whole, clean]
  rfl

/-- With a length the parser returns nothing but an error. -/
theorem rejected_of_long {spec : TableSpec} {input : Bytes}
    (spells : Spells spec.lexemes (Lexer.create input).tokens)
    (long : ∃ c ∈ spec.columns, c.length ≠ none) :
    ∃ errors, errors ≠ [] ∧ parseQuery input = .ok (none, errors) := by
  obtain ⟨create, table, name, opening, ts, closing, tokens, isCreate, isTable, isName, -, opens,
    columns, -⟩ := statementTokens_of_spells spells
  obtain ⟨q, ran, reads, -⟩ := parse_run input
  rw [tokens] at reads
  obtain ⟨cols, paren, rest, isParen, reaches⟩ := parseColumns_stuck columns long [closing]
  have refused : Reaches parseCreateTableStatement q none (paren :: rest) := by
    apply parseCreateTable_reaches isCreate isTable isName opens reads
    intro q inside
    apply Reaches.bind (Reaches.bounded inside fun k enough => reaches _ k inside enough)
    intro q stuck
    exact Reaches.unexpected stuck (by simp [stuck.current, isParen])
  have here : Reaches parseHere q none (paren :: rest) := by
    apply Reaches.get
    simp only [reads.current, isCreate]
    apply refused.bind
    intro q' behind
    exact .pure behind
  obtain ⟨q', parsed, -⟩ := here
  have whole := ran.trans parsed
  refine ⟨q'.errors, ?_, parseQuery_ok whole⟩
  rcases parse_exclusive whole with ⟨-, some⟩ | ⟨⟨stmt, none⟩, -⟩ | ⟨-, -, blank⟩
  · exact some
  · cases none
  · rw [blank_iff, tokens] at blank
    cases blank

/-- A CREATE TABLE is understood exactly when no column has a length. -/
theorem understood_iff {spec : TableSpec} {input : Bytes}
    (spells : Spells spec.lexemes (Lexer.create input).tokens) :
    Understood spec input ↔ ∀ c ∈ spec.columns, c.length = none := by
  constructor
  · intro understood c member
    by_contra long
    obtain ⟨errors, -, rejected⟩ := rejected_of_long spells ⟨c, member, long⟩
    rw [Understood, rejected] at understood
    cases understood
  · exact understood_of_short spells

/-! ## A table of users -/

instance (x : Lexeme) (t : Token) : Decidable (x.Matches t) :=
  inferInstanceAs (Decidable (_ ∧ _))

instance (xs : List Lexeme) (ts : List Token) : Decidable (Spells xs ts) :=
  inferInstanceAs (Decidable (List.Forall₂ _ _ _))

theorem spells_of_tokenize {xs : List Lexeme} {input : Bytes} (n : Nat)
    (spells : (tokenizeWithin n (Lexer.create input)).any fun ts => Spells xs ts.dropLast) :
    Spells xs (Lexer.create input).tokens := by
  obtain ⟨ts, ran, spells⟩ := (Option.any_eq_true _ _).mp spells
  obtain ⟨eof, rfl⟩ := tokens_of_tokenize ran
  rw [List.dropLast_concat] at spells
  exact of_decide_eq_true spells

def users (length : Option Bytes) : TableSpec where
  name := ascii "users"
  columns := [
    { name := ascii "id", typeName := ascii "INT", constraints := [.autoIncrement, .primaryKey] },
    { name := ascii "name", typeName := ascii "varchar", length := length,
      constraints := [.defaultString (ascii "x"), .notNull] }]

def usersText (length : String) : Bytes :=
  ascii "CREATE TABLE users (id INT AUTO_INCREMENT PRIMARY KEY, name varchar" ++ ascii length ++
    ascii " DEFAULT 'x' not null)"

theorem users_understood : Understood (users none) (usersText "") :=
  (understood_iff (spells_of_tokenize 30 (by decide +kernel))).mpr (by decide +kernel)

theorem users_valid : (users (some (ascii "50"))).Valid where
  name := ⟨by decide +kernel, by decide +kernel⟩
  columns := by
    have id : IsName (ascii "id") := ⟨by decide +kernel, by decide +kernel⟩
    have name : IsName (ascii "name") := ⟨by decide +kernel, by decide +kernel⟩
    have digits : IsInteger (ascii "50") := ⟨by decide, List.all_eq_true.mp (by decide)⟩
    have plain : 0 ∉ ascii "x" := by decide +kernel
    rintro c (_ | ⟨_, _ | ⟨_, ⟨⟩⟩⟩)
    · exact ⟨id, by decide +kernel, nofun, by simp [ColumnConstraint.Valid]⟩
    · exact ⟨name, by decide +kernel, by simpa using digits, by simp [ColumnConstraint.Valid, plain]⟩

theorem length_not_understood : ¬ ∀ (spec : TableSpec) (input : Bytes), spec.Valid →
    Spells spec.lexemes (Lexer.create input).tokens → Understood spec input := by
  intro all
  have spells : Spells (users (some (ascii "50"))).lexemes
      (Lexer.create (usersText "(50)")).tokens :=
    spells_of_tokenize 30 (by decide +kernel)
  have understood : parseQuery (usersText "(50)") = _ := all _ _ users_valid spells
  exact absurd understood (by decide +kernel)

end TinySql
