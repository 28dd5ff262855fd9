import TinySql.Sql.ErrorReports
import TinySql.Sql.ParserSoundness
import TinySql.Sql.RoundTrip

/-!
# Statements that have been read and are printed again

`toString` writes types and defaults without quotes. A statement that the parser has built is read
from what it prints, as long as each of these is one word or one number.
-/

namespace TinySql.Lexer

variable {l : Lexer}

/-! ## Names -/

def Named (t : Token) : Prop := t.type = .IDENTIFIER → IsName t.literal

theorem readWhile_text (p : UInt8 → Bool) (input : Bytes) (l : Lexer) :
    (readWhile p input l).1 = input.takeWhile p := by
  induction input generalizing l with
  | nil => rfl
  | cons b rest ih =>
      rw [readWhile]
      by_cases more : p b = true
      · rw [if_pos more, List.takeWhile_cons_of_pos more]
        exact congrArg (b :: ·) (ih _)
      · rw [if_neg more, List.takeWhile_cons_of_neg more]

theorem readIdentifier_isWord (letter : isLetter l.ch = true) : isWord l.readIdentifier.1 = true := by
  have more : l.ch ≠ 0 := by
    intro atEnd
    rw [atEnd] at letter
    cases letter
  obtain ⟨b, rest, input⟩ := List.exists_cons_of_ne_nil (rest_ne_nil more)
  have here : l.ch = b := by simp [ch, input]
  rw [here] at letter
  have text : l.readIdentifier.1 = b :: rest.takeWhile isWordChar := by
    rw [readIdentifier, readWhile_text, input, List.takeWhile_cons_of_pos (by simp [letter])]
    rfl
  have all : (rest.takeWhile isWordChar).all isWordChar = true := List.all_takeWhile
  simp [isWord, text, letter, isWordChar, all]

theorem tokenHere_named (l : Lexer) : Named l.tokenHere.1 := by
  have one {type : TokenType} (other : type ≠ .IDENTIFIER) : Named (l.single type).1 :=
    fun name => absurd name other
  have two {type : TokenType} (other : type ≠ .IDENTIFIER) : Named (l.pair type).1 :=
    fun name => absurd name other
  unfold tokenHere
  split
  case h_1 => exact nofun
  case h_8 | h_10 =>
    split
    · exact two (by decide)
    · exact one (by decide)
  case h_9 =>
    split
    · exact two (by decide)
    · split
      · exact two (by decide)
      · exact one (by decide)
  case h_16 | h_17 => exact nofun
  case h_18 =>
    split
    · rename_i letter
      exact fun name => ⟨readIdentifier_isWord letter, name⟩
    · split
      · exact nofun
      · exact one (by decide)
  all_goals exact one (by decide)

theorem tokens_named (l : Lexer) : ∀ t ∈ l.tokens, Named t := by
  induction l using tokens.induct with
  | case1 l eof =>
      rw [tokens_eof eof]
      intro t member
      cases member
  | case2 l more ih =>
      have first : Named l.nextToken.1 := by
        rw [nextToken_eq]
        exact tokenHere_named _
      rw [tokens_more more]
      exact List.forall_mem_cons.mpr ⟨first, ih⟩

end TinySql.Lexer

namespace TinySql
open Grammar Lexer TinySql.Parser

attribute [local irreducible] Lexer.nextToken

/-! ## Words and numbers -/

/-- A text that is one token where it stands without quotes. -/
inductive IsBare : Bytes → Prop where
  | word {text : Bytes} : isWord text = true → IsBare text
  | integer {digits : Bytes} : IsInteger digits → IsBare digits
  | decimal {whole fraction : Bytes} : IsInteger whole → IsInteger fraction →
      IsBare (whole ++ '.'.toUInt8 :: fraction)

/-- What follows a word or a number in a column definition. -/
def Closes (tail : Bytes) : Prop :=
  ∀ b ∈ tail.head?, b = ' '.toUInt8 ∨ b = ','.toUInt8 ∨ b = ')'.toUInt8

section Closes
variable {text tail : Bytes} {l : Lexer}

theorem Closes.append (first : Closes text) (closes : Closes tail) : Closes (text ++ tail) := by
  cases text with
  | nil => exact closes
  | cons b rest => exact first

theorem Closes.stops (closes : Closes tail) :
    ∀ b ∈ tail.head?, isWordChar b = false ∧ isDigit b = false ∧ b ≠ '.'.toUInt8 := by
  intro b head
  rcases closes b head with rfl | rfl | rfl <;> decide

theorem tokens_bare (input : l.rest = ascii " " ++ (text ++ tail)) (bare : IsBare text)
    (closes : Closes tail) :
    ∃ (t : Token) (l' : Lexer), l.tokens = t :: l'.tokens ∧ t.literal = text ∧ l'.rest = tail := by
  have stops := closes.stops
  cases bare with
  | word isWord =>
      obtain ⟨t, l', tokens, -, literal, left⟩ :=
        tokens_word input blank_space isWord fun b head => (stops b head).1
      exact ⟨t, l', tokens, literal, left⟩
  | integer digits =>
      obtain ⟨t, l', tokens, -, literal, left⟩ :=
        tokens_integer input blank_space digits fun b head => (stops b head).2
      exact ⟨t, l', tokens, literal, left⟩
  | decimal whole fraction =>
      rw [List.append_assoc, List.cons_append] at input
      obtain ⟨t, l', tokens, -, literal, left⟩ :=
        tokens_decimal input blank_space whole fraction fun b head => (stops b head).2.1
      exact ⟨t, l', tokens, literal, left⟩

end Closes

/-! ## Constraints -/

/-- The text is read as constraints, which turn the one column into the other. -/
def Writes (col : ColumnDefinition) (text : Bytes) (col' : ColumnDefinition) : Prop :=
  ∀ (l : Lexer) (tail : Bytes), l.rest = text ++ tail → Closes tail →
    ∃ l' : Lexer, l'.rest = tail ∧ ∀ col'' rest,
      Constraints col' l'.tokens col'' rest → Constraints col l.tokens col'' rest

section Writes
variable {col col' col'' : ColumnDefinition} {text text' : Bytes}

theorem Writes.nil (col : ColumnDefinition) : Writes col [] col := by
  intro l tail input _
  exact ⟨l, input, fun _ _ constraints => constraints⟩

theorem Writes.append (first : Writes col text col') (second : Writes col' text' col'')
    (closes : Closes text') : Writes col (text ++ text') col'' := by
  intro l tail input ends
  rw [List.append_assoc] at input
  obtain ⟨l', left, before⟩ := first l _ input (closes.append ends)
  obtain ⟨l'', left', after⟩ := second l' tail left ends
  exact ⟨l'', left', fun _ _ constraints => before _ _ (after _ _ constraints)⟩

theorem Writes.flag {set : Bool → ColumnDefinition} (flag : Bool)
    (writes : Writes (set false) text (set true)) :
    Writes (set false) (if flag then text else []) (set flag) := by
  cases flag with
  | true => exact writes
  | false => exact .nil _

theorem tokens_keyword (type : TokenType) {l : Lexer} {spaces word tail : Bytes}
    (input : l.rest = spaces ++ (word ++ tail)) (blank : ∀ b ∈ spaces, isWhitespace b = true)
    (isWord : isWord word = true) (keyword : lookupKeyword word = type) (closes : Closes tail) :
    ∃ (t : Token) (l' : Lexer), l.tokens = t :: l'.tokens ∧ t.type = type ∧ l'.rest = tail := by
  obtain ⟨t, l', tokens, isType, -, left⟩ :=
    tokens_word input blank isWord fun b head => (closes.stops b head).1
  exact ⟨t, l', tokens, isType.trans keyword, left⟩

theorem closes_space (text : Bytes) : Closes (ascii " " ++ text) := by
  intro b head
  obtain rfl := Option.some.inj head
  exact .inl rfl

theorem writes_notNull (col : ColumnDefinition) :
    Writes col (ascii " NOT NULL") { col with notNull := true } := by
  intro l tail input closes
  have words : l.rest = ascii " " ++ (ascii "NOT" ++ (ascii " " ++ (ascii "NULL" ++ tail))) := input
  obtain ⟨t, l', tokens, isNot, left⟩ := tokens_keyword .NOT words blank_space (by decide +kernel)
    (by decide +kernel) (closes_space _)
  obtain ⟨null, l'', tokens', isNull, left'⟩ := tokens_keyword .NULL_TOKEN left blank_space (by decide +kernel)
    (by decide +kernel) closes
  refine ⟨l'', left', fun _ _ constraints => ?_⟩
  rw [tokens, tokens']
  exact .notNull isNot isNull constraints

theorem writes_primaryKey (col : ColumnDefinition) :
    Writes col (ascii " PRIMARY KEY") { col with primaryKey := true } := by
  intro l tail input closes
  have words : l.rest = ascii " " ++ (ascii "PRIMARY" ++ (ascii " " ++ (ascii "KEY" ++ tail))) := input
  obtain ⟨t, l', tokens, isPrimary, left⟩ := tokens_keyword .PRIMARY words blank_space (by decide +kernel)
    (by decide +kernel) (closes_space _)
  obtain ⟨key, l'', tokens', isKey, left'⟩ := tokens_keyword .KEY left blank_space (by decide +kernel)
    (by decide +kernel) closes
  refine ⟨l'', left', fun _ _ constraints => ?_⟩
  rw [tokens, tokens']
  exact .primaryKey isPrimary isKey constraints

theorem writes_autoIncrement (col : ColumnDefinition) :
    Writes col (ascii " AUTO_INCREMENT") { col with autoIncrement := true } := by
  intro l tail input closes
  have words : l.rest = ascii " " ++ (ascii "AUTO_INCREMENT" ++ tail) := input
  obtain ⟨t, l', tokens, isAuto, left⟩ := tokens_keyword .AUTO_INCREMENT words blank_space (by decide +kernel)
    (by decide +kernel) closes
  refine ⟨l', left, fun _ _ constraints => ?_⟩
  rw [tokens]
  exact .autoIncrement isAuto constraints

theorem writes_default (col : ColumnDefinition) {value : Bytes} (bare : IsBare value) :
    Writes col (ascii " DEFAULT " ++ value) { col with defaultValue := value } := by
  intro l tail input closes
  have words : l.rest = ascii " " ++ (ascii "DEFAULT" ++ (ascii " " ++ (value ++ tail))) := by
    rw [input, List.append_assoc]
    rfl
  obtain ⟨t, l', tokens, isDefault, left⟩ := tokens_keyword .DEFAULT words blank_space (by decide +kernel)
    (by decide +kernel) (closes_space _)
  obtain ⟨t', l'', tokens', rfl, left'⟩ := tokens_bare left bare closes
  refine ⟨l'', left', fun _ _ constraints => ?_⟩
  rw [tokens, tokens']
  exact .default isDefault constraints

end Writes

/-! ## Columns -/

/-- The parts of a column that stand without quotes. -/
structure ColumnDefinition.Bare (col : ColumnDefinition) : Prop where
  type : IsBare col.type
  default : col.defaultValue = [] ∨ IsBare col.defaultValue

def ColumnDefinition.constraintsText (col : ColumnDefinition) : Bytes :=
  (if col.notNull then ascii " NOT NULL" else []) ++
  (if col.primaryKey then ascii " PRIMARY KEY" else []) ++
  (if col.autoIncrement then ascii " AUTO_INCREMENT" else []) ++
  (if col.defaultValue ≠ [] then ascii " DEFAULT " ++ col.defaultValue else [])

section Columns
variable {col : ColumnDefinition}

theorem column_toString (col : ColumnDefinition) :
    col.toString = col.name ++ (ascii " " ++ (col.type ++ col.constraintsText)) := by
  simp only [ColumnDefinition.toString, ColumnDefinition.constraintsText, List.append_assoc]

theorem closes_ite (flag : Bool) (text : Bytes) :
    Closes (if flag then ascii " " ++ text else []) := by
  cases flag with
  | true => exact closes_space text
  | false => exact nofun

theorem closes_constraints (col : ColumnDefinition) : Closes col.constraintsText := by
  refine (((closes_ite _ (ascii "NOT NULL")).append (closes_ite _ (ascii "PRIMARY KEY"))).append
    (closes_ite _ (ascii "AUTO_INCREMENT"))).append ?_
  split
  · exact closes_space (ascii "DEFAULT " ++ col.defaultValue)
  · exact nofun

theorem writes_constraints (bare : col.Bare) :
    Writes { name := col.name, type := col.type } col.constraintsText col := by
  obtain ⟨name, type, primaryKey, notNull, autoIncrement, value⟩ := col
  have first := @Writes.flag _ (fun b => ⟨name, type, false, b, false, []⟩) notNull
    (writes_notNull _)
  have second := @Writes.flag _ (fun b => ⟨name, type, b, notNull, false, []⟩) primaryKey
    (writes_primaryKey _)
  have third := @Writes.flag _ (fun b => ⟨name, type, primaryKey, notNull, b, []⟩) autoIncrement
    (writes_autoIncrement _)
  have flags := (first.append second (closes_ite _ (ascii "PRIMARY KEY"))).append third
    (closes_ite _ (ascii "AUTO_INCREMENT"))
  rw [ColumnDefinition.constraintsText]
  by_cases none : value = []
  · subst none
    simpa using flags
  · rw [if_pos none]
    exact flags.append (writes_default _ (bare.default.resolve_left none))
      (closes_space (ascii "DEFAULT " ++ value))

/-- A name and a type, and constraints that lead to the column. -/
theorem column_tokens {l : Lexer} {spaces tail : Bytes} (named : IsName col.name)
    (bare : col.Bare) (input : l.rest = spaces ++ (col.toString ++ tail))
    (blank : ∀ b ∈ spaces, isWhitespace b = true) (closes : Closes tail) :
    ∃ (name type : Token) (l' l'' : Lexer), l.tokens = name :: type :: l'.tokens ∧
      name.type = .IDENTIFIER ∧ l''.rest = tail ∧ ∀ col' rest, Constraints col l''.tokens col' rest →
        Constraints { name := name.literal, type := type.literal } l'.tokens col' rest := by
  rw [column_toString, List.append_assoc, List.append_assoc, List.append_assoc] at input
  obtain ⟨isWord, plain⟩ := named
  obtain ⟨name, l₁, tokens, isName, literal, left⟩ := tokens_word input blank isWord (stops_space _)
  obtain ⟨type, l₂, tokens', literal', left'⟩ :=
    tokens_bare left bare.type ((closes_constraints col).append closes)
  obtain ⟨l₃, left'', leads⟩ := writes_constraints bare l₂ tail left' closes
  refine ⟨name, type, l₂, l₃, by rw [tokens, tokens'], isName.trans plain, left'', ?_⟩
  rw [literal, literal']
  exact leads

theorem commaSeparated_cons_cons (first second : Bytes) (rest : List Bytes) :
    commaSeparated (first :: second :: rest) =
      first ++ (ascii ", " ++ commaSeparated (second :: rest)) := by
  rw [commaSeparated, List.intercalate_cons_cons, List.append_assoc]
  rfl

theorem tokens_mark (type : TokenType) {b : UInt8} {l : Lexer} {spaces tail : Bytes}
    (input : l.rest = spaces ++ b :: tail) (blank : ∀ b ∈ spaces, isWhitespace b = true)
    (mark : (b, type) ∈ [('('.toUInt8, .LPAREN), (')'.toUInt8, .RPAREN), (','.toUInt8, .COMMA)]) :
    ∃ (t : Token) (l' : Lexer), l.tokens = t :: l'.tokens ∧ t.type = type ∧ l'.rest = tail := by
  simp only [List.mem_cons, Prod.mk.injEq, List.not_mem_nil, or_false] at mark
  rcases mark with ⟨rfl, rfl⟩ | ⟨rfl, rfl⟩ | ⟨rfl, rfl⟩ <;>
  · refine tokens_single input blank (by decide) (by decide) (by decide) fun l' here => ?_
    unfold tokenHere
    rw [here]
    rfl

theorem columns_tokens {columns : List ColumnDefinition} {l : Lexer} {spaces tail : Bytes}
    (named : ∀ col ∈ columns, IsName col.name) (bare : ∀ col ∈ columns, col.Bare)
    (input : l.rest = spaces ++ (commaSeparated (columns.map (·.toString)) ++ ')'.toUInt8 :: tail))
    (blank : ∀ b ∈ spaces, isWhitespace b = true) :
    ∃ (t : Token) (l' : Lexer), t.type = .RPAREN ∧ l'.rest = tail ∧
      Columns l.tokens columns (t :: l'.tokens) := by
  induction columns generalizing l spaces with
  | nil =>
      obtain ⟨t, l', tokens, closes, left⟩ := tokens_mark .RPAREN input blank (by simp)
      exact ⟨t, l', closes, left, tokens ▸ .none _⟩
  | cons col rest ih =>
      obtain ⟨here, later⟩ := List.forall_mem_cons.mp named
      obtain ⟨bareHere, bareLater⟩ := List.forall_mem_cons.mp bare
      cases rest with
      | nil =>
          rw [List.map_cons, List.map_nil, commaSeparated, List.intercalate_singleton] at input
          obtain ⟨name, type, l', l'', tokens, isName, left, leads⟩ :=
            column_tokens here bareHere input blank (by simp [Closes])
          obtain ⟨t, l₃, tokens', closes, left'⟩ :=
            @tokens_mark .RPAREN _ _ [] _ left nofun (by simp)
          refine ⟨t, l₃, closes, left', ?_⟩
          rw [tokens]
          exact .last isName (leads _ _ (tokens' ▸ .none _ _))
      | cons col' rest =>
          rw [List.map_cons, List.map_cons, commaSeparated_cons_cons, List.append_assoc,
            List.append_assoc] at input
          obtain ⟨name, type, l', l'', tokens, isName, left, leads⟩ :=
            column_tokens here bareHere input blank fun b head =>
              .inr (.inl (Option.some.inj head).symm)
          have behind : l''.rest = [] ++ ','.toUInt8 :: (ascii " " ++
            (commaSeparated ((col' :: rest).map (·.toString)) ++ ')'.toUInt8 :: tail)) := left
          obtain ⟨comma, l₃, tokens', isComma, left'⟩ := tokens_mark .COMMA behind nofun (by simp)
          obtain ⟨t, l₄, closes, left'', columns⟩ := ih later bareLater left' blank_space
          refine ⟨t, l₄, closes, left'', ?_⟩
          rw [tokens]
          exact .more isName (leads _ _ (tokens' ▸ .none _ _)) isComma columns

end Columns

/-! ## Statements -/

/-- A statement as the parser builds it. -/
inductive Built : Statement → Prop where
  | select {tableName : Bytes} {limit : Int32} (named : tableName = [] ∨ IsName tableName)
      (counts : limit = -1 ∨ 0 ≤ limit) : Built (.select (starStatement tableName limit))
  | createTable {stmt : CreateTableStatement} (named : IsName stmt.tableName)
      (columns : ∀ col ∈ stmt.columns, IsName col.name) : Built (.createTable stmt)
  | dropTable {tableName : Bytes} (named : IsName tableName) : Built (.dropTable tableName)
  | showTables : Built .showTables
  | showDatabases : Built .showDatabases
  | useDatabase {databaseName : Bytes} (named : IsName databaseName) : Built (.useDatabase databaseName)

section Built
variable {ts rest : List Token} {stmt : Statement}

theorem columns_names {columns : List ColumnDefinition} (read : Columns ts columns rest)
    (named : ∀ t ∈ ts, Named t) : ∀ col ∈ columns, IsName col.name := by
  have name_eq {col col' : ColumnDefinition} {ts rest : List Token}
      (constraints : Constraints col ts col' rest) : col'.name = col.name ∧ rest <:+ ts := by
    induction constraints with
    | none col ts => exact ⟨rfl, List.suffix_rfl⟩
    | primaryKey _ _ _ ih | notNull _ _ _ ih | default _ _ ih =>
        exact ⟨ih.1, ih.2.trans ((List.suffix_cons _ _).trans (List.suffix_cons _ _))⟩
    | primary _ _ _ ih | not _ _ _ ih | autoIncrement _ _ ih =>
        exact ⟨ih.1, ih.2.trans (List.suffix_cons _ _)⟩
  induction read with
  | none => exact nofun
  | @last name type col ts rest isName constraints =>
      rintro col' (_ | ⟨_, ⟨⟩⟩)
      rw [(name_eq constraints).1]
      exact named name List.mem_cons_self isName
  | @more name type comma col cols ts between rest isName constraints isComma later ih =>
      obtain ⟨same, inside⟩ := name_eq constraints
      rw [List.forall_mem_cons, same]
      constructor
      · exact named name List.mem_cons_self isName
      · exact ih fun t member => named t (List.mem_cons_of_mem _ (List.mem_cons_of_mem _
          (inside.subset (List.mem_cons_of_mem _ member))))

theorem nonneg_of_stoi {t : Token} {limit : Int32} (numbered : Numbered t) (isNumber : t.type = .NUMBER)
    (parsed : stoi t.literal = .ok limit) : 0 ≤ limit := by
  rw [stoi_numbered numbered isNumber] at parsed
  split at parsed
  · rename_i small
    obtain rfl := Except.ok.inj parsed
    rw [Int32.le_iff_toInt_le, Int32.toInt_ofInt_of_le (by omega) (by omega)]
    exact Int.natCast_nonneg _
  · cases parsed

theorem built_of_sentence (sentence : Sentence ts stmt rest) (named : ∀ t ∈ ts, Named t)
    (numbered : ∀ t ∈ ts, Numbered t) : Built stmt := by
  cases sentence with
  | @select t star tableName limit ts between rest isSelect isStar table number =>
      have inside : ∀ t ∈ ts, Named t ∧ Numbered t := fun t member =>
        ⟨named t (by simp [member]), numbered t (by simp [member])⟩
      have name : (tableName = [] ∨ IsName tableName) ∧ ∀ t ∈ between, Numbered t := by
        cases table with
        | none => exact ⟨.inl rfl, fun t member => (inside t member).2⟩
        | table _ isName => exact ⟨.inr ((inside _ (by simp)).1 isName),
            fun t member => (inside t (by simp [member])).2⟩
      refine .select name.1 ?_
      cases number with
      | none => exact .inl rfl
      | number _ isNumber parsed => exact .inr (nonneg_of_stoi (name.2 _ (by simp)) isNumber parsed)
  | @createTable t table name opening closing columns ts rest _ _ isName _ read _ =>
      simp only [List.forall_mem_cons] at named
      obtain ⟨-, -, named, -, later⟩ := named
      exact .createTable (named isName) (columns_names read later)
  | dropTable _ _ isName => exact .dropTable (named _ (by simp) isName)
  | showTables => exact .showTables
  | showDatabases => exact .showDatabases
  | useDatabase _ isName => exact .useDatabase (named _ (by simp) isName)

end Built

/-! ## What is printed -/

def Statement.Bare : Statement → Prop
  | .createTable stmt => ∀ col ∈ stmt.columns, col.Bare
  | _ => True

section Printed
variable {input : Bytes} {stmt : Statement}

theorem statementTokens_eq {t : Token} {ts : List Token} (tokens : (Lexer.create input).tokens = t :: ts)
    (other : t.type ≠ .SEMICOLON) : statementTokens input = t :: ts := by
  rw [statementTokens, tokens, List.dropWhile_cons_of_neg (by simpa using other)]

theorem parseQuery_of_sentence (sentence : Sentence (statementTokens input) stmt []) :
    parseQuery input = .ok (some stmt, []) := by
  obtain ⟨q, ran, reads, -⟩ := parse_run input
  obtain ⟨q', parsed, -⟩ := parseHere_complete sentence nofun reads
  have whole := ran.trans parsed
  have clean : q'.errors = [] := by
    rcases parse_exclusive whole with ⟨none, -⟩ | ⟨-, clean⟩ | ⟨none, -⟩
    · cases none
    · exact clean
    · cases none
  rw [parseQuery_ok whole, clean]

theorem closes_nil : Closes [] := nofun

theorem sentence_createTable {stmt : CreateTableStatement} (named : IsName stmt.tableName)
    (columns : ∀ col ∈ stmt.columns, IsName col.name) (bare : ∀ col ∈ stmt.columns, col.Bare) :
    Sentence (statementTokens stmt.toString) (.createTable stmt) [] := by
  have input : (Lexer.create stmt.toString).rest = [] ++ (ascii "CREATE" ++ (ascii " " ++
      (ascii "TABLE" ++ (ascii " " ++ (stmt.tableName ++ (ascii " " ++ '('.toUInt8 ::
        ([] ++ (commaSeparated (stmt.columns.map (·.toString)) ++ ')'.toUInt8 :: [])))))))) := by
    rw [rest_create, CreateTableStatement.toString]
    simp only [List.append_assoc]
    rfl
  obtain ⟨create, l₁, tokens, isCreate, left⟩ := tokens_keyword .CREATE input nofun
    (by decide +kernel) (by decide +kernel) (closes_space _)
  obtain ⟨table, l₂, tokens', isTable, left⟩ := tokens_keyword .TABLE left blank_space
    (by decide +kernel) (by decide +kernel) (closes_space _)
  obtain ⟨name, l₃, tokens'', isName, literal, left⟩ :=
    tokens_word left blank_space named.1 (stops_space _)
  obtain ⟨opening, l₄, tokens₃, opens, left⟩ := tokens_mark .LPAREN left blank_space (by simp)
  obtain ⟨closing, l₅, closes, left, read⟩ := columns_tokens columns bare left nofun
  rw [tokens_nil left] at read
  rw [statementTokens_eq tokens (by simp [isCreate]), tokens', tokens'', tokens₃]
  have sentence := Sentence.createTable isCreate isTable (isName.trans named.2) opens read closes
  rwa [literal] at sentence

theorem sentence_words {first second : Token} {l l' : Lexer}
    (start : (Lexer.create input).tokens = first :: l.tokens) (other : first.type ≠ .SEMICOLON)
    (next : l.tokens = second :: l'.tokens) (ends : l'.rest = [])
    (sentence : Sentence [first, second] stmt []) : Sentence (statementTokens input) stmt [] := by
  rw [statementTokens_eq start other, next, tokens_nil ends]
  exact sentence

/-- A statement that is printed as two keywords. -/
theorem sentence_keywords {first second : Bytes} {one two : TokenType}
    (printed : input = first ++ (ascii " " ++ (second ++ [])))
    (isFirst : isWord first = true) (keyword : lookupKeyword first = one)
    (isSecond : isWord second = true) (keyword' : lookupKeyword second = two)
    (other : one ≠ .SEMICOLON)
    (sentence : ∀ t t' : Token, t.type = one → t'.type = two → Sentence [t, t'] stmt []) :
    Sentence (statementTokens input) stmt [] := by
  have start : (Lexer.create input).rest = [] ++ (first ++ (ascii " " ++ (second ++ []))) := by
    rw [rest_create, printed, List.nil_append]
  obtain ⟨t, l, tokens, isOne, left⟩ :=
    tokens_keyword one start nofun isFirst keyword (closes_space _)
  obtain ⟨t', l', tokens', isTwo, left⟩ :=
    tokens_keyword two left blank_space isSecond keyword' closes_nil
  exact sentence_words tokens (by rwa [isOne]) tokens' left (sentence t t' isOne isTwo)

theorem sentence_dropTable {tableName : Bytes} (named : IsName tableName) :
    Sentence (statementTokens (Statement.dropTable tableName).toString) (.dropTable tableName) [] := by
  have input : (Lexer.create (Statement.dropTable tableName).toString).rest = [] ++
      (ascii "DROP" ++ (ascii " " ++ (ascii "TABLE" ++ (ascii " " ++ (tableName ++ []))))) := by
    rw [rest_create, List.append_nil]
    rfl
  obtain ⟨drop, l₁, tokens, isDrop, left⟩ := tokens_keyword .DROP input nofun
    (by decide +kernel) (by decide +kernel) (closes_space _)
  obtain ⟨table, l₂, tokens', isTable, left⟩ := tokens_keyword .TABLE left blank_space
    (by decide +kernel) (by decide +kernel) (closes_space _)
  obtain ⟨name, l₃, tokens'', isName, literal, left⟩ :=
    tokens_word left blank_space named.1 nofun
  rw [statementTokens_eq tokens (by simp [isDrop]), tokens', tokens'', tokens_nil left]
  have sentence : Sentence [drop, table, name] (.dropTable name.literal) [] :=
    .dropTable isDrop isTable (isName.trans named.2)
  rwa [literal] at sentence

theorem sentence_useDatabase {databaseName : Bytes} (named : IsName databaseName) :
    Sentence (statementTokens (Statement.useDatabase databaseName).toString)
      (.useDatabase databaseName) [] := by
  have input : (Lexer.create (Statement.useDatabase databaseName).toString).rest =
      [] ++ (ascii "USE" ++ (ascii " " ++ (databaseName ++ []))) := by
    rw [rest_create, List.append_nil]
    rfl
  obtain ⟨start, l₁, tokens, isUse, left⟩ := tokens_keyword .USE input nofun
    (by decide +kernel) (by decide +kernel) (closes_space _)
  obtain ⟨name, l₂, tokens', isName, literal, left⟩ :=
    tokens_word left blank_space named.1 nofun
  have sentence : Sentence [start, name] (.useDatabase name.literal) [] :=
    .useDatabase isUse (isName.trans named.2)
  rw [literal] at sentence
  exact sentence_words tokens (by simp [isUse]) tokens' left sentence

theorem parseQuery_printed (built : Built stmt) (bare : stmt.Bare) :
    parseQuery stmt.toString = .ok (some stmt, []) := by
  cases built with
  | select named counts => exact parseQuery_starStatement named counts
  | createTable named columns =>
      exact parseQuery_of_sentence (sentence_createTable named columns bare)
  | dropTable named => exact parseQuery_of_sentence (sentence_dropTable named)
  | showTables =>
      apply parseQuery_of_sentence
      apply @sentence_keywords _ _ (ascii "SHOW") (ascii "TABLES") .SHOW .TABLES rfl <;>
        first | decide +kernel | exact fun _ _ => .showTables
  | showDatabases =>
      apply parseQuery_of_sentence
      apply @sentence_keywords _ _ (ascii "SHOW") (ascii "DATABASES") .SHOW .DATABASES rfl <;>
        first | decide +kernel | exact fun _ _ => .showDatabases
  | useDatabase named => exact parseQuery_of_sentence (sentence_useDatabase named)

theorem built_of_parsed {errors : List Bytes} (parsed : parseQuery input = .ok (some stmt, errors)) :
    Built stmt := by
  obtain ⟨q, ran, reads, -⟩ := parse_run input
  cases here : parseHere.run q with
  | error e q' =>
      rw [parseQuery_error (ran.trans here)] at parsed
      cases parsed
  | ok stmt' q' =>
      rw [parseQuery_ok (ran.trans here)] at parsed
      obtain ⟨rfl, -⟩ := Prod.mk.inj (Except.ok.inj parsed)
      obtain ⟨rest, -, sentence⟩ := parseHere_sound reads _ _ here stmt rfl
      have inside {t : Token} (member : t ∈ statementTokens input) : t ∈ (Lexer.create input).tokens :=
        (List.dropWhile_sublist _).mem member
      exact built_of_sentence sentence (fun t member => tokens_named _ t (inside member))
        (statementTokens_numbered input)

end Printed

/-- Whatever text a statement has been read from, with whatever spaces, comments, quotes and order
of constraints: it prints a text that is read as the same statement. -/
theorem reprinted {input : Bytes} {stmt : Statement} {errors : List Bytes}
    (parsed : parseQuery input = .ok (some stmt, errors)) (bare : stmt.Bare) :
    parseQuery stmt.toString = .ok (some stmt, []) :=
  parseQuery_printed (built_of_parsed parsed) bare

def accounts (default : String) : Bytes :=
  ascii "create  table accounts(id INT AUTO_INCREMENT PRIMARY KEY, -- the owner\nowner varchar DEFAULT '" ++
    ascii default ++ ascii "' not null);"

def accountsStatement (default : String) : CreateTableStatement where
  tableName := ascii "accounts"
  columns := [
    { name := ascii "id", type := ascii "INT", primaryKey := true, autoIncrement := true },
    { name := ascii "owner", type := ascii "varchar", notNull := true, defaultValue := ascii default }]

theorem accounts_reprinted : parseQuery (ascii
    "CREATE TABLE accounts (id INT PRIMARY KEY AUTO_INCREMENT, owner varchar NOT NULL DEFAULT root)") =
      .ok (some (.createTable (accountsStatement "root")), []) := by
  have text : Statement.toString (.createTable (accountsStatement "root")) = ascii
      "CREATE TABLE accounts (id INT PRIMARY KEY AUTO_INCREMENT, owner varchar NOT NULL DEFAULT root)" := by
    decide +kernel
  have bare : Statement.Bare (.createTable (accountsStatement "root")) := by
    rintro col (_ | ⟨_, _ | ⟨_, ⟨⟩⟩⟩)
    · exact ⟨.word (by decide +kernel), .inl rfl⟩
    · exact ⟨.word (by decide +kernel), .inr (.word (by decide +kernel))⟩
  have parsed : parseQuery (accounts "root") =
      .ok (some (.createTable (accountsStatement "root")), []) := by decide +kernel
  rw [← text]
  exact reprinted parsed bare

/-- A default of two words is read from a literal and printed without its quotes. -/
example : parseQuery (accounts "no one") = .ok (some (.createTable (accountsStatement "no one")), []) ∧
    parseQuery (accountsStatement "no one").toString ≠
      .ok (some (.createTable (accountsStatement "no one")), []) := by decide +kernel

end TinySql
