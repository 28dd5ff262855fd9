import TinySql.Sql.ParserLaws

/-!
# What is parsed

No expression is ever parsed, so that a SELECT is parsed from its tokens without recursion: all
columns, a table and a limit. The only exception is the one of `std::stoi` on the limit.
-/

namespace TinySql.Parser
open Frame

attribute [local irreducible] Lexer.nextToken

/-! ## SELECT, from its tokens -/

def front (ts : List Token) : Token := ts.headD { type := .EOF_TOKEN }

@[simp] theorem front_cons (t : Token) (ts : List Token) : front (t :: ts) = t := rfl

theorem Reads.type {ts : List Token} {p : Parser} (reads : Reads ts p) :
    p.currentToken.type = (front ts).type := by
  cases ts with
  | nil => exact reads.eof
  | cons t ts => exact congrArg Token.type reads.current

theorem Reads.literal {ts : List Token} {p : Parser} (reads : Reads ts p)
    (more : (front ts).type ≠ .EOF_TOKEN) : p.currentToken.literal = (front ts).literal := by
  cases ts with
  | nil => exact absurd rfl more
  | cons t ts => exact congrArg Token.literal reads.current

/-- The table of a FROM clause, empty when there is none, and the tokens behind it. -/
def fromOf (ts : List Token) : Option (Bytes × List Token) :=
  if (front ts).type = .FROM then
    if (front ts.tail).type = .IDENTIFIER then some ((front ts.tail).literal, ts.tail.tail)
    else none
  else some ([], ts)

/-- The number of a LIMIT clause, -1 when there is none. -/
def limitOf (ts : List Token) : Except Exn (Option Int32) :=
  if (front ts).type = .LIMIT then
    if (front ts.tail).type = .NUMBER then some <$> stoi (front ts.tail).literal else .ok none
  else .ok (some (-1))

def starStatement (tableName : Bytes) (limit : Int32) : SelectStatement :=
  { columns := [.identifier (ascii "*")], tableName := tableName, limit := limit }

/-- The SELECT that these tokens are taken for. -/
def selectOf (ts : List Token) : Except Exn (Option SelectStatement) :=
  if (front ts).type = .SELECT ∧ (front ts.tail).type = .ASTERISK then
    match fromOf ts.tail.tail with
    | none => .ok none
    | some (tableName, rest) =>
        if (front rest).type = .WHERE then .ok none
        else Option.map (starStatement tableName) <$> limitOf rest
  else .ok none

/-- The function has this result; when it returns something, it has recorded no error. -/
def Gives {α : Type} (m : ParserM (Option α)) (p : Parser) : Except Exn (Option α) → Prop
  | .ok none => ∃ q, m.run p = .ok none q
  | .ok (some a) => ∃ q, m.run p = .ok (some a) q ∧ q.errors = p.errors
  | .error e => ∃ q, m.run p = .error e q

section Gives
variable {α β : Type} {m : ParserM α} {f : α → ParserM (Option β)} {p q : Parser} {a : α}

theorem Gives.bind {r : Except Exn (Option β)} (ran : m.run p = .ok a q)
    (kept : q.errors = p.errors) (later : Gives (f a) q r) : Gives (m >>= f) p r := by
  match r, later with
  | .ok none, later =>
      obtain ⟨q', ran'⟩ := later
      exact ⟨q', by rw [run_bind_ok ran, ran']⟩
  | .ok (some b), later =>
      obtain ⟨q', ran', kept'⟩ := later
      exact ⟨q', by rw [run_bind_ok ran, ran'], kept'.trans kept⟩
  | .error e, later =>
      obtain ⟨q', ran'⟩ := later
      exact ⟨q', by rw [run_bind_ok ran, ran']⟩

theorem Gives.stop (ran : m.run p = .ok a q) (stops : (f a).run q = .ok none q) :
    Gives (m >>= f) p (.ok none) :=
  ⟨q, by rw [run_bind_ok ran, stops]⟩

theorem Gives.map {g : α → β} {m : ParserM (Option α)} {r : Except Exn (Option α)}
    (gives : Gives m p r) : Gives (do return (← m).map g) p (Option.map g <$> r) := by
  match r, gives with
  | .ok none, gives =>
      obtain ⟨q, ran⟩ := gives
      exact ⟨q, run_bind_ok ran⟩
  | .ok (some a), gives =>
      obtain ⟨q, ran, kept⟩ := gives
      exact ⟨q, run_bind_ok ran, kept⟩
  | .error e, gives =>
      obtain ⟨q, ran⟩ := gives
      exact ⟨q, by rw [EStateM.run_bind, ran]⟩

end Gives

variable {ts : List Token} {p : Parser}

theorem parseFrom_run (reads : Reads ts p) : match fromOf ts with
    | some (tableName, rest) => ∃ q, parseFrom.run p = .ok (some tableName) q ∧ Reads rest q ∧
        q.errors = p.errors
    | none => ∃ q, parseFrom.run p = .ok none q := by
  unfold fromOf
  rw [parseFrom, run_get_bind, reads.type]
  by_cases clause : (front ts).type = .FROM
  · rw [if_pos clause, if_pos clause, run_bind_ok (nextToken_run p), run_get_bind]
    dsimp only
    rw [reads.next.type]
    by_cases name : (front ts.tail).type = .IDENTIFIER
    · rw [if_pos name, if_neg (not_not_intro name), reads.next.literal (by simp [name])]
      exact ⟨p.next.next, rfl, reads.next.next, rfl⟩
    · rw [if_neg name, if_pos name]
      exact ⟨_, rfl⟩
  · rw [if_neg clause, if_neg clause]
    exact ⟨p, rfl, reads, rfl⟩

theorem parseWhere_run (reads : Reads ts p) :
    if (front ts).type = .WHERE then ∃ q, parseWhere.run p = .ok none q
    else parseWhere.run p = .ok (some none) p := by
  rw [parseWhere, run_get_bind, reads.type]
  by_cases clause : (front ts).type = .WHERE
  · rw [if_pos clause, if_pos clause, run_bind_ok (nextToken_run p)]
    obtain ⟨q, ran, -⟩ := parseExpression_null ⟨_, reads.next, Nat.le_refl _⟩
    exact ⟨q, by rw [run_bind_ok ran]; rfl⟩
  · rw [if_neg clause, if_neg clause]
    rfl

theorem parseLimit_gives (reads : Reads ts p) : Gives parseLimit p (limitOf ts) := by
  unfold limitOf parseLimit
  refine Gives.bind (EStateM.run_get p) rfl ?_
  dsimp only
  rw [reads.type]
  by_cases clause : (front ts).type = .LIMIT
  · rw [if_pos clause, if_pos clause]
    refine Gives.bind (nextToken_run p) rfl (Gives.bind (EStateM.run_get p.next) rfl ?_)
    rw [reads.next.type]
    by_cases number : (front ts.tail).type = .NUMBER
    · rw [if_pos number, if_neg (not_not_intro number), reads.next.literal (by simp [number])]
      cases stoi (front ts.tail).literal with
      | ok limit => exact ⟨p.next.next, rfl, rfl⟩
      | error e => exact ⟨p.next, rfl⟩
    · rw [if_neg number, if_pos number]
      exact ⟨_, rfl⟩
  · rw [if_neg clause, if_neg clause]
    exact ⟨p, rfl, rfl⟩

theorem parseSelectStatement_gives (reads : Reads ts p) (start : (front ts).type = .SELECT) :
    Gives parseSelectStatement p (selectOf ts) := by
  unfold selectOf parseSelectStatement
  have begins : (expectAndNext .SELECT).run p = .ok true p.next := by
    cases expectAndNext_run .SELECT p with
    | inl taken => exact taken.2
    | inr refused => exact absurd (reads.type.trans start) refused.1
  refine Gives.bind begins rfl ?_
  rw [if_neg (by decide)]
  by_cases star : (front ts.tail).type = .ASTERISK
  · rw [if_pos ⟨start, star⟩]
    refine Gives.bind (parseColumns_star (reads.next.type.trans star)) rfl ?_
    have table := parseFrom_run reads.next.next
    cases clause : fromOf ts.tail.tail with
    | none =>
        rw [clause] at table
        obtain ⟨q, ran⟩ := table
        exact Gives.stop ran rfl
    | some found =>
        rw [clause] at table
        obtain ⟨q, ran, behind, kept⟩ := table
        refine Gives.bind ran kept ?_
        have condition := parseWhere_run behind
        dsimp only
        by_cases present : (front found.2).type = .WHERE
        · rw [if_pos present] at condition ⊢
          obtain ⟨q', ran'⟩ := condition
          exact Gives.stop ran' rfl
        · rw [if_neg present] at condition ⊢
          refine Gives.bind condition rfl ?_
          have limit := parseLimit_gives behind
          match number : limitOf found.2, limit with
          | .ok none, limit =>
              obtain ⟨q', ran'⟩ := limit
              exact Gives.stop ran' rfl
          | .ok (some n), limit =>
              obtain ⟨q', ran', kept'⟩ := limit
              exact Gives.bind ran' kept' ⟨q', rfl, rfl⟩
          | .error e, limit =>
              obtain ⟨q', ran'⟩ := limit
              refine ⟨q', ?_⟩
              dsimp only
              rw [EStateM.run_bind, ran']
  · rw [if_neg fun both => star both.2]
    have other : p.next.currentToken.type ≠ .ASTERISK := fun same =>
      star (reads.next.type.symm.trans same)
    obtain ⟨q, ran, -⟩ := parseColumns_null ⟨_, reads.next, Nat.le_refl _⟩ other
    exact Gives.stop ran rfl

/-! ## Statements -/

theorem skipSemicolons_run (k : Nat) (reads : Reads ts p) (enough : ts.length < k) :
    ∃ q, (skipSemicolons k).run p = .ok () q ∧ Reads (ts.dropWhile (·.type == .SEMICOLON)) q ∧
      q.errors = p.errors := by
  induction k generalizing ts p with
  | zero => exact absurd enough (Nat.not_lt_zero _)
  | succ k ih =>
      rw [skipSemicolons, run_get_bind, reads.type]
      cases ts with
      | nil => exact ⟨p, rfl, reads, rfl⟩
      | cons t ts =>
          change ∃ q, EStateM.run (if t.type = .SEMICOLON then _ else _) p = _ ∧ _
          by_cases semicolon : t.type = .SEMICOLON
          · rw [if_pos semicolon, run_bind_ok (nextToken_run p),
              List.dropWhile_cons_of_pos (by simp [semicolon])]
            exact ih reads.next (Nat.lt_of_succ_lt_succ enough)
          · rw [if_neg semicolon, List.dropWhile_cons_of_neg (by simp [semicolon])]
            exact ⟨p, rfl, reads, rfl⟩

def parseHere : ParserM (Option Statement) := do
  let token := (← get).currentToken
  match token.type with
  | .EOF_TOKEN => return none
  | .SELECT => return (← parseSelectStatement).map .select
  | .INSERT => return (← parseInsertStatement).map .insert
  | .CREATE => return (← parseCreateTableStatement).map .createTable
  | .DROP => return (← parseDropTableStatement).map .dropTable
  | .SHOW => parseShowStatement
  | .USE => return (← parseUseStatement).map .useDatabase
  | _ => fail (ascii "Unexpected token: " ++ token.literal)

theorem parseHere_select (reads : Reads ts p) (start : (front ts).type = .SELECT) :
    Gives parseHere p (Option.map Statement.select <$> selectOf ts) := by
  refine Gives.bind (EStateM.run_get p) rfl ?_
  dsimp only
  rw [reads.type, start]
  exact (parseSelectStatement_gives reads start).map

theorem parseHere_plain {n : Nat} (within : Within n p) (other : p.currentToken.type ≠ .SELECT) :
    Ends n Plain parseHere p := by
  apply Ends.get
  dsimp only
  cases type : p.currentToken.type
  case SELECT => exact absurd type other
  case EOF_TOKEN => exact .pure (Q := Plain) trivial within
  case INSERT =>
    apply (parseInsertStatement_none within).bind
    rintro stmt q rfl inside
    exact .pure (Q := Plain) trivial inside
  case CREATE =>
    apply (parseCreateTableStatement_ends within).bind
    intro stmt q _ inside
    cases stmt <;> exact .pure (Q := Plain) trivial inside
  case DROP =>
    apply (parseDropTableStatement_ends within).bind
    intro stmt q _ inside
    cases stmt <;> exact .pure (Q := Plain) trivial inside
  case SHOW => exact parseShowStatement_ends within
  case USE =>
    apply (parseUseStatement_ends within).bind
    intro stmt q _ inside
    cases stmt <;> exact .pure (Q := Plain) trivial inside
  all_goals exact fail_ends within _ trivial

theorem parse_eq : parse = (do
    modify fun p => { p with errors := [] }
    skipSemicolons (← get).bound
    parseHere) := rfl

def statementTokens (input : Bytes) : List Token :=
  (Lexer.create input).tokens.dropWhile (·.type == .SEMICOLON)

theorem parse_run (input : Bytes) : ∃ q, parse.run (create input) = parseHere.run q ∧
    Reads (statementTokens input) q ∧ q.errors = [] := by
  have reads : Reads (Lexer.create input).tokens (create input) :=
    ⟨_, [], create_standing input, rfl⟩
  have fresh := reads.errors []
  have more : (Lexer.create input).tokens.length < 2 * (Lexer.create input).tokens.length + 2 := by
    omega
  obtain ⟨q, ran, here, kept⟩ := skipSemicolons_run _ fresh (more.trans_le fresh.bound)
  refine ⟨q, ?_, here, kept⟩
  rw [parse_eq, run_bind_ok (EStateM.run_modify _ _), run_get_bind, run_bind_ok ran]

theorem parseQuery_ok {input : Bytes} {stmt : Option Statement} {q : Parser}
    (ran : parse.run (create input) = .ok stmt q) : parseQuery input = .ok (stmt, q.errors) := by
  unfold parseQuery
  rw [ran]

theorem parseQuery_error {input : Bytes} {e : Exn} {q : Parser}
    (ran : parse.run (create input) = .error e q) : parseQuery input = .error e := by
  unfold parseQuery
  rw [ran]

theorem parseQuery_select {input : Bytes} (start : (front (statementTokens input)).type = .SELECT) :
    match selectOf (statementTokens input) with
    | .ok none => ∃ errors, parseQuery input = .ok (none, errors)
    | .ok (some stmt) => parseQuery input = .ok (some (.select stmt), [])
    | .error e => parseQuery input = .error e := by
  obtain ⟨q, ran, reads, fresh⟩ := parse_run input
  have gives := parseHere_select reads start
  generalize selectOf (statementTokens input) = r at gives ⊢
  cases r with
  | error e =>
      obtain ⟨q', ran'⟩ : ∃ q', parseHere.run q = .error e q' := gives
      exact parseQuery_error (ran.trans ran')
  | ok stmt =>
      cases stmt with
      | none =>
          obtain ⟨q', ran'⟩ : ∃ q', parseHere.run q = .ok none q' := gives
          exact ⟨q'.errors, parseQuery_ok (ran.trans ran')⟩
      | some stmt =>
          obtain ⟨q', ran', kept⟩ : ∃ q', parseHere.run q = .ok (some (.select stmt)) q' ∧
            q'.errors = q.errors := gives
          have parsed := parseQuery_ok (ran.trans ran')
          rwa [kept, fresh] at parsed

theorem parseQuery_plain {input : Bytes} (other : (front (statementTokens input)).type ≠ .SELECT) :
    ∃ stmt errors, Plain stmt ∧ parseQuery input = .ok (stmt, errors) := by
  obtain ⟨q, ran, reads, -⟩ := parse_run input
  have within : Within (statementTokens input).length q := ⟨_, reads, Nat.le_refl _⟩
  have here : q.currentToken.type ≠ .SELECT := fun same => other (reads.type.symm.trans same)
  obtain ⟨stmt, q', ran', plain, -⟩ := parseHere_plain within here
  exact ⟨stmt, q'.errors, plain, parseQuery_ok (ran.trans ran')⟩

/-! ## The number behind LIMIT -/

/-- A SELECT of all columns, up to a LIMIT clause with a number that is no `int`. -/
def LimitOverflows (ts : List Token) : Prop :=
  (front ts).type = .SELECT ∧ (front ts.tail).type = .ASTERISK ∧
    ∃ tableName rest, fromOf ts.tail.tail = some (tableName, rest) ∧ (front rest).type = .LIMIT ∧
      (front rest.tail).type = .NUMBER ∧ 2 ^ 31 ≤ leadingNumber (front rest.tail).literal

theorem fromOf_suffix {ts rest : List Token} {tableName : Bytes}
    (clause : fromOf ts = some (tableName, rest)) : rest <:+ ts := by
  unfold fromOf at clause
  split_ifs at clause
  · obtain ⟨-, rfl⟩ := Prod.mk.inj (Option.some.inj clause)
    exact (List.tail_suffix _).trans (List.tail_suffix _)
  · obtain ⟨-, rfl⟩ := Prod.mk.inj (Option.some.inj clause)
    exact List.suffix_refl _

theorem front_mem {ts : List Token} (more : (front ts).type ≠ .EOF_TOKEN) : front ts ∈ ts := by
  cases ts with
  | nil => exact absurd rfl more
  | cons t ts => exact List.mem_cons_self

theorem stoi_numbered {t : Token} (numbered : Lexer.Numbered t) (number : t.type = .NUMBER) :
    stoi t.literal = if leadingNumber t.literal < 2 ^ 31 then
      .ok (Int32.ofInt (leadingNumber t.literal)) else .error (.outOfRange (ascii "stoi")) := by
  obtain ⟨b, rest, literal, digit⟩ := numbered number
  rw [literal]
  exact stoi_number (strtol_digit digit)

theorem limitOf_cases {ts : List Token} (numbered : ∀ t ∈ ts, Lexer.Numbered t) :
    (((front ts).type = .LIMIT ∧ (front ts.tail).type = .NUMBER ∧
        2 ^ 31 ≤ leadingNumber (front ts.tail).literal) ∧
      limitOf ts = .error (.outOfRange (ascii "stoi"))) ∨
    ¬ ((front ts).type = .LIMIT ∧ (front ts.tail).type = .NUMBER ∧
        2 ^ 31 ≤ leadingNumber (front ts.tail).literal) ∧ ∃ limit, limitOf ts = .ok limit := by
  unfold limitOf
  by_cases clause : (front ts).type = .LIMIT
  · by_cases number : (front ts.tail).type = .NUMBER
    · have more : (front ts.tail).type ≠ .EOF_TOKEN := by simp [number]
      have inside := List.mem_of_mem_tail (front_mem more)
      rw [stoi_numbered (numbered _ inside) number, if_pos clause, if_pos number]
      by_cases big : 2 ^ 31 ≤ leadingNumber (front ts.tail).literal
      · rw [if_neg (Nat.not_lt.mpr big)]
        exact .inl ⟨⟨clause, number, big⟩, rfl⟩
      · rw [if_pos (Nat.not_le.mp big)]
        exact .inr ⟨fun all => big all.2.2, _, rfl⟩
    · rw [if_pos clause, if_neg number]
      exact .inr ⟨fun all => number all.2.1, _, rfl⟩
  · rw [if_neg clause]
    exact .inr ⟨fun all => clause all.1, _, rfl⟩

theorem selectOf_cases {ts : List Token} (numbered : ∀ t ∈ ts, Lexer.Numbered t) :
    (LimitOverflows ts ∧ selectOf ts = .error (.outOfRange (ascii "stoi"))) ∨
      ¬ LimitOverflows ts ∧ ∃ stmt, selectOf ts = .ok stmt ∧
        ∀ select ∈ stmt, ∃ tableName limit, select = starStatement tableName limit := by
  unfold selectOf LimitOverflows
  by_cases start : (front ts).type = .SELECT ∧ (front ts.tail).type = .ASTERISK
  · rw [if_pos start]
    cases clause : fromOf ts.tail.tail with
    | none => exact .inr ⟨by simp, none, rfl, by simp⟩
    | some found =>
        obtain ⟨tableName, rest⟩ := found
        have suffix : rest <:+ ts :=
          (fromOf_suffix clause).trans ((List.tail_suffix _).trans (List.tail_suffix _))
        have limit := limitOf_cases fun t member => numbered t (suffix.mem member)
        dsimp only
        by_cases condition : (front rest).type = .WHERE
        · rw [if_pos condition]
          refine .inr ⟨?_, none, rfl, by simp⟩
          rintro ⟨-, -, _, _, same, here, -⟩
          obtain ⟨-, rfl⟩ := Prod.mk.inj (Option.some.inj same)
          rw [condition] at here
          cases here
        · rw [if_neg condition]
          rcases limit with ⟨overflow, stops⟩ | ⟨fits, limit, number⟩
          · exact .inl ⟨⟨start.1, start.2, tableName, rest, rfl, overflow⟩, by rw [stops]; rfl⟩
          · refine .inr ⟨?_, limit.map (starStatement tableName), by rw [number]; rfl, ?_⟩
            · rintro ⟨-, -, _, _, same, overflow⟩
              obtain ⟨-, rfl⟩ := Prod.mk.inj (Option.some.inj same)
              exact fits overflow
            · intro select member
              obtain ⟨n, -, rfl⟩ := Option.map_eq_some_iff.mp member
              exact ⟨tableName, n, rfl⟩
  · rw [if_neg start]
    exact .inr ⟨fun all => start ⟨all.1, all.2.1⟩, none, rfl, by simp⟩

theorem statementTokens_numbered (input : Bytes) :
    ∀ t ∈ statementTokens input, Lexer.Numbered t := fun t member =>
  Lexer.tokens_numbered _ t ((List.dropWhile_sublist _).mem member)

/-- `parse` throws on a text exactly when its limit overflows; what it returns is a SELECT of all
columns, no INSERT, or another statement. -/
theorem parseQuery_cases (input : Bytes) :
    (LimitOverflows (statementTokens input) ∧
      parseQuery input = .error (.outOfRange (ascii "stoi"))) ∨
    ¬ LimitOverflows (statementTokens input) ∧ ∃ stmt errors,
      parseQuery input = .ok (stmt, errors) ∧
        (Plain stmt ∨ ∃ tableName limit, stmt = some (.select (starStatement tableName limit))) := by
  by_cases start : (front (statementTokens input)).type = .SELECT
  · have parsed := parseQuery_select start
    rcases selectOf_cases (statementTokens_numbered input) with
      ⟨overflow, stops⟩ | ⟨fits, stmt, select, star⟩
    · rw [stops] at parsed
      exact .inl ⟨overflow, parsed⟩
    · rw [select] at parsed
      cases stmt with
      | none =>
          obtain ⟨errors, parsed⟩ := parsed
          exact .inr ⟨fits, none, errors, parsed, .inl trivial⟩
      | some stmt =>
          obtain ⟨tableName, limit, rfl⟩ := star stmt rfl
          exact .inr ⟨fits, _, [], parsed, .inr ⟨tableName, limit, rfl⟩⟩
  · obtain ⟨stmt, errors, plain, parsed⟩ := parseQuery_plain start
    exact .inr ⟨fun all => start all.1, stmt, errors, parsed, .inl plain⟩

end TinySql.Parser
