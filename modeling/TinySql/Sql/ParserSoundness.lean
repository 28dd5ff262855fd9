import TinySql.Sql.Grammar
import TinySql.Sql.QueryLaws

/-!
# What of a text is parsed

`parse` builds the statements of the grammar from the tokens at the front of a text, and does not
look at those behind them. So a text is used up exactly when it is one statement of the grammar.
-/

namespace TinySql.Parser
open Frame Grammar

attribute [local irreducible] Lexer.nextToken

def remaining (p : Parser) : List Token :=
  (p.currentToken :: p.peekToken :: p.lexer.tokens).takeWhile (·.type != .EOF_TOKEN)

def UsedUp (p : Parser) : Prop := ∀ t ∈ p.remaining, t.type = .SEMICOLON

variable {α β : Type} {ts : List Token} {p : Parser}

theorem Reads.remaining (reads : Reads ts p) : p.remaining = ts := by
  have later (l : Lexer) : l.tokens.takeWhile (·.type != .EOF_TOKEN) = l.tokens := by
    rw [List.takeWhile_eq_self_iff]
    intro t member
    simpa using Lexer.tokens_ne_eof l t member
  have first (l : Lexer) : (l.nextToken.1 :: l.nextToken.2.tokens).takeWhile
      (·.type != .EOF_TOKEN) = l.tokens := by
    by_cases eof : l.nextToken.1.type = .EOF_TOKEN
    · simp [eof, Lexer.tokens_eof eof]
    · simp [eof, Lexer.tokens_more eof, later]
  obtain ⟨l, errors, rfl, rfl⟩ := reads
  rw [Parser.remaining, standing]
  by_cases eof : l.nextToken.1.type = .EOF_TOKEN
  · simp [eof, Lexer.tokens_eof eof]
  · rw [List.takeWhile_cons_of_pos (by simpa using eof), first, Lexer.tokens_more eof]

theorem Reads.more (reads : Reads ts p) (more : p.currentToken.type ≠ .EOF_TOKEN) :
    ∃ rest, ts = p.currentToken :: rest ∧ Reads rest p.next := by
  cases ts with
  | nil => exact absurd reads.eof more
  | cons t rest => exact ⟨rest, by rw [reads.current], reads.next⟩

theorem Reads.head_ne {type : TokenType} (reads : Reads ts p) (other : p.currentToken.type ≠ type) :
    ∀ t ∈ ts.head?, t.type ≠ type := by
  cases ts with
  | nil => simp
  | cons t rest =>
      rw [reads.current] at other
      simpa using other

theorem Reads.current_ne {type : TokenType} (reads : Reads ts p) (named : type ≠ .EOF_TOKEN)
    (other : ∀ t ∈ ts.head?, t.type ≠ type) : p.currentToken.type ≠ type := by
  cases ts with
  | nil => exact reads.eof ▸ named.symm
  | cons t rest =>
      rw [reads.current]
      exact other t rfl

/-! ## Soundness -/

/-- What the function builds comes from the tokens up to those it leaves. -/
def Builds (m : ParserM (Option α)) (p : Parser) (Q : α → List Token → Prop) : Prop :=
  Ensures m p fun a q => ∀ x ∈ a, ∃ rest, Reads rest q ∧ Q x rest

section Builds
variable {Q : α → List Token → Prop} {R : β → List Token → Prop}

theorem ensures_next {P : α → Parser → Prop} {f : Unit → ParserM α}
    (later : Ensures (f ()) p.next P) : Ensures (nextToken >>= f) p P := later

theorem builds_null : Builds (pure none : ParserM (Option α)) p Q :=
  .pure nofun

theorem builds_fail (message : Bytes) : Builds (fail message : ParserM (Option α)) p Q := by
  intro a q ran
  cases ran
  nofun

theorem builds_some {x : α} (reads : Reads ts p) (holds : Q x ts) : Builds (pure (some x)) p Q := by
  apply Ensures.pure
  intro y same
  cases same
  exact ⟨ts, reads, holds⟩

theorem Builds.bind {m : ParserM (Option α)} {f : Option α → ParserM (Option β)}
    (first : Builds m p Q) (stops : f none = pure none)
    (later : ∀ x q rest, Reads rest q → Q x rest → Builds (f (some x)) q R) :
    Builds (m >>= f) p R := by
  refine Ensures.bind first ?_
  intro a q built
  cases a with
  | none =>
      rw [stops]
      exact builds_null
  | some x =>
      obtain ⟨rest, reads, holds⟩ := built x rfl
      exact later x q rest reads holds

theorem Builds.mono {Q' : α → List Token → Prop} {m : ParserM (Option α)} (first : Builds m p Q)
    (weaker : ∀ x rest, Q x rest → Q' x rest) : Builds m p Q' := by
  intro a q ran x same
  obtain ⟨rest, reads, holds⟩ := first a q ran x same
  exact ⟨rest, reads, weaker x rest holds⟩

theorem Builds.map {g : α → β} {m : ParserM (Option α)} (first : Builds m p Q)
    (holds : ∀ x rest, Q x rest → R (g x) rest) : Builds (do return (← m).map g) p R := by
  refine first.bind rfl ?_
  intro x q rest reads built
  exact builds_some reads (holds x rest built)

theorem Builds.expect {type : TokenType} {m : ParserM (Option α)} (reads : Reads ts p)
    (named : type ≠ .EOF_TOKEN)
    (later : ∀ t rest, ts = t :: rest → t.type = type → Reads rest p.next → Builds m p.next Q) :
    Builds (do if !(← expectAndNext type) then return none else m) p Q := by
  rcases expectAndNext_run type p with ⟨same, ran⟩ | ⟨-, errors, ran⟩
  · obtain ⟨rest, split, behind⟩ := reads.more (same ▸ named)
    intro a q ran'
    rw [run_bind_ok ran] at ran'
    exact later _ rest split same behind a q ran'
  · intro a q ran'
    rw [run_bind_ok ran] at ran'
    exact builds_null a q ran'

end Builds

theorem parseConstraints_sound (k : Nat) (col : ColumnDefinition) (reads : Reads ts p) :
    Ensures (parseConstraints k col) p fun col' q =>
      ∃ rest, Reads rest q ∧ (Constraints col ts col' rest ∨ rest = []) := by
  induction k generalizing ts p col with
  | zero => exact ensures_throw _
  | succ k ih =>
      have goesOn {col₁ : ColumnDefinition} {ts₁ : List Token} {q : Parser} (here : Reads ts₁ q)
          (grows : ∀ {col' rest}, Constraints col₁ ts₁ col' rest → Constraints col ts col' rest) :
          Ensures (parseConstraints k col₁) q fun col' q =>
            ∃ rest, Reads rest q ∧ (Constraints col ts col' rest ∨ rest = []) := by
        refine (ih col₁ here).mono ?_
        rintro col' q ⟨rest, reads, constraints⟩
        exact ⟨rest, reads, constraints.imp_left grows⟩
      rw [parseConstraints]
      apply Ensures.get
      cases type : p.currentToken.type
      case PRIMARY =>
        obtain ⟨ts, rfl, behind⟩ := reads.more (by simp [type])
        apply ensures_next
        apply Ensures.get
        by_cases key : p.next.currentToken.type = .KEY
        · obtain ⟨ts, rfl, later⟩ := behind.more (by simp [key])
          rw [if_pos key]
          apply ensures_next
          exact goesOn later (.primaryKey type key)
        · rw [if_neg key]
          exact goesOn behind (.primary type (behind.head_ne key))
      case NOT =>
        obtain ⟨ts, rfl, behind⟩ := reads.more (by simp [type])
        apply ensures_next
        apply Ensures.get
        by_cases null : p.next.currentToken.type = .NULL_TOKEN
        · obtain ⟨ts, rfl, later⟩ := behind.more (by simp [null])
          rw [if_pos null]
          apply ensures_next
          exact goesOn later (.notNull type null)
        · rw [if_neg null]
          exact goesOn behind (.not type (behind.head_ne null))
      case AUTO_INCREMENT =>
        obtain ⟨ts, rfl, behind⟩ := reads.more (by simp [type])
        apply ensures_next
        exact goesOn behind (.autoIncrement type)
      case DEFAULT =>
        obtain ⟨ts, rfl, behind⟩ := reads.more (by simp [type])
        apply ensures_next
        apply Ensures.get
        apply ensures_next
        refine (ih _ behind.next).mono ?_
        rintro col' q ⟨rest, reads, constraints⟩
        refine ⟨rest, reads, ?_⟩
        cases ts with
        | nil => exact .inr (constraints.elim Constraints.of_nil id)
        | cons value ts =>
            rw [behind.current] at constraints
            exact constraints.imp_left (.default type)
      all_goals exact .pure ⟨ts, reads, .inl (.none col ts)⟩

theorem parseColumnDefinitions_sound (k : Nat) (reads : Reads ts p) :
    Builds (parseColumnDefinitions k) p fun cols rest => Columns ts cols rest ∨ rest = [] := by
  induction k generalizing ts p with
  | zero => exact ensures_throw _
  | succ k ih =>
      rw [parseColumnDefinitions]
      apply Ensures.get
      dsimp only
      split
      · exact builds_some reads (.inl (.none ts))
      · by_cases name : p.currentToken.type = .IDENTIFIER
        · obtain ⟨ts, rfl, behind⟩ := reads.more (by simp [name])
          rw [if_neg (not_not_intro name)]
          apply ensures_next
          apply Ensures.get
          apply ensures_next
          apply Ensures.get
          refine Ensures.bind (parseConstraints_sound _ _ behind.next) ?_
          rintro col q ⟨rest, here, found⟩
          have typed : (∃ type between, ts = type :: between ∧
              Constraints { name := p.currentToken.literal, type := type.literal }
                between col rest) ∨ rest = [] := by
            cases ts with
            | nil => exact .inr (found.elim Constraints.of_nil id)
            | cons type between =>
                rw [behind.current] at found
                exact found.imp_left fun constraints => ⟨type, between, rfl, constraints⟩
          apply Ensures.get
          by_cases comma : q.currentToken.type = .COMMA
          · obtain ⟨between, rfl, later⟩ := here.more (by simp [comma])
            obtain ⟨type, ts, rfl, constraints⟩ := typed.resolve_right (List.cons_ne_nil _ _)
            rw [if_pos comma]
            apply ensures_next
            refine (ih later).map ?_
            intro cols rest columns
            exact columns.imp_left (.more name constraints comma)
          · rw [if_neg comma]
            apply builds_some here
            apply typed.imp_left
            rintro ⟨type, between, rfl, constraints⟩
            exact .last name constraints
        · rw [if_pos name]
          exact builds_fail _

theorem parseColumns_sound (reads : Reads ts p) : Builds parseColumns p fun cols rest =>
    cols = [.identifier (ascii "*")] ∧ ∃ star, star.type = .ASTERISK ∧ ts = star :: rest := by
  apply Ensures.get
  by_cases star : p.currentToken.type = .ASTERISK
  · obtain ⟨ts, rfl, behind⟩ := reads.more (by simp [star])
    rw [if_pos star]
    apply ensures_next
    exact builds_some behind ⟨rfl, _, star, rfl⟩
  · obtain ⟨q, ran, -⟩ := parseExpressions_null ⟨ts, reads, Nat.le_refl _⟩ (bound_pos p)
    rw [if_neg star]
    intro a q' ran'
    rw [run_get_bind, ran] at ran'
    cases ran'
    nofun

theorem parseFrom_sound (reads : Reads ts p) : Builds parseFrom p (FromClause ts) := by
  apply Ensures.get
  by_cases clause : p.currentToken.type = .FROM
  · obtain ⟨ts, rfl, behind⟩ := reads.more (by simp [clause])
    rw [if_pos clause]
    apply ensures_next
    apply Ensures.get
    by_cases name : p.next.currentToken.type = .IDENTIFIER
    · obtain ⟨ts, rfl, later⟩ := behind.more (by simp [name])
      dsimp only
      rw [if_neg (not_not_intro name)]
      apply ensures_next
      exact builds_some later (.table clause name)
    · dsimp only
      rw [if_pos name]
      exact builds_fail _
  · rw [if_neg clause]
    exact builds_some reads (.none ts)

theorem parseWhere_sound (reads : Reads ts p) :
    Builds parseWhere p fun condition rest => condition = none ∧ rest = ts := by
  apply Ensures.get
  by_cases clause : p.currentToken.type = .WHERE
  · obtain ⟨q, ran, -⟩ := parseExpression_null ⟨ts.tail, reads.next, Nat.le_refl _⟩
    rw [if_pos clause]
    apply ensures_next
    intro a q' ran'
    rw [run_bind_ok ran] at ran'
    cases ran'
    nofun
  · rw [if_neg clause]
    exact builds_some reads ⟨rfl, rfl⟩

theorem parseLimit_sound (reads : Reads ts p) : Builds parseLimit p (LimitClause ts) := by
  apply Ensures.get
  by_cases clause : p.currentToken.type = .LIMIT
  · obtain ⟨ts, rfl, behind⟩ := reads.more (by simp [clause])
    rw [if_pos clause]
    apply ensures_next
    apply Ensures.get
    by_cases number : p.next.currentToken.type = .NUMBER
    · obtain ⟨ts, rfl, later⟩ := behind.more (by simp [number])
      dsimp only
      rw [if_neg (not_not_intro number)]
      cases converted : stoi p.next.currentToken.literal with
      | error e => exact ensures_throw e
      | ok limit =>
          apply ensures_next
          exact builds_some later (.number clause number converted)
    · dsimp only
      rw [if_pos number]
      exact builds_fail _
  · rw [if_neg clause]
    exact builds_some reads (.none ts)

theorem parseName_sound (reads : Reads ts p) (message : String) :
    Builds (parseName message) p fun name rest =>
      ∃ t, t.type = .IDENTIFIER ∧ ts = t :: rest ∧ name = t.literal := by
  apply Ensures.get
  by_cases name : p.currentToken.type = .IDENTIFIER
  · obtain ⟨ts, rfl, behind⟩ := reads.more (by simp [name])
    dsimp only
    rw [if_neg (not_not_intro name)]
    apply ensures_next
    exact builds_some behind ⟨_, name, rfl, rfl⟩
  · dsimp only
    rw [if_pos name]
    exact builds_fail _

theorem parseSelectStatement_sound (reads : Reads ts p) :
    Builds parseSelectStatement p fun stmt rest => Sentence ts (.select stmt) rest := by
  refine Builds.expect reads (by decide) fun t ts₁ split start fields => ?_
  refine (parseColumns_sound fields).bind rfl ?_
  rintro columns q ts₂ clauses ⟨rfl, star, isStar, rfl⟩
  dsimp only
  refine (parseFrom_sound clauses).bind rfl ?_
  intro tableName q between condition table
  dsimp only
  refine (parseWhere_sound condition).bind rfl ?_
  rintro whereClause q rest limit ⟨rfl, rfl⟩
  dsimp only
  refine (parseLimit_sound limit).bind rfl ?_
  intro limit q rest behind number
  rw [split]
  exact builds_some behind (.select start isStar table number)

theorem parseCreateTableStatement_sound (reads : Reads ts p) :
    Builds parseCreateTableStatement p fun stmt rest => Sentence ts (.createTable stmt) rest := by
  refine Builds.expect reads (by decide) fun t ts₁ split₁ start word => ?_
  refine Builds.expect word (by decide) fun table ts₂ split₂ isTable named => ?_
  apply Ensures.get
  by_cases name : p.next.next.currentToken.type = .IDENTIFIER
  · obtain ⟨ts₃, split₃, parenthesis⟩ := named.more (by simp [name])
    dsimp only
    rw [if_neg (not_not_intro name)]
    apply ensures_next
    refine Builds.expect parenthesis (by decide) fun opening ts₄ split₄ opens inside => ?_
    apply Ensures.get
    refine (parseColumnDefinitions_sound _ inside).bind rfl ?_
    intro columns q rest closed definitions
    dsimp only
    refine Builds.expect closed (by decide) fun closing rest split₅ closes behind => ?_
    subst split₅ split₄ split₃ split₂ split₁
    have definitions := definitions.resolve_right nofun
    exact builds_some behind (.createTable start isTable name opens definitions closes)
  · dsimp only
    rw [if_pos name]
    exact builds_fail _

theorem parseDropTableStatement_sound (reads : Reads ts p) :
    Builds parseDropTableStatement p fun tableName rest => Sentence ts (.dropTable tableName) rest := by
  refine Builds.expect reads (by decide) fun t ts₁ split₁ start word => ?_
  refine Builds.expect word (by decide) fun table ts₂ split₂ isTable named => ?_
  refine (parseName_sound named _).mono ?_
  rintro tableName rest ⟨name, isName, rfl, rfl⟩
  subst split₂ split₁
  exact .dropTable start isTable isName

theorem parseUseStatement_sound (reads : Reads ts p) :
    Builds parseUseStatement p fun database rest => Sentence ts (.useDatabase database) rest := by
  refine Builds.expect reads (by decide) fun t ts₁ split start named => ?_
  refine (parseName_sound named _).mono ?_
  rintro database rest ⟨name, isName, rfl, rfl⟩
  subst split
  exact .useDatabase start isName

theorem parseShowStatement_sound (reads : Reads ts p) :
    Builds parseShowStatement p (Sentence ts) := by
  refine Builds.expect reads (by decide) fun t ts₁ split start shown => ?_
  subst split
  apply Ensures.get
  cases type : p.next.currentToken.type
  case TABLES =>
    obtain ⟨rest, rfl, behind⟩ := shown.more (by simp [type])
    apply ensures_next
    exact builds_some behind (.showTables start type)
  case DATABASES =>
    obtain ⟨rest, rfl, behind⟩ := shown.more (by simp [type])
    apply ensures_next
    exact builds_some behind (.showDatabases start type)
  all_goals exact builds_fail _

theorem parseHere_sound (reads : Reads ts p) : Builds parseHere p (Sentence ts) := by
  apply Ensures.get
  dsimp only
  cases type : p.currentToken.type
  case EOF_TOKEN => exact builds_null
  case SELECT => exact (parseSelectStatement_sound reads).map fun _ _ sentence => sentence
  case INSERT =>
    obtain ⟨a, q, ran, rfl, -⟩ := parseInsertStatement_none ⟨ts, reads, Nat.le_refl _⟩
    intro a q' ran'
    rw [run_bind_ok ran] at ran'
    cases ran'
    nofun
  case CREATE => exact (parseCreateTableStatement_sound reads).map fun _ _ sentence => sentence
  case DROP => exact (parseDropTableStatement_sound reads).map fun _ _ sentence => sentence
  case SHOW => exact parseShowStatement_sound reads
  case USE => exact (parseUseStatement_sound reads).map fun _ _ sentence => sentence
  all_goals exact builds_fail _

/-! ## Completeness -/

/-- The function returns this value and leaves these tokens. -/
def Reaches (m : ParserM α) (p : Parser) (a : α) (rest : List Token) : Prop :=
  ∃ q, m.run p = .ok a q ∧ Reads rest q

section Reaches
variable {m : ParserM α} {a : α} {b : β} {between rest : List Token} {t : Token}

theorem Reaches.pure (reads : Reads ts p) : Reaches (Pure.pure a) p a ts := ⟨p, rfl, reads⟩

theorem Reaches.bind {f : α → ParserM β} (first : Reaches m p a between)
    (later : ∀ q, Reads between q → Reaches (f a) q b rest) : Reaches (m >>= f) p b rest := by
  obtain ⟨q, ran, reads⟩ := first
  obtain ⟨q', ran', reads'⟩ := later q reads
  exact ⟨q', by rw [run_bind_ok ran, ran'], reads'⟩

theorem Reaches.get {f : Parser → ParserM β} (later : Reaches (f p) p b rest) :
    Reaches (MonadState.get >>= f) p b rest := later

theorem Reaches.next {f : Unit → ParserM β} (later : Reaches (f ()) p.next b rest) :
    Reaches (nextToken >>= f) p b rest := later

theorem Reaches.expect {type : TokenType} {c : α} (reads : Reads (t :: ts) p)
    (same : t.type = type) (later : ∀ q, Reads ts q → Reaches m q a rest) :
    Reaches (do if !(← expectAndNext type) then return c else m) p a rest := by
  have taken : Reaches (expectAndNext type) p true ts := by
    rcases expectAndNext_run type p with ⟨-, ran⟩ | ⟨other, -⟩
    · exact ⟨p.next, ran, reads.next⟩
    · exact absurd (reads.current ▸ same) other
  exact taken.bind later

theorem Reaches.unexpected {type : TokenType} {c : α} (reads : Reads ts p)
    (other : p.currentToken.type ≠ type) :
    Reaches (do if !(← expectAndNext type) then return c else m) p c ts := by
  rcases expectAndNext_run type p with ⟨same, -⟩ | ⟨-, errors, ran⟩
  · exact absurd same other
  · have refused : Reaches (expectAndNext type) p false ts := ⟨_, ran, reads.errors errors⟩
    apply refused.bind
    intro q here
    exact .pure here

theorem Reaches.map {g : α → β} {m : ParserM (Option α)} (first : Reaches m p (some a) rest) :
    Reaches (do return (← m).map g) p (some (g a)) rest := by
  apply first.bind
  intro q reads
  exact .pure reads

theorem Reaches.bounded {f : Nat → ParserM α} (reads : Reads ts p)
    (reaches : ∀ k, ts.length < k → Reaches (f k) p a rest) : Reaches (f p.bound) p a rest := by
  have := reads.bound
  exact reaches p.bound (by omega)

end Reaches

/-- What the loop over constraints goes on with. -/
def constraintWords : List TokenType := [.PRIMARY, .NOT, .AUTO_INCREMENT, .DEFAULT]

theorem parseConstraints_stop {k : Nat} {col : ColumnDefinition} (reads : Reads ts p)
    (stops : ∀ t ∈ ts.head?, t.type ∉ constraintWords) :
    Reaches (parseConstraints (k + 1) col) p col ts := by
  have other {type : TokenType} (word : type ∈ constraintWords) : p.currentToken.type ≠ type := by
    apply reads.current_ne
    · rintro rfl
      exact absurd word (by decide)
    · rintro t member rfl
      exact stops t member word
  rw [parseConstraints]
  apply Reaches.get
  split
  · exact absurd ‹_› (other (by decide))
  · exact absurd ‹_› (other (by decide))
  · exact absurd ‹_› (other (by decide))
  · exact absurd ‹_› (other (by decide))
  · exact .pure reads

/-- A round of a loop takes a token, and a unit of its fuel. -/
theorem exists_round {k : Nat} {t : Token} (enough : (t :: ts).length < k) :
    ∃ j, k = j + 1 ∧ ts.length < j := by
  obtain ⟨j, rfl⟩ := Nat.exists_eq_succ_of_ne_zero (Nat.ne_zero_of_lt enough)
  exact ⟨j, rfl, Nat.lt_of_succ_lt_succ enough⟩

theorem parseConstraints_complete {k : Nat} {col col' : ColumnDefinition} {behind : List Token}
    (constraints : Constraints col ts col' behind) (reads : Reads ts p) (enough : ts.length < k)
    (stops : ∀ t ∈ behind.head?, t.type ∉ constraintWords) :
    Reaches (parseConstraints k col) p col' behind := by
  induction constraints generalizing p k with
  | none col ts =>
      obtain ⟨k, rfl⟩ := Nat.exists_eq_succ_of_ne_zero (Nat.ne_zero_of_lt enough)
      exact parseConstraints_stop reads stops
  | primaryKey isPrimary isKey constraints ih =>
      obtain ⟨k, rfl, left⟩ := exists_round enough
      rw [parseConstraints]
      apply Reaches.get
      simp only [reads.current, isPrimary]
      apply Reaches.next
      apply Reaches.get
      rw [reads.next.current, if_pos isKey]
      apply Reaches.next
      exact ih reads.next.next (Nat.lt_of_succ_lt left) stops
  | primary isPrimary other constraints ih =>
      obtain ⟨k, rfl, left⟩ := exists_round enough
      rw [parseConstraints]
      apply Reaches.get
      simp only [reads.current, isPrimary]
      apply Reaches.next
      apply Reaches.get
      rw [if_neg (reads.next.current_ne (by decide) other)]
      exact ih reads.next left stops
  | notNull isNot isNull constraints ih =>
      obtain ⟨k, rfl, left⟩ := exists_round enough
      rw [parseConstraints]
      apply Reaches.get
      simp only [reads.current, isNot]
      apply Reaches.next
      apply Reaches.get
      rw [reads.next.current, if_pos isNull]
      apply Reaches.next
      exact ih reads.next.next (Nat.lt_of_succ_lt left) stops
  | not isNot other constraints ih =>
      obtain ⟨k, rfl, left⟩ := exists_round enough
      rw [parseConstraints]
      apply Reaches.get
      simp only [reads.current, isNot]
      apply Reaches.next
      apply Reaches.get
      rw [if_neg (reads.next.current_ne (by decide) other)]
      exact ih reads.next left stops
  | autoIncrement isAuto constraints ih =>
      obtain ⟨k, rfl, left⟩ := exists_round enough
      rw [parseConstraints]
      apply Reaches.get
      simp only [reads.current, isAuto]
      apply Reaches.next
      exact ih reads.next left stops
  | default isDefault constraints ih =>
      obtain ⟨k, rfl, left⟩ := exists_round enough
      rw [parseConstraints]
      apply Reaches.get
      simp only [reads.current, isDefault]
      apply Reaches.next
      apply Reaches.get
      rw [reads.next.current]
      apply Reaches.next
      exact ih reads.next.next (Nat.lt_of_succ_lt left) stops

section Column
variable {name type : Token} {col : ColumnDefinition} {cols : List ColumnDefinition} {k : Nat}
  {behind between rest : List Token}

/-- One round of the loop over columns, up to the token behind the constraints. -/
theorem parseColumn_reaches (isName : name.type = .IDENTIFIER)
    (constraints : Constraints { name := name.literal, type := type.literal } ts col behind)
    (stops : ∀ t ∈ behind.head?, t.type ∉ constraintWords)
    (reads : Reads (name :: type :: ts) p)
    (later : ∀ q, Reads behind q → Reaches (do
      if (← MonadState.get).currentToken.type = .COMMA then
        nextToken
        return (← parseColumnDefinitions k).map (col :: ·)
      else return some [col]) q (some cols) rest) :
    Reaches (parseColumnDefinitions (k + 1)) p (some cols) rest := by
  rw [parseColumnDefinitions]
  apply Reaches.get
  dsimp only
  rw [reads.current, if_neg (by simp [isName]), if_neg (not_not_intro isName)]
  apply Reaches.next
  apply Reaches.get
  rw [reads.next.current]
  apply Reaches.next
  apply Reaches.get
  apply Reaches.bind (Reaches.bounded reads.next.next fun k enough =>
    parseConstraints_complete constraints reads.next.next enough stops)
  exact later

theorem parseColumn_last (isName : name.type = .IDENTIFIER)
    (constraints : Constraints { name := name.literal, type := type.literal } ts col behind)
    (stops : ∀ t ∈ behind.head?, t.type ∉ .COMMA :: constraintWords)
    (reads : Reads (name :: type :: ts) p) :
    Reaches (parseColumnDefinitions (k + 1)) p (some [col]) behind := by
  have noComma : ∀ t ∈ behind.head?, t.type ≠ .COMMA :=
    fun t member same => stops t member (same ▸ List.mem_cons_self)
  have noWord : ∀ t ∈ behind.head?, t.type ∉ constraintWords :=
    fun t member word => stops t member (List.mem_cons_of_mem _ word)
  apply parseColumn_reaches isName constraints noWord reads
  intro q here
  apply Reaches.get
  rw [if_neg (here.current_ne (by decide) noComma)]
  exact .pure here

theorem parseColumn_more {comma : Token} (isName : name.type = .IDENTIFIER)
    (constraints : Constraints { name := name.literal, type := type.literal } ts col
      (comma :: between)) (isComma : comma.type = .COMMA) (reads : Reads (name :: type :: ts) p)
    (later : ∀ q, Reads between q → Reaches (parseColumnDefinitions k) q (some cols) rest) :
    Reaches (parseColumnDefinitions (k + 1)) p (some (col :: cols)) rest := by
  apply parseColumn_reaches isName constraints (by simp [isComma, constraintWords]) reads
  intro q here
  apply Reaches.get
  rw [here.current, if_pos isComma]
  apply Reaches.next
  apply Reaches.bind (later q.next here.next)
  intro q' there
  exact .pure there

end Column

theorem parseColumnDefinitions_complete {k : Nat} {cols : List ColumnDefinition} {closing : Token}
    {behind rest : List Token} (columns : Columns ts cols behind) (split : behind = closing :: rest)
    (closes : closing.type = .RPAREN) (reads : Reads ts p) (enough : ts.length < k) :
    Reaches (parseColumnDefinitions k) p (some cols) behind := by
  induction columns generalizing p k with
  | none ts =>
      subst split
      obtain ⟨k, rfl, -⟩ := exists_round enough
      rw [parseColumnDefinitions]
      apply Reaches.get
      dsimp only
      rw [reads.current, if_pos closes]
      exact .pure reads
  | last isName constraints =>
      subst split
      obtain ⟨k, rfl, -⟩ := exists_round enough
      exact parseColumn_last isName constraints (by simp [closes, constraintWords]) reads
  | more isName constraints isComma columns ih =>
      obtain ⟨k, rfl, left⟩ := exists_round enough
      apply parseColumn_more isName constraints isComma reads
      intro q between
      have shorter := constraints.length_le.trans_lt (Nat.lt_of_succ_lt left)
      exact ih split between (Nat.lt_of_succ_lt shorter)

theorem parseFrom_complete {tableName : Bytes} {rest : List Token}
    (clause : FromClause ts tableName rest) (other : ∀ t ∈ rest.head?, t.type ≠ .FROM)
    (reads : Reads ts p) : Reaches parseFrom p (some tableName) rest := by
  apply Reaches.get
  cases clause with
  | none ts =>
      rw [if_neg (reads.current_ne (by decide) other)]
      exact .pure reads
  | table isFrom isName =>
      rw [reads.current, if_pos isFrom]
      apply Reaches.next
      apply Reaches.get
      dsimp only
      rw [reads.next.current, if_neg (not_not_intro isName)]
      apply Reaches.next
      exact .pure reads.next.next

theorem parseLimit_complete {limit : Int32} {rest : List Token} (clause : LimitClause ts limit rest)
    (other : ∀ t ∈ rest.head?, t.type ≠ .LIMIT) (reads : Reads ts p) :
    Reaches parseLimit p (some limit) rest := by
  apply Reaches.get
  cases clause with
  | none ts =>
      rw [if_neg (reads.current_ne (by decide) other)]
      exact .pure reads
  | number isLimit isNumber converted =>
      rw [reads.current, if_pos isLimit]
      apply Reaches.next
      apply Reaches.get
      dsimp only
      rw [reads.next.current, if_neg (not_not_intro isNumber), converted]
      apply Reaches.next
      exact .pure reads.next.next

theorem parseName_complete {t : Token} (reads : Reads (t :: ts) p) (isName : t.type = .IDENTIFIER)
    (message : String) : Reaches (parseName message) p (some t.literal) ts := by
  apply Reaches.get
  dsimp only
  rw [reads.current, if_neg (not_not_intro isName)]
  apply Reaches.next
  exact .pure reads.next

theorem parseSelectStatement_complete {t star : Token} {tableName : Bytes} {limit : Int32}
    {between rest : List Token} (isSelect : t.type = .SELECT) (isStar : star.type = .ASTERISK)
    (table : FromClause ts tableName between) (number : LimitClause between limit rest)
    (ends : ∀ t ∈ rest.head?, t.type = .SEMICOLON) (reads : Reads (t :: star :: ts) p) :
    Reaches parseSelectStatement p (some (starStatement tableName limit)) rest := by
  have front : ∀ t ∈ between.head?, t.type = .LIMIT ∨ t.type = .SEMICOLON := by
    cases number with
    | none => exact fun t member => .inr (ends t member)
    | number isLimit => simp [isLimit]
  have front_ne {type : TokenType} (other : type ≠ .LIMIT ∧ type ≠ .SEMICOLON) :
      ∀ t ∈ between.head?, t.type ≠ type := by
    rintro t member rfl
    exact (front t member).elim other.1 other.2
  apply Reaches.expect reads isSelect
  intro q fields
  apply Reaches.bind ⟨_, parseColumns_star (fields.current ▸ isStar), fields.next⟩
  intro q clauses
  apply Reaches.bind (parseFrom_complete table (front_ne (by decide)) clauses)
  intro q condition
  have without : parseWhere.run q = .ok (some none) q := by
    rw [parseWhere, run_get_bind, if_neg (condition.current_ne (by decide) (front_ne (by decide)))]
    rfl
  apply Reaches.bind ⟨q, without, condition⟩
  intro q limits
  apply Reaches.bind (parseLimit_complete number (by simp +contextual [ends]) limits)
  intro q behind
  exact .pure behind

section CreateTable
variable {t table name opening closing : Token} {columns : List ColumnDefinition}
  {rest : List Token}

theorem parseCreateTable_reaches {result : Option CreateTableStatement} (isCreate : t.type = .CREATE)
    (isTable : table.type = .TABLE) (isName : name.type = .IDENTIFIER)
    (opens : opening.type = .LPAREN) (reads : Reads (t :: table :: name :: opening :: ts) p)
    (later : ∀ q, Reads ts q → Reaches (do
      let some columns ← parseColumnDefinitions q.bound | return none
      if !(← expectAndNext .RPAREN) then return none
      return some ⟨name.literal, columns⟩) q result rest) :
    Reaches parseCreateTableStatement p result rest := by
  apply Reaches.expect reads isCreate
  intro q word
  apply Reaches.expect word isTable
  intro q named
  apply Reaches.get
  dsimp only
  rw [named.current, if_neg (not_not_intro isName)]
  apply Reaches.next
  apply Reaches.expect named.next opens
  intro q inside
  apply Reaches.get
  exact later q inside

theorem parseCreateTableStatement_complete (isCreate : t.type = .CREATE)
    (isTable : table.type = .TABLE) (isName : name.type = .IDENTIFIER)
    (opens : opening.type = .LPAREN) (definitions : Columns ts columns (closing :: rest))
    (closes : closing.type = .RPAREN) (reads : Reads (t :: table :: name :: opening :: ts) p) :
    Reaches parseCreateTableStatement p (some ⟨name.literal, columns⟩) rest := by
  apply parseCreateTable_reaches isCreate isTable isName opens reads
  intro q inside
  apply Reaches.bind (Reaches.bounded inside fun k enough =>
    parseColumnDefinitions_complete definitions rfl closes inside enough)
  intro q closed
  apply Reaches.expect closed closes
  intro q behind
  exact .pure behind

end CreateTable

theorem parseHere_complete {stmt : Statement} {semicolons : List Token}
    (sentence : Sentence ts stmt semicolons) (ends : ∀ t ∈ semicolons, t.type = .SEMICOLON)
    (reads : Reads ts p) : Reaches parseHere p (some stmt) semicolons := by
  apply Reaches.get
  dsimp only
  cases sentence with
  | select isSelect isStar table number =>
      simp only [reads.current, isSelect]
      have front : ∀ t ∈ semicolons.head?, t.type = .SEMICOLON :=
        fun t member => ends t (List.mem_of_mem_head? member)
      exact (parseSelectStatement_complete isSelect isStar table number front reads).map
  | createTable isCreate isTable isName opens columns closes =>
      simp only [reads.current, isCreate]
      exact (parseCreateTableStatement_complete isCreate isTable isName opens columns closes reads).map
  | @dropTable t table name ts isDrop isTable isName =>
      simp only [reads.current, isDrop]
      have dropped : Reaches parseDropTableStatement p (some name.literal) semicolons := by
        apply Reaches.expect reads isDrop
        intro q word
        apply Reaches.expect word isTable
        intro q named
        exact parseName_complete named isName _
      exact dropped.map
  | showTables isShow isTables =>
      simp only [reads.current, isShow]
      apply Reaches.expect reads isShow
      intro q shown
      apply Reaches.get
      simp only [shown.current, isTables]
      apply Reaches.next
      exact .pure shown.next
  | showDatabases isShow isDatabases =>
      simp only [reads.current, isShow]
      apply Reaches.expect reads isShow
      intro q shown
      apply Reaches.get
      simp only [shown.current, isDatabases]
      apply Reaches.next
      exact .pure shown.next
  | @useDatabase t name ts isUse isName =>
      simp only [reads.current, isUse]
      have used : Reaches parseUseStatement p (some name.literal) semicolons := by
        apply Reaches.expect reads isUse
        intro q named
        exact parseName_complete named isName _
      exact used.map

/-! ## Whole texts -/

/-- The statement of a text is the whole of it exactly when the text is one statement of the
grammar and semicolons. -/
theorem usedUp_iff {input : Bytes} {stmt : Statement} {p : Parser}
    (parsed : parse.run (create input) = .ok (some stmt) p) :
    UsedUp p ↔ OneStatement (statementTokens input) := by
  obtain ⟨q, ran, reads, -⟩ := parse_run input
  rw [ran] at parsed
  constructor
  · intro usedUp
    obtain ⟨rest, behind, sentence⟩ := parseHere_sound reads _ _ parsed stmt rfl
    rw [UsedUp, behind.remaining] at usedUp
    exact ⟨stmt, rest, sentence, usedUp⟩
  · rintro ⟨other, semicolons, sentence, ends⟩
    obtain ⟨p', parsed', behind⟩ := parseHere_complete sentence ends reads
    rw [parsed] at parsed'
    cases parsed'
    rw [UsedUp, behind.remaining]
    exact ends

/-- What `parse` returns for a text, the recorded errors, and the type of the token it stops at. -/
def stop (input : Bytes) : Option (Option Statement × List Bytes × TokenType) :=
  match parse.run (create input) with
  | .ok stmt p => some (stmt, p.errors, p.currentToken.type)
  | .error _ _ => none

theorem run_of_stop {input : Bytes} {stmt : Option Statement} {errors : List Bytes}
    {type : TokenType} (stops : stop input = some (stmt, errors, type)) :
    ∃ p, parse.run (create input) = .ok stmt p ∧ p.errors = errors ∧ p.currentToken.type = type := by
  unfold stop at stops
  cases ran : parse.run (create input) with
  | error e p =>
      rw [ran] at stops
      cases stops
  | ok stmt' p =>
      rw [ran] at stops
      cases stops
      exact ⟨p, rfl, rfl, rfl⟩

theorem usedUp_use : ∃ p, parse.run (create (ascii "USE test;")) =
    .ok (some (.useDatabase (ascii "test"))) p ∧
      (UsedUp p ↔ OneStatement (statementTokens (ascii "USE test;"))) := by
  have stops : stop (ascii "USE test;") =
      some (some (.useDatabase (ascii "test")), [], .SEMICOLON) := by decide +kernel
  obtain ⟨p, ran, -, -⟩ := run_of_stop stops
  exact ⟨p, ran, usedUp_iff ran⟩

/-- In `SELECT * FROM t LIMIT 1 OFFSET 2` the parser stops in front of OFFSET. -/
theorem offset_ignored : ¬ ∀ input stmt p, parse.run (create input) = .ok (some stmt) p →
    p.errors = [] → UsedUp p := by
  intro all
  have stops : stop (ascii "SELECT * FROM t LIMIT 1 OFFSET 2") =
      some (some (.select (starStatement (ascii "t") 1)), [], .OFFSET) := by decide +kernel
  obtain ⟨p, ran, clean, stopped⟩ := run_of_stop stops
  have ignored : p.currentToken ∈ p.remaining := by
    rw [remaining, List.takeWhile_cons_of_pos (by simp [stopped])]
    exact List.mem_cons_self
  have usedUp := all _ _ _ ran clean _ ignored
  rw [stopped] at usedUp
  cases usedUp

end TinySql.Parser
