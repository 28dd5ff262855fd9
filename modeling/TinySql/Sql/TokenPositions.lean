import TinySql.Sql.Termination

/-!
# Where the tokens stand

`readChar` counts lines and columns one character ahead of the token. Where it has got, the counters
tell the newlines that have been read and the distance to the last of them.
-/

namespace TinySql.Lexer

variable {input : Bytes} {l l' : Lexer} {n : Nat}

/-! ## Lines and columns of a text -/

def lastNewline (input : Bytes) (n : Nat) : Option Nat :=
  ((List.range n).filter fun i => input[i]? = some '\n'.toUInt8).getLast?

def lineAt (input : Bytes) (o : Nat) : Nat := 1 + (input.take o).count '\n'.toUInt8

def columnAt (input : Bytes) (o : Nat) : Nat :=
  match lastNewline input o with
  | some newline => o - newline
  | none => o + 1

theorem lastNewline_of_newline (here : input[n]? = some '\n'.toUInt8) :
    lastNewline input (n + 1) = some n := by
  simp [lastNewline, List.range_succ, here]

theorem lastNewline_of_other (other : input[n]? ≠ some '\n'.toUInt8) :
    lastNewline input (n + 1) = lastNewline input n := by
  simp [lastNewline, List.range_succ, other]

theorem lastNewline_lt {newline : Nat} (last : lastNewline input n = some newline) : newline < n := by
  have member := List.mem_of_getLast? last
  exact List.mem_range.mp (List.mem_of_mem_filter member)

theorem lineAt_of_newline (here : input[n]? = some '\n'.toUInt8) :
    lineAt input (n + 1) = lineAt input n + 1 := by
  simp [lineAt, List.take_add_one, here, Nat.add_assoc]

theorem lineAt_of_other (other : input[n]? ≠ some '\n'.toUInt8) :
    lineAt input (n + 1) = lineAt input n := by
  have none : input[n]?.toList.count '\n'.toUInt8 = 0 := by
    apply List.count_eq_zero.mpr
    intro member
    exact other (Option.mem_toList.mp member)
  rw [lineAt, List.take_add_one, List.count_append, none, Nat.add_zero, lineAt]

/-! ## Counting -/

/-- The counters of the lexer when it has counted the first `n` characters of the input. -/
structure Counted (input : Bytes) (n : Nat) (l : Lexer) : Prop where
  line : l.line = lineAt input n
  column : l.column = match lastNewline input n with
    | some newline => n - 1 - newline
    | none => n

/-- The lexer stands at its position, and has counted the character there. -/
structure Standing (input : Bytes) (l : Lexer) : Prop where
  rest : l.rest = input.drop l.position
  counted : Counted input (l.position + 1) l

theorem ch_eq_getD (rest : l.rest = input.drop n) : l.ch = input[n]?.getD 0 := by
  rw [ch, rest, List.headD_eq_head?_getD, List.head?_drop]

theorem Counted.locate (rest : l.rest = input.drop n) (counted : Counted input n l) :
    Counted input (n + 1) l.locate := by
  have first := ch_eq_getD rest
  unfold Lexer.locate
  by_cases newline : input[n]? = some '\n'.toUInt8
  · rw [newline, Option.getD_some] at first
    rw [if_pos first]
    constructor
    · rw [lineAt_of_newline newline, ← counted.line]
    · rw [lastNewline_of_newline newline]
      simp
  · have other : l.ch ≠ '\n'.toUInt8 := by
      rw [first]
      intro same
      cases here : input[n]? with
      | none =>
          rw [here] at same
          exact absurd same (by decide)
      | some b =>
          rw [here] at newline same
          exact newline (congrArg some same)
    rw [if_neg other]
    constructor
    · rw [lineAt_of_other newline, ← counted.line]
    · rw [lastNewline_of_other newline]
      have column := counted.column
      cases last : lastNewline input n with
      | none =>
          rw [last] at column
          exact congrArg (· + 1) column
      | some newline =>
          rw [last] at column
          have before := lastNewline_lt last
          have further : n + 1 - 1 - newline = n - 1 - newline + 1 := by omega
          exact (congrArg (· + 1) column).trans further.symm

theorem standing_create (input : Bytes) : Standing input (create input) := by
  have counted : Counted input 0 ⟨input, 0, 1, 0⟩ := ⟨rfl, rfl⟩
  have position : (create input).position = 0 := by
    unfold create locate
    split <;> rfl
  constructor
  · rw [rest_create, position, List.drop_zero]
  · rw [position]
    exact counted.locate rfl

theorem Standing.readChar (standing : Standing input l) : Standing input l.readChar := by
  have rest : l.rest.tail = input.drop (l.position + 1) := by
    rw [standing.rest, List.tail_drop]
  constructor
  · rw [rest_readChar, position_readChar, rest]
  · rw [position_readChar]
    exact Counted.locate (l := { l with rest := l.rest.tail, position := l.position + 1 }) rest
      ⟨standing.counted.line, standing.counted.column⟩

theorem Standing.later (standing : Standing input l) (later : Later l l') : Standing input l' := by
  obtain ⟨k, rfl⟩ := later
  induction k generalizing l with
  | zero => exact standing
  | succ k ih => exact ih standing.readChar

/-! ## The first character of a token -/

theorem skipWhile_stops {p : UInt8 → Bool} (zero : p 0 = false) (l : Lexer) :
    p (l.skipWhile p).ch = false := by
  have stops (rest : Bytes) (l : Lexer) (input : l.rest = rest) :
      p (readWhile p rest l).2.ch = false := by
    induction rest generalizing l with
    | nil => simpa [readWhile, ch, input] using zero
    | cons b rest ih =>
        rw [readWhile]
        split
        · exact ih l.readChar (by simp [input])
        · rename_i stop
          simpa [ch, input] using stop
  exact stops l.rest l rfl

def Visible (l : Lexer) : Prop := isWhitespace l.ch = false

theorem visible_skipWhitespace (l : Lexer) : Visible l.skipWhitespace :=
  skipWhile_stops (by decide) l

theorem Visible.skipComment (visible : Visible l) : Visible l.skipComment := by
  have either {c : Prop} [Decidable c] {l l' : Lexer} (visible : Visible l) :
      Visible (if c then l'.skipWhitespace else l) := by
    split
    · exact visible_skipWhitespace l'
    · exact visible
  exact either (either (either visible))

theorem Visible.visibleWithin (visible : Visible l) (n : Nat) : Visible (visibleWithin n l) := by
  induction n generalizing l with
  | zero => exact visible
  | succ n ih =>
      have skipped : Visible l.skipWhitespace.skipComment := (visible_skipWhitespace l).skipComment
      rw [Lexer.visibleWithin]
      split
      · exact ih skipped.skipComment
      · exact skipped

theorem visible_visible (l : Lexer) : Visible l.visible := by
  have skipped : Visible l.skipWhitespace.skipComment := (visible_skipWhitespace l).skipComment
  rw [visible, visibleWithin]
  split
  · exact skipped.skipComment.visibleWithin _
  · exact skipped

theorem tokenHere_place (l : Lexer) :
    l.tokenHere.1.line = l.line ∧ l.tokenHere.1.column = l.column := by
  have either {c : Prop} [Decidable c] {r r' : Token × Lexer}
      (first : r.1.line = l.line ∧ r.1.column = l.column)
      (second : r'.1.line = l.line ∧ r'.1.column = l.column) :
      (if c then r else r').1.line = l.line ∧ (if c then r else r').1.column = l.column := by
    split
    · exact first
    · exact second
  unfold tokenHere
  split
  case h_8 | h_10 => exact either ⟨rfl, rfl⟩ ⟨rfl, rfl⟩
  case h_9 | h_18 => exact either ⟨rfl, rfl⟩ (either ⟨rfl, rfl⟩ ⟨rfl, rfl⟩)
  all_goals exact ⟨rfl, rfl⟩

/-! ## The tokens of `tokenize` -/

/-- The lexers on which the loop of `tokenize` calls `nextToken`. -/
inductive Called (input : Bytes) : Lexer → Prop where
  | first : Called input (create input)
  | next {l : Lexer} : Called input l → l.nextToken.1.type ≠ .EOF_TOKEN → Called input l.nextToken.2

theorem Called.standing (called : Called input l) : Standing input l := by
  induction called with
  | first => exact standing_create input
  | next called more ih => exact ih.later (later_nextToken _)

/-- Every token of `tokenize` comes from one of these calls. -/
theorem tokenize_called {ts : List Token} (ran : tokenize input = some ts) :
    ∀ t ∈ ts, ∃ l, Called input l ∧ l.nextToken.1 = t := by
  have within (n : Nat) : ∀ (l : Lexer) (ts : List Token), Called input l →
      tokenizeWithin n l = some ts → ∀ t ∈ ts, ∃ l, Called input l ∧ l.nextToken.1 = t := by
    induction n with
    | zero =>
        intro l ts called ran
        cases ran
    | succ n ih =>
        intro l ts called ran
        by_cases eof : l.nextToken.1.type = .EOF_TOKEN
        · rw [tokenizeWithin_eof n eof] at ran
          obtain rfl := Option.some.inj ran
          exact List.forall_mem_singleton.mpr ⟨l, called, rfl⟩
        · rw [tokenizeWithin_more n eof] at ran
          obtain ⟨later, left, rfl⟩ := Option.map_eq_some_iff.mp ran
          exact List.forall_mem_cons.mpr ⟨⟨l, called, rfl⟩, ih _ later (called.next eof) left⟩
  exact within _ _ ts .first ran

/-- The token at this offset has the line and the column of the offset. -/
structure StandsAt (input : Bytes) (o : Nat) (t : Token) : Prop where
  line : t.line = lineAt input o
  column : t.column = columnAt input o

/-- The offset of the character with which the next token begins. -/
def firstByte (input : Bytes) (l : Lexer) : Nat := input.length - l.visible.rest.length

theorem firstByte_eq (standing : Standing input l.visible) (more : l.visible.ch ≠ 0) :
    firstByte input l = l.visible.position := by
  have some := List.length_pos_iff.mpr (rest_ne_nil more)
  rw [standing.rest, List.length_drop] at some
  rw [firstByte, standing.rest, List.length_drop]
  omega

theorem Standing.standsAt (standing : Standing input l) (visible : Visible l) :
    StandsAt input l.position l.tokenHere.1 := by
  have first := ch_eq_getD standing.rest
  have other : input[l.position]? ≠ some '\n'.toUInt8 := by
    intro newline
    rw [newline] at first
    rw [Visible, first] at visible
    cases visible
  obtain ⟨line, column⟩ := tokenHere_place l
  constructor
  · rw [line, standing.counted.line, lineAt_of_other other]
  · rw [column, standing.counted.column, lastNewline_of_other other, columnAt]
    rfl

/-- Every token but EOF stands at the line and the column of its first character. -/
theorem tokens_stand (input : Bytes) (l : Lexer) (called : Called input l)
    (more : l.nextToken.1.type ≠ .EOF_TOKEN) :
    l.visible.rest = input.drop (firstByte input l) ∧
      StandsAt input (firstByte input l) l.nextToken.1 := by
  have standing := called.standing.later (later_visible l)
  have some : l.visible.ch ≠ 0 := by
    intro atEnd
    rw [nextToken_eq, tokenHere_end atEnd] at more
    exact more rfl
  rw [firstByte_eq standing some, nextToken_eq]
  exact ⟨standing.rest, standing.standsAt (visible_visible l)⟩

theorem second_line_stands :
    StandsAt (ascii "a\n b") 3 (create (ascii "a\n b")).nextToken.2.nextToken.1 := by
  have second : Called (ascii "a\n b") (create (ascii "a\n b")).nextToken.2 :=
    .next .first (by decide +kernel)
  have stands := (tokens_stand _ _ second (by decide +kernel)).2
  have offset : firstByte (ascii "a\n b") (create (ascii "a\n b")).nextToken.2 = 3 := by
    decide +kernel
  rwa [offset] at stands

end TinySql.Lexer
