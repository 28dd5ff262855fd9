import TinySql.Sql.StringLiterals
import TinySql.Sql.Termination

/-!
# Where a token ends

What the lexer makes of a text depends on its characters alone. What it has left behind it by then
does not matter, and neither does what comes behind a token, unless it goes on with a character
that might be part of the token.
-/

namespace TinySql

/-- A token without its place. -/
def Token.content (t : Token) : TokenType × Bytes := (t.type, t.literal)

namespace Lexer

/-! ## Comment styles -/

inductive Style where
  | dashes
  | block
  | hash
  deriving DecidableEq, Repr

/-- The lexer stands on a comment of the style. -/
def Opens (l : Lexer) : Style → Prop
  | .dashes => l.ch = '-'.toUInt8 ∧ l.peekChar = '-'.toUInt8
  | .block => l.ch = '/'.toUInt8 ∧ l.peekChar = '*'.toUInt8
  | .hash => l.ch = '#'.toUInt8

instance (l : Lexer) : DecidablePred l.Opens
  | .dashes => inferInstanceAs (Decidable (l.ch = '-'.toUInt8 ∧ l.peekChar = '-'.toUInt8))
  | .block => inferInstanceAs (Decidable (l.ch = '/'.toUInt8 ∧ l.peekChar = '*'.toUInt8))
  | .hash => inferInstanceAs (Decidable (l.ch = '#'.toUInt8))

def skipStyle (l : Lexer) : Style → Lexer
  | .dashes | .hash => l.skipLine
  | .block => skipBlock l.readChar.readChar.rest l.readChar.readChar

/-- What `skipComment` does about one of the styles. -/
def skipOne (style : Style) (l : Lexer) : Lexer :=
  if l.Opens style then (l.skipStyle style).skipWhitespace else l

theorem skipComment_eq (l : Lexer) :
    l.skipComment = skipOne .hash (skipOne .block (skipOne .dashes l)) := rfl

/-! ## Two texts with a common beginning -/

/-- The two lexers have the same characters in front of the two texts. -/
def Beside (a a' : Bytes) (l l' : Lexer) : Prop := ∃ x, l.rest = x ++ a ∧ l'.rest = x ++ a'

/-- Nothing has been read of what may differ. -/
def Inside (a a' : Bytes) (l : Lexer) : Prop := (a = [] ∧ a' = []) ∨ a.length < l.rest.length

/-- The second text begins with whitespace or like the first one, if not at its end. -/
def Border (a a' : Bytes) : Prop := ∀ c ∈ a'.head?, isWhitespace c = true ∨ c ∈ a.head?

section Beside
variable {a a' : Bytes} {l l' m : Lexer} {c : UInt8}

theorem border_nil : Border a [] := by
  rintro c ⟨⟩

theorem Inside.mono (inside : Inside a a' l) (longer : l.rest.length ≤ m.rest.length) :
    Inside a a' m :=
  inside.imp id fun inside => inside.trans_le longer

theorem Beside.readChar (beside : Beside a a' l l') (inside : Inside a a' l) :
    Beside a a' l.readChar l'.readChar := by
  obtain ⟨x, input, input'⟩ := beside
  rcases inside with ⟨rfl, rfl⟩ | inside
  · exact ⟨x.tail, by simp [input], by simp [input']⟩
  · cases x with
    | nil => simp [input] at inside
    | cons b x => exact ⟨x, by simp [input], by simp [input']⟩

theorem Beside.ch (beside : Beside a a' l l') (inside : Inside a a' l) : l'.ch = l.ch := by
  obtain ⟨x, input, input'⟩ := beside
  rcases inside with ⟨rfl, rfl⟩ | inside
  · simp [Lexer.ch, input, input']
  · cases x with
    | nil => simp [input] at inside
    | cons b x => simp [Lexer.ch, input, input']

theorem Beside.peekChar (beside : Beside a a' l l') (inside : Inside a a' l.readChar) :
    l'.peekChar = l.peekChar := by
  have here := inside.mono (length_readChar l)
  rw [← ch_readChar, ← ch_readChar]
  exact (beside.readChar here).ch inside

/-- At the border the second lexer may only see a character that the first one sees as well. -/
theorem Beside.ch_of (beside : Beside a a' l l') (border : Border a a')
    (visible : isWhitespace c = false) (some : c ≠ 0) (sees : l'.ch = c) : l.ch = c := by
  obtain ⟨x, input, input'⟩ := beside
  rw [Lexer.ch, input'] at sees
  rw [Lexer.ch, input]
  cases x with
  | nil =>
      cases a' with
      | nil => exact absurd sees.symm some
      | cons b rest =>
          obtain rfl : b = c := sees
          rcases border b rfl with blank | same
          · rw [blank] at visible
            cases visible
          · cases a with
            | nil => cases same
            | cons b' rest' => exact Option.some.inj same
  | cons b x => exact sees

theorem Beside.peekChar_of (beside : Beside a a' l l') (inside : Inside a a' l)
    (border : Border a a') (visible : isWhitespace c = false) (some : c ≠ 0)
    (sees : l'.peekChar = c) : l.peekChar = c := by
  rw [← ch_readChar] at sees ⊢
  exact (beside.readChar inside).ch_of border visible some sees

/-! ## Loops -/

theorem readWhile_stop {p : UInt8 → Bool} {input : Bytes} (stop : ∀ b ∈ input.head?, p b = false) :
    readWhile p input l = ([], l) := by
  cases input with
  | nil => rfl
  | cons b rest => simp [Lexer.readWhile, stop b rfl]

theorem stop_of_readWhile {p : UInt8 → Bool} (input : l.rest = a)
    (all : a.length ≤ (readWhile p a l).2.rest.length) : ∀ b ∈ a.head?, p b = false := by
  cases a with
  | nil => exact nofun
  | cons b rest =>
      rintro _ ⟨⟩
      apply Bool.eq_false_iff.mpr
      intro goes
      have taken := length_readWhile p rest l.readChar
      simp only [Lexer.readWhile, if_pos goes, List.length_cons, rest_readChar, input,
        List.tail_cons] at all taken
      omega

theorem Beside.readWhile {p : UInt8 → Bool} (beside : Beside a a' l l')
    (inside : Inside a a' (readWhile p l.rest l).2 ∨
      Border a a' ∧ a.length ≤ (readWhile p l.rest l).2.rest.length ∧
        ∀ b, isWhitespace b = true → p b = false) :
    (readWhile p l'.rest l').1 = (readWhile p l.rest l).1 ∧
      Beside a a' (readWhile p l.rest l).2 (readWhile p l'.rest l').2 := by
  obtain ⟨x, input, input'⟩ := beside
  rw [input] at inside
  rw [input, input']
  induction x generalizing l l' with
  | nil =>
      simp only [List.nil_append] at input input' inside ⊢
      have stops : (∀ b ∈ a.head?, p b = false) ∧ ∀ b ∈ a'.head?, p b = false := by
        rcases inside with (⟨rfl, rfl⟩ | inside) | ⟨border, all, blank⟩
        · exact ⟨nofun, nofun⟩
        · have taken := length_readWhile p a l
          rw [input] at taken
          omega
        · have stop := stop_of_readWhile input all
          refine ⟨stop, ?_⟩
          intro b head
          exact (border b head).elim (blank b) (stop b)
      rw [readWhile_stop stops.1, readWhile_stop stops.2]
      exact ⟨rfl, [], input, input'⟩
  | cons b x ih =>
      rw [List.cons_append] at input input'
      simp only [List.cons_append, Lexer.readWhile] at inside ⊢
      by_cases goes : p b = true
      · simp only [if_pos goes] at inside ⊢
        have next : l.readChar.rest = x ++ a := by simp [input]
        have next' : l'.readChar.rest = x ++ a' := by simp [input']
        obtain ⟨same, beside⟩ := ih inside next next'
        exact ⟨by rw [same], beside⟩
      · simp only [if_neg goes] at inside ⊢
        exact ⟨trivial, b :: x, input, input'⟩

theorem Beside.skipWhile {p : UInt8 → Bool} (beside : Beside a a' l l')
    (inside : Inside a a' (l.skipWhile p)) : Beside a a' (l.skipWhile p) (l'.skipWhile p) :=
  (beside.readWhile (.inl inside)).2

theorem Beside.skipBlock (beside : Beside a a' l l') (inside : Inside a a' (skipBlock l.rest l)) :
    Beside a a' (skipBlock l.rest l) (skipBlock l'.rest l') := by
  obtain ⟨x, input, input'⟩ := beside
  rw [input] at inside
  rw [input, input']
  induction x generalizing l l' with
  | nil =>
      simp only [List.nil_append] at input input' inside ⊢
      rcases inside with ⟨rfl, rfl⟩ | inside
      · exact ⟨[], input, input'⟩
      · have taken := length_skipBlock a l
        rw [input] at taken
        omega
  | cons b x ih =>
      rw [List.cons_append] at input input' inside ⊢
      have beside : Beside a a' l l' := ⟨b :: x, input, input'⟩
      have next : l.readChar.rest = x ++ a := by simp [input]
      have next' : l'.readChar.rest = x ++ a' := by simp [input']
      rw [List.cons_append]
      simp only [Lexer.skipBlock] at inside ⊢
      by_cases atEnd : b = 0
      · simp only [if_pos atEnd] at inside ⊢
        exact beside
      · simp only [if_neg atEnd] at inside ⊢
        by_cases closes : b = '*'.toUInt8 ∧ l.peekChar = '/'.toUInt8
        · simp only [if_pos closes] at inside ⊢
          have behind := inside.mono (length_readChar _)
          rw [beside.peekChar behind, if_pos closes]
          exact (beside.readChar (behind.mono (length_readChar l))).readChar behind
        · simp only [if_neg closes] at inside ⊢
          have behind := inside.mono (length_skipBlock _ _)
          rw [beside.peekChar behind, if_neg closes]
          exact ih inside next next'

theorem Beside.skipLine (beside : Beside a a' l l') (inside : Inside a a' l.skipLine) :
    Beside a a' l.skipLine l'.skipLine :=
  beside.skipWhile inside

/-! ## Comments -/

theorem length_skipStyle (l : Lexer) (style : Style) :
    (l.skipStyle style).rest.length ≤ l.rest.length := by
  cases style with
  | dashes | hash => exact length_skipWhile _ l
  | block =>
      apply (length_skipBlock _ _).trans
      exact (length_readChar _).trans (length_readChar l)

theorem length_skipOne (style : Style) (l : Lexer) :
    (skipOne style l).rest.length ≤ l.rest.length := by
  apply length_ite
  exact (length_skipWhile _ _).trans (length_skipStyle l style)

theorem length_skipStyle_of_opens {style : Style} (opens : l.Opens style) :
    (l.skipStyle style).rest.length ≤ l.readChar.rest.length := by
  have line (goes : (l.ch != '\n'.toUInt8 && l.ch != 0) = true) :
      l.skipLine.rest.length ≤ l.readChar.rest.length := by
    have more : l.ch ≠ 0 := by simp_all
    have shorter : l.skipLine.rest.length < l.rest.length := by
      apply length_skipWhile_lt
      · exact goes
      · exact more
    rw [rest_readChar, List.length_tail]
    exact Nat.le_sub_one_of_lt shorter
  cases style with
  | dashes => exact line (by rw [opens.1]; decide)
  | block => exact (length_skipBlock _ _).trans (length_readChar _)
  | hash => exact line (by rw [show l.ch = _ from opens]; decide)

/-- A comment that is passed over within the common part opens in both texts. -/
theorem Beside.opens {style : Style} (beside : Beside a a' l l') (inside : Inside a a' l.readChar) :
    l'.Opens style ↔ l.Opens style := by
  have here := inside.mono (length_readChar l)
  cases style <;> simp only [Opens, beside.ch here, beside.peekChar inside]

theorem Beside.opens_of {style : Style} (beside : Beside a a' l l') (inside : Inside a a' l)
    (border : Border a a') (opens : l'.Opens style) : l.Opens style := by
  cases style with
  | dashes =>
      exact ⟨(beside.ch inside).symm.trans opens.1,
        beside.peekChar_of inside border (by decide) (by decide) opens.2⟩
  | block =>
      exact ⟨(beside.ch inside).symm.trans opens.1,
        beside.peekChar_of inside border (by decide) (by decide) opens.2⟩
  | hash => exact (beside.ch inside).symm.trans opens

theorem Beside.skipStyle {style : Style} (beside : Beside a a' l l')
    (inside : Inside a a' (l.skipStyle style)) :
    Beside a a' (l.skipStyle style) (l'.skipStyle style) := by
  cases style with
  | dashes | hash => exact beside.skipLine inside
  | block =>
      have behind := inside.mono (length_skipBlock _ _)
      have first := beside.readChar (behind.mono ((length_readChar _).trans (length_readChar l)))
      exact (first.readChar (behind.mono (length_readChar _))).skipBlock inside

theorem Beside.skipOne (border : Border a a') (style : Style) (beside : Beside a a' l l')
    (inside : Inside a a' (skipOne style l)) :
    Beside a a' (skipOne style l) (skipOne style l') := by
  unfold Lexer.skipOne at inside ⊢
  by_cases opens : l.Opens style
  · rw [if_pos opens] at inside ⊢
    have behind := inside.mono (length_skipWhile _ _)
    have opens' := (beside.opens (behind.mono (length_skipStyle_of_opens opens))).mpr opens
    rw [if_pos opens']
    exact (beside.skipStyle behind).skipWhile inside
  · rw [if_neg opens] at inside ⊢
    rw [if_neg (mt (beside.opens_of inside border) opens)]
    exact beside

theorem Beside.skipComment (border : Border a a') (beside : Beside a a' l l')
    (inside : Inside a a' l.skipComment) : Beside a a' l.skipComment l'.skipComment := by
  rw [skipComment_eq] at inside
  rw [skipComment_eq, skipComment_eq]
  have blocks := inside.mono (length_skipOne .hash _)
  have dashes := blocks.mono (length_skipOne .block _)
  exact ((beside.skipOne border .dashes dashes).skipOne border .block blocks).skipOne border .hash
    inside

theorem length_skipComment_of_dashes (dashes : l.Opens .dashes) :
    l.skipComment.rest.length ≤ l.readChar.rest.length := by
  have shorter := length_skipComment_lt dashes
  rw [rest_readChar, List.length_tail]
  exact Nat.le_sub_one_of_lt shorter

theorem visibleWithin_again (n : Nat) (dashes : l.skipWhitespace.skipComment.Opens .dashes) :
    visibleWithin (n + 1) l = visibleWithin n l.skipWhitespace.skipComment.skipComment :=
  if_pos dashes

theorem visibleWithin_here (n : Nat) (none : ¬ l.skipWhitespace.skipComment.Opens .dashes) :
    visibleWithin (n + 1) l = l.skipWhitespace.skipComment :=
  if_neg none

theorem Beside.visibleWithin (border : Border a a') (n : Nat) (beside : Beside a a' l l')
    (inside : Inside a a' (visibleWithin n l)) :
    Beside a a' (visibleWithin n l) (visibleWithin n l') := by
  induction n generalizing l l' with
  | zero => exact beside
  | succ n ih =>
      have skipped (here : Inside a a' l.skipWhitespace.skipComment) :
          Beside a a' l.skipWhitespace.skipComment l'.skipWhitespace.skipComment :=
        (beside.skipWhile (here.mono (length_skipComment _))).skipComment border here
      by_cases dashes : l.skipWhitespace.skipComment.Opens .dashes
      · rw [visibleWithin_again n dashes] at inside ⊢
        have again := inside.mono (length_visibleWithin n _)
        have behind := again.mono (length_skipComment_of_dashes dashes)
        have beside := skipped (behind.mono (length_readChar _))
        rw [visibleWithin_again n ((beside.opens behind).mpr dashes)]
        exact ih (beside.skipComment border again) inside
      · rw [visibleWithin_here n dashes] at inside ⊢
        have beside := skipped inside
        rw [visibleWithin_here n (mt (beside.opens_of inside border) dashes)]
        exact beside

theorem Beside.visible (border : Border a a') (beside : Beside a a' l l')
    (inside : Inside a a' l.visible) : Beside a a' l.visible l'.visible := by
  have enough : l.rest.length < l.rest.length + l'.rest.length + 1 := by omega
  have enough' : l'.rest.length < l.rest.length + l'.rest.length + 1 := by omega
  rw [← visibleWithin_of_lt enough] at inside ⊢
  rw [← visibleWithin_of_lt enough']
  exact beside.visibleWithin border _ inside

/-! ## Tokens -/

theorem length_readQuoted_escape {quote : UInt8} (other : quote ≠ '\\'.toUInt8)
    (input : l.rest = '\\'.toUInt8 :: a) :
    (readQuoted quote ('\\'.toUInt8 :: a) l).2.rest.length ≤ a.length := by
  cases a with
  | nil =>
      have more : ¬ ('\\'.toUInt8 = quote ∨ '\\'.toUInt8 = 0) :=
        not_or.mpr ⟨Ne.symm other, by decide⟩
      simp only [Lexer.readQuoted, if_neg more, if_true]
      simp [input]
  | cons c rest =>
      rw [readQuoted_escape other]
      apply (length_readQuoted quote rest _).trans
      simp [input]

theorem readQuoted_beside {quote : UInt8} (other : quote ≠ '\\'.toUInt8) :
    ∀ (x : Bytes) (l l' : Lexer), l.rest = x ++ a → l'.rest = x ++ a' →
      Inside a a' (readQuoted quote (x ++ a) l).2 →
      (readQuoted quote (x ++ a') l').1 = (readQuoted quote (x ++ a) l).1 ∧
        Beside a a' (readQuoted quote (x ++ a) l).2 (readQuoted quote (x ++ a') l').2
  | [], l, l', input, input', inside => by
      rw [List.nil_append] at input inside
      rcases inside with ⟨rfl, rfl⟩ | inside
      · exact ⟨rfl, [], input, input'⟩
      · have taken := length_readQuoted quote a l
        rw [input] at taken
        omega
  | b :: x, l, l', input, input', inside => by
      rw [List.cons_append] at inside ⊢
      rw [List.cons_append]
      by_cases stop : b = quote ∨ b = 0
      · rw [readQuoted_stop stop, readQuoted_stop stop]
        exact ⟨rfl, b :: x, input, input'⟩
      · by_cases escape : b = '\\'.toUInt8
        · subst escape
          cases x with
          | nil =>
              rcases inside with ⟨rfl, rfl⟩ | inside
              · simp only [List.nil_append, Lexer.readQuoted, if_neg stop, if_true]
                exact ⟨trivial, [], by simp [input], by simp [input']⟩
              · rw [List.nil_append] at inside
                have taken := length_readQuoted_escape other input
                exact absurd inside (Nat.not_lt.mpr taken)
          | cons c x =>
              rw [List.cons_append, readQuoted_escape other] at inside ⊢
              rw [List.cons_append, readQuoted_escape other]
              have next : l.readChar.readChar.rest = x ++ a := by simp [input]
              have next' : l'.readChar.readChar.rest = x ++ a' := by simp [input']
              obtain ⟨same, beside⟩ := readQuoted_beside other x _ _ next next' inside
              exact ⟨by rw [same], beside⟩
        · rw [readQuoted_plain stop escape] at inside ⊢
          rw [readQuoted_plain stop escape]
          have next : l.readChar.rest = x ++ a := by simp [input]
          have next' : l'.readChar.rest = x ++ a' := by simp [input']
          obtain ⟨same, beside⟩ := readQuoted_beside other x _ _ next next' inside
          exact ⟨by rw [same], beside⟩

/-- The string at which the lexer stands ends in its quote. -/
def Closed (l : Lexer) : Prop := (readQuoted l.ch l.readChar.rest l.readChar).2.ch = l.ch

theorem Beside.readString {quote : UInt8} (other : quote ≠ '\\'.toUInt8) (beside : Beside a a' l l')
    (here : Inside a a' l) (inside : Inside a a' (readQuoted quote l.readChar.rest l.readChar).2) :
    (l'.readString quote).1 = (l.readString quote).1 ∧
      Beside a a' (l.readString quote).2 (l'.readString quote).2 := by
  obtain ⟨x, input, input'⟩ := beside.readChar here
  unfold Lexer.readString
  rw [input] at inside ⊢
  rw [input']
  obtain ⟨same, beside⟩ := readQuoted_beside other x _ _ input input' inside
  exact ⟨same, beside.readChar inside⟩

theorem Beside.readIdentifier (border : Border a a') (beside : Beside a a' l l')
    (inside : a.length ≤ l.readIdentifier.2.rest.length) :
    l'.readIdentifier.1 = l.readIdentifier.1 ∧
      Beside a a' l.readIdentifier.2 l'.readIdentifier.2 := by
  apply beside.readWhile
  refine .inr ⟨border, inside, ?_⟩
  intro b blank
  exact Bool.eq_false_iff.mpr fun word => by simp [(isWordChar_plain word).1] at blank

theorem Beside.readNumber (border : Border a a') (beside : Beside a a' l l')
    (inside : a.length ≤ l.readNumber.2.rest.length) :
    l'.readNumber.1 = l.readNumber.1 ∧ Beside a a' l.readNumber.2 l'.readNumber.2 := by
  have digits (b : UInt8) (blank : isWhitespace b = true) : isDigit b = false := by
    apply Bool.eq_false_iff.mpr
    intro digit
    have word : isWordChar b = true := by simp [isWordChar, digit]
    simp [(isWordChar_plain word).1] at blank
  unfold Lexer.readNumber at inside ⊢
  dsimp only at inside ⊢
  by_cases point : (Lexer.readWhile isDigit l.rest l).2.ch = '.'.toUInt8
  · rw [if_pos point] at inside ⊢
    have left := length_readWhile isDigit (Lexer.readWhile isDigit l.rest l).2.readChar.rest
      (Lexer.readWhile isDigit l.rest l).2.readChar
    have shorter : (Lexer.readWhile isDigit l.rest l).2.readChar.rest.length <
        (Lexer.readWhile isDigit l.rest l).2.rest.length :=
      length_readChar_lt (by rw [point]; decide)
    have behind : Inside a a' (Lexer.readWhile isDigit l.rest l).2 :=
      .inr (inside.trans_lt (left.trans_lt shorter))
    obtain ⟨whole, beside⟩ := beside.readWhile (.inl behind)
    rw [beside.ch behind, if_pos point]
    obtain ⟨fraction, beside⟩ := (beside.readChar behind).readWhile (.inr ⟨border, inside, digits⟩)
    exact ⟨by rw [whole, fraction], beside⟩
  · rw [if_neg point] at inside ⊢
    obtain ⟨whole, beside⟩ := beside.readWhile (.inr ⟨border, inside, digits⟩)
    rw [if_neg (mt (beside.ch_of border (by decide) (by decide)) point)]
    exact ⟨whole, beside⟩

/-- Two tokens with the same contents, in front of texts that go on side by side. -/
def Match (a a' : Bytes) (r r' : Token × Lexer) : Prop :=
  r'.1.content = r.1.content ∧ Beside a a' r.2 r'.2

theorem Match.pair {type : TokenType} {r r' : Token × Lexer} (border : Border a a')
    (beside : Beside a a' l l') (here : Inside a a' l) (visible : isWhitespace c = false)
    (some : c ≠ 0) (other : a.length ≤ r.2.rest.length → Match a a' r r')
    (inside : a.length ≤ (if l.peekChar = c then l.pair type else r).2.rest.length) :
    Match a a' (if l.peekChar = c then l.pair type else r)
      (if l'.peekChar = c then l'.pair type else r') := by
  by_cases sees : l.peekChar = c
  · rw [if_pos sees] at inside ⊢
    have more : l.readChar.ch ≠ 0 := by rwa [ch_readChar, sees]
    have behind : Inside a a' l.readChar := .inr (inside.trans_lt (length_readChar_lt more))
    rw [beside.peekChar behind, if_pos sees]
    have second := (beside.readChar here).ch behind
    exact ⟨by simp [Lexer.pair, Token.content, beside.ch here, second],
      (beside.readChar here).readChar behind⟩
  · rw [if_neg sees] at inside ⊢
    rw [if_neg (mt (beside.peekChar_of here border visible some) sees)]
    exact other inside

theorem Beside.tokenHere (border : Border a a') (beside : Beside a a' l l') (more : l.ch ≠ 0)
    (inside : a.length ≤ l.tokenHere.2.rest.length)
    (closed : a = [] ∧ a' = [] ∨ (l.tokenHere.1.type = .STRING → l.Closed)) :
    Match a a' l.tokenHere l'.tokenHere := by
  have shorter := (tokenHere_taken more).shorter
  have here : Inside a a' l := .inr (inside.trans_lt shorter)
  have same := beside.ch here
  have one (type : TokenType) : Match a a' (l.single type) (l'.single type) :=
    ⟨by simp [single, Token.content, same], beside.readChar here⟩
  have string (quote : l.ch ≠ '\\'.toUInt8) (inside : a.length ≤ (l.readString l.ch).2.rest.length)
      (closed : a = [] ∧ a' = [] ∨ l.Closed) :
      (l'.readString l.ch).1 = (l.readString l.ch).1 ∧
        Beside a a' (l.readString l.ch).2 (l'.readString l.ch).2 := by
    apply beside.readString quote here
    refine closed.imp id fun closed => inside.trans_lt (length_readChar_lt ?_)
    rw [closed]
    exact more
  revert inside closed
  unfold Lexer.tokenHere
  rw [same]
  split
  case h_1 zero =>
    apply absurd _ more
    apply UInt8.toNat_inj.mp
    exact congrArg Char.toNat zero
  case h_8 | h_10 =>
    intro inside _
    exact Match.pair border beside here (by decide) (by decide) (fun _ => one _) inside
  case h_9 =>
    intro inside _
    refine Match.pair border beside here (by decide) (by decide) (fun inside => ?_) inside
    exact Match.pair border beside here (by decide) (by decide) (fun _ => one _) inside
  case h_16 heq | h_17 heq =>
    intro inside closed
    have quote : l.ch ≠ '\\'.toUInt8 := by
      intro backslash
      rw [backslash] at heq
      cases heq
    obtain ⟨text, beside⟩ := string quote inside (closed.imp id fun closed => closed rfl)
    exact ⟨by simp [Token.content, text], beside⟩
  case h_18 =>
    intro inside _
    split
    · rename_i letter
      rw [if_pos letter] at inside
      obtain ⟨text, beside⟩ := beside.readIdentifier border inside
      exact ⟨by simp [Token.content, text], beside⟩
    · rename_i noLetter
      rw [if_neg noLetter] at inside
      split
      · rename_i digit
        rw [if_pos digit] at inside
        obtain ⟨text, beside⟩ := beside.readNumber border inside
        exact ⟨by simp [Token.content, text], beside⟩
      · exact one _
  all_goals exact fun _ _ => one _

/-! ## What depends on the characters alone -/

theorem visible_of_rest (same : l'.rest = l.rest) : l'.visible.rest = l.visible.rest := by
  have beside : Beside [] [] l l' := ⟨l.rest, by simp, by simp [same]⟩
  obtain ⟨x, left, left'⟩ := beside.visible border_nil (.inl ⟨rfl, rfl⟩)
  rw [left, left']

theorem tokenHere_of_rest (same : l'.rest = l.rest) :
    l'.tokenHere.1.content = l.tokenHere.1.content ∧
      l'.tokenHere.2.rest = l.tokenHere.2.rest := by
  have beside : Beside [] [] l l' := ⟨l.rest, by simp, by simp [same]⟩
  have first := beside.ch (.inl ⟨rfl, rfl⟩)
  by_cases atEnd : l.ch = 0
  · rw [tokenHere_end atEnd, tokenHere_end (first.trans atEnd)]
    exact ⟨rfl, same⟩
  · obtain ⟨token, x, left, left'⟩ :=
      beside.tokenHere border_nil atEnd (Nat.zero_le _) (.inl ⟨rfl, rfl⟩)
    exact ⟨token, left'.trans left.symm⟩

def contents (l : Lexer) : List (TokenType × Bytes) := l.tokens.map Token.content

theorem type_of_content {t t' : Token} (same : t'.content = t.content) : t'.type = t.type :=
  congrArg Prod.fst same

theorem contents_of_visible (same : l'.visible.rest = l.visible.rest) :
    l'.contents = l.contents := by
  unfold contents
  induction l using tokens.induct generalizing l' with
  | case1 l eof =>
      obtain ⟨token, -⟩ := tokenHere_of_rest same
      rw [← nextToken_eq, ← nextToken_eq] at token
      rw [tokens_eof eof, tokens_eof ((type_of_content token).trans eof)]
  | case2 l more ih =>
      obtain ⟨token, left⟩ := tokenHere_of_rest same
      rw [← nextToken_eq, ← nextToken_eq] at token left
      have more' : l'.nextToken.1.type ≠ .EOF_TOKEN := by rwa [type_of_content token]
      rw [tokens_more more, tokens_more more', List.map_cons, List.map_cons, token,
        ih (visible_of_rest left)]

/-! ## Inserting -/

theorem Beside.nextToken (border : Border a a') (beside : Beside a a' l l')
    (more : l.nextToken.1.type ≠ .EOF_TOKEN) (inside : a.length ≤ l.nextToken.2.rest.length)
    (closed : l.nextToken.1.type = .STRING → l.visible.Closed) :
    Match a a' l.nextToken l'.nextToken := by
  rw [nextToken_eq] at more inside closed ⊢
  rw [nextToken_eq]
  have some : l.visible.ch ≠ 0 := by
    intro atEnd
    rw [tokenHere_end atEnd] at more
    exact more rfl
  have shorter := (tokenHere_taken some).shorter
  have beside := beside.visible border (.inr (inside.trans_lt shorter))
  exact beside.tokenHere border some inside (.inr closed)

/-- The lexer comes to the text behind some of its tokens, the strings among which are closed. -/
inductive Cut (after : Bytes) : Lexer → Prop where
  | here {l : Lexer} : l.rest = after → Cut after l
  | token {l : Lexer} : l.nextToken.1.type ≠ .EOF_TOKEN →
      (l.nextToken.1.type = .STRING → l.visible.Closed) → Cut after l.nextToken.2 → Cut after l

theorem Cut.length_le (cut : Cut a l) : a.length ≤ l.rest.length := by
  induction cut with
  | here same => exact (congrArg List.length same).ge
  | @token l more _ _ ih =>
      have taken := (nextToken_cases l).resolve_left fun ends => more ends.1
      exact ih.trans taken.shorter.le

/-- What is put in at the border of a token changes no token before it. -/
theorem contents_of_cut (cut : Cut a l) (border : Border a a') (beside : Beside a a' l l')
    (behind : ∀ m m' : Lexer, m.rest = a → m'.rest = a' → m'.contents = m.contents) :
    l'.contents = l.contents := by
  induction cut generalizing l' with
  | @here l same =>
      obtain ⟨x, input, input'⟩ := beside
      obtain rfl : x = [] := by simpa [same] using input
      exact behind l l' same input'
  | @token l more closed cut ih =>
      obtain ⟨token, beside⟩ := beside.nextToken border more cut.length_le closed
      have more' : l'.nextToken.1.type ≠ .EOF_TOKEN := by rwa [type_of_content token]
      rw [contents, contents, tokens_more more, tokens_more more', List.map_cons, List.map_cons,
        token]
      exact congrArg _ (ih beside)

end Beside

end Lexer
end TinySql
