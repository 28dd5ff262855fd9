import TinySql.Sql.TokenBoundaries
import Mathlib.Data.List.Infix

/-!
# Comments

`skipComment` passes over one `--` comment, one `/* */` comment and one `#` comment, in this order.
`nextToken` calls it once, and again, twice, as long as it stands on a `--` comment. Where it stands
on another comment then, it takes this for tokens.
-/

namespace TinySql.Lexer

/-! ## Comments in a text -/

namespace Style

def opening : Style → Bytes
  | dashes => ['-'.toUInt8, '-'.toUInt8]
  | block => ['/'.toUInt8, '*'.toUInt8]
  | hash => ['#'.toUInt8]

def closing : Style → Bytes
  | dashes | hash => ['\n'.toUInt8]
  | block => ['*'.toUInt8, '/'.toUInt8]

def Fits (style : Style) (content : Bytes) : Prop := 0 ∉ content ∧ ¬ style.closing <:+: content

end Style

/-- A comment, and the whitespace behind it if it is closed. -/
structure Comment where
  style : Style
  content : Bytes
  fits : style.Fits content
  spaces : Option Bytes
  blank : ∀ s ∈ spaces, ∀ b ∈ s, isWhitespace b = true

namespace Comment

def Closed (c : Comment) : Prop := c.spaces ≠ none

def ending (c : Comment) : Bytes :=
  match c.spaces with
  | some spaces => c.style.closing ++ spaces
  | none => []

def text (c : Comment) : Bytes := c.style.opening ++ (c.content ++ c.ending)

end Comment

def texts (cs : List Comment) : Bytes := cs.flatMap Comment.text

/-- The text begins with no whitespace and no comment. -/
def Bare (text : Bytes) : Prop :=
  (∀ b ∈ text.head?, isWhitespace b = false) ∧ ∀ style : Style, ¬ style.opening <+: text

theorem bare_nil : Bare [] := ⟨nofun, fun style => by cases style <;> simp [Style.opening]⟩

/-- No further comment follows, and none is left open, unless the text ends without a newline on
the line of a comment. -/
def Complete (tail : Bytes) : List Comment → Prop
  | [] => Bare tail
  | c :: cs => (c.Closed ∨ c.style ≠ .block ∧ cs = [] ∧ tail = []) ∧ Complete tail cs

/-- The text goes on with comments of these styles. -/
def GoesOn (styles : List Style) (text : Bytes) : Prop :=
  ∃ (spaces : Bytes) (cs : List Comment) (tail : Bytes), (∀ b ∈ spaces, isWhitespace b = true) ∧
    Complete tail cs ∧ cs.map Comment.style = styles ∧ text = spaces ++ (texts cs ++ tail)

/-- Whitespace, and closed comments with whitespace behind them. -/
structure Filler where
  spaces : Bytes
  some : spaces ≠ []
  blank : ∀ b ∈ spaces, isWhitespace b = true
  comments : List Comment
  closed : ∀ c ∈ comments, c.Closed

def Filler.text (filler : Filler) : Bytes := filler.spaces ++ texts filler.comments

/-! ## How many comments are passed over -/

def passedStyle (style : Style) (styles : List Style) : Nat := if styles.head? = some style then 1 else 0

/-- By `skipComment`. -/
def passedOnce (styles : List Style) : Nat :=
  let k := passedStyle .dashes styles
  let k := k + passedStyle .block (styles.drop k)
  k + passedStyle .hash (styles.drop k)

def passedWithin : Nat → List Style → Nat
  | 0, _ => 0
  | n + 1, styles =>
      let k := passedOnce styles
      if (styles.drop k).head? = some .dashes then
        let k := k + passedOnce (styles.drop k)
        k + passedWithin n (styles.drop k)
      else k

/-- By `nextToken`. -/
def passed (styles : List Style) : Nat := passedWithin (styles.length + 1) styles

example : passed [.dashes, .block, .hash] = 3 := by decide
example : passed [.block, .block] = 1 := by decide
example : passed [.block, .dashes, .block, .block] = 4 := by decide

section Passed
variable {styles : List Style} {n : Nat}

theorem passedStyle_pos {style : Style} (here : styles.head? = some style) : passedStyle style styles = 1 :=
  if_pos here

theorem passedOnce_pos (dashes : styles.head? = some .dashes) : 0 < passedOnce styles := by
  simp only [passedOnce, passedStyle_pos dashes]
  omega

theorem passedStyle_le (style : Style) (styles : List Style) : passedStyle style styles ≤ styles.length := by
  cases styles with
  | nil => exact Nat.le_refl _
  | cons first styles =>
      unfold passedStyle
      split
      · exact Nat.succ_le_succ (Nat.zero_le _)
      · exact Nat.zero_le _

theorem passedOnce_le (styles : List Style) : passedOnce styles ≤ styles.length := by
  have dashes := passedStyle_le .dashes styles
  have block (k : Nat) := passedStyle_le .block (styles.drop k)
  have hash (k : Nat) := passedStyle_le .hash (styles.drop k)
  simp only [List.length_drop] at block hash
  have second := block (passedStyle .dashes styles)
  have third := hash (passedStyle .dashes styles + passedStyle .block (styles.drop (passedStyle .dashes styles)))
  simp only [passedOnce]
  omega

theorem passedWithin_le (n : Nat) (styles : List Style) :
    passedWithin n styles ≤ styles.length := by
  induction n generalizing styles with
  | zero => exact Nat.zero_le _
  | succ n ih =>
      have once := passedOnce_le styles
      rw [passedWithin]
      dsimp only
      split
      · have twice := passedOnce_le (styles.drop (passedOnce styles))
        have later := ih (styles.drop (passedOnce styles +
          passedOnce (styles.drop (passedOnce styles))))
        simp only [List.length_drop] at twice later
        omega
      · exact once

theorem length_drop_lt {k : Nat} (dashes : (styles.drop k).head? = some .dashes) :
    (styles.drop (k + passedOnce (styles.drop k))).length < styles.length := by
  have positive := passedOnce_pos dashes
  have some : (styles.drop k) ≠ [] := by
    intro none
    rw [none] at dashes
    cases dashes
  have := List.length_pos_iff.mpr some
  rw [List.length_drop] at this ⊢
  omega

theorem passedWithin_enough (enough : styles.length < n) (k : Nat) :
    passedWithin (n + k) styles = passedWithin n styles := by
  induction n generalizing styles with
  | zero => exact absurd enough (Nat.not_lt_zero _)
  | succ n ih =>
      rw [Nat.succ_add, passedWithin, passedWithin]
      dsimp only
      split
      · rename_i dashes
        have shorter := length_drop_lt dashes
        rw [ih (by omega)]
      · rfl

theorem passedWithin_of_lt (enough : styles.length < n) :
    passedWithin n styles = passed styles := by
  obtain ⟨k, rfl⟩ := Nat.exists_eq_add_of_lt enough
  rw [passed, Nat.add_right_comm]
  exact passedWithin_enough (Nat.lt_succ_self _) k

theorem passedWithin_stops (enough : styles.length < n) :
    (styles.drop (passedWithin n styles)).head? ≠ some .dashes := by
  induction n generalizing styles with
  | zero => exact absurd enough (Nat.not_lt_zero _)
  | succ n ih =>
      rw [passedWithin]
      dsimp only
      split
      · rename_i dashes
        have shorter := length_drop_lt dashes
        rw [← List.drop_drop]
        exact ih (by omega)
      · assumption

theorem passed_le (styles : List Style) : passed styles ≤ styles.length := passedWithin_le _ _

theorem passed_stops (styles : List Style) :
    (styles.drop (passed styles)).head? ≠ some .dashes := passedWithin_stops (Nat.lt_succ_self _)

end Passed

/-! ## Passing over comments -/

section Comments
variable {l : Lexer} {spaces content tail : Bytes} {cs : List Comment}

theorem skipWhile_append {p : UInt8 → Bool} {word : Bytes} (input : l.rest = word ++ tail)
    (all : ∀ b ∈ word, p b = true) (stop : ∀ b ∈ tail.head?, p b = false) :
    (l.skipWhile p).rest = tail := by
  obtain ⟨l', ran, left⟩ := readWhile_append input all stop
  rw [skipWhile, ran]
  exact left

theorem skipBlock_append (input : l.rest = content ++ (Style.block.closing ++ tail))
    (fits : Style.block.Fits content) : (skipBlock l.rest l).rest = tail := by
  rw [input]
  induction content generalizing l with
  | nil =>
      have closes : l.peekChar = '/'.toUInt8 := by simp [peekChar, input, Style.closing]
      simp only [List.nil_append, Style.closing, List.cons_append, skipBlock, closes]
      rw [if_neg (by decide), if_pos (by decide)]
      simp [input, Style.closing]
  | cons b content ih =>
      obtain ⟨some, closed⟩ := fits
      rw [List.mem_cons, not_or] at some
      have goes : ¬ (b = '*'.toUInt8 ∧ l.peekChar = '/'.toUInt8) := by
        rintro ⟨rfl, closes⟩
        cases content with
        | nil =>
            have same : '*'.toUInt8 = '/'.toUInt8 := by
              simpa [peekChar, input, Style.closing] using closes
            exact absurd same (by decide)
        | cons c content =>
            obtain rfl : c = '/'.toUInt8 := by simpa [peekChar, input] using closes
            exact closed ⟨[], content, rfl⟩
      have later : Style.block.Fits content :=
        ⟨some.2, fun inside => closed (inside.trans (List.suffix_cons b content).isInfix)⟩
      rw [List.cons_append, skipBlock, if_neg (Ne.symm some.1), if_neg goes]
      exact ih (by simp [input]) later

theorem skipLine_append {marks : Bytes} (input : l.rest = marks ++ (content ++ tail))
    (plain : marks.all fun b => b != '\n'.toUInt8 && b != 0) (some : 0 ∉ content)
    (inside : '\n'.toUInt8 ∉ content) (stop : ∀ b ∈ tail.head?, b = '\n'.toUInt8) :
    l.skipLine.rest = tail := by
  rw [← List.append_assoc] at input
  apply skipWhile_append input
  · intro b member
    rcases List.mem_append.mp member with mark | member
    · exact List.all_eq_true.mp plain b mark
    · have newline : b ≠ '\n'.toUInt8 := fun same => inside (same ▸ member)
      have nul : b ≠ 0 := fun same => some (same ▸ member)
      simp [newline, nul]
  · intro b head
    rw [stop b head]
    decide

theorem skipStyle_closed {c : Comment} (closed : c.Closed) (input : l.rest = c.text ++ tail)
    (stop : ∀ b ∈ tail.head?, isWhitespace b = false) :
    (l.skipStyle c.style).skipWhitespace.rest = tail := by
  obtain ⟨style, content, fits, spaces?, blank⟩ := c
  obtain ⟨spaces, rfl⟩ := Option.ne_none_iff_exists'.mp closed
  have blank := blank spaces rfl
  have line {marks : Bytes} (input : l.rest = marks ++ (content ++ '\n'.toUInt8 :: (spaces ++ tail)))
      (plain : marks.all fun b => b != '\n'.toUInt8 && b != 0)
      (inside : ¬ ['\n'.toUInt8] <:+: content) : l.skipLine.skipWhitespace.rest = tail := by
    have one := mt (List.singleton_infix_iff _ _).mpr inside
    have left : l.skipLine.rest = ('\n'.toUInt8 :: spaces) ++ tail :=
      skipLine_append input plain fits.1 one (by simp)
    apply skipWhile_append left _ stop
    exact List.forall_mem_cons.mpr ⟨by decide, blank⟩
  cases style with
  | dashes =>
      have input : l.rest = Style.dashes.opening ++ (content ++ '\n'.toUInt8 :: (spaces ++ tail)) := by
        simp [input, Comment.text, Comment.ending, Style.closing]
      exact line input (by decide) fits.2
  | hash =>
      have input : l.rest = Style.hash.opening ++ (content ++ '\n'.toUInt8 :: (spaces ++ tail)) := by
        simp [input, Comment.text, Comment.ending, Style.closing]
      exact line input (by decide) fits.2
  | block =>
      have body : l.readChar.readChar.rest = content ++ (Style.block.closing ++ (spaces ++ tail)) := by
        simp [input, Comment.text, Comment.ending, Style.opening]
      exact skipWhile_append (skipBlock_append body fits) blank stop

/-- Without a newline, a line is skipped to the end of the text. -/
theorem skipStyle_open {c : Comment} (line : c.style ≠ .block) (isOpen : ¬ c.Closed)
    (input : l.rest = c.text) : (l.skipStyle c.style).skipWhitespace.rest = [] := by
  obtain ⟨style, content, fits, spaces?, blank⟩ := c
  obtain rfl : spaces? = none := not_not.mp isOpen
  have toEnd {marks : Bytes} (input : l.rest = marks ++ content)
      (plain : marks.all fun b => b != '\n'.toUInt8 && b != 0)
      (inside : ¬ ['\n'.toUInt8] <:+: content) : l.skipLine.skipWhitespace.rest = [] := by
    have one := mt (List.singleton_infix_iff _ _).mpr inside
    have left : l.skipLine.rest = [] ++ [] :=
      skipLine_append (by simp [input]) plain fits.1 one nofun
    exact skipWhile_append left (List.forall_mem_nil _) nofun
  have whole : l.rest = style.opening ++ content := by simpa [Comment.text, Comment.ending] using input
  cases style with
  | dashes => exact toEnd whole (by decide) fits.2
  | hash => exact toEnd whole (by decide) fits.2
  | block => exact absurd rfl line

theorem opens_iff (style : Style) : l.Opens style ↔ style.opening <+: l.rest := by
  have dash : (0 : UInt8) ≠ '-'.toUInt8 := by decide
  have slash : (0 : UInt8) ≠ '/'.toUInt8 := by decide
  have star : (0 : UInt8) ≠ '*'.toUInt8 := by decide
  have hash : (0 : UInt8) ≠ '#'.toUInt8 := by decide
  rcases input : l.rest with _ | ⟨b, _ | ⟨c, rest⟩⟩
  · cases style <;> simp [Opens, ch, input, Style.opening, dash, slash, hash]
  · cases style <;> simp [Opens, ch, peekChar, input, Style.opening, dash, star, eq_comm]
  · cases style <;> simp [Opens, ch, peekChar, input, Style.opening, eq_comm]

theorem opening_of_comment (c : Comment) (style : Style) :
    style.opening <+: c.text ++ tail ↔ c.style = style := by
  rw [Comment.text, List.append_assoc]
  constructor
  · intro opens
    cases here : c.style <;> cases style
    case dashes.dashes | block.block | hash.hash => rfl
    all_goals
      rw [here] at opens
      simp only [Style.opening, List.cons_append, List.cons_prefix_cons] at opens
      exact absurd opens.1 (by decide)
  · rintro rfl
    exact List.prefix_append _ _

theorem Complete.bare (complete : Complete tail cs) : Bare tail := by
  induction cs with
  | nil => exact complete
  | cons c cs ih => exact ih complete.2

theorem Complete.drop (complete : Complete tail cs) (k : Nat) : Complete tail (cs.drop k) := by
  induction k generalizing cs with
  | zero => exact complete
  | succ k ih =>
      cases cs with
      | nil => exact complete
      | cons c cs => exact ih complete.2

theorem visible_of_complete (complete : Complete tail cs) :
    ∀ b ∈ (texts cs ++ tail).head?, isWhitespace b = false := by
  cases cs with
  | nil => exact complete.1
  | cons c cs =>
      intro b head
      cases here : c.style
      all_goals
        obtain rfl : _ = b := by
          simpa [texts, Comment.text, here, Style.opening] using head
        decide

theorem skipStyle_comment {c : Comment} (complete : Complete tail (c :: cs))
    (input : l.rest = c.text ++ (texts cs ++ tail)) :
    (l.skipStyle c.style).skipWhitespace.rest = texts cs ++ tail := by
  by_cases closed : c.Closed
  · exact skipStyle_closed closed input (visible_of_complete complete.2)
  · obtain ⟨line, rfl, rfl⟩ := complete.1.resolve_left closed
    exact skipStyle_open line closed (input.trans (List.append_nil _))

theorem skipOne_comments (style : Style) (input : l.rest = texts cs ++ tail)
    (complete : Complete tail cs) :
    (skipOne style l).rest = texts (cs.drop (passedStyle style (cs.map Comment.style))) ++ tail := by
  cases cs with
  | nil =>
      have none : ¬ l.Opens style := by
        rw [opens_iff, input]
        exact complete.2 style
      rw [skipOne, if_neg none, input]
      simp [passedStyle]
  | cons c cs =>
      have input : l.rest = c.text ++ (texts cs ++ tail) := by simp [input, texts]
      by_cases same : c.style = style
      · have opens : l.Opens style := by
          rw [opens_iff, input]
          exact (opening_of_comment c style).mpr same
        rw [skipOne, if_pos opens, passedStyle_pos (by simp [same]), ← same]
        exact skipStyle_comment complete input
      · have none : ¬ l.Opens style := by
          rw [opens_iff, input]
          exact mt (opening_of_comment c style).mp same
        rw [skipOne, if_neg none, passedStyle, if_neg (by simp [same]), input]
        simp [texts]

theorem skipComment_comments (input : l.rest = texts cs ++ tail) (complete : Complete tail cs) :
    l.skipComment.rest = texts (cs.drop (passedOnce (cs.map Comment.style))) ++ tail := by
  have dashes := skipOne_comments .dashes input complete
  have blocks := skipOne_comments .block dashes (complete.drop _)
  have hashes := skipOne_comments .hash blocks ((complete.drop _).drop _)
  rw [skipComment_eq, hashes]
  simp only [passedOnce, List.drop_drop, List.map_drop]

theorem opens_dashes_iff (input : l.rest = texts cs ++ tail) (complete : Complete tail cs) :
    l.Opens .dashes ↔ (cs.map Comment.style).head? = some .dashes := by
  rw [opens_iff, input]
  cases cs with
  | nil => simpa [texts] using complete.2 .dashes
  | cons c cs => simpa [texts] using opening_of_comment c .dashes

theorem visibleWithin_comments {n : Nat} (enough : n = 0 → spaces = [])
    (input : l.rest = spaces ++ (texts cs ++ tail)) (blank : ∀ b ∈ spaces, isWhitespace b = true)
    (complete : Complete tail cs) : (visibleWithin n l).rest =
      texts (cs.drop (passedWithin n (cs.map Comment.style))) ++ tail := by
  induction n generalizing l spaces cs with
  | zero =>
      rw [enough rfl, List.nil_append] at input
      exact input
  | succ n ih =>
      have skipped : l.skipWhitespace.rest = texts cs ++ tail :=
        skipWhile_append input blank (visible_of_complete complete)
      have once := skipComment_comments skipped complete
      have again := opens_dashes_iff once (complete.drop _)
      rw [List.map_drop] at again
      rw [passedWithin]
      dsimp only
      by_cases dashes : l.skipWhitespace.skipComment.Opens .dashes
      · rw [visibleWithin_again n dashes, if_pos (again.mp dashes)]
        have twice := skipComment_comments once (complete.drop _)
        rw [List.drop_drop, List.map_drop, ← List.nil_append (texts _ ++ tail)] at twice
        rw [ih (fun _ => rfl) twice nofun (complete.drop _), List.drop_drop, List.map_drop]
      · rw [visibleWithin_here n dashes, if_neg (mt again.mpr dashes)]
        exact once

theorem length_texts (cs : List Comment) : cs.length ≤ (texts cs).length := by
  induction cs with
  | nil => exact Nat.le_refl _
  | cons c cs ih =>
      have some : 0 < c.text.length := by
        cases here : c.style <;> simp [Comment.text, here, Style.opening]
      simp only [texts, List.flatMap_cons, List.length_cons, List.length_append] at ih ⊢
      omega

/-- The comments that are not passed over stand in front of the lexer. -/
theorem visible_comments (input : l.rest = spaces ++ (texts cs ++ tail))
    (blank : ∀ b ∈ spaces, isWhitespace b = true) (complete : Complete tail cs) :
    l.visible.rest = texts (cs.drop (passed (cs.map Comment.style))) ++ tail := by
  have enough : (cs.map Comment.style).length < l.rest.length + 1 := by
    have := length_texts cs
    simp only [input, List.length_map, List.length_append]
    omega
  have left := visibleWithin_comments (fun none => absurd none (Nat.succ_ne_zero l.rest.length))
    input blank complete
  rw [visible, left, passedWithin_of_lt enough]

end Comments

/-! ## Comments that are passed over -/

section Insert
variable {l l' : Lexer} {inserted following : List Style}

theorem filler_spaces (filler : Filler) {spaces : Bytes} (blank : ∀ b ∈ spaces, isWhitespace b = true) :
    ∃ (first : Bytes) (cs : List Comment), (∀ b ∈ first, isWhitespace b = true) ∧
      cs.map Comment.style = filler.comments.map Comment.style ∧ (∀ c ∈ cs, c.Closed) ∧
      filler.text ++ spaces = first ++ texts cs := by
  obtain ⟨first, _, firstBlank, comments, closed⟩ := filler
  rcases List.eq_nil_or_concat comments with rfl | ⟨before, c, rfl⟩
  · refine ⟨first ++ spaces, [], List.forall_mem_append.mpr ⟨firstBlank, blank⟩, rfl, closed, ?_⟩
    simp [Filler.text, texts]
  · rw [List.concat_eq_append] at closed
    obtain ⟨beforeClosed, lastClosed⟩ := List.forall_mem_append.mp closed
    obtain ⟨behind, ends⟩ := Option.ne_none_iff_exists'.mp (lastClosed c List.mem_cons_self)
    have longer : ∀ s ∈ some (behind ++ spaces), ∀ b ∈ s, isWhitespace b = true := by
      rintro s ⟨⟩
      exact List.forall_mem_append.mpr ⟨c.blank behind ends, blank⟩
    let last : Comment := { c with spaces := some (behind ++ spaces), blank := longer }
    refine ⟨first, before ++ [last], firstBlank, by simp [last], ?_, ?_⟩
    · exact List.forall_mem_append.mpr ⟨beforeClosed, List.forall_mem_singleton.mpr nofun⟩
    · simp [Filler.text, texts, Comment.text, Comment.ending, ends, last]

theorem Complete.append {first cs : List Comment} {tail : Bytes} (closed : ∀ c ∈ first, c.Closed)
    (complete : Complete tail cs) : Complete tail (first ++ cs) := by
  induction first with
  | nil => exact complete
  | cons c first ih =>
      obtain ⟨here, later⟩ := List.forall_mem_cons.mp closed
      exact ⟨.inl here, ih later⟩

theorem contents_of_passed (filler : Filler) {after : Bytes}
    (same : filler.comments.map Comment.style = inserted) (goesOn : GoesOn following after)
    (condition : passed (inserted ++ following) = inserted.length + passed following)
    (input : l.rest = after) (input' : l'.rest = filler.text ++ after) :
    l'.contents = l.contents := by
  obtain ⟨spaces, cs, tail, blank, complete, rfl, rfl⟩ := goesOn
  obtain ⟨first, more, firstBlank, styles, closed, text⟩ := filler_spaces filler blank
  have whole : l'.rest = first ++ (texts (more ++ cs) ++ tail) := by
    rw [input', ← List.append_assoc, text]
    simp [texts]
  have here := visible_comments whole firstBlank (complete.append closed)
  rw [List.map_append, styles, same, condition] at here
  have there := visible_comments input blank complete
  have length : more.length = inserted.length := by
    rw [← same, ← styles, List.length_map]
  apply contents_of_visible
  rw [here, there, ← length, List.drop_length_add_append]

end Insert

/-! ## Comments that are told apart by what is in them -/

def word (n : Nat) : Bytes := List.replicate (n + 1) 'a'.toUInt8

theorem word_fits (n : Nat) (style : Style) : style.Fits (word n) := by
  have letters {b : UInt8} (member : b ∈ word n) : b = 'a'.toUInt8 := List.eq_of_mem_replicate member
  constructor
  · intro nul
    exact absurd (letters nul) (by decide)
  · intro closed
    have inside := fun b => letters ∘ closed.subset (a := b)
    cases style with
    | dashes | hash => exact absurd (inside _ List.mem_cons_self) (by decide)
    | block => exact absurd (inside _ List.mem_cons_self) (by decide)

theorem word_isWord (n : Nat) : isWord (word n) = true := by
  have letters : (word n).all isWordChar = true := by
    apply List.all_eq_true.mpr
    intro b member
    obtain rfl := List.eq_of_mem_replicate member
    decide
  rw [isWord, letters, Bool.and_true]
  rfl

def wordComments : Nat → List Style → List Comment
  | _, [] => []
  | n, style :: styles =>
      ⟨style, word n, word_fits n style, some [' '.toUInt8], by simp [isWhitespace]⟩ ::
        wordComments (n + 1) styles

@[simp] theorem wordComments_styles (n : Nat) (styles : List Style) :
    (wordComments n styles).map Comment.style = styles := by
  induction styles generalizing n with
  | nil => rfl
  | cons style styles ih => rw [wordComments, List.map_cons, ih]

theorem wordComments_closed (n : Nat) (styles : List Style) :
    ∀ c ∈ wordComments n styles, c.Closed := by
  induction styles generalizing n with
  | nil => exact List.forall_mem_nil _
  | cons style styles ih => exact List.forall_mem_cons.mpr ⟨nofun, ih _⟩

theorem wordComments_complete (n : Nat) (styles : List Style) :
    Complete [] (wordComments n styles) := by
  rw [← List.append_nil (wordComments n styles)]
  exact Complete.append (wordComments_closed n styles) bare_nil

theorem wordComments_append (n : Nat) (first second : List Style) :
    wordComments n (first ++ second) =
      wordComments n first ++ wordComments (n + first.length) second := by
  induction first generalizing n with
  | nil => rfl
  | cons style first ih =>
      rw [List.cons_append, wordComments, wordComments, ih, List.cons_append, List.length_cons,
        Nat.add_assoc, Nat.add_comm 1]

theorem wordComments_drop (n k : Nat) (styles : List Style) :
    (wordComments n styles).drop k = wordComments (n + k) (styles.drop k) := by
  induction k generalizing n styles with
  | zero => rfl
  | succ k ih =>
      cases styles with
      | nil => rfl
      | cons style styles =>
          rw [wordComments, List.drop_succ_cons, ih, List.drop_succ_cons, Nat.add_assoc,
            Nat.add_comm 1]

/-- The length of the first word of letters a, if there is any. -/
def firstWord (ts : List (TokenType × Bytes)) : Option Nat :=
  (ts.find? fun t => t.2.head? == some 'a'.toUInt8).map fun t => t.2.length

def wordFiller (styles : List Style) : Filler where
  spaces := [' '.toUInt8]
  some := nofun
  blank := by simp [isWhitespace]
  comments := wordComments 0 styles
  closed := wordComments_closed 0 styles

section Words
variable {l : Lexer} {spaces : Bytes} {n : Nat} {styles : List Style}

theorem firstWord_cons (t : TokenType × Bytes) (ts : List (TokenType × Bytes))
    (other : t.2.head? ≠ some 'a'.toUInt8) : firstWord (t :: ts) = firstWord ts := by
  rw [firstWord, List.find?_cons_of_neg (by simpa using other)]
  rfl

theorem firstWord_word {tail : Bytes} (input : l.rest = word n ++ tail)
    (stop : ∀ b ∈ tail.head?, isWordChar b = false) : firstWord l.contents = some (n + 1) := by
  have input : l.rest = [] ++ (word n ++ tail) := input
  obtain ⟨t, l', tokens, -, literal, -⟩ := tokens_word input nofun (word_isWord n) stop
  have whole : t.content.2 = word n := literal
  have first : (word n).head? = some 'a'.toUInt8 := rfl
  rw [contents, tokens, List.map_cons, firstWord,
    List.find?_cons_of_pos (by simp [whole, first])]
  simp [whole, word]

theorem firstWord_single {l' : Lexer} {b : UInt8} {type : TokenType} {tail : Bytes}
    (token : l.nextToken = l'.tokenHere) (left : l'.rest = b :: tail)
    (mark : l'.tokenHere = l'.single type) (more : type ≠ .EOF_TOKEN) (other : b ≠ 'a'.toUInt8) :
    firstWord l.contents = firstWord l'.readChar.contents := by
  rw [mark] at token
  have first : l'.ch = b := by simp [ch, left]
  have noWord : some l'.ch ≠ some 'a'.toUInt8 := by simpa [first] using other
  rw [contents, tokens_cons token more]
  exact firstWord_cons _ _ noWord

theorem tokenHere_hash (here : l.ch = '#'.toUInt8) : l.tokenHere = l.single .ILLEGAL := by
  unfold tokenHere
  rw [here]
  rfl

theorem tokenHere_slash (here : l.ch = '/'.toUInt8) : l.tokenHere = l.single .SLASH := by
  unfold tokenHere
  rw [here]
  rfl

/-- The opening mark is taken for tokens, and then the word is one. -/
theorem firstWord_stuck {style : Style}
    (left : l.visible.rest = texts (wordComments n (style :: styles))) (other : style ≠ .dashes) :
    firstWord l.contents = some (n + 1) := by
  cases style with
  | dashes => exact absurd rfl other
  | hash =>
      have left : l.visible.rest = '#'.toUInt8 :: (word n ++ '\n'.toUInt8 ::
          ([' '.toUInt8] ++ texts (wordComments (n + 1) styles))) := by
        simp [left, wordComments, texts, Comment.text, Comment.ending, Style.opening, Style.closing]
      have mark := tokenHere_hash (l := l.visible) (by simp [ch, left])
      rw [firstWord_single (nextToken_eq l) left mark (by decide) (by decide)]
      apply firstWord_word (by rw [rest_readChar, left, List.tail_cons])
      rintro b ⟨⟩
      decide
  | block =>
      have left : l.visible.rest = '/'.toUInt8 :: '*'.toUInt8 :: (word n ++ '*'.toUInt8 ::
          '/'.toUInt8 :: ([' '.toUInt8] ++ texts (wordComments (n + 1) styles))) := by
        simp [left, wordComments, texts, Comment.text, Comment.ending, Style.opening, Style.closing]
      have slash := tokenHere_slash (l := l.visible) (by simp [ch, left])
      rw [firstWord_single (nextToken_eq l) left slash (by decide) (by decide)]
      have behind : l.visible.readChar.rest = [] ++ '*'.toUInt8 :: (word n ++ '*'.toUInt8 ::
          '/'.toUInt8 :: ([' '.toUInt8] ++ texts (wordComments (n + 1) styles))) := by
        rw [rest_readChar, left]
        rfl
      obtain ⟨m, left', token⟩ := nextToken_behind behind (List.forall_mem_nil _) (by decide) (by decide)
      have asterisk := tokenHere_asterisk (l := m) (by simp [ch, left'])
      rw [firstWord_single token left' asterisk (by decide) (by decide)]
      apply firstWord_word (by rw [rest_readChar, left', List.tail_cons])
      rintro b ⟨⟩
      decide

/-- What is left of such comments can be seen by the length of the first word. -/
theorem firstWord_comments (input : l.rest = spaces ++ texts (wordComments n styles))
    (blank : ∀ b ∈ spaces, isWhitespace b = true) : firstWord l.contents =
      if passed styles < styles.length then some (n + passed styles + 1) else none := by
  rw [← List.append_nil (texts _)] at input
  have left := visible_comments input blank (wordComments_complete n styles)
  rw [wordComments_styles, wordComments_drop, List.append_nil] at left
  have stops := passed_stops styles
  cases behind : styles.drop (passed styles) with
  | nil =>
      have all : ¬ passed styles < styles.length := Nat.not_lt.mpr (List.drop_eq_nil_iff.mp behind)
      rw [behind] at left
      have eof : l.nextToken.1.type = .EOF_TOKEN := by
        have atEnd : l.visible.ch = 0 := by simp [ch, left, wordComments, texts]
        rw [nextToken_eq, tokenHere_end atEnd]
      rw [if_neg all, contents, tokens_eof eof]
      rfl
  | cons style rest =>
      have some : passed styles < styles.length := by
        by_contra none
        rw [List.drop_eq_nil_iff.mpr (Nat.not_lt.mp none)] at behind
        cases behind
      rw [behind] at left stops
      have other : style ≠ .dashes := fun same => stops (congrArg Option.some same)
      rw [if_pos some, firstWord_stuck left other]

end Words

/-! ## Insertions -/

/-- The pairs that `tokenize` returns. -/
def tokenContents (input : Bytes) : Option (List (TokenType × Bytes)) :=
  (tokenize input).map (List.map Token.content)

theorem tokenContents_eq (input : Bytes) :
    tokenContents input = some ((create input).contents ++ [(.EOF_TOKEN, [])]) := by
  obtain ⟨eof, ⟨type, literal⟩, within⟩ := tokenizeWithin_enough (create input)
  have content : eof.content = (.EOF_TOKEN, []) := by rw [Token.content, type, literal]
  rw [tokenContents, tokenize, within _ (Nat.lt_succ_of_le (length_tokens_create input))]
  simp [contents, content]

/-- No filler with comments of the one kind changes a text that goes on with comments of the other,
at the start or behind a token. -/
def Insignificant (inserted following : List Style) : Prop :=
  ∀ (filler : Filler) (before after : Bytes), filler.comments.map Comment.style = inserted →
    GoesOn following after → Cut after (create (before ++ after)) →
      tokenContents (before ++ (filler.text ++ after)) = tokenContents (before ++ after)

/-- Comments are insignificant exactly where `nextToken` passes over all of them, and over as many of
those behind them as before. -/
theorem insignificant_iff (inserted following : List Style) : Insignificant inserted following ↔
    passed (inserted ++ following) = inserted.length + passed following := by
  constructor
  · intro insignificant
    let after := texts (wordComments inserted.length following)
    have goesOn : GoesOn following after :=
      ⟨[], wordComments inserted.length following, [], nofun, wordComments_complete _ _, by simp,
        by simp [after]⟩
    have same := insignificant (wordFiller inserted) [] after (wordComments_styles _ _) goesOn
      (.here (rest_create _))
    rw [tokenContents_eq, tokenContents_eq] at same
    have same := congrArg firstWord (List.append_cancel_right (Option.some.inj same))
    have whole : [] ++ ((wordFiller inserted).text ++ after) =
        [' '.toUInt8] ++ texts (wordComments 0 (inserted ++ following)) := by
      rw [wordComments_append, Nat.zero_add]
      simp [wordFiller, Filler.text, texts, after]
    have here := firstWord_comments ((rest_create _).trans whole) (wordFiller inserted).blank
    have there := firstWord_comments (rest_create ([] ++ after)) nofun
    rw [here, there] at same
    have few := passed_le following
    have all := passed_le (inserted ++ following)
    rw [List.length_append] at same all
    by_cases stuck : passed following < following.length
    · rw [if_pos stuck] at same
      split at same
      · have := Option.some.inj same
        omega
      · cases same
    · rw [if_neg stuck] at same
      split at same
      · cases same
      · omega
  · intro condition filler before after styles goesOn cut
    have border : Border after (filler.text ++ after) := by
      intro b head
      obtain ⟨first, spaces, split⟩ := List.exists_cons_of_ne_nil filler.some
      obtain rfl : first = b := by simpa [Filler.text, split] using head
      exact .inl (filler.blank first (by simp [split]))
    have beside : Beside after (filler.text ++ after) (create (before ++ after))
        (create (before ++ (filler.text ++ after))) :=
      ⟨before, rest_create _, rest_create _⟩
    have same := contents_of_cut cut border beside fun m m' input input' =>
      contents_of_passed filler styles goesOn condition input input'
    rw [tokenContents_eq, tokenContents_eq, same]

/-- In front of SELECT 1, the second comment becomes tokens. -/
theorem second_block_not_skipped : ¬ ∀ (filler : Filler) (before after : Bytes),
    (∃ styles, GoesOn styles after) → Cut after (create (before ++ after)) →
      tokenContents (before ++ (filler.text ++ after)) = tokenContents (before ++ after) := by
  intro all
  have bare : Bare (ascii "SELECT 1") := by
    constructor
    · rintro b ⟨⟩
      decide
    · intro style
      cases style <;> decide +kernel
  have goesOn : GoesOn [] (ascii "SELECT 1") := ⟨[], [], _, nofun, bare, rfl, rfl⟩
  have same := all (wordFiller [.block, .block]) [] (ascii "SELECT 1") ⟨[], goesOn⟩ (.here (rest_create _))
  exact absurd same (by decide +kernel)

end TinySql.Lexer
