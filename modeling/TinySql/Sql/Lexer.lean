import TinySql.Sql.Token

/-!
# `Lexer`

The lexer stands on a character of its input. A NUL character reads as the end of the input,
wherever it stands.
-/

namespace TinySql

/-- `Lexer`: the input from the current character on, and where that stands. -/
structure Lexer where
  rest : Bytes
  position : Nat
  line : Nat
  column : Nat
  deriving DecidableEq, Repr

namespace Lexer

def ch (l : Lexer) : UInt8 := l.rest.headD 0

def peekChar (l : Lexer) : UInt8 := l.rest.tail.headD 0

/-- Count the line and the column of the character that has just been read. -/
def locate (l : Lexer) : Lexer :=
  if l.ch = '\n'.toUInt8 then { l with line := l.line + 1, column := 0 }
  else { l with column := l.column + 1 }

def readChar (l : Lexer) : Lexer :=
  locate { l with rest := l.rest.tail, position := l.position + 1 }

/-- `Lexer(const std::string& input)`, which reads the first character. -/
def create (input : Bytes) : Lexer := locate ⟨input, 0, 1, 0⟩

def isLetter (ch : UInt8) : Bool :=
  ('a'.toUInt8 ≤ ch && ch ≤ 'z'.toUInt8) || ('A'.toUInt8 ≤ ch && ch ≤ 'Z'.toUInt8) ||
    ch == '_'.toUInt8

def isWhitespace (ch : UInt8) : Bool :=
  ch == ' '.toUInt8 || ch == '\t'.toUInt8 || ch == '\n'.toUInt8 || ch == '\r'.toUInt8

/-! ## Loops over characters

Each loop recurses over what was left of the input when it began. -/

def readWhile (p : UInt8 → Bool) : Bytes → Lexer → Bytes × Lexer
  | [], l => ([], l)
  | b :: rest, l =>
      if p b then
        let (taken, l) := readWhile p rest l.readChar
        (b :: taken, l)
      else ([], l)

def skipWhile (p : UInt8 → Bool) (l : Lexer) : Lexer := (readWhile p l.rest l).2

def skipWhitespace (l : Lexer) : Lexer := l.skipWhile isWhitespace

def skipLine (l : Lexer) : Lexer := l.skipWhile fun ch => ch != '\n'.toUInt8 && ch != 0

def skipBlock : Bytes → Lexer → Lexer
  | [], l => l
  | b :: rest, l =>
      if b = 0 then l
      else if b = '*'.toUInt8 ∧ l.peekChar = '/'.toUInt8 then l.readChar.readChar
      else skipBlock rest l.readChar

def skipComment (l : Lexer) : Lexer :=
  let l :=
    if l.ch = '-'.toUInt8 ∧ l.peekChar = '-'.toUInt8 then l.skipLine.skipWhitespace else l
  let l :=
    if l.ch = '/'.toUInt8 ∧ l.peekChar = '*'.toUInt8 then
      let l := l.readChar.readChar
      (skipBlock l.rest l).skipWhitespace
    else l
  if l.ch = '#'.toUInt8 then l.skipLine.skipWhitespace else l

def readIdentifier (l : Lexer) : Bytes × Lexer :=
  readWhile (fun ch => isLetter ch || isDigit ch) l.rest l

/-- The digits of a number, with at most one point among them. -/
def readNumber (l : Lexer) : Bytes × Lexer :=
  let (whole, l) := readWhile isDigit l.rest l
  if l.ch = '.'.toUInt8 then
    let (fraction, l) := readWhile isDigit l.readChar.rest l.readChar
    (whole ++ '.'.toUInt8 :: fraction, l)
  else (whole, l)

/-- The character that an escape sequence stands for. -/
def unescape (ch : UInt8) : UInt8 :=
  if ch = 'n'.toUInt8 then '\n'.toUInt8
  else if ch = 't'.toUInt8 then '\t'.toUInt8
  else if ch = 'r'.toUInt8 then '\r'.toUInt8
  else ch

/-- The characters up to the closing quote; at the end of the input an escape yields a NUL. -/
def readQuoted (quote : UInt8) : Bytes → Lexer → Bytes × Lexer
  | [], l => ([], l)
  | [b], l =>
      if b = quote ∨ b = 0 then ([], l)
      else if b = '\\'.toUInt8 then ([0], l.readChar.readChar)
      else ([b], l.readChar)
  | b :: c :: rest, l =>
      if b = quote ∨ b = 0 then ([], l)
      else if b = '\\'.toUInt8 then
        let (text, l) := readQuoted quote rest l.readChar.readChar
        (unescape c :: text, l)
      else
        let (text, l) := readQuoted quote (c :: rest) l.readChar
        (b :: text, l)

def readString (quote : UInt8) (l : Lexer) : Bytes × Lexer :=
  let (text, l) := readQuoted quote l.readChar.rest l.readChar
  (text, l.readChar)

/-! ## Tokens -/

def single (type : TokenType) (l : Lexer) : Token × Lexer :=
  (⟨type, [l.ch], l.line, l.column⟩, l.readChar)

def pair (type : TokenType) (l : Lexer) : Token × Lexer :=
  (⟨type, [l.ch, l.readChar.ch], l.line, l.column⟩, l.readChar.readChar)

/-- The token that begins at the current character, which is not the start of a comment. -/
def tokenHere (l : Lexer) : Token × Lexer :=
  match Char.ofUInt8 l.ch with
  | '\x00' => (⟨.EOF_TOKEN, [], l.line, l.column⟩, l)
  | '+' => l.single .PLUS
  | '-' => l.single .MINUS
  | '*' => l.single .ASTERISK
  | '/' => l.single .SLASH
  | '%' => l.single .PERCENT
  | '=' => l.single .EQ
  | '!' => if l.peekChar = '='.toUInt8 then l.pair .NE else l.single .ILLEGAL
  | '<' =>
      if l.peekChar = '='.toUInt8 then l.pair .LE
      else if l.peekChar = '>'.toUInt8 then l.pair .NE
      else l.single .LT
  | '>' => if l.peekChar = '='.toUInt8 then l.pair .GE else l.single .GT
  | ',' => l.single .COMMA
  | ';' => l.single .SEMICOLON
  | '.' => l.single .DOT
  | '(' => l.single .LPAREN
  | ')' => l.single .RPAREN
  | '\'' | '"' =>
      let (text, after) := l.readString l.ch
      (⟨.STRING, text, l.line, l.column⟩, after)
  | _ =>
      if isLetter l.ch then
        let (text, after) := l.readIdentifier
        (⟨lookupKeyword text, text, l.line, l.column⟩, after)
      else if isDigit l.ch then
        let (text, after) := l.readNumber
        (⟨.NUMBER, text, l.line, l.column⟩, after)
      else l.single .ILLEGAL

/-- `nextToken`; a `--` that is left at the start is skipped, and the token behind it taken. The
first argument bounds how often that can happen. -/
def nextTokenWithin : Nat → Lexer → Token × Lexer
  | 0, l => tokenHere l
  | n + 1, l =>
      let l := l.skipWhitespace.skipComment
      if l.ch = '-'.toUInt8 ∧ l.peekChar = '-'.toUInt8 then nextTokenWithin n l.skipComment
      else tokenHere l

def nextToken (l : Lexer) : Token × Lexer := nextTokenWithin (l.rest.length + 1) l

end Lexer

end TinySql
