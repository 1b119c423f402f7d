import CellHighlight.Elixir.Literal
import CellHighlight.Text.Letter

/-!
# Tokens of Elixir code

The token at the beginning of a text that is code, decided by its first
characters.  A literal is taken as far as it goes on the line, and what remains
open is pushed on the stack of frames.
-/

namespace CellHighlight.Elixir

/-- A style, or a word whose style depends on the state. -/
inductive LexemeKind
  | styled (style : Style)
  | word
deriving DecidableEq, Repr

/-- A token of code; `length` counts characters. -/
structure Lexeme where
  length : Nat
  kind : LexemeKind
  marker : Option Marker := none
  pushed : List Frame := []
deriving DecidableEq, Repr

/-! ## Character classes -/

def isWordChar (c : Char) : Bool := isAsciiLetter c || isAsciiDigit c || c == '_'

/-- Everything from the inverted exclamation mark on counts as a letter. -/
def isBeyondAscii (c : Char) : Bool := '\u00A1' ≤ c

def isNameStart (c : Char) : Bool := isAsciiLetter c || c == '_' || isBeyondAscii c

def isNameChar (c : Char) : Bool := isWordChar c || isBeyondAscii c

def isOperatorChar (c : Char) : Bool := "=+-/*:.^%<>~|".toList.contains c

/-- Characters that continue an operator.  A colon, a slash and a percent sign
always begin a token of their own. -/
def isOperatorTail (c : Char) : Bool := "=+-*.^<>~|".toList.contains c

def isHexDigit (c : Char) : Bool :=
  isAsciiDigit c || ('a' ≤ c && c ≤ 'f') || ('A' ≤ c && c ≤ 'F')

def isOctalDigit (c : Char) : Bool := '0' ≤ c && c ≤ '7'

def isBinaryDigit (c : Char) : Bool := c == '0' || c == '1'

def isDecimalDigit (c : Char) : Bool := isAsciiDigit c || c == '_'

def matchingDelimiter : Char → Char
  | '[' => ']'
  | '{' => '}'
  | '(' => ')'
  | c => c

/-! ## Literals -/

def quotedLexeme (opening : Nat) (quoted : Quoted) (text : List Char) : Lexeme :=
  let (length, stop) := quoted.scanBody false text
  { length := opening + length
    kind := .styled quoted.style
    pushed := quoted.framesAfter stop }

/-- Round brackets in the text close only what is open, and all of it.  A signed word of 32
bits counts as well if fewer than 2^31 of them are open at once. -/
def roundBalanced : Nat → List Char → Bool
  | depth, [] => depth == 0
  | depth, c :: text =>
      if c = '(' then roundBalanced (depth + 1) text
      else if c = ')' then
        match depth with
        | 0 => false
        | depth + 1 => roundBalanced depth text
      else roundBalanced depth text

def opensRegex (text : List Char) : Bool :=
  text.contains '/' && roundBalanced 0 (text.takeWhile (· != '/'))

def slashLexeme (text : List Char) : Lexeme :=
  if opensRegex text then quotedLexeme 1 ⟨'/', .regex, true, false, false⟩ text
  else ⟨1, .styled .operator, none, []⟩

def percentStyle : Option Char → Style × Bool
  | some 's' => (.atom, true)
  | some 'r' => (.regex, true)
  | some 'w' => (.string, false)
  | some 'x' => (.string, false)
  | some 'q' => (.string, false)
  | _ => (.interpolated, true)

def isPercentLetter (c : Char) : Bool := "sWQrwxq".toList.contains c

def isPercentDelimiter (c : Char) : Bool := !(isWordChar c || isBlank c || c == '=')

/-- After a percent sign: an optional letter and a delimiter open a literal; with
no delimiter the sign is an operator, and the letter goes with it. -/
def percentLexeme (text : List Char) : Lexeme :=
  let letters := oneIf isPercentLetter text
  let (style, interpolates) := percentStyle (text.take letters).head?
  match text.drop letters with
  | [] => ⟨1 + letters, .styled .operator, none, []⟩
  | c :: body =>
      if isPercentDelimiter c then
        quotedLexeme (2 + letters) ⟨matchingDelimiter c, style, interpolates, true, false⟩ body
      else ⟨1 + letters, .styled .operator, none, []⟩

def isSigilDelimiter (c : Char) : Bool :=
  ['/', '|', '"', '\'', '(', '[', '{', '<'].contains c

def sigilStyle (letter : Char) : Style :=
  if letter = 'r' || letter = 'R' then .regex
  else if 'a' ≤ letter && letter ≤ 'z' then .interpolated
  else .string

def sigilLexeme? : List Char → Option Lexeme
  | letter :: delimiter :: body =>
      if isAsciiLetter letter && isSigilDelimiter delimiter then
        let closing := if delimiter = '<' then '>' else matchingDelimiter delimiter
        let interpolates := 'a' ≤ letter && letter ≤ 'z'
        some (quotedLexeme 3 ⟨closing, sigilStyle letter, interpolates, false, false⟩ body)
      else none
  | _ => none

/-! ## Heredocs -/

def isHeredocQuote (c : Char) : Bool := c == '\x60' || c == '"' || c == '\''

def isTagStart (c : Char) : Bool := isAsciiLetter c || c == '_' || c == '?'

structure HeredocOpening where
  length : Nat
  tag : List Char
  indented : Bool
deriving DecidableEq, Repr

/-- After an angle bracket: a second one, an optional hyphen, and a tag with an
optional quote on either side, at the end of the line or before a semicolon. -/
def heredocOpening? : List Char → Option HeredocOpening
  | '<' :: text =>
      let hyphens := oneIf (· == '-') text
      let text := text.drop hyphens
      let quotes := oneIf isHeredocQuote text
      let text := text.drop quotes
      if headIs isTagStart text then
        let tag := text.take (1 + runLength isWordChar (text.drop 1))
        let text := text.drop tag.length
        let closingQuotes := oneIf isHeredocQuote text
        let length := 1 + hyphens + quotes + tag.length + closingQuotes
        match text.drop closingQuotes with
        | [] => some ⟨length, tag, hyphens == 1⟩
        | ';' :: _ => some ⟨length + 1, tag, hyphens == 1⟩
        | _ => none
      else none
  | _ => none

/-- A heredoc takes the rest of its line; that rest may already be the tag. -/
def heredocLexeme? (text : List Char) : Option Lexeme :=
  (heredocOpening? text).map fun opening =>
    { length := 1 + text.length
      kind := .styled .string
      pushed := heredocAfter opening.tag opening.indented (text.drop opening.length) }

/-! ## Numbers, characters and names -/

def radixLength : List Char → Nat
  | 'x' :: text => 1 + runLength isHexDigit text
  | 'b' :: text => 1 + runLength isBinaryDigit text
  | text => runLength isOctalDigit text

def fractionLength : List Char → Nat
  | '.' :: text =>
      let digits := runLength isDecimalDigit text
      if digits = 0 then 0 else 1 + digits
  | _ => 0

def decimalLength (text : List Char) : Nat :=
  let whole := runLength isDecimalDigit text
  let fraction := fractionLength (text.drop whole)
  whole + fraction + exponentLength isDecimalDigit (text.drop (whole + fraction))

def characterLength : List Char → Nat
  | '\\' :: 'C' :: '-' :: text => 3 + characterLength text
  | '\\' :: 'M' :: '-' :: text => 3 + characterLength text
  | '\\' :: text => 1 + runLength isWordChar text
  | _ :: _ => 1
  | [] => 0

def isAtomStart (c : Char) : Bool :=
  isAsciiLetter c || c == '$' || c == '@' || c == '_' || isBeyondAscii c

def isAngle (c : Char) : Bool := c == '<' || c == '>'

def colonLexeme (text : List Char) : Lexeme :=
  match text with
  | [] => ⟨1, .styled .operator, none, []⟩
  | c :: rest =>
      if c = '\'' then quotedLexeme 2 ⟨'\'', .atom, false, false, false⟩ rest
      else if c = '"' then quotedLexeme 2 ⟨'"', .atom, true, false, false⟩ rest
      else if isAngle c then ⟨2 + oneIf isAngle rest, .styled .atom, none, []⟩
      else if "+-*/&|:!".toList.contains c then ⟨2, .styled .atom, none, []⟩
      else if isAtomStart c then
        let body := runLength (fun c => isNameChar c || c == '$') rest
        let mark := oneIf (fun c => c == '?' || c == '!' || c == '=') (rest.drop body)
        ⟨2 + body + mark, .styled .atom, none, []⟩
      else ⟨1, .styled .operator, none, []⟩

def attributeLexeme? (text : List Char) : Option Lexeme :=
  let signs := oneIf (· == '@') text
  if headIs isNameStart (text.drop signs) then
    some ⟨1 + signs + runLength isNameChar (text.drop signs), .styled .moduleAttribute,
      none, []⟩
  else none

/-- After a dollar sign: a name, one or two digits, or any one character. -/
def globalLength : List Char → Nat
  | [] => 0
  | c :: text =>
      if isAsciiLetter c || c == '_' then 1 + runLength isWordChar text
      else if isAsciiDigit c then 1 + oneIf isAsciiDigit text
      else 1

def nameLexeme (text : List Char) : Lexeme :=
  let body := runLength isNameChar text
  let mark := oneIf (fun c => c == '?' || c == '!') (text.drop body)
  if headIs (· == ':') (text.drop (body + mark)) then
    ⟨2 + body + mark, .styled .atom, none, []⟩
  else ⟨1 + body + mark, .word, none, []⟩

/-! ## The token at the beginning of a text -/

/-- Tokens that their first character settles, except for the text after it. -/
def literalLexeme? (c : Char) (text : List Char) : Option Lexeme :=
  if c = '\'' then some (quotedLexeme 1 ⟨'\'', .string, false, false, false⟩ text)
  else if c = '"' then some (quotedLexeme 1 ⟨'"', .interpolated, true, false, false⟩ text)
  else if c = '/' then some (slashLexeme text)
  else if c = '%' then some (percentLexeme text)
  else if c = '~' then sigilLexeme? text
  else if c = '#' then some ⟨1 + text.length, .styled .comment, none, []⟩
  else if c = '<' then heredocLexeme? text
  else if c = '0' then some ⟨1 + radixLength text, .styled .number, none, []⟩
  else if isAsciiDigit c then some ⟨1 + decimalLength text, .styled .number, none, []⟩
  else if c = '?' then some ⟨1 + characterLength text, .styled .string, none, []⟩
  else if c = ':' then some (colonLexeme text)
  else if c = '@' then attributeLexeme? text
  else if c = '$' then some ⟨1 + globalLength text, .styled .globalVariable, none, []⟩
  else none

def operatorLexeme (c : Char) (text : List Char) : Lexeme :=
  let tail := runLength isOperatorTail text
  if c = '.' && tail == 0 then ⟨1, .styled .punctuation, some .dot, []⟩
  else ⟨1 + tail, .styled .operator, none, []⟩

def symbolLexeme (barIsMarker : Bool) (c : Char) (text : List Char) : Lexeme :=
  if isNameStart c then nameLexeme text
  else if c = '|' && barIsMarker then ⟨1, .styled .plain, some .bar, []⟩
  else
    match Marker.ofChar? c with
    | some marker => ⟨1, .styled .plain, some marker, []⟩
    | none =>
        if c = '-' && headIs (· == '>') text then ⟨2, .styled .arrow, none, []⟩
        else if c = '|' && headIs (· == '>') text then ⟨2, .styled .pipe, none, []⟩
        else if isOperatorChar c then operatorLexeme c text
        else ⟨1, .styled .plain, none, []⟩

def codeLexeme (atLineStart barIsMarker : Bool) (text : List Char) : Lexeme :=
  match text with
  | [] => ⟨0, .styled .plain, none, []⟩
  | c :: rest =>
      if atLineStart && text == tripleQuote then
        ⟨3, .styled .comment, none, [.blockComment]⟩
      else if isBlank c then ⟨1 + runLength isBlank rest, .styled .plain, none, []⟩
      else (literalLexeme? c rest).getD (symbolLexeme barIsMarker c rest)

end CellHighlight.Elixir
