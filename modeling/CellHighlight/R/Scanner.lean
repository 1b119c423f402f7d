import CellHighlight.Scanner
import CellHighlight.Text.Letter
import CellHighlight.Text.Run

/-!
# The R scanner

R needs little memory: only the quote of a string that is still open at the end
of a line.
-/

namespace CellHighlight.R

structure State where
  openQuote : Option Char
deriving DecidableEq, Repr

def State.inString (state : State) : Bool := state.openQuote.isSome

/-! ## Words and character classes -/

def keywords : List (List Char) :=
  ["break".toList, "else".toList, "for".toList, "function".toList, "if".toList,
   "in".toList, "next".toList, "repeat".toList, "while".toList]

def constants : List (List Char) :=
  ["FALSE".toList, "Inf".toList, "NA".toList, "NA_character_".toList,
   "NA_integer_".toList, "NA_real_".toList, "NULL".toList, "NaN".toList, "TRUE".toList]

def wordStyle (word : List Char) : Style :=
  if keywords.contains word then .keyword
  else if constants.contains word then .atom
  else .identifier

def isNameChar (c : Char) : Bool := isLetter c || isNumber c || c == '_' || c == '.'

def isOperatorChar (c : Char) : Bool := "+-*/^<>=!&|~?:".toList.contains c

def isHexDigit (c : Char) : Bool :=
  isAsciiDigit c || ('a' ≤ c && c ≤ 'f') || ('A' ≤ c && c ≤ 'F')

def isNumberSuffix (c : Char) : Bool := c == 'L' || c == 'i'

/-! ## Measures -/

/-- The characters of a string after its opening quote, and whether the string is
closed.  A backslash protects the character after it. -/
def stringLength (quote : Char) : Bool → List Char → Nat × Bool
  | _, [] => (0, false)
  | escaped, c :: text =>
      if c = quote && !escaped then (1, true)
      else
        let (length, closed) := stringLength quote (!escaped && c = '\\') text
        (length + 1, closed)

def lengthThrough? (c : Char) (text : List Char) : Option Nat :=
  if text.contains c then some (runLength (· != c) text + 1) else none

def numberLength (text : List Char) : Nat :=
  let whole := runLength isAsciiDigit text
  let fraction :=
    match text.drop whole with
    | '.' :: rest => 1 + runLength isAsciiDigit rest
    | _ => 0
  let exponent := exponentLength isAsciiDigit (text.drop (whole + fraction))
  let mantissa := whole + fraction + exponent
  mantissa + oneIf isNumberSuffix (text.drop mantissa)

def hexLength (text : List Char) : Nat :=
  let digits := runLength isHexDigit text
  digits + oneIf isNumberSuffix (text.drop digits)

/-! ## Steps -/

/-- The length and style of a token outside strings that begins with `c`; `taken`
is the part of the token taken before. -/
def codeToken (taken : List Char) (c : Char) (text : List Char) : Nat × Style :=
  if c = '#' then (1 + text.length, .comment)
  else if c = '\x60' then (1 + (lengthThrough? '\x60' text).getD text.length, .identifier)
  else if c = '0' && headIs (fun c => c == 'x' || c == 'X') text then
    (2 + hexLength (text.drop 1), .number)
  else if isAsciiDigit c || (c = '.' && headIs isAsciiDigit text) then
    (1 + numberLength text, .number)
  else if c = '%' then (1 + (lengthThrough? '%' text).getD 0, .operator)
  else if c = '$' || c = '@' then
    let name := runLength isNameChar text
    (1 + name, if name = 0 then .operator else .property)
  else if c = '<' && ['<', '-'].isPrefixOf text then (3, .arrow)
  else if c = '<' && headIs (· == '-') text then (2, .arrow)
  else if c = '-' && headIs (· == '>') text then
    (2 + oneIf (· == '>') (text.drop 1), .arrow)
  else if isLetter c || c = '.' then
    let name := runLength isNameChar text
    (1 + name, wordStyle (taken ++ c :: text.take name))
  else if isOperatorChar c then (1 + runLength isOperatorChar text, .operator)
  else (1, .plain)

def stringStep (opening : Nat) (quote : Char) (text : List Char) : Step State :=
  let (length, closed) := stringLength quote false text
  ⟨opening + length, .string, ⟨if closed then none else some quote⟩⟩

def step (view : View) (state : State) : Step State :=
  match state.openQuote, view.ahead with
  | some quote, text => stringStep 0 quote text
  | none, [] => ⟨0, .plain, state⟩
  | none, c :: text =>
      if isBlank c then ⟨1 + runLength isBlank text, .plain, state⟩
      else if c = '\'' || c = '"' then stringStep 1 c text
      else
        let (length, style) := codeToken view.taken c text
        ⟨length, style, state⟩

def scanner : Scanner State where
  start := ⟨none⟩
  step := step
  blank state := state
  tornStep state := (none, state)

end CellHighlight.R
