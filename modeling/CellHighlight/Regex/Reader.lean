import CellHighlight.Regex.Basic
import CellHighlight.Text.Blank
import CellHighlight.Text.Run

/-!
# Reading regular expressions

The written form has literal characters, `.`, character classes, groups,
alternatives, repetitions with `*`, `+`, `?` and counts in braces, each of them
lazy when a `?` follows, the anchors `^` and `$`, the word boundary `\b`, and a
backslash before punctuation that stands for itself.  Reading goes in two steps:
the text is cut into pieces, and the pieces are put together with a stack of open
groups.
-/

namespace CellHighlight

namespace Regex

inductive Piece
  | item (regex : Regex)
  | groupStart
  | groupEnd
  | bar
  | repetition (least : Nat) (most : Option Nat) (greedy : Bool)
deriving DecidableEq, Repr

def one (c : Char) : Regex := .char ⟨false, [(c, c)]⟩

/-- Punctuation that a backslash makes literal: ASCII, and neither a letter, a
digit nor an angle bracket. -/
def isEscapable (c : Char) : Bool :=
  c.toNat < 128 && !isAsciiLetter c && !isAsciiDigit c && c != '<' && c != '>'

/-! ## Character classes -/

def readClassChar : List Char → Option (Char × List Char)
  | [] => none
  | '\\' :: c :: text => if isEscapable c then some (c, text) else none
  | c :: text => if c = '\\' then none else some (c, text)

/-- Set operators and nested classes are not part of the written form. -/
def classOperatorAhead : List Char → Bool
  | '[' :: _ => true
  | '&' :: '&' :: _ => true
  | '-' :: '-' :: _ => true
  | '~' :: '~' :: _ => true
  | _ => false

def readClassRange (text : List Char) : Option ((Char × Char) × List Char) := do
  let (first, rest) ← readClassChar text
  match rest with
  | '-' :: next :: _ =>
      if next = ']' || next = '-' then some ((first, first), rest)
      else
        let (last, rest) ← readClassChar (rest.drop 1)
        if first ≤ last then some ((first, last), rest) else none
  | _ => some ((first, first), rest)

def readClassRanges : Nat → List Char → Option (List (Char × Char) × List Char)
  | 0, _ => none
  | _ + 1, [] => none
  | _ + 1, ']' :: text => some ([], text)
  | fuel + 1, text => do
      if classOperatorAhead text then none
      else
        let (range, text) ← readClassRange text
        let (ranges, text) ← readClassRanges fuel text
        some (range :: ranges, text)

/-- A class after its opening bracket.  Hyphens that come first are literal, and
so is a closing bracket that comes first. -/
def readClass (text : List Char) : Option (CharSet × List Char) := do
  let negated := headIs (· == '^') text
  let text := if negated then text.drop 1 else text
  let hyphens := runLength (· == '-') text
  let text := text.drop hyphens
  let bracket := hyphens == 0 && headIs (· == ']') text
  let text := if bracket then text.drop 1 else text
  let (ranges, text) ← readClassRanges (text.length + 1) text
  let ranges := if hyphens == 0 then ranges else ('-', '-') :: ranges
  let ranges := if bracket then (']', ']') :: ranges else ranges
  some (⟨negated, ranges⟩, text)

/-! ## Repetition counts -/

/-- A decimal number with blanks around it, below 2^32. -/
def readCount (text : List Char) : Option (Nat × List Char) :=
  let text := text.dropWhile isBlank
  let digits := text.takeWhile isAsciiDigit
  let value := digits.foldl (fun n c => 10 * n + (c.toNat - '0'.toNat)) 0
  if digits.isEmpty || UInt32.size ≤ value then none
  else some (value, (text.dropWhile isAsciiDigit).dropWhile isBlank)

def readBounds (text : List Char) : Option ((Nat × Option Nat) × List Char) := do
  let (least, text) ← readCount text
  match text with
  | '}' :: text => some ((least, some least), text)
  | ',' :: '}' :: text => some ((least, none), text)
  | ',' :: text =>
      let (most, text) ← readCount text
      match text with
      | '}' :: text => if least ≤ most then some ((least, some most), text) else none
      | _ => none
  | _ => none

def readRepetition (bounds : Nat × Option Nat) : List Char → Piece × List Char
  | '?' :: text => (.repetition bounds.1 bounds.2 false, text)
  | text => (.repetition bounds.1 bounds.2 true, text)

/-! ## Pieces -/

def readPiece : List Char → Option (Piece × List Char)
  | [] => none
  | '(' :: text =>
      match text with
      | '?' :: _ => none
      | _ => some (.groupStart, text)
  | ')' :: text => some (.groupEnd, text)
  | '|' :: text => some (.bar, text)
  | '.' :: text => some (.item .anyChar, text)
  | '^' :: text => some (.item .textStart, text)
  | '$' :: text => some (.item .textEnd, text)
  | '*' :: text => some (readRepetition (0, none) text)
  | '+' :: text => some (readRepetition (1, none) text)
  | '?' :: text => some (readRepetition (0, some 1) text)
  | '{' :: text => (readBounds text).map fun (bounds, text) => readRepetition bounds text
  | '[' :: text => (readClass text).map fun (set, text) => (.item (.char set), text)
  | '\\' :: text =>
      match text with
      | [] => none
      | 'b' :: text => some (.item .wordBoundary, text)
      | c :: text => if isEscapable c then some (.item (one c), text) else none
  | c :: text => some (.item (one c), text)

/-- Cuts the whole text; each piece takes at least one character, so the length of
the text is fuel enough. -/
def readPieces : Nat → List Char → Option (List Piece)
  | _, [] => some []
  | 0, _ :: _ => none
  | fuel + 1, text => do
      let (piece, text) ← readPiece text
      let pieces ← readPieces fuel text
      some (piece :: pieces)

/-! ## Putting the pieces together -/

/-- A group being read: the alternatives before the last bar, and the parts of the
last alternative, nearest first. -/
structure Group where
  before : Option Regex
  parts : List Regex
deriving DecidableEq, Repr

namespace Group

def fresh : Group := ⟨none, []⟩

def push (group : Group) (regex : Regex) : Group :=
  { group with parts := regex :: group.parts }

def lastAlternative (group : Group) : Regex :=
  match group.parts with
  | [] => .empty
  | part :: parts => parts.foldl (fun following part => .seq part following) part

def close (group : Group) : Regex :=
  match group.before with
  | none => group.lastAlternative
  | some before => .alt before group.lastAlternative

end Group

def assemble (group : Group) (outer : List Group) : List Piece → Option Regex
  | [] => if outer.isEmpty then some group.close else none
  | .item regex :: pieces => assemble (group.push regex) outer pieces
  | .groupStart :: pieces => assemble .fresh (group :: outer) pieces
  | .groupEnd :: pieces =>
      match outer with
      | [] => none
      | around :: outer => assemble (around.push group.close) outer pieces
  | .bar :: pieces => assemble ⟨some group.close, []⟩ outer pieces
  | .repetition least most greedy :: pieces =>
      match group.parts with
      | [] => none
      | part :: parts =>
          assemble { group with parts := part.repeated least most greedy :: parts }
            outer pieces

def ofText? (text : List Char) : Option Regex := do
  assemble .fresh [] (← readPieces text.length text)

end Regex

end CellHighlight
