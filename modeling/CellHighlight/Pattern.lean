import CellHighlight.Regex.Finder
import CellHighlight.Regex.Reader
import CellHighlight.Text.Bytes

/-!
# Delimiter patterns

A pattern describes the text that opens or closes an embedded region.  It may ask
for a certain character after the match, or forbid one; that character is looked
at and never taken.
-/

namespace CellHighlight

structure Lookahead where
  expected : Char
  negated : Bool
deriving DecidableEq, Repr

/-- At the end of the text there is no next character. -/
def Lookahead.holds (lookahead : Lookahead) (next : Option Char) : Bool :=
  (next == some lookahead.expected) != lookahead.negated

inductive PatternKind
  /-- One of several texts; of those that match at one place the first wins. -/
  | texts (alternatives : List (List Char))
  /-- A regular expression, by what it finds. -/
  | regex (finder : Finder)
  /-- The empty text at the very beginning of the line. -/
  | lineStart

structure Pattern where
  kind : PatternKind
  lookahead : Option Lookahead

inductive PatternError
  | emptyAlternatives
  | invalidRegex (source : List Char)
deriving DecidableEq, Repr

/-- The text of an error.  Whoever compiles regular expressions may add the reason why one
of them is invalid. -/
def PatternError.message (error : PatternError) (reason : String := "") : String :=
  match error with
  | .emptyAlternatives => "pattern alternatives must not be empty"
  | .invalidRegex source =>
      "invalid region pattern '" ++ String.ofList source ++ "': " ++ reason

namespace Pattern

/-! ## Building patterns -/

def literal (text : List Char) : Pattern := ⟨.texts [text], none⟩

def anyOf (alternatives : List (List Char)) : Except PatternError Pattern :=
  if alternatives.isEmpty || alternatives.any List.isEmpty then .error .emptyAlternatives
  else .ok ⟨.texts alternatives, none⟩

def ofRegex (source : List Char) : Except PatternError Pattern :=
  match Regex.ofText? source with
  | some regex => .ok ⟨.regex regex.finder, none⟩
  | none => .error (.invalidRegex source)

def lineStart : Pattern := ⟨.lineStart, none⟩

def followedBy (pattern : Pattern) (c : Char) : Pattern :=
  { pattern with lookahead := some ⟨c, false⟩ }

def notFollowedBy (pattern : Pattern) (c : Char) : Pattern :=
  { pattern with lookahead := some ⟨c, true⟩ }

/-! ## Searching -/

def accepts (lookahead : Option Lookahead) (after : List Char) : Bool :=
  match lookahead with
  | none => true
  | some lookahead => lookahead.holds after.head?

def textAt (alternatives : List (List Char)) (lookahead : Option Lookahead)
    (text : List Char) : Option (List Char) :=
  alternatives.find? fun alternative =>
    alternative.isPrefixOf text && accepts lookahead (text.drop alternative.length)

def findText (alternatives : List (List Char)) (lookahead : Option Lookahead) :
    List Char → Option (Nat × Nat)
  | [] => (textAt alternatives lookahead []).map fun found => (0, found.length)
  | c :: text =>
      match textAt alternatives lookahead (c :: text) with
      | some found => some (0, found.length)
      | none =>
          (findText alternatives lookahead text).map fun found => (found.1 + 1, found.2)

/-- Searches from a place; a match that the lookahead refuses sends the search on
to the character after the beginning of that match.  Each round goes at least one
character further, so `fuel` may be the number of places left. -/
def findRegex (finder : Finder) (lookahead : Option Lookahead) (text : List Char) :
    Nat → Nat → Option (Nat × Nat)
  | 0, _ => none
  | fuel + 1, place =>
      match finder.findAt text place with
      | none => none
      | some (start, length) =>
          if accepts lookahead (text.drop (start + length)) then some (start, length)
          else findRegex finder lookahead text fuel (start + 1)

/-- The first match in a text, as the number of characters before it and its
length in characters.  `atLineStart` tells whether the text begins the line. -/
def find (pattern : Pattern) (atLineStart : Bool) (text : List Char) : Option (Nat × Nat) :=
  match pattern.kind with
  | .lineStart =>
      if atLineStart && accepts pattern.lookahead text then some (0, 0) else none
  | .texts alternatives => findText alternatives pattern.lookahead text
  | .regex finder => findRegex finder pattern.lookahead text (text.length + 1) 0

/-- The first match at or after a byte offset, as its offset and length in bytes.
There is none when the offset is past the end or inside a character. -/
def findInBytes (pattern : Pattern) (text : List Char) (offset : Nat) : Option (Nat × Nat) := do
  let (_, rest) ← splitAtByte? text offset
  let (skipped, length) ← pattern.find (offset == 0) rest
  some (offset + byteLength (rest.take skipped),
    byteLength ((rest.drop skipped).take length))

def matchInBytes (pattern : Pattern) (text : List Char) (offset : Nat) : Option Nat := do
  let (start, length) ← pattern.findInBytes text offset
  if start = offset then some length else none

end Pattern

end CellHighlight
