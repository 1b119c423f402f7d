import CellHighlight.Text.Bytes

/-!
# Tokens and their styles

A token is a span of a line with the style it is drawn in.  The tokens of a line
follow each other without gaps, so a length is enough to place them.
-/

namespace CellHighlight

inductive Side
  | opening
  | closing
deriving DecidableEq, Repr

/-- `plain` is text that is not drawn in any style of its own. -/
inductive Style
  | plain
  | identifier
  | keyword
  | constant
  | definition
  | property
  | string
  | interpolated
  | regex
  | atom
  | number
  | comment
  | operator
  | punctuation
  | moduleAttribute
  | globalVariable
  | arrow
  | pipe
  | delimiter (side : Side)
deriving DecidableEq, Repr

instance : Inhabited Style := ⟨.plain⟩

def Style.name : Style → String
  | .plain => "none"
  | .identifier => "identifier"
  | .keyword => "keyword"
  | .constant => "tag"
  | .definition => "def"
  | .property => "property"
  | .string => "string"
  | .interpolated => "string-interp"
  | .regex => "regex"
  | .atom => "atom"
  | .number => "number"
  | .comment => "comment"
  | .operator => "operator"
  | .punctuation => "punctuation"
  | .moduleAttribute => "attribute"
  | .globalVariable => "global"
  | .arrow => "arrow"
  | .pipe => "pipe"
  | .delimiter .opening => "delimit-open"
  | .delimiter .closing => "delimit-close"

/-- A styled span; `length` counts bytes. -/
structure Token where
  length : Nat
  style : Style
deriving DecidableEq, Repr

def takeBytes? (text : List Char) (n : Nat) : Option (List Char × List Char) :=
  splitAtByte? text (min n (byteLength text))

/-- The text under each token.  Spans past the end of the line are cut short;
`none` when a token ends inside a character. -/
def spans? (line : List Char) : List Token → Option (List (List Char × Style))
  | [] => some []
  | token :: tokens => do
      let (text, rest) ← takeBytes? line token.length
      let following ← spans? rest tokens
      some ((text, token.style) :: following)

end CellHighlight
