import CellHighlight.Elixir.State
import CellHighlight.Text.Blank
import CellHighlight.Text.Run

/-!
# Bodies of literals

How far a literal reaches on the current line, and what remains open after it.
-/

namespace CellHighlight.Elixir

inductive BodyEnd
  | closed
  /-- Embedded code in braces begins. -/
  | code
  /-- An embedded attribute or global variable begins. -/
  | variable
  | lineEnd
deriving DecidableEq, Repr

namespace Quoted

/-- The characters of the body on this line.  The closing delimiter and the
opening of embedded code belong to it, an embedded variable does not.  `escaped`
tells that a backslash stands before the text. -/
def scanBody (quoted : Quoted) : Bool → List Char → Nat × BodyEnd
  | _, [] => (0, .lineEnd)
  | escaped, c :: text =>
      if c = quoted.delimiter && (quoted.raw || !escaped) then (1, .closed)
      else if quoted.interpolates && c = '#' && !escaped && headIs (· == '{') text then
        (2, .code)
      else if quoted.interpolates && c = '#' && !escaped &&
          headIs (fun c => c == '@' || c == '$') text then
        (1, .variable)
      else
        let (length, stop) := quoted.scanBody (!escaped && c = '\\') text
        (length + 1, stop)

def framesAfter (quoted : Quoted) : BodyEnd → List Frame
  | .closed => []
  | .code => [.untilBrace 1, .quoted { quoted with afterBrace := quoted.delimiter = '}' }]
  | .variable => [.once false, .quoted quoted]
  | .lineEnd => [.quoted quoted]

end Quoted

def closesHeredoc (tag : List Char) (indented : Bool) (text : List Char) : Bool :=
  (if indented then text.dropWhile isBlank else text) == tag

def heredocAfter (tag : List Char) (indented : Bool) (text : List Char) : List Frame :=
  if closesHeredoc tag indented text then [] else [.heredoc tag indented]

def tripleQuote : List Char := ['"', '"', '"']

end CellHighlight.Elixir
