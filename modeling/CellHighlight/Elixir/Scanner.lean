import CellHighlight.Elixir.Lexeme
import CellHighlight.Elixir.Words
import CellHighlight.Scanner

/-!
# The Elixir scanner

A step has two halves.  The frame on top of the stack takes a token; then the
token is classified, and the scopes, the parameter list and the end of the line
are brought up to date.
-/

namespace CellHighlight.Elixir

structure Scan where
  length : Nat
  kind : LexemeKind
  marker : Option Marker
  frames : List Frame
deriving DecidableEq, Repr

def Lexeme.onto (lexeme : Lexeme) (frames : List Frame) : Scan :=
  ⟨lexeme.length, lexeme.kind, lexeme.marker, lexeme.pushed ++ frames⟩

def scanQuoted (quoted : Quoted) (below : List Frame) (text : List Char) : Scan :=
  let brace := if quoted.afterBrace then oneIf (· == '}') text else 0
  let quoted := { quoted with afterBrace := false }
  let (length, stop) := quoted.scanBody false (text.drop brace)
  ⟨brace + length, .styled quoted.style, none, quoted.framesAfter stop ++ below⟩

/-- The depth of braces after the first character of a token of embedded code. -/
def depthAfter (depth : UInt32) (text : List Char) : UInt32 :=
  if headIs (· == '}') text then depth - 1
  else if headIs (· == '{') text then depth + 1
  else depth

/-- The token that the top frame takes.  Frames that are finished hand the text to
the frame below. -/
def scanFrames (atLineStart barIsMarker : Bool) (text : List Char) : List Frame → Scan
  | [] => (codeLexeme atLineStart barIsMarker text).onto []
  | .base :: below => (codeLexeme atLineStart barIsMarker text).onto (.base :: below)
  | .quoted quoted :: below => scanQuoted quoted below text
  | .heredoc tag indented :: below =>
      ⟨text.length, .styled .string, none, heredocAfter tag indented text ++ below⟩
  | .blockComment :: below =>
      ⟨text.length, .styled .comment, none,
        if atLineStart && text == tripleQuote then below else .blockComment :: below⟩
  | .untilBrace depth :: below =>
      if headIs (· == '}') text && depth ≤ 1 then
        scanFrames atLineStart barIsMarker text below
      else
        (codeLexeme atLineStart barIsMarker text).onto
          (.untilBrace (depthAfter depth text) :: below)
  | .once used :: below =>
      if used then scanFrames atLineStart barIsMarker text below
      else (codeLexeme atLineStart barIsMarker text).onto (.once true :: below)

namespace State

def noteIndentation (view : View) (state : State) : State :=
  if view.atLineStart then { state with indentation := view.keptIndentation } else state

def lastTokenAfter (state : State) (marker : Option Marker) (style : Style)
    (word : List Char) (kind : LexemeKind) : Option LastToken :=
  match marker with
  | some marker => some (.marker marker)
  | none =>
      if style = .plain || style = .comment then state.lastToken
      else if kind = .word && style = .keyword then some (.keyword word)
      else some .other

/-- The scopes after a token.  The last scope is never closed. -/
def scopesAfter (state : State) (directive : Option Directive) (marker : Option Marker) :
    List Scope :=
  let closed := if 1 < state.scopes.length then state.scopes.drop 1 else state.scopes
  match directive, marker with
  | _, some (.opening bracket) => ⟨.bracket bracket, state.indentation⟩ :: state.scopes
  | some .openScope, _ => ⟨.keyword, state.indentation⟩ :: state.scopes
  | some .closeScope, _ => closed
  | none, some (.closing _) => closed
  | none, _ => state.scopes

end State

def continuesLine (marker : Option Marker) (style : Style) : Bool :=
  marker == some .backslash || style == .operator || style == .punctuation

def step (options : Options) (view : View) (state : State) : Step State :=
  let state := (state.mend options).noteIndentation view
  let scan := scanFrames view.atLineStart state.barIsMarker view.ahead state.frames
  let word := view.taken ++ view.ahead.take scan.length
  let style :=
    match scan.kind with
    | .styled style => style
    | .word => wordStyle state word
  let directive :=
    if scan.kind = .word && style = .keyword then
      directive? state (view.column == view.indentation) word
    else none
  { length := scan.length
    style
    state :=
      { frames := scan.frames
        scopes := state.scopesAfter directive scan.marker
        indentation := state.indentation
        lastToken := state.lastTokenAfter scan.marker style word scan.kind
        inParameters := state.inParameters != (scan.marker == some .bar)
        continued :=
          if scan.length = view.ahead.length then continuesLine scan.marker style
          else state.continued } }

/-- Inside a character only a block comment can be scanned, since it does not look
at its text there. -/
def tornFrames : List Frame → Option Style × List Frame
  | .blockComment :: below => (some .comment, .blockComment :: below)
  | .quoted quoted :: below => (none, .quoted { quoted with afterBrace := false } :: below)
  | .once used :: below =>
      if used then tornFrames below else (none, .once true :: below)
  | frames => (none, frames)

def tornStep (options : Options) (state : State) : Option Style × State :=
  let state := state.mend options
  let (style, frames) := tornFrames state.frames
  (style, { state with frames, continued := state.continued && style.isNone })

def scanner (options : Options) : Scanner State where
  start := .start options
  step := step options
  blank state := { state with continued := false }
  tornStep := tornStep options

end CellHighlight.Elixir
