import CellHighlight.Token

/-!
# States of the Elixir scanner

What a line leaves behind for the next one: the literals and blocks that are
still open, the open scopes with their indentation, and the little that is needed
of the last token.  Both stacks are lists with the top first.
-/

namespace CellHighlight.Elixir

/-- Both widths are words of 32 bits, but no result needs that. -/
structure Options where
  /-- Width of one step of indentation. -/
  indentUnit : Nat := 2
  tabSize : Nat := 4
deriving DecidableEq, Repr

inductive Bracket
  | round
  | square
  | curly
deriving DecidableEq, Repr

/-- What a token means for the structure of the code, next to its style. -/
inductive Marker
  | opening (bracket : Bracket)
  | closing (bracket : Bracket)
  | backslash
  | semicolon
  /-- A bar that begins or ends a parameter list. -/
  | bar
  /-- A single dot before a property name. -/
  | dot
deriving DecidableEq, Repr

def Marker.ofChar? : Char → Option Marker
  | '(' => some (.opening .round)
  | '[' => some (.opening .square)
  | '{' => some (.opening .curly)
  | ')' => some (.closing .round)
  | ']' => some (.closing .square)
  | '}' => some (.closing .curly)
  | '\\' => some .backslash
  | ';' => some .semicolon
  | _ => none

structure Quoted where
  delimiter : Char
  style : Style
  /-- Code and variables may be embedded with a number sign. -/
  interpolates : Bool
  /-- The delimiter closes the literal even after a backslash. -/
  raw : Bool
  /-- The brace that ends embedded code is still to be taken.  This matters only
  when the literal itself ends with a brace. -/
  afterBrace : Bool := false
deriving DecidableEq, Repr

/-- Who scans the next token. -/
inductive Frame
  /-- Code; always at the bottom. -/
  | base
  | quoted (quoted : Quoted)
  /-- Lines up to one that holds only the tag, after blanks if it may be indented. -/
  | heredoc (tag : List Char) (indented : Bool)
  /-- Lines up to one that holds only three double quotes. -/
  | blockComment
  /-- Embedded code up to the brace that balances the opening one.  The open braces are
  counted in 32 bits, and the count begins again at zero after the last. -/
  | untilBrace (depth : UInt32)
  /-- One token of embedded code, which may be used up already. -/
  | once (used : Bool)
deriving DecidableEq, Repr

inductive ScopeKind
  /-- The scope around everything. -/
  | root
  | bracket (bracket : Bracket)
  | keyword
deriving DecidableEq, Repr

structure Scope where
  kind : ScopeKind
  indentation : Int
deriving DecidableEq, Repr

/-- The last token that was neither plain nor a comment. -/
inductive LastToken
  | marker (marker : Marker)
  | keyword (word : List Char)
  | other
deriving DecidableEq, Repr

/-- Indentations, here and in scopes, are signed words of 64 bits; what a line adds to them is
kept within that range. -/
structure State where
  frames : List Frame
  scopes : List Scope
  indentation : Int
  lastToken : Option LastToken
  inParameters : Bool
  continued : Bool
deriving DecidableEq, Repr

namespace State

def rootScope (options : Options) : Scope := ⟨.root, -(options.indentUnit : Int)⟩

def start (options : Options) : State :=
  ⟨[.base], [rootScope options], 0, none, false, false⟩

def atBase (state : State) : Bool := state.frames.length == 1

def withBase (frames : List Frame) : List Frame :=
  if frames.getLast? = some .base then frames else frames ++ [.base]

def withRoot (options : Options) (scopes : List Scope) : List Scope :=
  if scopes.getLast?.map Scope.kind = some .root then scopes
  else scopes ++ [rootScope options]

/-- Puts the base frame and the root scope back if a state lacks them. -/
def mend (options : Options) (state : State) : State :=
  { state with
    frames := withBase state.frames
    scopes := withRoot options state.scopes }

/-- A bar would begin or end a parameter list: one is open, or the last token is
an opening brace or `do`. -/
def barIsMarker (state : State) : Bool :=
  state.inParameters ||
    state.lastToken == some (.marker (.opening .curly)) ||
    state.lastToken == some (.keyword "do".toList)

end State

end CellHighlight.Elixir
