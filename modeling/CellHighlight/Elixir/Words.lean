import CellHighlight.Elixir.State
import CellHighlight.Text.Letter

/-!
# Words of Elixir

How an identifier is styled, and which keywords open or close a scope.
-/

namespace CellHighlight.Elixir

def keywords : List (List Char) :=
  ["__CALLER__".toList, "__DIR__".toList, "__ENV__".toList, "__FILE__".toList,
   "__MODULE__".toList, "after".toList, "alias".toList, "case".toList, "catch".toList,
   "cond".toList, "def".toList, "defimpl".toList, "defmacro".toList, "defmodule".toList,
   "defp".toList, "defprotocol".toList, "defstruct".toList, "do".toList, "else".toList,
   "end".toList, "false".toList, "fn".toList, "for".toList, "if".toList, "in".toList,
   "next".toList, "nil".toList, "quote".toList, "raise".toList, "receive".toList,
   "require".toList, "rescue".toList, "throw".toList, "true".toList, "try".toList,
   "unless".toList, "unquote".toList, "use".toList, "when".toList, "with".toList]

def isKeyword (word : List Char) : Bool := keywords.contains word

def openingWords : List (List Char) :=
  ["->".toList, "case".toList, "catch".toList, "cond".toList, "def".toList,
   "defmodule".toList, "defp".toList, "rescue".toList, "try".toList]

def definingWords : List (List Char) := ["def".toList, "defmacro".toList, "defp".toList]

def isUpper (c : Char) : Bool := 'A' ≤ c && c ≤ 'Z'

def definesNext : Option LastToken → Bool
  | some (.keyword word) => definingWords.contains word
  | _ => false

def wordStyle (state : State) (word : List Char) : Style :=
  if state.lastToken = some (.marker .dot) then .property
  else if isKeyword word then .keyword
  else if word.head?.any isUpper then .constant
  else if state.inParameters || definesNext state.lastToken then .definition
  else .identifier

inductive Directive
  | openScope
  | closeScope
deriving DecidableEq, Repr

/-- `if` and `unless` open a scope only as the first word of a line, and `do` only
when the line is indented deeper than the innermost scope. -/
def directive? (state : State) (firstOnLine : Bool) (word : List Char) : Option Directive :=
  if openingWords.contains word then some .openScope
  else if word = "end".toList then some .closeScope
  else if (word = "if".toList || word = "unless".toList) && firstOnLine then some .openScope
  else if word = "do".toList &&
      state.scopes.head?.any (fun scope => scope.indentation < state.indentation) then
    some .openScope
  else none

end CellHighlight.Elixir
