import CellHighlight.Line.Cursor
import CellHighlight.Token

/-!
# Scanners

A scanner cuts tokens off a line one step at a time and carries a state from each
step to the next, and from each line to the next.  A step may take nothing, for
instance when it only hands the line over to another scanner; a scanner that
takes nothing for too long has one character skipped for it, so every line is
covered by its tokens.
-/

namespace CellHighlight

/-- The outcome of one step; `length` counts characters. -/
structure Step (σ : Type) where
  length : Nat
  style : Style
  state : σ
deriving DecidableEq, Repr

/-- A scanner with states in `σ`.

* `step` takes the next token of a view;
* `blank` notices a line without characters;
* `tornStep` is the step at a position inside a character.  Nothing can be read
  there: the step either skips to the end of the line, in the style given, or
  fails; the state holds what had changed by then. -/
structure Scanner (σ : Type) where
  start : σ
  step : View → σ → Step σ
  blank : σ → σ
  tornStep : σ → Option Style × σ

namespace Scanner

def stallLimit : Nat := 10

/-- Repeats steps that take nothing until one takes something; when the patience
is used up one character is skipped. -/
def stepForward {σ : Type} (scanner : Scanner σ) (view : View) : Nat → σ → Step σ
  | 0, state => ⟨1, .plain, state⟩
  | patience + 1, state =>
      let step := scanner.step view state
      if step.length = 0 then scanner.stepForward view patience step.state else step

/-- Scans the text ahead to its end.  Every round takes at least one character, so
the length of the text is fuel enough. -/
def scanAhead {σ : Type} (scanner : Scanner σ) : Nat → View → σ → List Token × σ
  | 0, _, state => ([], state)
  | fuel + 1, view, state =>
      if view.ahead.isEmpty then ([], state)
      else
        let step := scanner.stepForward view stallLimit state
        let token := ⟨byteLength (view.ahead.take step.length), step.style⟩
        let (tokens, state) := scanner.scanAhead fuel (view.next step.length) step.state
        (token :: tokens, state)

def scanLine {σ : Type} (scanner : Scanner σ) (tabSize : Nat) (state : σ)
    (line : List Char) : List Token × σ :=
  if line.isEmpty then ([], scanner.blank state)
  else scanner.scanAhead line.length (View.ofLine line tabSize) state

def stepAt {σ : Type} (scanner : Scanner σ) (cursor : Cursor) (state : σ) :
    Except CursorError (Style × Cursor) × σ :=
  match cursor.view with
  | .ok view =>
      let step := scanner.step view state
      (.ok (step.style, cursor.advance (byteLength (view.ahead.take step.length))),
        step.state)
  | .error error =>
      match scanner.tornStep state with
      | (some style, state) => (.ok (style, cursor.skipToEnd), state)
      | (none, state) => (.error error, state)

/-- Lets a scanner run on states of a wider type.  A state that is not one of its
own is replaced by the start state. -/
def within {σ τ : Type} (scanner : Scanner σ) (wrap : σ → τ) (unwrap : τ → Option σ) :
    Scanner τ where
  start := wrap scanner.start
  step view state :=
    let step := scanner.step view ((unwrap state).getD scanner.start)
    ⟨step.length, step.style, wrap step.state⟩
  blank state := wrap (scanner.blank ((unwrap state).getD scanner.start))
  tornStep state :=
    let (style, state) := scanner.tornStep ((unwrap state).getD scanner.start)
    (style, wrap state)

end Scanner

end CellHighlight
