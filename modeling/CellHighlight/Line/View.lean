import CellHighlight.Text.Blank
import CellHighlight.Text.Bytes

/-!
# The line as a scanner sees it

A view divides a line into the text before the current token, the part of the
token taken so far, the text ahead, and text that the scanner must not see
because it belongs to another region.
-/

namespace CellHighlight

structure View where
  before : List Char
  taken : List Char
  ahead : List Char
  hidden : List Char
  tabSize : Nat
deriving DecidableEq, Repr

namespace View

/-- The view at the beginning of a line.  A tab is at least one column wide. -/
def ofLine (line : List Char) (tabSize : Nat) : View :=
  ⟨[], [], line, [], max tabSize 1⟩

def line (view : View) : List Char :=
  view.before ++ view.taken ++ view.ahead ++ view.hidden

def atLineStart (view : View) : Bool := view.before.isEmpty && view.taken.isEmpty

def next (view : View) (n : Nat) : View :=
  { view with
    before := view.before ++ view.taken ++ view.ahead.take n
    taken := []
    ahead := view.ahead.drop n }

def limit (view : View) (n : Nat) : View :=
  { view with ahead := view.ahead.take n, hidden := view.ahead.drop n ++ view.hidden }

def limit? (view : View) : Option Nat → View
  | none => view
  | some n => view.limit n

@[simp] theorem line_ofLine (line : List Char) (tabSize : Nat) :
    (ofLine line tabSize).line = line := by
  simp [ofLine, View.line]

@[simp] theorem line_next (view : View) (n : Nat) : (view.next n).line = view.line := by
  simp [next, line]

@[simp] theorem line_limit (view : View) (n : Nat) : (view.limit n).line = view.line := by
  simp [limit, line, ← List.append_assoc (view.ahead.take n)]

end View

/-- Columns are words of 64 bits.  A word can count the characters of any text, so only
tabs bring a column past the last word. -/
def columnLimit (text : List Char) : Nat := max UInt64.size (text.length + 1)

/-- The column after a character: a tab goes on to the next multiple of the tab
size.  Past the limit the columns begin again at zero. -/
def nextColumn (limit tabSize column : Nat) (c : Char) : Nat :=
  (if c = '\t' then column + tabSize - column % tabSize else column + 1) % limit

def columnAfter (tabSize : Nat) (text : List Char) : Nat :=
  text.foldl (nextColumn (columnLimit text) tabSize) 0

def indentationOf (tabSize : Nat) (line : List Char) : Nat :=
  columnAfter tabSize (line.takeWhile isBlank)

/-- The last signed word of 64 bits. -/
def lastKept : Nat := 9223372036854775807

/-- The indentation as a signed word.  Tabs that reach further count up to the last word
only. -/
def keptIndentationOf (tabSize : Nat) (line : List Char) : Nat :=
  min (indentationOf tabSize line) (max lastKept (line.takeWhile isBlank).length)

namespace View

def column (view : View) : Nat := columnAfter view.tabSize view.before

/-- The indentation of the whole line, whatever is hidden. -/
def indentation (view : View) : Nat := indentationOf view.tabSize view.line

def keptIndentation (view : View) : Nat := keptIndentationOf view.tabSize view.line

end View

end CellHighlight
