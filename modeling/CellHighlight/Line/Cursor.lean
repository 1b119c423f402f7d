import CellHighlight.Line.View

/-!
# Cursors

A cursor is a position in a line, in bytes, together with the start of the
current token and a limit that hides the text behind it.  A host moves it by
characters or by bytes; a move by bytes may land inside a character, and then no
text can be read until the cursor leaves it.
-/

namespace CellHighlight

inductive CursorError
  | insideCharacter
deriving DecidableEq, Repr

structure Cursor where
  line : List Char
  start : Nat
  pos : Nat
  stop : Nat
  tabSize : Nat
deriving DecidableEq, Repr

namespace Cursor

def ofLine (line : List Char) (tabSize : Nat) : Cursor :=
  ⟨line, 0, 0, byteLength line, max tabSize 1⟩

def read (cursor : Cursor) (first last : Nat) : Except CursorError (List Char) :=
  match slice? cursor.line first last with
  | some text => .ok text
  | none => .error .insideCharacter

def atLineStart (cursor : Cursor) : Bool := cursor.pos == 0

def atEnd (cursor : Cursor) : Bool := cursor.stop ≤ cursor.pos

def rest (cursor : Cursor) : Except CursorError (List Char) :=
  cursor.read cursor.pos cursor.stop

def visible (cursor : Cursor) : Except CursorError (List Char) :=
  cursor.read 0 cursor.stop

def current (cursor : Cursor) : Except CursorError (List Char) :=
  cursor.read cursor.start cursor.pos

def peek (cursor : Cursor) : Except CursorError (Option Char) := do
  return (← cursor.rest).head?

/-- The character `n` places after the next one. -/
def peekNth (cursor : Cursor) (n : Nat) : Except CursorError (Option Char) := do
  return (← cursor.rest)[n]?

def eatIf (cursor : Cursor) (p : Char → Bool) :
    Except CursorError (Option Char × Cursor) := do
  match ← cursor.rest with
  | [] => return (none, cursor)
  | c :: _ =>
      if p c then return (some c, { cursor with pos := cursor.pos + c.utf8Size })
      else return (none, cursor)

def nextChar (cursor : Cursor) : Except CursorError (Option Char × Cursor) :=
  cursor.eatIf fun _ => true

def eat (cursor : Cursor) (c : Char) : Except CursorError (Bool × Cursor) := do
  let (found, cursor) ← cursor.eatIf (· == c)
  return (found.isSome, cursor)

def eatWhile (cursor : Cursor) (p : Char → Bool) : Except CursorError (Bool × Cursor) := do
  let run := (← cursor.rest).takeWhile p
  return (!run.isEmpty, { cursor with pos := cursor.pos + byteLength run })

def eatBlanks (cursor : Cursor) : Except CursorError (Bool × Cursor) :=
  cursor.eatWhile isBlank

def skipToEnd (cursor : Cursor) : Cursor := { cursor with pos := cursor.stop }

/-- Moves to the next occurrence of a byte without taking it; stays in place if
there is none. -/
def skipToByte (cursor : Cursor) (byte : UInt8) : Except CursorError (Bool × Cursor) := do
  match (utf8Bytes (← cursor.rest)).idxOf? byte with
  | some offset => return (true, { cursor with pos := cursor.pos + offset })
  | none => return (false, cursor)

def eatText (cursor : Cursor) (text : List Char) : Except CursorError (Bool × Cursor) := do
  if text.isPrefixOf (← cursor.rest) then
    return (true, { cursor with pos := cursor.pos + byteLength text })
  else return (false, cursor)

def backUp (cursor : Cursor) (n : Nat) : Cursor :=
  { cursor with pos := max (cursor.pos - n) cursor.start }

def advance (cursor : Cursor) (n : Nat) : Cursor :=
  { cursor with pos := min (cursor.pos + n) cursor.stop }

def beginToken (cursor : Cursor) : Cursor := { cursor with start := cursor.pos }

/-- Pulls the limit in to `stop`, but neither before the position nor past the
limit so far. -/
def limitTo (cursor : Cursor) (stop : Nat) : Cursor :=
  { cursor with stop := min (max stop cursor.pos) cursor.stop }

def restoreLimit (cursor : Cursor) (stop : Nat) : Cursor :=
  { cursor with stop := stop }

def column (cursor : Cursor) : Except CursorError Nat := do
  return columnAfter cursor.tabSize (← cursor.read 0 cursor.start)

def indentation (cursor : Cursor) : Nat := indentationOf cursor.tabSize cursor.line

def keptIndentation (cursor : Cursor) : Nat := keptIndentationOf cursor.tabSize cursor.line

def view (cursor : Cursor) : Except CursorError View := do
  return {
    before := ← cursor.read 0 cursor.start
    taken := ← cursor.current
    ahead := ← cursor.rest
    hidden := ← cursor.read cursor.stop (byteLength cursor.line)
    tabSize := cursor.tabSize }

end Cursor

end CellHighlight
