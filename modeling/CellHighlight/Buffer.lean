import CellHighlight.Grammar

/-!
# Buffers

A buffer holds the lines of a document with their tokens.  Tokens are computed
when they are asked for, from the nearest line above whose end state is known.
Edits only mark what may have changed; when a line that is scanned again ends in
the state it ended in before, the lines below keep their tokens.
-/

namespace CellHighlight

structure Checkpoint where
  tokens : List Token
  state : GrammarState
deriving DecidableEq, Repr

/-- A line of a buffer.  A stale line has to be scanned again, even if it still has
the result of an earlier scan. -/
structure BufferLine where
  text : List Char
  checkpoint : Option Checkpoint
  stale : Bool
deriving DecidableEq, Repr

namespace BufferLine

def fresh (text : List Char) : BufferLine := ⟨text, none, true⟩

def reusable (line : BufferLine) : Bool := !line.stale && line.checkpoint.isSome

def markStale (line : BufferLine) : BufferLine := { line with stale := true }

end BufferLine

inductive EditError
  | lineOutOfRange (index : Nat) (lineCount : Nat)
deriving DecidableEq, Repr

def EditError.message : EditError → String
  | .lineOutOfRange index lineCount =>
      "line " ++ toString index ++ " is out of range for a buffer of " ++
        toString lineCount ++ " lines"

/-- The first `valid` lines are up to date. -/
structure Buffer where
  grammar : Grammar
  lines : List BufferLine
  valid : Nat

def splitLines : List Char → List (List Char)
  | [] => [[]]
  | c :: text =>
      if c = '\n' then [] :: splitLines text
      else
        match splitLines text with
        | [] => [[c]]
        | line :: lines => (c :: line) :: lines

def dropReturn (line : List Char) : List Char :=
  if line.getLast? = some '\r' then line.dropLast else line

namespace Buffer

def empty (grammar : Grammar) : Buffer := ⟨grammar, [], 0⟩

def lineCount (buffer : Buffer) : Nat := buffer.lines.length

def line? (buffer : Buffer) (index : Nat) : Option (List Char) :=
  buffer.lines[index]?.map BufferLine.text

/-! ## Edits -/

def setText (buffer : Buffer) (text : List Char) : Buffer :=
  { buffer with
    lines := (splitLines text).map fun line => .fresh (dropReturn line)
    valid := 0 }

def invalidateFrom (buffer : Buffer) (index : Nat) : Buffer :=
  { buffer with valid := min buffer.valid index }

def replaceLine (buffer : Buffer) (index : Nat) (text : List Char) :
    Except EditError Buffer :=
  if index < buffer.lineCount then
    .ok <| invalidateFrom
      { buffer with
        lines := buffer.lines.modify index fun line => { line with text, stale := true } }
      index
  else .error (.lineOutOfRange index buffer.lineCount)

def insertLines (buffer : Buffer) (index : Nat) (texts : List (List Char)) :
    Except EditError Buffer :=
  if index ≤ buffer.lineCount then
    .ok <| invalidateFrom
      { buffer with
        lines := buffer.lines.take index ++ texts.map .fresh ++ buffer.lines.drop index }
      index
  else .error (.lineOutOfRange index buffer.lineCount)

/-- Removes the lines from `first` up to but not including `last`.  The line that
moves up has a new neighbour. -/
def removeLines (buffer : Buffer) (first last : Nat) : Except EditError Buffer :=
  if first ≤ last ∧ last ≤ buffer.lineCount then
    .ok <| invalidateFrom
      { buffer with
        lines :=
          (buffer.lines.take first ++ buffer.lines.drop last).modify first
            BufferLine.markStale }
      first
  else .error (.lineOutOfRange last buffer.lineCount)

/-! ## Scanning -/

def stateBefore (buffer : Buffer) : Nat → GrammarState
  | 0 => buffer.grammar.start
  | index + 1 =>
      match buffer.lines[index]?.bind BufferLine.checkpoint with
      | some checkpoint => checkpoint.state
      | none => buffer.grammar.start

/-- Scans the first line that is not up to date.  If its end state is what it was,
the lines below it that are not stale are up to date as well; otherwise the next
line becomes stale. -/
def scanNext (buffer : Buffer) : Buffer :=
  match buffer.lines[buffer.valid]? with
  | none => buffer
  | some line =>
      let (tokens, state) :=
        buffer.grammar.scanLine (buffer.stateBefore buffer.valid) line.text
      let lines := buffer.lines.set buffer.valid ⟨line.text, some ⟨tokens, state⟩, false⟩
      let next := buffer.valid + 1
      if line.checkpoint.map Checkpoint.state = some state then
        { buffer with
          lines
          valid := next + ((lines.drop next).takeWhile BufferLine.reusable).length }
      else { buffer with lines := lines.modify next BufferLine.markStale, valid := next }

def scanRounds (index : Nat) : Nat → Buffer → Buffer
  | 0, buffer => buffer
  | rounds + 1, buffer =>
      if buffer.valid ≤ index then scanRounds index rounds buffer.scanNext else buffer

def scanThrough (buffer : Buffer) (index : Nat) : Buffer :=
  scanRounds index (index + 1 - buffer.valid) buffer

def checkpointAt (buffer : Buffer) (index : Nat) : Option Checkpoint × Buffer :=
  if index < buffer.lineCount then
    let buffer := buffer.scanThrough index
    (buffer.lines[index]?.bind BufferLine.checkpoint, buffer)
  else (none, buffer)

def tokensAt (buffer : Buffer) (index : Nat) : Option (List Token) × Buffer :=
  let (checkpoint, buffer) := buffer.checkpointAt index
  (checkpoint.map Checkpoint.tokens, buffer)

def stateAfter (buffer : Buffer) (index : Nat) : Option GrammarState × Buffer :=
  let (checkpoint, buffer) := buffer.checkpointAt index
  (checkpoint.map Checkpoint.state, buffer)

end Buffer

end CellHighlight
