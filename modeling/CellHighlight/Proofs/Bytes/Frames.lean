import CellHighlight.Proofs.Bytes.Lexemes

/-!
# Steps of the Elixir scanner in bytes

The frame on top of the stack takes a token off the cursor, and the token is classified by
the text between the start of the token and the cursor.  The stack has always a frame and
there is always a scope, since a state is mended before a step.
-/

namespace CellHighlight.Elixir

open Reading

/-! ## Frames -/

def Found.onto (found : Found) (below : List Frame) : Found :=
  { found with frames := found.frames ++ below }

def Scan.found (scan : Scan) : Found := ⟨scan.kind, scan.marker, scan.frames⟩

theorem getLast?_below {frame : Frame} {below : List Frame}
    (h : (frame :: below).getLast? = some .base) (hframe : frame ≠ .base) :
    below.getLast? = some .base := by
  cases below with
  | nil => exact absurd (Option.some.inj h) hframe
  | cons next below => rwa [List.getLast?_cons_cons] at h

/-- The token that the top frame takes.  Only the frame of code at the bottom is never taken
off, so there is one on top. -/
def readFrames (barIsMarker : Bool) :
    (frames : List Frame) → frames.getLast? = some .base → Reading Found
  | .base :: below, _ => (·.onto (.base :: below)) <$> readCode barIsMarker
  | .quoted quoted :: below, _ => (·.onto below) <$> readQuoted quoted
  | .heredoc tag indented :: below, _ => (·.onto below) <$> readHeredoc tag indented
  | .blockComment :: below, _ => do
      let closes ← atTripleQuote
      skipToEnd
      return ⟨.styled .comment, none, if closes then below else .blockComment :: below⟩
  | .untilBrace depth :: below, h => do
      let next ← peek
      if next == some '}' && depth ≤ 1 then
        readFrames barIsMarker below (getLast?_below h (by simp))
      else
        let depth :=
          if next == some '}' then depth - 1
          else if next == some '{' then depth + 1
          else depth
        (·.onto (.untilBrace depth :: below)) <$> readCode barIsMarker
  | .once used :: below, h =>
      if used then readFrames barIsMarker below (getLast?_below h (by simp))
      else (·.onto (.once true :: below)) <$> readCode barIsMarker

theorem head?_beq_some (c : Char) (text : List Char) :
    (text.head? == some c) = headIs (· == c) text := by
  cases text <;> rfl

theorem reads_readCode_onto (view : View) (barIsMarker : Bool) (stack : List Frame) :
    let scan := (codeLexeme view.atLineStart barIsMarker view.ahead).onto stack
    Reads ((·.onto stack) <$> readCode barIsMarker) view scan.found (view.take scan.length) := by
  have hcode := takes_readCode view barIsMarker
  rw [Takes, View.take_zero] at hcode
  exact hcode.map (·.onto stack)

theorem reads_readFrames (view : View) (barIsMarker : Bool) (frames : List Frame)
    (h : frames.getLast? = some .base) :
    let scan := scanFrames view.atLineStart barIsMarker view.ahead frames
    Reads (readFrames barIsMarker frames h) view scan.found (view.take scan.length) := by
  induction frames with
  | nil => cases h
  | cons frame below ih =>
      cases frame with
      | base => exact reads_readCode_onto view barIsMarker (.base :: below)
      | quoted quoted =>
          have hstack : (scanQuoted quoted [] view.ahead).frames ++ below =
              (scanQuoted quoted below view.ahead).frames := by simp [scanQuoted]
          have hread := (reads_readQuoted quoted view).map (·.onto below)
          rw [Found.onto, hstack] at hread
          exact hread
      | heredoc tag indented =>
          exact (reads_readHeredoc tag indented view).map (·.onto below)
      | blockComment =>
          refine (reads_atTripleQuote view).bind ?_
          exact (reads_skipToEnd view).bind (reads_pure _ _)
      | untilBrace depth =>
          refine (reads_peek view).bind ?_
          simp only [head?_beq_some, scanFrames]
          split
          · exact ih (getLast?_below h (by simp))
          · exact reads_readCode_onto view barIsMarker (.untilBrace (depthAfter depth _) :: below)
      | once used =>
          cases used with
          | false => exact reads_readCode_onto view barIsMarker (.once true :: below)
          | true => exact ih (getLast?_below h (by simp))

/-! ## Steps -/

theorem State.getLast?_mend (state : State) (options : Options) :
    (state.mend options).frames.getLast? = some .base := by
  simp only [mend, withBase]
  split
  · assumption
  · exact List.getLast?_concat

theorem State.scopes_mend_ne_nil (state : State) (options : Options) :
    (state.mend options).scopes ≠ [] := by
  simp only [mend, withRoot]
  split
  · next hroot =>
      intro hempty
      rw [hempty] at hroot
      cases hroot
  · simp

def readIndentation (state : State) : Reading Int := do
  if ← atLineStart then return (← keptIndentation) else return state.indentation

theorem reads_readIndentation (view : View) (state : State) :
    Reads (readIndentation state) view (state.noteIndentation view).indentation view := by
  refine (reads_atLineStart view).bind ?_
  rw [State.noteIndentation]
  split
  · exact (reads_keptIndentation view).bind (reads_pure _ _)
  · exact reads_pure _ _

/-- Whether a condition is the first word of its line; for other words no column is asked. -/
def leadsLine (word : List Char) : Reading Bool := do
  if word = "if".toList || word = "unless".toList then return (← column) == (← indentation)
  else return false

theorem reads_leadsLine (view : View) (word : List Char) :
    Reads (leadsLine word) view ((word = "if".toList || word = "unless".toList) &&
      view.column == view.indentation) view := by
  unfold leadsLine
  cases decide (word = "if".toList) || decide (word = "unless".toList) with
  | false => exact reads_pure _ _
  | true => exact (reads_column view).bind ((reads_indentation view).bind (reads_pure _ _))

def readDirective (state : State) (scope : Scope) (word : List Char) :
    Reading (Option Directive) := do
  if openingWords.contains word then return some .openScope
  else if word = "end".toList then return some .closeScope
  else if ← leadsLine word then return some .openScope
  else if word = "do".toList && scope.indentation < state.indentation then
    return some .openScope
  else return none

def readStyle (state : State) (scope : Scope) :
    LexemeKind → Reading (List Char × Style × Option Directive)
  | .styled style => return ([], style, none)
  | .word => do
      let word ← current
      if wordStyle state word = .keyword then
        return (word, .keyword, ← readDirective state scope word)
      else return (word, wordStyle state word, none)

def readToken (state : State) (hframes : state.frames.getLast? = some .base)
    (hscopes : state.scopes ≠ []) : Reading (Style × State) := do
  let found ← readFrames state.barIsMarker state.frames hframes
  let (word, style, directive) ← readStyle state (state.scopes.head hscopes) found.kind
  let ended ← atEnd
  return (style,
    { frames := found.frames
      scopes := state.scopesAfter directive found.marker
      indentation := state.indentation
      lastToken := state.lastTokenAfter found.marker style word found.kind
      inParameters := state.inParameters != (found.marker == some .bar)
      continued := if ended then continuesLine found.marker style else state.continued })

def readStep (options : Options) (state : State) : Reading (Style × State) := do
  let indentation ← readIndentation (state.mend options)
  readToken { state.mend options with indentation } (state.getLast?_mend options)
    (state.scopes_mend_ne_nil options)

section Words

variable (view : View) {state : State} {scope : Scope} (hscope : state.scopes.head? = some scope)

include hscope

theorem reads_readDirective (word : List Char) :
    Reads (readDirective state scope word) view
      (directive? state (view.column == view.indentation) word) view := by
  rw [directive?, hscope, Option.any_some]
  unfold readDirective
  split
  · exact reads_pure _ _
  split
  · exact reads_pure _ _
  refine (reads_leadsLine view word).bind ?_
  split
  · exact reads_pure _ _
  split <;> exact reads_pure _ _

theorem reads_readStyle_word :
    let style := wordStyle state view.taken
    Reads (readStyle state scope .word) view
      (view.taken, style,
        if style = .keyword then
          directive? state (view.column == view.indentation) view.taken
        else none) view := by
  refine (reads_current view).bind ?_
  split
  · next hkeyword =>
      rw [hkeyword]
      exact (reads_readDirective view hscope view.taken).bind (reads_pure _ _)
  · exact reads_pure _ _

end Words

theorem isEmpty_drop {text : List Char} {n : Nat} (h : n ≤ text.length) :
    (text.drop n).isEmpty = decide (n = text.length) := by
  rw [Bool.eq_iff_iff, List.isEmpty_iff, List.drop_eq_nil_iff, decide_eq_true_iff]
  omega

theorem State.noteIndentation_eq (view : View) (state : State) :
    { state with indentation := (state.noteIndentation view).indentation } =
      state.noteIndentation view := by
  rw [noteIndentation]
  split <;> rfl

theorem State.lastTokenAfter_styled (state : State) (marker : Option Marker)
    (style other : Style) (word : List Char) :
    state.lastTokenAfter marker style word (.styled other) =
      state.lastTokenAfter marker style [] (.styled other) := by
  simp [lastTokenAfter]

theorem reads_readToken {options : Options} {view : View} {state noted : State}
    (hnoted : noted = (state.mend options).noteIndentation view)
    (hframes : noted.frames.getLast? = some .base) (hscopes : noted.scopes ≠ []) :
    let step := step options view state
    Reads (readToken noted hframes hscopes) view (step.style, step.state)
      (view.take step.length) := by
  unfold step
  simp only [← hnoted]
  refine (reads_readFrames view noted.barIsMarker noted.frames hframes).bind ?_
  have hle := scanFrames_le view.atLineStart noted.barIsMarker view.ahead noted.frames
  generalize scanFrames view.atLineStart noted.barIsMarker view.ahead noted.frames = scan at *
  have hend := reads_atEnd (view.take scan.length)
  rw [View.ahead_take, isEmpty_drop hle] at hend
  obtain ⟨length, kind, marker, frames⟩ := scan
  cases kind with
  | styled style =>
      refine (reads_pure _ _).bind (hend.bind ?_)
      rw [State.lastTokenAfter_styled]
      simpa [Scan.found] using reads_pure _ _
  | word =>
      have hhead := List.head?_eq_some_head hscopes
      refine (reads_readStyle_word (view.take length) hhead).bind (hend.bind ?_)
      simpa [Scan.found] using reads_pure _ _

theorem reads_readStep (options : Options) (view : View) (state : State) :
    let step := step options view state
    Reads (readStep options state) view (step.style, step.state) (view.take step.length) :=
  (reads_readIndentation view _).bind (reads_readToken (State.noteIndentation_eq view _) _ _)

end CellHighlight.Elixir
