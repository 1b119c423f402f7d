import CellHighlight.Proofs.Cells
import CellHighlight.Proofs.Frames

/-!
# Reachable states

Every state that a run from the start can reach has well-shaped stacks, so there is
never anything to mend in it and its base frame is never taken off.
-/

namespace CellHighlight

namespace Elixir

/-! ## Scopes -/

inductive Rooted (options : Options) : List Scope → Prop
  | root : Rooted options [State.rootScope options]
  | inner {scope : Scope} {scopes : List Scope} (hkind : scope.kind ≠ .root)
      (hindentation : 0 ≤ scope.indentation) (hscopes : Rooted options scopes) :
      Rooted options (scope :: scopes)

theorem Rooted.getLast? {options : Options} {scopes : List Scope} (h : Rooted options scopes) :
    scopes.getLast? = some (State.rootScope options) := by
  induction h with
  | root => rfl
  | inner _ _ _ ih => simp [List.getLast?_cons, ih]

theorem Rooted.closed {options : Options} {scopes : List Scope} (h : Rooted options scopes) :
    Rooted options (if 1 < scopes.length then scopes.drop 1 else scopes) := by
  cases h with
  | root => exact .root
  | inner hkind hindentation hscopes =>
      split
      · exact hscopes
      · exact .inner hkind hindentation hscopes

theorem Rooted.scopesAfter {options : Options} {state : State}
    (h : Rooted options state.scopes) (hindentation : 0 ≤ state.indentation)
    (directive : Option Directive) (marker : Option Marker) :
    Rooted options (state.scopesAfter directive marker) := by
  unfold State.scopesAfter
  dsimp only
  split
  · exact .inner nofun hindentation h
  · exact .inner nofun hindentation h
  · exact h.closed
  · exact h.closed
  · exact h

/-! ## States -/

namespace State

/-- A state whose stack of frames satisfies `Stack`, and whose other parts are as a run
leaves them. -/
structure Regular (options : Options) (Stack : List Frame → Prop) (state : State) : Prop where
  frames : Stack state.frames
  scopes : Rooted options state.scopes
  indentation : 0 ≤ state.indentation
  lastToken : ∀ word, state.lastToken = some (.keyword word) → isKeyword word = true

theorem Regular.imp {options : Options} {Stack Stack' : List Frame → Prop} {state : State}
    (h : state.Regular options Stack) (himp : Stack state.frames → Stack' state.frames) :
    state.Regular options Stack' :=
  ⟨himp h.frames, h.scopes, h.indentation, h.lastToken⟩

structure Intact (options : Options) (state : State) : Prop where
  mend : state.mend options = state
  scan : ∀ atLineStart barIsMarker text,
    scanFrames? atLineStart barIsMarker text state.frames =
      some (scanFrames atLineStart barIsMarker text state.frames)

theorem Regular.intact {options : Options} {text : List Char} {state : State}
    (h : state.Regular options (ShapedAt text)) : state.Intact options := by
  constructor
  case mend =>
    have hbase : withBase state.frames = state.frames := if_pos h.frames.getLast?
    have hroot : withRoot options state.scopes = state.scopes := by
      simp [withRoot, h.scopes.getLast?, rootScope]
    simp [State.mend, hbase, hroot]
  case scan => exact fun _ _ _ => scanFrames?_eq h.frames.getLast? _ _ _

theorem Regular.noteIndentation {options : Options} {Stack : List Frame → Prop} {state : State}
    (h : state.Regular options Stack) (view : View) :
    (state.noteIndentation view).Regular options Stack := by
  unfold State.noteIndentation
  split
  · exact ⟨h.frames, h.scopes, Int.natCast_nonneg _, h.lastToken⟩
  · exact h

theorem Regular.lastTokenAfter {options : Options} {Stack : List Frame → Prop} {state : State}
    (h : state.Regular options Stack) {marker : Option Marker} {style : Style}
    {word : List Char} {kind : LexemeKind}
    (hword : kind = .word → style = .keyword → isKeyword word = true) :
    ∀ last, state.lastTokenAfter marker style word kind = some (.keyword last) →
      isKeyword last = true := by
  intro last hlast
  unfold State.lastTokenAfter at hlast
  split at hlast
  · cases hlast
  split at hlast
  · exact h.lastToken last hlast
  split at hlast
  · next hkeyword =>
      simp only [Bool.and_eq_true, decide_eq_true_eq] at hkeyword
      cases hlast
      exact hword hkeyword.1 hkeyword.2
  · cases hlast

end State

theorem isKeyword_of_wordStyle {state : State} {word : List Char}
    (h : wordStyle state word = .keyword) : isKeyword word = true := by
  unfold wordStyle at h
  split at h
  · cases h
  split at h
  · assumption
  split at h
  · cases h
  split at h <;> cases h

theorem State.Regular.step {options : Options} {view : View} {state : State}
    (h : state.Regular options (ShapedAt view.ahead)) :
    (step options view state).state.Regular options
      (ShapedAt (view.ahead.drop (step options view state).length)) := by
  have hnoted := h.noteIndentation view
  unfold Elixir.step
  rw [h.intact.mend]
  constructor
  case frames => exact hnoted.frames.scanFrames _ _
  case scopes => exact hnoted.scopes.scopesAfter hnoted.indentation _ _
  case indentation => exact hnoted.indentation
  case lastToken =>
    apply hnoted.lastTokenAfter
    intro hkind hstyle
    rw [hkind] at hstyle
    exact isKeyword_of_wordStyle hstyle

theorem invariant_scanner (options : Options) :
    (scanner options).Invariant (fun view state => state.Regular options (ShapedAt view.ahead))
      (fun state => state.Regular options Shaped) := by
  constructor
  case enter => exact fun _ _ _ hbetween => hbetween.imp .shaped
  case step => exact fun _ hduring => hduring.step
  case skip =>
    intro view state hahead _ hlength
    exact absurd hlength (Nat.ne_of_gt (advances_scanner options view state hahead))
  case leave =>
    intro view state hahead hduring
    rw [hahead] at hduring
    exact hduring.imp fun hframes => hframes.of_not_atVariable Bool.false_ne_true
  case blank =>
    intro state hbetween
    exact ⟨hbetween.frames, hbetween.scopes, hbetween.indentation, hbetween.lastToken⟩

theorem State.frames_noteIndentation_mend (options : Options) (view : View) (state : State) :
    ((state.mend options).noteIndentation view).frames = withBase state.frames := by
  unfold noteIndentation
  split <;> rfl

theorem keptUnder_scanner (options : Options) :
    (scanner options).KeptUnder (fun view state => ¬ Overflows view.ahead state.frames)
      (fun state => CountsBraces state.frames) where
  step := by
    intro view state hroom hcounts
    have hframes := State.frames_noteIndentation_mend options view state
    have hbase : CountsBraces (State.withBase state.frames) ∧
        ¬ Overflows view.ahead (State.withBase state.frames) := by
      unfold State.withBase
      split
      · exact ⟨hcounts, hroom⟩
      · exact ⟨hcounts.append (by simp [CountsBraces]), by simpa [Overflows] using hroom⟩
    rw [← hframes] at hbase
    exact hbase.1.scanFrames hbase.2 _ _
  blank := id

theorem regular_start (options : Options) : (State.start options).Regular options Shaped := by
  constructor
  case frames => exact .code .base
  case scopes => exact .root
  case indentation => exact Int.le_refl 0
  case lastToken => exact fun word hword => nomatch hword

end Elixir

/-! ## Grammars -/

def GrammarState.code? : GrammarState → Option Elixir.State
  | .elixir state => some state
  | .mixed state => state.outer.elixir?
  | _ => none

namespace Grammar

def Countable (grammar : Grammar) (lines : List (List Char)) : Prop :=
  ∀ visit ∈ grammar.runVisits grammar.start lines,
    ∀ code, visit.2.code? = some code → ¬ Elixir.Overflows visit.1.ahead code.frames

/-- In every run from the start, the state of the code is well-shaped after each line, and
intact at each step of the line that follows.  Its counts of braces are right unless one of
them went past the last number. -/
def KeepsShape (options : Elixir.Options) (grammar : Grammar) : Prop :=
  ∀ lines, ∃ state, (grammar.scanLines grammar.start lines).2.code? = some state ∧
    state.Regular options Elixir.Shaped ∧
    (grammar.Countable lines → Elixir.CountsBraces state.frames) ∧
    ∀ line, ∀ visit ∈ grammar.visits (grammar.scanLines grammar.start lines).2 line,
      ∃ visited, visit.2.code? = some visited ∧ visited.Intact options

theorem keepsShape_of_invariant {options : Elixir.Options} {grammar : Grammar}
    {During : View → GrammarState → Prop} {Between : GrammarState → Prop}
    (h : grammar.scanner.Invariant During Between) (hstart : Between grammar.start)
    (hbetween : ∀ {state}, Between state →
      ∃ code, state.code? = some code ∧ code.Regular options Elixir.Shaped)
    (hduring : ∀ {view state}, During view state →
      ∃ code, state.code? = some code ∧ code.Intact options)
    (hcounts : ∀ lines, grammar.Countable lines →
      ∃ code, (grammar.scanLines grammar.start lines).2.code? = some code ∧
        Elixir.CountsBraces code.frames) :
    grammar.KeepsShape options := by
  intro lines
  have hreached := between_scanLines h lines hstart
  obtain ⟨state, hstate, hregular⟩ := hbetween hreached
  refine ⟨state, hstate, hregular, fun hroom => ?_, fun line visit hvisit => ?_⟩
  · obtain ⟨code, hcode, hframes⟩ := hcounts lines hroom
    rw [hstate] at hcode
    cases hcode
    exact hframes
  · exact hduring (during_visits h hreached line visit hvisit).2

def Regular (options : Elixir.Options) (Stack : List Elixir.Frame → Prop)
    (state : GrammarState) : Prop :=
  ∃ code, state = .elixir code ∧ code.Regular options Stack

theorem invariant_elixir (options : Elixir.Options) :
    (elixir options).scanner.Invariant
      (fun view => Regular options (Elixir.ShapedAt view.ahead))
      (Regular options Elixir.Shaped) := by
  simp only [scanner]
  exact (Elixir.invariant_scanner options).within _ fun _ => rfl

theorem regular_start (options : Elixir.Options) :
    Regular options Elixir.Shaped (elixir options).start := by
  simp only [start, scanner]
  exact ⟨_, rfl, Elixir.regular_start options⟩

def CanCount (text : List Char) (state : GrammarState) : Prop :=
  ∀ code, state = .elixir code → ¬ Elixir.Overflows text code.frames

theorem keptUnder_elixir (options : Elixir.Options) :
    (elixir options).scanner.KeptUnder (fun view => CanCount view.ahead)
      (fun wide => ∃ code, wide = .elixir code ∧ Elixir.CountsBraces code.frames) := by
  simp only [scanner]
  exact (Elixir.keptUnder_scanner options).within _ fun _ => rfl

theorem countsBraces_start (options : Elixir.Options) :
    ∃ code, (elixir options).start = .elixir code ∧ Elixir.CountsBraces code.frames := by
  simp only [start, scanner]
  exact ⟨.start options, rfl, by simp [Elixir.State.start, Elixir.CountsBraces]⟩

theorem keepsShape_elixir (options : Elixir.Options) : (elixir options).KeepsShape options := by
  apply keepsShape_of_invariant (invariant_elixir options) (regular_start options)
  · rintro _ ⟨code, rfl, hregular⟩
    exact ⟨code, rfl, hregular⟩
  · rintro view _ ⟨code, rfl, hregular⟩
    exact ⟨code, rfl, hregular.intact⟩
  · intro lines hroom
    obtain ⟨code, hcode, hframes⟩ := keeps_scanLines (keptUnder_elixir options) lines
      (fun visit hvisit code hcode => hroom visit hvisit code (by simp [hcode, GrammarState.code?]))
      (countsBraces_start options)
    exact ⟨code, by simp [hcode, GrammarState.code?], hframes⟩

theorem not_atVariable_of_openedAt {atLineStart : Bool} {text : List Char}
    (h : Region.openedAt atLineStart text (regionScanners [directiveRegion, rRegion]) ≠ none) :
    ¬ Elixir.AtVariable text := by
  have hopens : opensRegion text = true := by
    rw [← isSome_openingHere_cell]
    rw [Region.openedAt_eq atLineStart text isText_opener_cell] at h
    cases hopening : openingHere text
        ((regionScanners [directiveRegion, rRegion]).map Region.delimiters) with
    | none => simp [hopening] at h
    | some found => rfl
  rw [Elixir.AtVariable, headIs_of_opensRegion (by decide) hopens]
  exact Bool.false_ne_true

theorem suspendable_cell (options : Elixir.Options) :
    Region.Suspendable (regionScanners [directiveRegion, rRegion])
      (fun text => Regular options (Elixir.ShapedAt text)) (Regular options Elixir.Shaped) := by
  constructor
  case anywhere =>
    rintro text _ ⟨code, rfl, hregular⟩
    exact ⟨code, rfl, hregular.imp .shaped⟩
  case hide =>
    rintro text _ n hn ⟨code, rfl, hregular⟩
    exact ⟨code, rfl, hregular.imp fun hframes => hframes.imp (.take hn)⟩
  case reveal =>
    rintro text _ n ⟨code, rfl, hregular⟩
    exact ⟨code, rfl, hregular.imp fun hframes => hframes.imp .of_take⟩
  case opened =>
    rintro atLineStart text _ hopened ⟨code, rfl, hregular⟩
    exact ⟨code, rfl, hregular.imp fun hframes =>
      hframes.of_not_atVariable (not_atVariable_of_openedAt hopened)⟩

theorem invariant_cell (options : Elixir.Options) :
    (cell options).scanner.Invariant
      (fun view wide => ∃ state, wide = .mixed state ∧
        (Regular options Elixir.Shaped state.outer ∨
          state.region = none ∧ Regular options (Elixir.ShapedAt view.ahead) state.outer))
      (fun wide => ∃ state, wide = .mixed state ∧
        Regular options Elixir.Shaped state.outer) := by
  have hcell := (suspendable_cell options).invariant (invariant_elixir options)
    (advances_elixir options)
  rw [cell, scanner]
  exact hcell.within _ fun _ => rfl

theorem keptUnder_cell (options : Elixir.Options) :
    (cell options).scanner.KeptUnder
      (fun view wide => ∀ state, wide = .mixed state → CanCount view.ahead state.outer)
      (fun wide => ∃ state, wide = .mixed state ∧
        ∃ code, state.outer = .elixir code ∧ Elixir.CountsBraces code.frames) := by
  rw [cell, scanner]
  refine (Region.keptUnder_mixedScanner (keptUnder_elixir options) ?_).within _ fun _ => rfl
  intro text state n hroom code hcode hover
  exact hroom code hcode ⟨Elixir.headIs_of_take hover.1, hover.2⟩

theorem keepsShape_cell (options : Elixir.Options) : (cell options).KeepsShape options := by
  apply keepsShape_of_invariant (invariant_cell options)
  · rw [start, cell, scanner]
    exact ⟨_, rfl, regular_start options⟩
  · rintro _ ⟨state, rfl, code, houter, hregular⟩
    exact ⟨code, by simp [GrammarState.code?, houter, GrammarState.elixir?], hregular⟩
  · rintro view _ ⟨state, rfl, hduring⟩
    obtain ⟨code, houter, hregular⟩ := hduring.elim
      ((suspendable_cell options).anywhere view.ahead) And.right
    exact ⟨code, by simp [GrammarState.code?, houter, GrammarState.elixir?], hregular.intact⟩
  · intro lines hroom
    have hstart : ∃ state, (cell options).start = .mixed state ∧
        ∃ code, state.outer = .elixir code ∧ Elixir.CountsBraces code.frames := by
      rw [start, cell, scanner]
      exact ⟨_, rfl, countsBraces_start options⟩
    obtain ⟨state, hstate, code, hcode, hframes⟩ := keeps_scanLines (keptUnder_cell options) lines
      (fun visit hvisit state hstate code hcode => hroom visit hvisit code
        (by simp [hstate, GrammarState.code?, hcode, GrammarState.elixir?])) hstart
    exact ⟨code, by simp [hstate, GrammarState.code?, hcode, GrammarState.elixir?], hframes⟩

/-- The states that Elixir code can reach, alone or in a cell, have well-shaped stacks. -/
theorem scanLines_keeps_shape (options : Elixir.Options) :
    (elixir options).KeepsShape options ∧ (cell options).KeepsShape options := by
  constructor
  · exact keepsShape_elixir options
  · exact keepsShape_cell options

end Grammar

end CellHighlight
