import CellHighlight.Proofs.Agreement
import CellHighlight.Proofs.Cells
import CellHighlight.Proofs.Ownership

/-!
# Directives

A directive goes on over lines that begin with an exclamation mark.  Any other line with
text on it is scanned as if the directive had been left before.  On an empty line nothing
is searched for, so there the directive stays: whether it is over is decided by the next
line with text on it.
-/

namespace CellHighlight

/-! ## Leaving without taking anything -/

namespace Region

variable {τ : Type} {outer : Scanner τ} {regions : List (Region (Scanner τ))}

theorem openedAt_pos (hregions : ∀ region ∈ regions, region.opener.IsText) {atLineStart : Bool}
    {text : List Char} {index length : Nat} {region : Region (Scanner τ)}
    (h : openedAt atLineStart text regions = some (index, region, length)) : 0 < length := by
  rw [openedAt_eq atLineStart text hregions] at h
  obtain ⟨⟨place, found⟩, hopening, hplace⟩ := Option.bind_eq_some_iff.mp h
  obtain ⟨region', -, heq⟩ := Option.map_eq_some_iff.mp hplace
  cases heq
  obtain ⟨delimiters, hdelimiters, hstanding⟩ := openingHere_eq_some hopening
  rw [List.getElem?_map] at hdelimiters
  obtain ⟨opened, hopened, rfl⟩ := Option.map_eq_some_iff.mp hdelimiters
  exact ((hregions opened (List.mem_of_getElem? hopened)).standing?_bounds hstanding).1

theorem outerStep_pos (houter : outer.Advances)
    (hregions : ∀ region ∈ regions, region.opener.IsText)
    (hseparate : ∀ region ∈ regions, region.scansDelimiters = false) {view : View}
    (hahead : view.ahead ≠ []) (state : MixedState τ) :
    0 < (outerStep outer regions view state).length := by
  unfold outerStep
  split
  · next index region length hopened =>
      have hregion := List.mem_of_getElem? (getElem?_of_openedAt hopened)
      simp only [hseparate region hregion, Bool.false_eq_true, if_false]
      exact openedAt_pos hregions hopened
  · next hopened =>
      have hlimited := ahead_limit?_ne_nil hahead fun n hn => nextOpening_pos hopened hn
      exact houter _ state.outer hlimited

/-- Where the closing text is empty and the outer scanner takes something, the text is
scanned as if the region had been left before. -/
theorem scanRest_of_left {view : View} (hahead : view.ahead ≠ []) {state : MixedState τ}
    {style : Style}
    (hstep : (mixedScanner outer regions).step view state = ⟨0, style, state.leave⟩)
    (houter : 0 < (outerStep outer regions view state.leave).length) :
    (mixedScanner outer regions).scanRest view state =
      (mixedScanner outer regions).scanRest view state.leave := by
  have hleft : ((mixedScanner outer regions).step view state).length = 0 :=
    congrArg Step.length hstep
  have htaken : ((mixedScanner outer regions).step view state.leave).length ≠ 0 :=
    Nat.ne_of_gt houter
  have hforward : (mixedScanner outer regions).stepForward view Scanner.stallLimit state =
      (mixedScanner outer regions).stepForward view Scanner.stallLimit state.leave := by
    unfold Scanner.stallLimit
    rw [Scanner.stepForward_of_stalled _ hleft, hstep]
    rw [Scanner.stepForward_of_taken _ htaken, Scanner.stepForward_of_taken _ htaken]
  rw [Scanner.scanRest_cons _ hahead, Scanner.scanRest_cons _ hahead, hforward]

end Region

namespace Grammar

/-! ## Lines in a directive -/

def inDirective (code : Elixir.State) : MixedState GrammarState :=
  ⟨.elixir code, some 0, some .plainText, false⟩

def plainLine (line : List Char) : List Token :=
  if line.isEmpty then [] else [⟨byteLength line, .plain⟩]

theorem Owns.eq_inDirective {options : Elixir.Options} {state : MixedState GrammarState}
    (h : (cell options).Owns (.mixed state)) (hregion : state.region = some 0) :
    ∃ code, state = inDirective code := by
  cases h with
  | outside houter => cases hregion
  | @inside _ _ _ _ _ _ opening houter hfound hinner hopening =>
      cases hregion
      cases hfound
      obtain ⟨_, code⟩ := houter
      cases hinner
      cases opening with
      | false => exact ⟨code, rfl⟩
      | true => exact nomatch hopening rfl

section

variable (options : Elixir.Options) (code : Elixir.State)

theorem step_inDirective (line : List Char) (tabSize : Nat) :
    (Region.mixedScanner (elixir options).scanner
        (regionScanners [directiveRegion, rRegion])).step (View.ofLine line tabSize)
          (inDirective code) =
      if line.head? = some '!' then ⟨line.length, .plain, inDirective code⟩
      else ⟨0, .delimiter .closing, (inDirective code).leave⟩ := by
  have hclosing : Region.nextClosing (Pattern.lineStart.notFollowedBy '!')
      (View.ofLine line tabSize) false =
      if line.head? = some '!' then none else some (0, 0) := by
    by_cases hbang : line.head? = some '!' <;>
      simp [Region.nextClosing, View.ofLine, View.atLineStart, Pattern.find, Pattern.lineStart,
        Pattern.notFollowedBy, Pattern.accepts, Lookahead.holds, hbang]
  simp only [Region.mixedScanner, Region.mixedStep, inDirective, regionScanners,
    List.getElem?_cons_zero, directiveRegion, Region.scanner, hclosing]
  split <;> rfl

theorem scanLine_inDirective_of_continues {line : List Char}
    (h : line = [] ∨ line.head? = some '!') :
    (cell options).scanLine (.mixed (inDirective code)) line =
      (plainLine line, .mixed (inDirective code)) := by
  rw [cell, scanLine_mixed]
  rcases h with rfl | hbang
  · rfl
  · have hline : line ≠ [] := by
      rintro rfl
      cases hbang
    have hstep := step_inDirective options code line (elixir options).tabSize
    rw [if_pos hbang] at hstep
    have hrun : (Region.mixedScanner (elixir options).scanner
        (regionScanners [directiveRegion, rRegion])).scanRest
          (View.ofLine line (elixir options).tabSize) (inDirective code) =
        ([⟨byteLength line, .plain⟩], inDirective code) :=
      Scanner.scanRest_of_taken_all _ hline hstep
    rw [Scanner.scanLine_eq _ _ _ hline, hrun, plainLine, List.isEmpty_eq_false_iff.mpr hline]
    rfl

theorem scanLine_inDirective_of_ends {line : List Char} (hline : line ≠ [])
    (hbang : line.head? ≠ some '!') :
    (cell options).scanLine (.mixed (inDirective code)) line =
      (cell options).scanLine (.mixed (inDirective code).leave) line := by
  have hstep := step_inDirective options code line (elixir options).tabSize
  rw [if_neg hbang] at hstep
  have houter := Region.outerStep_pos (advances_elixir options) isText_opener_cell
    (by decide) (show (View.ofLine line (elixir options).tabSize).ahead ≠ [] from hline)
    (inDirective code).leave
  have hleft := Region.scanRest_of_left hline hstep houter
  simp only [cell, scanLine_mixed, Scanner.scanLine_eq _ _ _ hline, hleft]

theorem scanLines_inDirective_of_continues {body : List (List Char)}
    (h : ∀ line ∈ body, line = [] ∨ line.head? = some '!') :
    (cell options).scanLines (.mixed (inDirective code)) body =
      (body.map plainLine, .mixed (inDirective code)) := by
  induction body with
  | nil => rfl
  | cons line body ih =>
      have hline := scanLine_inDirective_of_continues options code (h line List.mem_cons_self)
      have hbody := ih fun other hother => h other (List.mem_cons_of_mem line hother)
      simp only [scanLines, hline, hbody, List.map_cons]

end

theorem tokens_inDirective_of_ends (options : Elixir.Options) {code code' : Elixir.State}
    (hsame : code.SameCode code') {lines : List (List Char)}
    (h : ∀ line, lines.find? (!·.isEmpty) = some line → line.head? ≠ some '!') :
    ((cell options).scanLines (.mixed (inDirective code)) lines).1 =
      ((cell options).scanLines (.mixed (inDirective code').leave) lines).1 := by
  induction lines generalizing code' with
  | nil => rfl
  | cons line lines ih =>
      by_cases hline : line = []
      · subst hline
        have hnil := scanLine_inDirective_of_continues options code (.inl rfl)
        -- The directive stays, and out of it the empty line is noted in the state of the
        -- code; neither shows before the next line with text on it.
        have hnoted : code.SameCode ((Elixir.scanner options).blank code') :=
          ⟨hsame.frames, hsame.lastToken, hsame.inParameters⟩
        have hblank : (cell options).scanLine (.mixed (inDirective code').leave) [] =
            ([], .mixed (inDirective ((Elixir.scanner options).blank code')).leave) := rfl
        simp only [scanLines, hnil, hblank]
        exact congrArg _ (ih hnoted h)
      · have hends := scanLine_inDirective_of_ends options code hline (h line (by simp [hline]))
        have hleft : (cell options).scanLines (.mixed (inDirective code)) (line :: lines) =
            (cell options).scanLines (.mixed (inDirective code).leave) (line :: lines) := by
          simp only [scanLines, hends]
        rw [hleft]
        refine (scanLines_agree (agrees_cell options options) (line :: lines) ?_).1
        exact ⟨_, _, rfl, rfl, ⟨_, _, rfl, rfl, hsame⟩, rfl, rfl, rfl⟩

/-- A directive goes on over lines that begin with an exclamation mark and over empty
lines, as plain text.  It ends with the first other line, and then nothing shows that there
has been a directive. -/
theorem scanLines_directive_ends (options : Elixir.Options) (before : List (List Char))
    (state : MixedState GrammarState)
    (hreached : ((cell options).scanLines (cell options).start before).2 = .mixed state)
    (hdirective : state.region = some 0) :
    (∀ body, (∀ line ∈ body, line = [] ∨ line.head? = some '!') →
      (cell options).scanLines (.mixed state) body = (body.map plainLine, .mixed state)) ∧
    (∀ line following, line ≠ [] → line.head? ≠ some '!' →
      (cell options).scanLines (.mixed state) (line :: following) =
        (cell options).scanLines (.mixed state.leave) (line :: following)) ∧
    ∀ lines, (∀ line, lines.find? (!·.isEmpty) = some line → line.head? ≠ some '!') →
      ((cell options).scanLines (.mixed state) lines).1 =
        ((cell options).scanLines (.mixed state.leave) lines).1 := by
  have howns := owns_scanLines (cell options) before
  rw [hreached] at howns
  obtain ⟨code, rfl⟩ := howns.eq_inDirective hdirective
  refine ⟨?_, ?_, ?_⟩
  · intro body hbody
    exact scanLines_inDirective_of_continues options code hbody
  · intro line following hline hbang
    simp only [scanLines, scanLine_inDirective_of_ends options code hline hbang]
  · intro lines hlines
    exact tokens_inDirective_of_ends options ⟨rfl, rfl, rfl⟩ hlines

theorem scanLines_directive_ends_after_blank_line :
    let state := inDirective (.start {})
    ((cell {}).scanLines (cell {}).start [":!ls".toList]).2 = .mixed state ∧
      ((cell {}).scanLines (.mixed state) [[], "x".toList]).1 =
        ((cell {}).scanLines (.mixed state.leave) [[], "x".toList]).1 := by
  intro state
  have hreached : ((cell {}).scanLines (cell {}).start [":!ls".toList]).2 = .mixed state := by
    decide
  have hends := scanLines_directive_ends {} [":!ls".toList] state hreached rfl
  exact ⟨hreached, hends.2.2 [[], "x".toList] (by simp)⟩

/-- After an empty line the directive takes a line that, out of the directive, is code. -/
theorem scanLines_directive_survives_blank_line :
    let state := inDirective (.start {})
    let lines := [[], "!x".toList]
    ((cell {}).scanLines (cell {}).start [":!ls".toList]).2 = .mixed state ∧
      ((cell {}).scanLines (.mixed state) lines).1 = [[], [⟨2, .plain⟩]] ∧
      ((cell {}).scanLines (.mixed state.leave) lines).1 =
        [[], [⟨1, .plain⟩, ⟨1, .identifier⟩]] := by
  decide

end Grammar

end CellHighlight
