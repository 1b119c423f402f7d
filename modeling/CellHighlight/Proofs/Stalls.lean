import CellHighlight.Proofs.Bytes.Scan
import CellHighlight.Proofs.Directives

/-!
# Steps that take nothing

Wherever a cursor stands, the scanner of a language moves it on, and not past the limit.
In a cell the only step that takes nothing leaves a directive at the beginning of a line,
and the step after it takes something.  So the patience of a scanner is never used up and
no character is skipped.
-/

namespace CellHighlight

/-! ## Cursors between characters -/

namespace Cursor

theorem rest_of_view {cursor : Cursor} {view : View} (h : cursor.view = .ok view) :
    cursor.rest = .ok view.ahead := by
  obtain ⟨before, -, h⟩ := exists_of_bind_eq_ok h
  obtain ⟨taken, -, h⟩ := exists_of_bind_eq_ok h
  obtain ⟨ahead, hahead, h⟩ := exists_of_bind_eq_ok h
  obtain ⟨hidden, -, h⟩ := exists_of_bind_eq_ok h
  cases h
  exact hahead

theorem ahead_ne_nil_of_view {cursor : Cursor} {view : View} (h : cursor.view = .ok view)
    (hmore : cursor.atEnd = false) : view.ahead ≠ [] := by
  have hrest := rest_of_view h
  unfold Cursor.rest Cursor.read at hrest
  split at hrest
  · next text hslice =>
      cases hrest
      have hlength := byteLength_of_slice? hslice
      simp only [Cursor.atEnd, decide_eq_false_iff_not] at hmore
      intro hempty
      rw [hempty, byteLength_nil] at hlength
      omega
  · cases hrest

end Cursor

namespace Scanner

variable {σ τ : Type}

theorem Advances.pos_lt_of_stepAt {scanner : Scanner σ} (h : scanner.Advances) {cursor : Cursor}
    (hmore : cursor.atEnd = false) {state : σ} {style : Style} {after : Cursor}
    (hstep : (scanner.stepAt cursor state).1 = .ok (style, after)) :
    cursor.pos < after.pos ∧ after.pos ≤ cursor.stop := by
  have hlt : cursor.pos < cursor.stop := by simpa [Cursor.atEnd] using hmore
  unfold stepAt at hstep
  split at hstep
  · next view hview =>
      have hahead := Cursor.ahead_ne_nil_of_view hview hmore
      have htaken := byteLength_pos (take_ne_nil (h view state hahead) hahead)
      cases hstep
      simp only [Cursor.advance]
      omega
  · -- Inside a character a step that has a result skips to the limit.
    split at hstep
    · cases hstep
      exact ⟨hlt, Nat.le_refl _⟩
    · cases hstep

end Scanner

namespace Grammar

/-- A step takes some of the text ahead, and no more than there is before the limit.  In
terms of a cursor, a step has a result if the cursor is between characters, the same in bytes
and on a view, and wherever it has one it moves the cursor on, up to the limit at most. -/
structure MovesOn (grammar : Grammar) : Prop where
  takes : ∀ view state, view.ahead ≠ [] → 0 < (grammar.scanner.step view state).length ∧
    (grammar.scanner.step view state).length ≤ view.ahead.length
  succeeds : ∀ {cursor : Cursor} (state), cursor.InPlace → ∃ style after state',
    grammar.onCursor.step cursor state = .ok (style, after, state') ∧
      grammar.scanner.stepAt cursor state = (.ok (style, after), state')
  moves : ∀ {cursor state style after}, cursor.atEnd = false →
    (grammar.scanner.stepAt cursor state).1 = .ok (style, after) →
    cursor.pos < after.pos ∧ after.pos ≤ cursor.stop

theorem movesOn_of_advances {grammar : Grammar} (h : grammar.scanner.Advances) :
    grammar.MovesOn := by
  constructor
  case takes =>
    exact fun view state hahead => ⟨h view state hahead, grammar.inBounds_scanner view state⟩
  case succeeds =>
    intro cursor state hplace
    obtain ⟨view, rfl⟩ := hplace.exists_view
    refine ⟨_, _, _, grammar.onCursor_follows.step view state, ?_⟩
    simp only [Scanner.stepAt, view.view_cursor, view.advance_cursor]
  case moves => exact fun hmore hstep => h.pos_lt_of_stepAt hmore hstep

end Grammar

namespace Scanner

variable {σ τ : Type}

/-! ## A run without skipped characters -/

def tokenAt? (scanner : Scanner σ) (visit : View × σ) : Option Token :=
  let step := scanner.step visit.1 visit.2
  if step.length = 0 then none
  else some ⟨byteLength (visit.1.ahead.take step.length), step.style⟩

structure StallsOnce (scanner : Scanner σ) : Prop where
  atLineStart : ∀ {view state}, view.ahead ≠ [] → (scanner.step view state).length = 0 →
    view.atLineStart = true
  thenTakes : ∀ {view state}, view.ahead ≠ [] → (scanner.step view state).length = 0 →
    (scanner.step view (scanner.step view state).state).length ≠ 0

theorem Advances.stallsOnce {scanner : Scanner σ} (h : scanner.Advances) :
    scanner.StallsOnce :=
  ⟨fun hahead hlength => absurd hlength (Nat.ne_of_gt (h _ _ hahead)),
    fun hahead hlength => absurd hlength (Nat.ne_of_gt (h _ _ hahead))⟩

namespace StallsOnce

variable {scanner : Scanner σ}

theorem within (h : scanner.StallsOnce) {wrap : σ → τ} {unwrap : τ → Option σ}
    (hunwrap : ∀ state, unwrap (wrap state) = some state) :
    (scanner.within wrap unwrap).StallsOnce := by
  constructor
  case atLineStart => exact fun hahead hlength => h.atLineStart hahead hlength
  case thenTakes =>
    intro view state hahead hlength
    simp only [Scanner.within, hunwrap, Option.getD_some]
    exact h.thenTakes hahead hlength

theorem tries_eq (h : scanner.StallsOnce) {view : View} (hahead : view.ahead ≠ []) (state : σ) :
    scanner.tries view stallLimit state =
      if (scanner.step view state).length = 0 then [state, (scanner.step view state).state]
      else [state] := by
  split
  · next hlength => simp [stallLimit, tries, hlength, h.thenTakes hahead hlength]
  · next hlength => simp [stallLimit, tries, hlength]

theorem stepForward_eq (h : scanner.StallsOnce) {view : View} (hahead : view.ahead ≠ [])
    (state : σ) :
    scanner.stepForward view stallLimit state =
      if (scanner.step view state).length = 0 then
        scanner.step view (scanner.step view state).state
      else scanner.step view state := by
  split
  · next hlength => simp [stallLimit, stepForward, hlength, h.thenTakes hahead hlength]
  · next hlength => simp [stallLimit, stepForward, hlength]

theorem tokens_tries (h : scanner.StallsOnce) {view : View} (hahead : view.ahead ≠ [])
    (state : σ) :
    ((scanner.tries view stallLimit state).map fun tried => (view, tried)).filterMap
        scanner.tokenAt? =
      let step := scanner.stepForward view stallLimit state
      [⟨byteLength (view.ahead.take step.length), step.style⟩] := by
  rw [h.tries_eq hahead, h.stepForward_eq hahead]
  split
  · next hlength => simp [tokenAt?, hlength, h.thenTakes hahead hlength]
  · next hlength => simp [tokenAt?, hlength]

theorem tokens_visits (h : scanner.StallsOnce) (fuel : Nat) (view : View) (state : σ) :
    (scanner.visits fuel view state).filterMap scanner.tokenAt? =
      (scanner.scanAhead fuel view state).1 := by
  induction fuel generalizing view state with
  | zero => rfl
  | succ fuel ih =>
      by_cases hahead : view.ahead = []
      · simp [visits, scanAhead, hahead]
      · simp only [visits, scanAhead, List.isEmpty_iff, hahead, if_false, List.filterMap_append,
          h.tokens_tries hahead, ih]
        rfl

theorem takes_of_visits (h : scanner.StallsOnce) (fuel : Nat) {view : View}
    (hview : view.atLineStart = false) (state : σ) :
    ∀ visit ∈ scanner.visits fuel view state, scanner.tokenAt? visit ≠ none := by
  induction fuel generalizing view state with
  | zero => exact fun _ hvisit => absurd hvisit List.not_mem_nil
  | succ fuel ih =>
      intro visit hvisit
      by_cases hahead : view.ahead = []
      · simp [visits, hahead] at hvisit
      · have htakes : (scanner.step view state).length ≠ 0 := by
          intro hlength
          rw [h.atLineStart hahead hlength] at hview
          cases hview
        have hpos := scanner.stepForward_pos view stallLimit state
        simp only [visits, List.isEmpty_iff, hahead, if_false, h.tries_eq hahead, htakes,
          List.map_cons, List.map_nil, List.singleton_append, List.mem_cons] at hvisit
        rcases hvisit with rfl | hvisit
        · simp [tokenAt?, htakes]
        · exact ih (View.atLineStart_next hpos hahead) _ visit hvisit

theorem stalls_visits_le (h : scanner.StallsOnce) (fuel : Nat) (view : View) (state : σ) :
    (scanner.visits fuel view state).countP (fun visit => (scanner.tokenAt? visit).isNone) ≤
      1 := by
  cases fuel with
  | zero => exact Nat.zero_le 1
  | succ fuel =>
      by_cases hahead : view.ahead = []
      · simp [visits, hahead]
      · have hpos := scanner.stepForward_pos view stallLimit state
        have hlater := h.takes_of_visits fuel (View.atLineStart_next hpos hahead)
          (scanner.stepForward view stallLimit state).state
        have hnone : (scanner.visits fuel
            (view.next (scanner.stepForward view stallLimit state).length)
            (scanner.stepForward view stallLimit state).state).countP
              (fun visit => (scanner.tokenAt? visit).isNone) = 0 := by
          simpa [List.countP_eq_zero, ← Option.isSome_iff_ne_none] using hlater
        simp only [visits, List.isEmpty_iff, hahead, if_false, List.countP_append, hnone,
          h.tries_eq hahead]
        split
        · next hlength => simp [tokenAt?, hlength, h.thenTakes hahead hlength]
        · next hlength => simp [tokenAt?, hlength]

end StallsOnce

end Scanner

/-! ## Regions -/

namespace Region

variable {τ : Type} {outer : Scanner τ} {regions : List (Region (Scanner τ))}

/-- A region whose delimiters are texts, except that it may be left at the beginning of a
line, and whose scanner never stops. -/
structure Prompt (region : Region (Scanner τ)) : Prop where
  opener : region.opener.IsText
  closer : ∀ closer, region.closer = some closer → closer.IsText ∨ closer.kind = .lineStart
  separate : region.scansDelimiters = false
  content : region.content.Advances

theorem contentStep_pos {region : Region (Scanner τ)} (hcontent : region.content.Advances)
    (bound : Option Nat) (hbound : ∀ n ∈ bound, 0 < n) {view : View} (hahead : view.ahead ≠ [])
    (state : MixedState τ) : 0 < (region.contentStep bound view state).length :=
  hcontent _ _ (ahead_limit?_ne_nil hahead hbound)

theorem Prompt.innerStep_stalled {region : Region (Scanner τ)} (h : region.Prompt)
    {closer : Pattern} (hcloser : region.closer = some closer) {view : View}
    (hahead : view.ahead ≠ []) {state : MixedState τ}
    (hlength : (region.innerStep (nextClosing closer view state.opening) view state).length = 0) :
    view.atLineStart = true ∧
      (region.innerStep (nextClosing closer view state.opening) view state).state =
        state.leave := by
  cases hfound : nextClosing closer view state.opening with
  | none =>
      rw [hfound] at hlength
      exact absurd hlength (Nat.ne_of_gt (contentStep_pos h.content none (by simp) hahead state))
  | some found =>
      obtain ⟨start, length⟩ := found
      simp only [hfound, innerStep, h.separate, Bool.false_eq_true, if_false] at hlength ⊢
      by_cases hstart : start = 0
      · subst hstart
        simp only [if_true] at hlength ⊢
        subst hlength
        refine ⟨?_, trivial⟩
        unfold nextClosing at hfound
        split at hfound
        · cases hfound
        · rcases h.closer closer hcloser with htext | hline
          · rw [htext.find_eq] at hfound
            have hbounds := htext.standing?_bounds (firstPlace_zero_iff.mp hfound).2
            omega
          · simp only [Pattern.find, hline] at hfound
            split at hfound
            · next hhere => exact (Bool.and_eq_true_iff.mp hhere).1
            · cases hfound
      · rw [if_neg hstart] at hlength
        have hpos := contentStep_pos h.content (some start)
          (by simpa using Nat.pos_of_ne_zero hstart) hahead state
        omega

theorem mixedStep_stalled (houter : outer.Advances) (hregions : ∀ region ∈ regions, region.Prompt)
    {view : View} (hahead : view.ahead ≠ []) {state : MixedState τ}
    (hlength : (mixedStep outer regions view state).length = 0) :
    view.atLineStart = true ∧ (mixedStep outer regions view state).state = state.leave := by
  have houtside (state : MixedState τ) : (outerStep outer regions view state).length ≠ 0 :=
    Nat.ne_of_gt (outerStep_pos houter (fun region hregion => (hregions region hregion).opener)
      (fun region hregion => (hregions region hregion).separate) hahead state)
  unfold mixedStep at hlength ⊢
  split at hlength
  · exact absurd hlength (houtside _)
  split at hlength
  · exact absurd hlength (houtside _)
  · next index region hregion =>
      have hprompt := hregions region (List.mem_of_getElem? hregion)
      split at hlength
      · split at hlength
        · exact absurd hlength (houtside _)
        · have hpos := contentStep_pos hprompt.content none (by simp) hahead state
          omega
      · next closer hcloser =>
          exact hprompt.innerStep_stalled hcloser hahead hlength

theorem stallsOnce_mixedScanner (houter : outer.Advances)
    (hregions : ∀ region ∈ regions, region.Prompt) :
    (mixedScanner outer regions).StallsOnce := by
  constructor
  case atLineStart =>
    exact fun hahead hlength => (mixedStep_stalled houter hregions hahead hlength).1
  case thenTakes =>
    intro view state hahead hlength
    have hleft := (mixedStep_stalled houter hregions hahead hlength).2
    show (mixedStep outer regions view (mixedStep outer regions view state).state).length ≠ 0
    rw [hleft]
    exact Nat.ne_of_gt (outerStep_pos houter
      (fun region hregion => (hregions region hregion).opener)
      (fun region hregion => (hregions region hregion).separate) hahead state.leave)

end Region

namespace Grammar

theorem prompt_regions_cell :
    ∀ region ∈ regionScanners [directiveRegion, rRegion], region.Prompt := by
  intro region hregion
  have hopener := isText_opener_cell region hregion
  simp only [regionScanners, List.mem_cons, List.not_mem_nil, or_false] at hregion
  rcases hregion with rfl | rfl
  · refine ⟨hopener, ?_, rfl, advances_plainText⟩
    rintro closer ⟨⟩
    exact .inr rfl
  · refine ⟨hopener, ?_, rfl, advances_r⟩
    rintro closer ⟨⟩
    exact .inl (Pattern.isText_literal (by decide))

theorem stallsOnce_cell (options : Elixir.Options) : (cell options).scanner.StallsOnce := by
  have hmixed := Region.stallsOnce_mixedScanner (advances_elixir options) prompt_regions_cell
  rw [cell, scanner]
  exact hmixed.within fun _ => rfl

/-- The scanners of the languages move on in every step.  In a cell at most one step of a
line takes nothing, and every token is the token of a step that takes something, so that
no character is skipped. -/
theorem scanLine_never_skips (options : Elixir.Options) :
    (elixir options).MovesOn ∧ r.MovesOn ∧ plainText.MovesOn ∧
    ∀ state line,
      ((cell options).visits state line).countP
        (fun visit => ((cell options).scanner.tokenAt? visit).isNone) ≤ 1 ∧
      ((cell options).scanLine state line).1 =
        ((cell options).visits state line).filterMap (cell options).scanner.tokenAt? := by
  have hstalls := stallsOnce_cell options
  refine ⟨?_, ?_, ?_, fun state line => ⟨?_, ?_⟩⟩
  · exact movesOn_of_advances (advances_elixir options)
  · exact movesOn_of_advances advances_r
  · exact movesOn_of_advances advances_plainText
  · exact hstalls.stalls_visits_le _ _ _
  · by_cases hline : line = []
    · subst hline
      rfl
    · have hempty : line.isEmpty = false := List.isEmpty_eq_false_iff.mpr hline
      rw [visits, hstalls.tokens_visits, scanLine, Scanner.scanLine, hempty]
      rfl

-- The one step is there: on a line that does not go on with it, a directive is left first.
example :
    ((cell {}).visits (.mixed (inDirective (.start {}))) "x".toList).countP
      (fun visit => ((cell {}).scanner.tokenAt? visit).isNone) = 1 := by
  decide

end Grammar

end CellHighlight
