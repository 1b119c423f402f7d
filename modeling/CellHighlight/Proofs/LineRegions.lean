import CellHighlight.Proofs.Segments.Scan

/-!
# Regions that end with their line

A region without closing text is over at the beginning of the next line.  A line with text
on it is scanned as if the region had been left before.  An empty line leaves the region as
well, but it is not passed on: the outer scanner, which out of the region would take note of
an empty line, keeps its state.
-/

namespace CellHighlight

/-! ## The first step and the empty line -/

namespace Region

variable {τ : Type} {outer : Scanner τ} {regions : List (Region (Scanner τ))}
  {region : Region (Scanner τ)} {state : MixedState τ}

theorem mixedStep_of_no_closer (hregion : active regions state = some region)
    (hcloser : region.closer = none) {view : View} (hstart : view.atLineStart = true) :
    mixedStep outer regions view state = mixedStep outer regions view state.leave := by
  obtain ⟨index, hindex, hfound⟩ := Option.bind_eq_some_iff.mp hregion
  simp [mixedStep, hindex, hfound, hcloser, hstart, MixedState.leave]

/-- Only the first step of a line can find the region still open, and that step leaves it. -/
theorem scanLine_of_no_closer (hregion : active regions state = some region)
    (hcloser : region.closer = none) (tabSize : Nat) {line : List Char} (hline : line ≠ []) :
    (mixedScanner outer regions).scanLine tabSize state line =
      (mixedScanner outer regions).scanLine tabSize state.leave line := by
  have hstep : (mixedScanner outer regions).step (View.ofLine line tabSize) state =
      (mixedScanner outer regions).step (View.ofLine line tabSize) state.leave :=
    mixedStep_of_no_closer hregion hcloser rfl
  rw [Scanner.scanLine_eq _ _ _ hline, Scanner.scanLine_eq _ _ _ hline]
  exact Scanner.scanRest_of_step_eq _ hline hstep

theorem mixedBlank_of_no_closer (hregion : active regions state = some region)
    (hcloser : region.closer = none) : mixedBlank outer regions state = state.leave := by
  simp [mixedBlank, hregion, hcloser, MixedState.leave]

theorem mixedBlank_leave (outer : Scanner τ) (regions : List (Region (Scanner τ)))
    (state : MixedState τ) :
    mixedBlank outer regions state.leave =
      { state.leave with outer := outer.blank state.outer } := rfl

theorem active_scanners {regions : List (Region Grammar)} {region : Region Grammar}
    (h : active regions state = some region) :
    active (regionScanners regions) state = some region.scanner := by
  obtain ⟨index, hindex, hfound⟩ := Option.bind_eq_some_iff.mp h
  simp [active, hindex, getElem?_regionScanners hfound]

theorem closer_scanner (region : Region Grammar) : region.scanner.closer = region.closer := by
  cases region
  rfl

end Region

/-! ## Lines after the region -/

namespace Grammar

theorem scanLine_mixed_nil (outer : Grammar) (regions : List (Region Grammar))
    (state : MixedState GrammarState) :
    (mixed outer regions).scanLine (.mixed state) [] =
      ([], .mixed (Region.mixedBlank outer.scanner (regionScanners regions) state)) := by
  rw [scanLine_mixed]
  rfl

/-- After a line that ends its region every next line has the tokens that it has out of the
region.  The state after it is the same as well, unless the line is empty and the outer
grammar would have noticed that. -/
theorem scanLine_after_line_region (outer : Grammar) (regions : List (Region Grammar))
    (state : MixedState GrammarState) (region : Region Grammar)
    (hregion : Region.active regions state = some region) (hcloser : region.closer = none) :
    let scan := (mixed outer regions).scanLine
    (∀ line, (scan (.mixed state) line).1 = (scan (.mixed state.leave) line).1) ∧
      (∀ line, scan (.mixed state) line = scan (.mixed state.leave) line ↔
        line ≠ [] ∨ outer.scanner.blank state.outer = state.outer) ∧
      scan (.mixed state) [] = ([], .mixed state.leave) := by
  intro scan
  have hactive := Region.active_scanners hregion
  have hopen : region.scanner.closer = none := by rw [Region.closer_scanner, hcloser]
  have htext {line : List Char} (hline : line ≠ []) :
      scan (.mixed state) line = scan (.mixed state.leave) line := by
    simp only [scan, scanLine_mixed, Region.scanLine_of_no_closer hactive hopen _ hline]
  have hempty : scan (.mixed state) [] = ([], .mixed state.leave) := by
    simp only [scan, scanLine_mixed_nil, Region.mixedBlank_of_no_closer hactive hopen]
  have hleft : scan (.mixed state.leave) [] =
      ([], .mixed { state.leave with outer := outer.scanner.blank state.outer }) := by
    simp only [scan, scanLine_mixed_nil, Region.mixedBlank_leave]
  refine ⟨fun line => ?_, fun line => ?_, hempty⟩
  · by_cases hline : line = []
    · rw [hline, hempty, hleft]
    · rw [htext hline]
  · by_cases hline : line = []
    · rw [hline, hempty, hleft]
      simp [MixedState.leave, eq_comm]
    · simp [htext hline, hline]

theorem scanLine_after_line_region_keyword :
    let regions : List (Region Grammar) :=
      [⟨.literal "%%".toList, none, .plainText, false, false⟩]
    let grammar := mixed (.elixir {}) regions
    let state : MixedState GrammarState :=
      ⟨.elixir (.start {}), some 0, some .plainText, false⟩
    (grammar.scanLine grammar.start "%% raw text".toList).2 = .mixed state ∧
      grammar.scanLine (.mixed state) "end".toList =
        grammar.scanLine (.mixed state.leave) "end".toList := by
  intro regions grammar state
  have hends := scanLine_after_line_region (.elixir {}) regions state _ rfl rfl
  exact ⟨by decide, (hends.2.1 "end".toList).mpr (.inl (by decide))⟩

/-- The operator before the region is the end of a line for the code around it.  After the
empty line the code still waits to be continued, out of the region it does not. -/
theorem scanLine_after_line_region_continued :
    let regions : List (Region Grammar) :=
      [⟨.literal "%%".toList, none, .plainText, false, false⟩]
    let grammar := mixed (.elixir {}) regions
    let code := { Elixir.State.start {} with lastToken := some .other, continued := true }
    let state : MixedState GrammarState := ⟨.elixir code, some 0, some .plainText, false⟩
    (grammar.scanLine grammar.start "x +%% raw".toList).2 = .mixed state ∧
      grammar.scanLine (.mixed state) [] ≠ grammar.scanLine (.mixed state.leave) [] := by
  decide

end Grammar

end CellHighlight
