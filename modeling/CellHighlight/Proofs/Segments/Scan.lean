import CellHighlight.Proofs.Coverage
import CellHighlight.Proofs.Segments.Split

/-!
# Scanning follows the segments

Scanning a line cuts it where its segments end: a delimiter is one token, and the
text between two delimiters is made of whole tokens.  The scanner searches for
delimiters again before every token; what it finds does not change as long as the
text it takes stays before the next delimiter.
-/

namespace CellHighlight

/-! ## Tokens over segments -/

/-- A delimiter is one token in the style its region gives it; other text is covered
by tokens of any style. -/
def Segment.CoveredBy {γ : Type} (regions : List (Region γ)) (segment : Segment)
    (tokens : List Token) : Prop :=
  match segment.part with
  | .body _ => Covers tokens segment.text
  | .opening index => ∃ region, regions[index]? = some region ∧
      tokens = [⟨byteLength segment.text, region.delimiterStyle .opening⟩]
  | .closing index => ∃ region, regions[index]? = some region ∧
      tokens = [⟨byteLength segment.text, region.delimiterStyle .closing⟩]

def Tiles {γ : Type} (regions : List (Region γ)) : List Segment → List Token → Prop
  | [], tokens => tokens = []
  | segment :: segments, tokens => ∃ group rest, tokens = group ++ rest ∧
      segment.CoveredBy regions group ∧ Tiles regions segments rest

theorem Tiles.grow {γ : Type} {regions : List (Region γ)} {region : Option Nat}
    {first second : List Char} {segments : List Segment} {tokens : List Token}
    (style : Style) (hfirst : first ≠ [])
    (h : Tiles regions (segmentOf (.body region) second ++ segments) tokens) :
    Tiles regions (segmentOf (.body region) (first ++ second) ++ segments)
      (⟨byteLength first, style⟩ :: tokens) := by
  have hsegment : segmentOf (.body region) (first ++ second) =
      [⟨.body region, first ++ second⟩] := by
    simp [segmentOf, hfirst]
  rw [hsegment]
  by_cases hsecond : second = []
  · subst hsecond
    refine ⟨[⟨byteLength first, style⟩], tokens, rfl, ?_, h⟩
    exact Covers.cons style hfirst .nil
  · have hrest : segmentOf (.body region) second = [⟨.body region, second⟩] := by
      simp [segmentOf, hsecond]
    rw [hrest] at h
    obtain ⟨group, rest, rfl, hgroup, htiles⟩ := h
    exact ⟨_ :: group, rest, rfl, Covers.cons style hfirst hgroup, htiles⟩

/-! ## One step -/

namespace Region

variable {τ : Type} {outer : Scanner τ} {regions : List (Region (Scanner τ))}

/-- The region of a state exists and is past its opening text; a region without a
closing delimiter does not begin a line. -/
def Settled (regions : List (Region (Scanner τ))) (view : View) (state : MixedState τ) :
    Prop :=
  ∀ index, state.region = some index → state.opening = false ∧
    ∃ region, regions[index]? = some region ∧
      (region.closer = none → view.atLineStart = false)

variable (outer) in
theorem mixedStep_of_cut (hregions : ∀ region ∈ regions, region.HasTextDelimiters)
    {view : View} {state : MixedState τ} (hsettled : Settled regions view state) {cut : Cut}
    (hcut : cutHere (regions.map delimiters) state.region view.ahead = some cut) :
    let step := mixedStep outer regions view state
    step.length = cut.length ∧
      Segment.CoveredBy regions ⟨cut.part, view.ahead.take cut.length⟩
        [⟨byteLength (view.ahead.take cut.length), step.style⟩] ∧
      step.state.region = cut.region ∧
      ∀ later, later.atLineStart = false → Settled regions later step.state := by
  cases hregion : state.region with
  | none =>
      rw [hregion] at hcut
      simp only [cutHere, Option.map_eq_some_iff] at hcut
      obtain ⟨⟨index, length⟩, hopening, rfl⟩ := hcut
      obtain ⟨found, hfound, hstanding⟩ := openingHere_eq_some hopening
      simp only [List.getElem?_map, Option.map_eq_some_iff] at hfound
      obtain ⟨region, hindex, rfl⟩ := hfound
      have htexts := hregions region (List.mem_of_getElem? hindex)
      have hopened := openedAt_eq view.atLineStart view.ahead fun region hregion =>
        (hregions region hregion).texts.opener
      rw [hopening] at hopened
      simp only [Option.bind_some, hindex, Option.map_some] at hopened
      simp only [mixedStep, hregion, outerStep, hopened, htexts.separate]
      refine ⟨rfl, ⟨region, hindex, rfl⟩, trivial, ?_⟩
      rintro later hlater index' ⟨⟩
      exact ⟨rfl, region, hindex, fun _ => hlater⟩
  | some index =>
      obtain ⟨hopening, region, hindex, -⟩ := hsettled index hregion
      rw [hregion] at hcut
      simp only [cutHere, List.getElem?_map, hindex, Option.map_some, Option.bind_eq_bind,
        Option.bind_some, Option.bind_eq_some_iff, Option.some.injEq] at hcut
      obtain ⟨closer, hcloser, length, hstanding, rfl⟩ := hcut
      have htexts := hregions region (List.mem_of_getElem? hindex)
      have hcloserText := htexts.texts.closer closer hcloser
      have hclosing : nextClosing closer view state.opening = some (0, length) := by
        simp only [nextClosing, hopening]
        exact (hcloserText.find_eq _ _).trans (hcloserText.firstPlace_standing? hstanding)
      have hclose : region.closer = some closer := hcloser
      simp only [mixedStep, hregion, hindex, hclose, hclosing, innerStep, htexts.separate]
      refine ⟨rfl, ⟨region, hindex, rfl⟩, rfl, ?_⟩
      rintro later hlater index' ⟨⟩

structure Stays (regions : List (Region (Scanner τ))) (view : View) (state : MixedState τ)
    (step : Step (MixedState τ)) : Prop where
  length_le : step.length ≤ bodyLength (regions.map delimiters) state.region view.ahead
  region : step.state.region = state.region
  settled : Settled regions view step.state

theorem contentStep_stays {index : Nat} {region : Region (Scanner τ)}
    (hcontent : region.content.InBounds) (hseparate : region.scansDelimiters = false)
    {view : View} {state : MixedState τ} (hregion : state.region = some index)
    (hsettled : Settled regions view state)
    {bound : Option Nat} (hbound : bound =
      (firstPlace (cutHere (regions.map delimiters) state.region) view.ahead).map Prod.fst) :
    Stays regions view state (region.contentStep bound view state) := by
  obtain ⟨hopening, found, hfound, hline⟩ := hsettled index hregion
  have hsame : (region.contentStep bound view state).state.region = state.region := by
    simp [contentStep, hseparate]
  refine ⟨?_, hsame, ?_⟩
  · apply Nat.le_trans (hcontent _ _)
    rw [length_ahead_limit?, bodyLength, ← hbound]
    exact Nat.min_le_left _ _
  · intro index' hindex'
    rw [hsame, hregion] at hindex'
    cases hindex'
    exact ⟨by simp [contentStep, hseparate, hopening], found, hfound, hline⟩

theorem outerStep_stays (houter : outer.InBounds)
    (hregions : ∀ region ∈ regions, region.opener.IsText) {view : View} {state : MixedState τ}
    (hregion : state.region = none)
    (hcut : cutHere (regions.map delimiters) none view.ahead = none) :
    Stays regions view state (outerStep outer regions view state) := by
  have hopened := openedAt_eq view.atLineStart view.ahead hregions
  rw [Option.map_eq_none_iff.mp hcut, Option.bind_none] at hopened
  have hnext := nextOpening_eq view.atLineStart view.ahead hregions
  simp only [outerStep, hopened]
  constructor
  · apply Nat.le_trans (houter _ _)
    rw [length_ahead_limit?, bodyLength, hregion, firstPlace_opening, hnext]
    exact Nat.min_le_left _ _
  · rfl
  · intro index hindex
    rw [hregion] at hindex
    contradiction

structure Separated (outer : Scanner τ) (regions : List (Region (Scanner τ))) : Prop where
  outer : outer.InBounds
  contents : ∀ region ∈ regions, region.content.InBounds
  texts : ∀ region ∈ regions, region.HasTextDelimiters

theorem mixedStep_stays (h : Separated outer regions) {view : View} {state : MixedState τ}
    (hsettled : Settled regions view state)
    (hcut : cutHere (regions.map delimiters) state.region view.ahead = none) :
    Stays regions view state (mixedStep outer regions view state) := by
  cases hregion : state.region with
  | none =>
      rw [hregion] at hcut
      simp only [mixedStep, hregion]
      exact outerStep_stays h.outer (fun region hmem => (h.texts region hmem).texts.opener)
        hregion hcut
  | some index =>
      obtain ⟨hopening, region, hindex, hline⟩ := hsettled index hregion
      have hmem := List.mem_of_getElem? hindex
      obtain ⟨htexts, hseparate⟩ := h.texts region hmem
      have hcontent (bound : Option Nat) (hbound : bound = (firstPlace
          (cutHere (regions.map delimiters) state.region) view.ahead).map Prod.fst) :
          Stays regions view state (region.contentStep bound view state) :=
        contentStep_stays (h.contents region hmem) hseparate hregion hsettled hbound
      have hdelimiters : (regions.map delimiters)[index]? = some region.delimiters := by
        rw [List.getElem?_map, hindex]
        rfl
      rw [hregion] at hcut hcontent
      simp only [mixedStep, hregion, hindex]
      cases hcloser : region.closer with
      | none =>
          simp only [hline hcloser]
          apply hcontent
          rw [firstPlace_never_closing hdelimiters hcloser]
          rfl
      | some closer =>
          have hplaces := firstPlace_closing hdelimiters hcloser view.ahead
          have hclosing : nextClosing closer view state.opening =
              firstPlace closer.standing? view.ahead := by
            simp only [nextClosing, hopening]
            exact (htexts.closer closer hcloser).find_eq _ _
          simp only [hclosing, innerStep, hseparate]
          cases hfound : firstPlace closer.standing? view.ahead with
          | none =>
              apply hcontent
              rw [hplaces, hfound]
              rfl
          | some found =>
              obtain ⟨place, length⟩ := found
              rw [hfound] at hplaces
              cases place with
              | zero =>
                  -- The delimiter would be here.
                  rw [(firstPlace_zero_iff.mp hplaces).2] at hcut
                  contradiction
              | succ place =>
                  apply hcontent
                  rw [hplaces]
                  rfl

theorem Settled.later {view later : View} {state : MixedState τ}
    (h : Settled regions view state) (hlater : later.atLineStart = false) :
    Settled regions later state := by
  intro index hindex
  obtain ⟨hopening, region, hregion, -⟩ := h index hindex
  exact ⟨hopening, region, hregion, fun _ => hlater⟩

end Region

theorem View.atLineStart_next {view : View} {n : Nat} (hn : 0 < n)
    (hahead : view.ahead ≠ []) : (view.next n).atLineStart = false := by
  simp [View.atLineStart, View.next, take_ne_nil hn hahead]

/-! ## A whole line -/

namespace Region

variable {τ : Type} {outer : Scanner τ} {regions : List (Region (Scanner τ))}

/-- Steps that take nothing change neither the region nor the place, so neither does
the character that is skipped after too many of them. -/
theorem stepForward_stays (h : Separated outer regions) {view : View}
    (hahead : view.ahead ≠ []) (patience : Nat) {state : MixedState τ}
    (hsettled : Settled regions view state)
    (hcut : cutHere (regions.map delimiters) state.region view.ahead = none) :
    Stays regions view state
      ((mixedScanner outer regions).stepForward view patience state) := by
  induction patience generalizing state with
  | zero => exact ⟨bodyLength_pos hcut hahead, rfl, hsettled⟩
  | succ patience ih =>
      have hstep := mixedStep_stays h hsettled hcut
      by_cases hstalled : (mixedStep outer regions view state).length = 0
      · rw [Scanner.stepForward_of_stalled (mixedScanner outer regions) hstalled]
        rw [← hstep.region] at hcut
        obtain ⟨hle, hsame, hafter⟩ := ih hstep.settled hcut
        rw [hstep.region] at hle hsame
        exact ⟨hle, hsame, hafter⟩
      · rw [Scanner.stepForward_of_taken (mixedScanner outer regions) hstalled]
        exact hstep

def ScansAsSplit (outer : Scanner τ) (regions : List (Region (Scanner τ))) (fuel : Nat)
    (view : View) (state : MixedState τ) : Prop :=
  let split := splitText (regions.map delimiters) fuel state.region view.ahead
  let scan := (mixedScanner outer regions).scanRest view state
  Tiles regions split.1 scan.1 ∧ scan.2.region = split.2

theorem scansAsSplit_of_end {fuel : Nat} {view : View} (hahead : view.ahead = [])
    (state : MixedState τ) : ScansAsSplit outer regions fuel view state := by
  have hsplit : splitText (regions.map delimiters) fuel state.region [] =
      ([], state.region) := by
    cases fuel with
    | zero => rfl
    | succ fuel => simp [splitText, segmentOf]
  unfold ScansAsSplit
  rw [hahead, hsplit, Scanner.scanRest_nil _ hahead]
  exact ⟨rfl, rfl⟩

theorem scansAsSplit_of_cut (hregions : ∀ region ∈ regions, region.HasTextDelimiters)
    {fuel : Nat} {view : View} {state : MixedState τ} (hahead : view.ahead ≠ [])
    (hsettled : Settled regions view state) {cut : Cut}
    (hcut : cutHere (regions.map delimiters) state.region view.ahead = some cut)
    (h : ScansAsSplit outer regions fuel (view.next cut.length)
      (mixedStep outer regions view state).state) :
    ScansAsSplit outer regions (fuel + 1) view state := by
  obtain ⟨hlength, hcovered, hregion, -⟩ := mixedStep_of_cut outer hregions hsettled hcut
  have hpos := (cutHere_bounds (areTexts_of_mem hregions) hcut).1
  have htaken : (mixedStep outer regions view state).length ≠ 0 := by omega
  have hplace : firstPlace (cutHere (regions.map delimiters) state.region) view.ahead =
      some (0, cut) :=
    firstPlace_zero_iff.mpr ⟨hahead, hcut⟩
  have hstep : (mixedScanner outer regions).stepForward view Scanner.stallLimit state =
      mixedStep outer regions view state :=
    Scanner.stepForward_of_taken (mixedScanner outer regions) htaken _
  unfold ScansAsSplit at h ⊢
  rw [hregion] at h
  rw [Scanner.scanRest_cons _ hahead, hstep]
  simp only [splitText, hplace, Nat.zero_add, List.take_zero, List.drop_zero, hlength]
  exact ⟨⟨_, _, rfl, hcovered, h.1⟩, h.2⟩

theorem scansAsSplit_of_body (hregions : Separated outer regions) {fuel : Nat} {view : View}
    {state : MixedState τ} (hahead : view.ahead ≠ [])
    (hsettled : Settled regions view state)
    (hcut : cutHere (regions.map delimiters) state.region view.ahead = none)
    (h : let step := (mixedScanner outer regions).stepForward view Scanner.stallLimit state
      ScansAsSplit outer regions (fuel + 1) (view.next step.length) step.state) :
    ScansAsSplit outer regions (fuel + 1) view state := by
  obtain ⟨hbody, hregion, -⟩ :=
    stepForward_stays hregions hahead Scanner.stallLimit hsettled hcut
  have hpos := (mixedScanner outer regions).stepForward_pos view Scanner.stallLimit state
  dsimp only [ScansAsSplit] at h ⊢
  rw [Scanner.scanRest_cons _ hahead]
  generalize (mixedScanner outer regions).stepForward view Scanner.stallLimit state = step at *
  obtain ⟨second, segments, final, hsplit, hlater⟩ :=
    splitText_drop (regions.map delimiters) fuel state.region hbody
  rw [hregion, show (view.next step.length).ahead = view.ahead.drop step.length from rfl,
    hlater] at h
  rw [hsplit]
  exact ⟨h.1.grow step.style (take_ne_nil hpos hahead), h.2⟩

theorem scansAsSplit_of_settled (h : Separated outer regions) {fuel : Nat} {view : View}
    {state : MixedState τ}
    (hfuel : view.ahead.length ≤ fuel) (hsettled : Settled regions view state) :
    ScansAsSplit outer regions fuel view state := by
  by_cases hahead : view.ahead = []
  · exact scansAsSplit_of_end hahead state
  have hlength := List.length_pos_iff.mpr hahead
  obtain ⟨fuel, rfl⟩ : ∃ n, fuel = n + 1 := ⟨fuel - 1, by omega⟩
  cases hcut : cutHere (regions.map delimiters) state.region view.ahead with
  | some cut =>
      obtain ⟨-, -, -, hafter⟩ := mixedStep_of_cut outer h.texts hsettled hcut
      have hpos := (cutHere_bounds (areTexts_of_mem h.texts) hcut).1
      have hshorter : (view.next cut.length).ahead.length < view.ahead.length := by
        simp only [View.next, List.length_drop]
        omega
      apply scansAsSplit_of_cut h.texts hahead hsettled hcut
      apply scansAsSplit_of_settled h (by omega)
      exact hafter _ (View.atLineStart_next hpos hahead)
  | none =>
      obtain ⟨-, -, hafter⟩ := stepForward_stays h hahead Scanner.stallLimit hsettled hcut
      have hpos := (mixedScanner outer regions).stepForward_pos view Scanner.stallLimit state
      apply scansAsSplit_of_body h hahead hsettled hcut
      generalize (mixedScanner outer regions).stepForward view Scanner.stallLimit state = step
        at hafter hpos
      have hshorter : (view.next step.length).ahead.length < view.ahead.length := by
        simp only [View.next, List.length_drop]
        omega
      apply scansAsSplit_of_settled h (by omega)
      exact hafter.later (View.atLineStart_next hpos hahead)
termination_by view.ahead.length

/-! ## From one line to the next -/

theorem regionAtLineStart_some {all : List Delimiters} {index : Nat} {delimiters : Delimiters}
    (h : all[index]? = some delimiters) :
    regionAtLineStart all (some index) =
      if delimiters.closer.isSome then some index else none := by
  rw [regionAtLineStart, Option.filter_some, h, Option.any_some]

def Valid {γ : Type} (regions : List (Region γ)) (state : MixedState τ) : Prop :=
  ∀ index, state.region = some index → index < regions.length ∧ state.opening = false

variable (outer) in
theorem Valid.settles {state : MixedState τ} (hstate : Valid regions state) (tabSize : Nat)
    {line : List Char} (hline : line ≠ []) :
    ∃ settled, Settled regions (View.ofLine line tabSize) settled ∧
      settled.region = regionAtLineStart (regions.map delimiters) state.region ∧
      (mixedScanner outer regions).scanRest (View.ofLine line tabSize) state =
        (mixedScanner outer regions).scanRest (View.ofLine line tabSize) settled := by
  cases hregion : state.region with
  | none => exact ⟨state, by simp [Settled, hregion], hregion, rfl⟩
  | some index =>
      obtain ⟨hlt, hopening⟩ := hstate index hregion
      have hindex := List.getElem?_eq_getElem hlt
      generalize regions[index] = region at hindex
      have hdelimiters : (regions.map delimiters)[index]? = some region.delimiters := by
        rw [List.getElem?_map, hindex]
        rfl
      rw [regionAtLineStart_some hdelimiters]
      cases hcloser : region.closer with
      | none =>
          refine ⟨state.leave, ?_, ?_, ?_⟩
          · simp [Settled, MixedState.leave]
          · simp [delimiters, hcloser, MixedState.leave]
          · apply Scanner.scanRest_of_step_eq _ hline
            -- The step itself leaves the region.
            simp [mixedScanner, mixedStep, hregion, hindex, hcloser, MixedState.leave,
              View.ofLine, View.atLineStart]
      | some closer =>
          refine ⟨state, ?_, ?_, rfl⟩
          · intro index' hindex'
            cases hregion.symm.trans hindex'
            exact ⟨hopening, region, hindex, by simp [hcloser]⟩
          · simp [delimiters, hcloser, hregion]

theorem scanLine_follows_split (h : Separated outer regions) {state : MixedState τ}
    (hstate : Valid regions state) (tabSize : Nat) {line : List Char} (hline : line ≠ []) :
    let split := splitLine (regions.map delimiters) state.region line
    let scan := (mixedScanner outer regions).scanLine tabSize state line
    Tiles regions split.1 scan.1 ∧ scan.2.region = split.2 := by
  obtain ⟨settled, hsettled, hregion, hscan⟩ := hstate.settles outer tabSize hline
  have hfollows : ScansAsSplit outer regions line.length (View.ofLine line tabSize) settled :=
    scansAsSplit_of_settled h (Nat.le_refl _) hsettled
  rw [ScansAsSplit, hregion] at hfollows
  rw [Scanner.scanLine_eq _ _ _ hline, hscan]
  exact hfollows

end Region

/-! ## Grammars with regions -/

theorem regionScanners_eq (regions : List (Region Grammar)) :
    regionScanners regions = regions.map Region.scanner := by
  induction regions with
  | nil => rfl
  | cons region regions ih => rw [regionScanners, ih, List.map_cons]

theorem getElem?_regionScanners {regions : List (Region Grammar)} {index : Nat}
    {region : Region Grammar} (h : regions[index]? = some region) :
    (regionScanners regions)[index]? = some region.scanner := by
  rw [regionScanners_eq, List.getElem?_map, h, Option.map_some]

namespace Region

@[simp] theorem content_scanner (region : Region Grammar) :
    region.scanner.content = region.content.scanner := by
  cases region
  rfl

@[simp] theorem delimiters_scanner (region : Region Grammar) :
    region.scanner.delimiters = region.delimiters := by
  cases region
  rfl

@[simp] theorem scansDelimiters_scanner (region : Region Grammar) :
    region.scanner.scansDelimiters = region.scansDelimiters := by
  cases region
  rfl

@[simp] theorem delimiterStyle_scanner (region : Region Grammar) (side : Side) :
    region.scanner.delimiterStyle side = region.delimiterStyle side := by
  cases region
  rfl

theorem HasTextDelimiters.scanner {region : Region Grammar} (h : region.HasTextDelimiters) :
    region.scanner.HasTextDelimiters :=
  ⟨by simpa using h.texts, by simpa using h.separate⟩

end Region

theorem map_delimiters_regionScanners (regions : List (Region Grammar)) :
    (regionScanners regions).map Region.delimiters = regions.map Region.delimiters := by
  rw [regionScanners_eq, List.map_map]
  exact List.map_congr_left fun region _ => region.delimiters_scanner

theorem Segment.CoveredBy.of_scanners {regions : List (Region Grammar)} {segment : Segment}
    {tokens : List Token} (h : segment.CoveredBy (regionScanners regions) tokens) :
    segment.CoveredBy regions tokens := by
  have hdelimiter {index : Nat} {side : Side} (h : ∃ region,
      (regionScanners regions)[index]? = some region ∧
        tokens = [⟨byteLength segment.text, region.delimiterStyle side⟩]) :
      ∃ region, regions[index]? = some region ∧
        tokens = [⟨byteLength segment.text, region.delimiterStyle side⟩] := by
    obtain ⟨found, hindex, rfl⟩ := h
    rw [regionScanners_eq, List.getElem?_map, Option.map_eq_some_iff] at hindex
    obtain ⟨region, hindex, rfl⟩ := hindex
    exact ⟨region, hindex, by rw [region.delimiterStyle_scanner]⟩
  obtain ⟨part, text⟩ := segment
  cases part with
  | body region => exact h
  | opening index => exact hdelimiter h
  | closing index => exact hdelimiter h

theorem Tiles.of_scanners {regions : List (Region Grammar)} {segments : List Segment}
    {tokens : List Token} (h : Tiles (regionScanners regions) segments tokens) :
    Tiles regions segments tokens := by
  induction segments generalizing tokens with
  | nil => exact h
  | cons segment segments ih =>
      obtain ⟨group, rest, rfl, hgroup, hrest⟩ := h
      exact ⟨group, rest, rfl, hgroup.of_scanners, ih hrest⟩

/-- Where a line changes hands depends on the delimiters alone.  The segments found by
looking for delimiters are the line again; scanning makes each delimiter one token,
covers each other segment by whole tokens, and ends the line in the region that the
segments end in. -/
theorem Grammar.scanLine_tiles_segments (outer : Grammar) (regions : List (Region Grammar))
    (hregions : ∀ region ∈ regions, region.HasTextDelimiters)
    (state : MixedState GrammarState) (hstate : Region.Valid regions state)
    (line : List Char) :
    let split := splitLine (regions.map Region.delimiters) state.region line
    let scan := (Grammar.mixed outer regions).scanLine (.mixed state) line
    (split.1.map Segment.text).flatten = line ∧
      (∀ segment ∈ split.1, segment.text ≠ []) ∧
      Tiles regions split.1 scan.1 ∧
      (line ≠ [] → ∃ final, scan.2 = .mixed final ∧ final.region = split.2) := by
  obtain ⟨hflatten, hnonempty⟩ := splitText_text (Region.areTexts_of_mem hregions)
    (Nat.le_refl line.length) (regionAtLineStart (regions.map Region.delimiters) state.region)
  refine ⟨hflatten, hnonempty, ?_⟩
  by_cases hline : line = []
  · subst hline
    exact ⟨rfl, fun h => absurd rfl h⟩
  have hscanners : ∀ region ∈ regionScanners regions, region.HasTextDelimiters := by
    rw [regionScanners_eq]
    intro found hfound
    obtain ⟨region, hregion, rfl⟩ := List.mem_map.mp hfound
    exact (hregions region hregion).scanner
  have hvalid : Region.Valid (regionScanners regions) state := by
    intro index hindex
    simpa [regionScanners_eq] using hstate index hindex
  obtain ⟨htiles, hfinal⟩ := Region.scanLine_follows_split
    ⟨outer.inBounds_scanner, inBounds_regionScanners regions, hscanners⟩ hvalid
    outer.tabSize hline
  rw [map_delimiters_regionScanners] at htiles hfinal
  rw [Grammar.scanLine_mixed]
  exact ⟨htiles.of_scanners, fun _ => ⟨_, rfl, hfinal⟩⟩

theorem Grammar.scanLine_tiles_snippet :
    Tiles [rRegion]
      [⟨.body none, "x = ".toList⟩, ⟨.opening 0, "[r|".toList⟩, ⟨.body (some 0), ['1']⟩,
        ⟨.closing 0, "|]".toList⟩]
      ((Grammar.mixed (.elixir {}) [rRegion]).scanLine
        (.mixed ⟨.elixir (.start {}), none, none, false⟩) "x = [r|1|]".toList).1 := by
  have hregions : ∀ region ∈ [rRegion], region.HasTextDelimiters := by
    intro region hregion
    cases List.mem_singleton.mp hregion
    refine ⟨⟨⟨_, rfl, by decide⟩, ?_⟩, rfl⟩
    rintro closer ⟨⟩
    exact ⟨_, rfl, by decide⟩
  exact (scanLine_tiles_segments (.elixir {}) [rRegion] hregions
    ⟨.elixir (.start {}), none, none, false⟩ (by rintro index ⟨⟩)
    "x = [r|1|]".toList).2.2.1

end CellHighlight
