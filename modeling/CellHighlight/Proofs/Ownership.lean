import CellHighlight.Proofs.Invariants
import CellHighlight.Proofs.Segments.Scan

/-!
# States that belong to their grammar

A scanner replaces a state that is not one of its own, leaves a region that does not
exist, and starts a region afresh if its state is missing.  None of this happens in a
run from the start: the states it reaches belong to their grammar, down to the states
of the innermost regions, and a scanner that fails in those three cases makes the same
run.
-/

namespace CellHighlight

/-! ## States of a grammar -/

inductive Grammar.Owns : Grammar → GrammarState → Prop
  | elixir (options : Elixir.Options) (state : Elixir.State) :
      Owns (.elixir options) (.elixir state)
  | plainText : Owns .plainText .plainText
  | r (state : R.State) : Owns .r (.r state)
  | outside {outer : Grammar} {regions : List (Region Grammar)} {state : GrammarState}
      (houter : outer.Owns state) :
      Owns (.mixed outer regions) (.mixed ⟨state, none, none, false⟩)
  | inside {outer : Grammar} {regions : List (Region Grammar)} {state inner : GrammarState}
      {index : Nat} {region : Region Grammar} {opening : Bool} (houter : outer.Owns state)
      (hregion : regions[index]? = some region) (hinner : region.content.Owns inner)
      (hopening : opening = true → region.scansDelimiters = true) :
      Owns (.mixed outer regions) (.mixed ⟨state, some index, some inner, opening⟩)

/-! ## Scanners without recovery -/

/-- A scanner that has no result where it would have to make up for a state. -/
structure StrictScanner (σ : Type) where
  start : σ
  step : View → σ → Option (Step σ)
  blank : σ → Option σ

def Scanner.strict {σ : Type} (scanner : Scanner σ) : StrictScanner σ where
  start := scanner.start
  step view state := some (scanner.step view state)
  blank state := some (scanner.blank state)

def StrictScanner.within {σ τ : Type} (scanner : StrictScanner σ) (wrap : σ → τ)
    (unwrap : τ → Option σ) : StrictScanner τ where
  start := wrap scanner.start
  step view state := do
    let step ← scanner.step view (← unwrap state)
    some ⟨step.length, step.style, wrap step.state⟩
  blank state := do
    some (wrap (← scanner.blank (← unwrap state)))

namespace Region

variable {τ : Type}

def outerStep? (outer : StrictScanner τ) (regions : List (Region (StrictScanner τ)))
    (view : View) (state : MixedState τ) : Option (Step (MixedState τ)) :=
  match openedAt view.atLineStart view.ahead regions with
  | some (index, region, length) =>
      some
        { length := if region.scansDelimiters then 0 else length
          style := region.delimiterStyle .opening
          state :=
            { state with
              region := some index
              inner := some region.content.start
              opening := region.scansDelimiters } }
  | none => do
      let step ← outer.step
        (view.limit? (nextOpening view.atLineStart view.ahead regions)) state.outer
      some ⟨step.length, step.style, { state with outer := step.state }⟩

def contentStep? (region : Region (StrictScanner τ)) (bound : Option Nat) (view : View)
    (state : MixedState τ) : Option (Step (MixedState τ)) := do
  let step ← region.content.step (view.limit? bound) (← state.inner)
  let moved := !view.taken.isEmpty || step.length != 0
  let state :=
    { state with
      inner := some step.state
      opening := state.opening && (bound.isSome || !moved) }
  some ⟨step.length, step.style,
    if region.scansDelimiters && bound == some step.length then state.leave else state⟩

def innerStep? (region : Region (StrictScanner τ)) (found : Option (Nat × Nat)) (view : View)
    (state : MixedState τ) : Option (Step (MixedState τ)) :=
  match found with
  | none => region.contentStep? none view state
  | some (start, length) =>
      if region.scansDelimiters then
        region.contentStep? (some (start + length)) view state
      else if start = 0 then
        some ⟨length, region.delimiterStyle .closing, state.leave⟩
      else region.contentStep? (some start) view state

def mixedStep? (outer : StrictScanner τ) (regions : List (Region (StrictScanner τ)))
    (view : View) (state : MixedState τ) : Option (Step (MixedState τ)) :=
  match state.region with
  | none => outerStep? outer regions view state
  | some index => do
      let region ← regions[index]?
      match region.closer with
      | none =>
          if view.atLineStart then outerStep? outer regions view state.leave
          else region.contentStep? none view state
      | some closer => region.innerStep? (nextClosing closer view state.opening) view state

def mixedBlank? (outer : StrictScanner τ) (regions : List (Region (StrictScanner τ)))
    (state : MixedState τ) : Option (MixedState τ) :=
  match state.region with
  | none => do
      some { state with outer := ← outer.blank state.outer }
  | some index => do
      let region ← regions[index]?
      let state := { state with inner := some (← region.content.blank (← state.inner)) }
      some (if region.closer.isNone then state.leave else state)

def mixedStrict (outer : StrictScanner τ) (regions : List (Region (StrictScanner τ))) :
    StrictScanner (MixedState τ) where
  start := ⟨outer.start, none, none, false⟩
  step := mixedStep? outer regions
  blank := mixedBlank? outer regions

end Region

mutual

def Grammar.strict : Grammar → StrictScanner GrammarState
  | .elixir options => (Elixir.scanner options).strict.within .elixir GrammarState.elixir?
  | .plainText => plainScanner.strict.within (fun _ => .plainText) GrammarState.plainText?
  | .r => R.scanner.strict.within .r GrammarState.r?
  | .mixed outer regions =>
      (Region.mixedStrict outer.strict (strictRegions regions)).within
        .mixed GrammarState.mixed?

def Region.strict : Region Grammar → Region (StrictScanner GrammarState)
  | ⟨opener, closer, content, delimited, scansDelimiters⟩ =>
      ⟨opener, closer, content.strict, delimited, scansDelimiters⟩

def strictRegions : List (Region Grammar) → List (Region (StrictScanner GrammarState))
  | [] => []
  | region :: regions => region.strict :: strictRegions regions

end

theorem strictRegions_eq (regions : List (Region Grammar)) :
    strictRegions regions = regions.map Region.strict := by
  induction regions with
  | nil => rfl
  | cons region regions ih => rw [strictRegions, ih, List.map_cons]

theorem getElem?_strictRegions {regions : List (Region Grammar)} {index : Nat}
    {region : Region Grammar} (h : regions[index]? = some region) :
    (strictRegions regions)[index]? = some region.strict := by
  rw [strictRegions_eq, List.getElem?_map, h, Option.map_some]

/-! ## Openings -/

namespace Region

variable {γ δ : Type}

theorem openedAt_map {f : Region γ → Region δ} (hf : ∀ region, (f region).opener = region.opener)
    (atLineStart : Bool) (text : List Char) (regions : List (Region γ)) :
    openedAt atLineStart text (regions.map f) =
      (openedAt atLineStart text regions).map fun found => (found.1, f found.2.1, found.2.2) := by
  induction regions with
  | nil => rfl
  | cons region regions ih =>
      rw [List.map_cons, openedAt, openedAt, hf, ih]
      split
      · rfl
      · simp only [Option.map_map, Function.comp_def]

theorem nextOpening_map {f : Region γ → Region δ}
    (hf : ∀ region, (f region).opener = region.opener) (atLineStart : Bool) (text : List Char)
    (regions : List (Region γ)) :
    nextOpening atLineStart text (regions.map f) = nextOpening atLineStart text regions := by
  induction regions with
  | nil => rfl
  | cons region regions ih => rw [List.map_cons, nextOpening, nextOpening, hf, ih]

theorem getElem?_of_openedAt {atLineStart : Bool} {text : List Char}
    {regions : List (Region γ)} {index length : Nat} {region : Region γ}
    (h : openedAt atLineStart text regions = some (index, region, length)) :
    regions[index]? = some region := by
  induction regions generalizing index with
  | nil => cases h
  | cons first regions ih =>
      unfold openedAt at h
      split at h
      · cases h
        rfl
      · obtain ⟨⟨index, region, length⟩, hfound, heq⟩ := Option.map_eq_some_iff.mp h
        cases heq
        exact ih hfound

end Region

/-! ## Runs from the start -/

namespace Grammar

theorem owns_start (grammar : Grammar) : grammar.Owns grammar.start := by
  cases grammar with
  | elixir => exact .elixir _ _
  | plainText => exact .plainText
  | r => exact .r _
  | mixed outer => exact .outside outer.owns_start

theorem start_strict (grammar : Grammar) : grammar.strict.start = grammar.start := by
  cases grammar with
  | elixir => rfl
  | plainText => rfl
  | r => rfl
  | mixed outer =>
      have houter := outer.start_strict
      exact congrArg (fun state => GrammarState.mixed ⟨state, none, none, false⟩) houter

structure Keeps (grammar : Grammar) (strict : Option (Step GrammarState))
    (step : Step GrammarState) : Prop where
  strict : strict = some step
  owns : grammar.Owns step.state

section Mixed

variable {outer : Grammar} {regions : List (Region Grammar)} {state : GrammarState}

structure KeepsMixed (outer : Grammar) (regions : List (Region Grammar))
    (strict : Option (Step (MixedState GrammarState))) (step : Step (MixedState GrammarState)) :
    Prop where
  strict : strict = some step
  owns : (Grammar.mixed outer regions).Owns (.mixed step.state)

theorem keepsMixed_outerStep (regions : List (Region Grammar)) (houter : outer.Owns state)
    (hstep : ∀ view, outer.Keeps (outer.strict.step view state) (outer.scanner.step view state))
    (view : View) :
    KeepsMixed outer regions
      (Region.outerStep? outer.strict (strictRegions regions) view ⟨state, none, none, false⟩)
      (Region.outerStep outer.scanner (regionScanners regions) view
        ⟨state, none, none, false⟩) := by
  have hscanner (region : Region Grammar) : region.scanner.opener = region.opener := by
    cases region
    rfl
  have hstrict (region : Region Grammar) : region.strict.opener = region.opener := by
    cases region
    rfl
  unfold Region.outerStep? Region.outerStep
  rw [regionScanners_eq, strictRegions_eq, Region.openedAt_map hscanner,
    Region.openedAt_map hstrict, Region.nextOpening_map hscanner, Region.nextOpening_map hstrict]
  cases hopened : Region.openedAt view.atLineStart view.ahead regions with
  | none =>
      have hmade := hstep
        (view.limit? (Region.nextOpening view.atLineStart view.ahead regions))
      simp only [Option.map_none, hmade.strict]
      exact ⟨rfl, .outside hmade.owns⟩
  | some found =>
      obtain ⟨index, ⟨opener, closer, content, delimited, scansDelimiters⟩, length⟩ := found
      have hregion := Region.getElem?_of_openedAt hopened
      refine ⟨?_, .inside houter hregion content.owns_start id⟩
      simp only [Option.map_some, Region.strict, Region.scanner, content.start_strict]
      rfl

section Inside

variable {region : Region Grammar} {index : Nat} {inner : GrammarState} {opening : Bool}
  (houter : outer.Owns state) (hregion : regions[index]? = some region)
  (hopening : opening = true → region.scansDelimiters = true)
  (hinnerStep : ∀ view, region.content.Keeps (region.content.strict.step view inner)
    (region.content.scanner.step view inner))

include houter hregion hopening hinnerStep

theorem keepsMixed_contentStep (bound : Option Nat) (view : View) :
    KeepsMixed outer regions
      (region.strict.contentStep? bound view ⟨state, some index, some inner, opening⟩)
      (region.scanner.contentStep bound view ⟨state, some index, some inner, opening⟩) := by
  obtain ⟨opener, closer, content, delimited, scansDelimiters⟩ := region
  have hmade := hinnerStep (view.limit? bound)
  constructor
  case strict =>
    simp only [Region.contentStep?, Region.strict, Option.bind_eq_bind, Option.bind_some]
    rw [hmade.strict]
    rfl
  case owns =>
    unfold Region.contentStep
    dsimp only
    split
    · exact .outside houter
    · refine .inside houter hregion hmade.owns fun hstill => hopening ?_
      exact (Bool.and_eq_true_iff.mp hstill).1

theorem keepsMixed_innerStep (found : Option (Nat × Nat)) (view : View) :
    KeepsMixed outer regions
      (region.strict.innerStep? found view ⟨state, some index, some inner, opening⟩)
      (region.scanner.innerStep found view ⟨state, some index, some inner, opening⟩) := by
  have hcontent := keepsMixed_contentStep houter hregion hopening hinnerStep
  obtain ⟨opener, closer, content, delimited, scansDelimiters⟩ := region
  unfold Region.innerStep? Region.innerStep
  cases found with
  | none => exact hcontent none view
  | some place =>
      obtain ⟨start, length⟩ := place
      cases scansDelimiters with
      | true => exact hcontent (some (start + length)) view
      | false =>
          by_cases hstart : start = 0
          · -- The closing text is next, and the state of the region is not looked at.
            subst hstart
            exact ⟨rfl, .outside houter⟩
          · simpa [Region.strict, Region.scanner, hstart] using hcontent (some start) view

theorem keepsMixed_mixedStep
    (houterStep : ∀ view, outer.Keeps (outer.strict.step view state)
      (outer.scanner.step view state))
    (view : View) :
    KeepsMixed outer regions
      (Region.mixedStep? outer.strict (strictRegions regions) view
        ⟨state, some index, some inner, opening⟩)
      (Region.mixedStep outer.scanner (regionScanners regions) view
        ⟨state, some index, some inner, opening⟩) := by
  have hcontent := keepsMixed_contentStep houter hregion hopening hinnerStep
  have hinner := keepsMixed_innerStep houter hregion hopening hinnerStep
  simp only [Region.mixedStep?, Region.mixedStep, getElem?_strictRegions hregion,
    getElem?_regionScanners hregion, Option.bind_eq_bind, Option.bind_some, MixedState.leave]
  obtain ⟨opener, closer, content, delimited, scansDelimiters⟩ := region
  cases closer with
  | none =>
      by_cases hstart : view.atLineStart = true
      · simpa [Region.strict, Region.scanner, hstart] using
          keepsMixed_outerStep regions houter houterStep view
      · simpa [Region.strict, Region.scanner, hstart] using hcontent none view
  | some closer => exact hinner (Region.nextClosing closer view opening) view

end Inside

theorem KeepsMixed.keeps {view : View} {state : MixedState GrammarState}
    (h : KeepsMixed outer regions
      (Region.mixedStep? outer.strict (strictRegions regions) view state)
      (Region.mixedStep outer.scanner (regionScanners regions) view state)) :
    (Grammar.mixed outer regions).Keeps
      ((Grammar.mixed outer regions).strict.step view (.mixed state))
      ((Grammar.mixed outer regions).scanner.step view (.mixed state)) := by
  refine ⟨?_, h.owns⟩
  have hstrict : (Grammar.mixed outer regions).strict.step view (.mixed state) =
      (Region.mixedStep? outer.strict (strictRegions regions) view state).bind fun step =>
        some ⟨step.length, step.style, .mixed step.state⟩ := by
    rw [Grammar.strict]
    rfl
  rw [hstrict, h.strict, scanner]
  rfl

end Mixed

theorem Owns.step {grammar : Grammar} {state : GrammarState} (h : grammar.Owns state)
    (view : View) :
    grammar.Keeps (grammar.strict.step view state) (grammar.scanner.step view state) := by
  -- The derivation holds the owned states of all regions below, whatever their depth.
  induction h generalizing view with
  | elixir options state => exact ⟨rfl, .elixir _ _⟩
  | plainText => exact ⟨rfl, .plainText⟩
  | r state => exact ⟨rfl, .r _⟩
  | outside houter hstep => exact (keepsMixed_outerStep _ houter hstep view).keeps
  | inside houter hregion hinner hopening houterStep hinnerStep =>
      exact (keepsMixed_mixedStep houter hregion hopening hinnerStep houterStep view).keeps

theorem Owns.blank {grammar : Grammar} {state : GrammarState} (h : grammar.Owns state) :
    grammar.strict.blank state = some (grammar.scanner.blank state) ∧
      grammar.Owns (grammar.scanner.blank state) := by
  induction h with
  | elixir options state => exact ⟨rfl, .elixir _ _⟩
  | plainText => exact ⟨rfl, .plainText⟩
  | r state => exact ⟨rfl, .r _⟩
  | @outside outer regions state houter hblank =>
      rw [strict, scanner]
      refine ⟨?_, .outside hblank.2⟩
      simp only [StrictScanner.within, Region.mixedStrict, Region.mixedBlank?,
        GrammarState.mixed?, Option.bind_eq_bind, Option.bind_some, hblank.1]
      rfl
  | @inside outer regions state inner index region opening houter hregion hinner hopening
      houterBlank hinnerBlank =>
      have hstrict := getElem?_strictRegions hregion
      have hactive : Region.active (regionScanners regions)
          (⟨state, some index, some inner, opening⟩ : MixedState GrammarState) =
          some region.scanner :=
        getElem?_regionScanners hregion
      have hblank : (Grammar.mixed outer regions).scanner.blank
          (.mixed ⟨state, some index, some inner, opening⟩) =
          .mixed (if region.closer.isNone then ⟨state, none, none, false⟩
            else ⟨state, some index, some (region.content.scanner.blank inner), opening⟩) := by
        rw [scanner]
        cases region
        simp only [Scanner.within, Region.mixedScanner, Region.mixedBlank, GrammarState.mixed?,
          Option.getD_some, hactive, Region.scanner]
        rfl
      rw [hblank]
      constructor
      · cases region
        simp only [strict, StrictScanner.within, Region.mixedStrict, Region.mixedBlank?,
          GrammarState.mixed?, Option.bind_eq_bind, Option.bind_some, hstrict, Region.strict,
          hinnerBlank.1]
        rfl
      · split
        · exact .outside houter
        · exact .inside houter hregion hinnerBlank.2 hopening

/-! ## Every run -/

theorem invariant_owns (grammar : Grammar) :
    grammar.scanner.Invariant (fun _ => grammar.Owns) grammar.Owns := by
  constructor
  case enter => exact fun _ _ _ howns => howns
  case step => exact fun _ howns => (howns.step _).owns
  case skip => exact fun _ howns _ => (howns.step _).owns
  case leave => exact fun _ howns => howns
  case blank => exact fun howns => howns.blank.2

theorem owns_scanLines (grammar : Grammar) (lines : List (List Char)) :
    grammar.Owns (grammar.scanLines grammar.start lines).2 :=
  between_scanLines grammar.invariant_owns lines grammar.owns_start

/-- After every line of a run from the start the state belongs to its grammar, and the
next line, be it empty or not, is scanned without making up for a state anywhere. -/
theorem scanLines_never_recovers (grammar : Grammar) (lines : List (List Char)) :
    let state := (grammar.scanLines grammar.start lines).2
    grammar.Owns state ∧
      grammar.strict.blank state = some (grammar.scanner.blank state) ∧
      ∀ line, ∀ visit ∈ grammar.visits state line,
        grammar.strict.step visit.1 visit.2 = some (grammar.scanner.step visit.1 visit.2) := by
  intro state
  have howns : grammar.Owns state := grammar.owns_scanLines lines
  refine ⟨howns, howns.blank.1, fun line visit hvisit => ?_⟩
  have hvisited := (during_visits grammar.invariant_owns howns line visit hvisit).2
  exact (hvisited.step visit.1).strict

end Grammar

end CellHighlight
