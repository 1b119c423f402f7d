import CellHighlight.Proofs.Runs

/-!
# Runs that agree

Two scanners agree when they take the same tokens from the same text and keep
corresponding states, whatever the tab sizes.  Agreement of single steps carries over
to whole lines, to scanners with regions, and to sequences of lines.  The Elixir
scanner keeps a record of indentation and of open scopes; none of it ever comes back
into a token.
-/

namespace CellHighlight

namespace View

def retab (view : View) (tabSize : Nat) : View := { view with tabSize }

@[simp] theorem ahead_retab (view : View) (tabSize : Nat) :
    (view.retab tabSize).ahead = view.ahead := rfl

@[simp] theorem taken_retab (view : View) (tabSize : Nat) :
    (view.retab tabSize).taken = view.taken := rfl

@[simp] theorem atLineStart_retab (view : View) (tabSize : Nat) :
    (view.retab tabSize).atLineStart = view.atLineStart := rfl

theorem next_retab (view : View) (tabSize n : Nat) :
    (view.retab tabSize).next n = (view.next n).retab tabSize := rfl

theorem limit?_retab (view : View) (tabSize : Nat) (bound : Option Nat) :
    (view.retab tabSize).limit? bound = (view.limit? bound).retab tabSize := by
  cases bound <;> rfl

end View

/-! ## Steps and lines -/

section

variable {σ τ : Type}

structure Step.Agree (Same : σ → τ → Prop) (first : Step σ) (second : Step τ) : Prop where
  length : first.length = second.length
  style : first.style = second.style
  state : Same first.state second.state

namespace Scanner

/-- From states that correspond, both scanners take the same tokens and reach states
that correspond; the tab sizes need not be the same. -/
structure Agrees (first : Scanner σ) (second : Scanner τ) (Same : σ → τ → Prop) : Prop where
  step : ∀ (view : View) (tabSize : Nat) {s : σ} {t : τ}, Same s t →
    Step.Agree Same (first.step view s) (second.step (view.retab tabSize) t)
  blank : ∀ {s : σ} {t : τ}, Same s t → Same (first.blank s) (second.blank t)

namespace Agrees

variable {first : Scanner σ} {second : Scanner τ} {Same : σ → τ → Prop}

theorem stepForward (h : first.Agrees second Same) (view : View) (tabSize patience : Nat)
    {s : σ} {t : τ} (hsame : Same s t) :
    Step.Agree Same (first.stepForward view patience s)
      (second.stepForward (view.retab tabSize) patience t) := by
  induction patience generalizing s t with
  | zero => exact ⟨rfl, rfl, hsame⟩
  | succ patience ih =>
      have hstep := h.step view tabSize hsame
      simp only [Scanner.stepForward, ← hstep.length]
      split
      · exact ih hstep.state
      · exact hstep

theorem scanAhead (h : first.Agrees second Same) (fuel : Nat) (view : View) (tabSize : Nat)
    {s : σ} {t : τ} (hsame : Same s t) :
    (first.scanAhead fuel view s).1 = (second.scanAhead fuel (view.retab tabSize) t).1 ∧
      Same (first.scanAhead fuel view s).2 (second.scanAhead fuel (view.retab tabSize) t).2 := by
  induction fuel generalizing view s t with
  | zero => exact ⟨rfl, hsame⟩
  | succ fuel ih =>
      have hstep := h.stepForward view tabSize stallLimit hsame
      simp only [Scanner.scanAhead, View.ahead_retab, View.next_retab, ← hstep.length,
        ← hstep.style]
      split
      · exact ⟨rfl, hsame⟩
      · have hrest := ih (view.next (first.stepForward view stallLimit s).length) hstep.state
        exact ⟨congrArg _ hrest.1, hrest.2⟩

theorem scanLine (h : first.Agrees second Same) (tabSize tabSize' : Nat) {s : σ} {t : τ}
    (hsame : Same s t) (line : List Char) :
    (first.scanLine tabSize s line).1 = (second.scanLine tabSize' t line).1 ∧
      Same (first.scanLine tabSize s line).2 (second.scanLine tabSize' t line).2 := by
  unfold Scanner.scanLine
  split
  · exact ⟨rfl, h.blank hsame⟩
  · exact h.scanAhead line.length (View.ofLine line tabSize) (max tabSize' 1) hsame

theorem within {ρ : Type} (h : first.Agrees second Same) (wrap : σ → ρ) (wrap' : τ → ρ)
    {unwrap : ρ → Option σ} {unwrap' : ρ → Option τ}
    (hunwrap : ∀ s, unwrap (wrap s) = some s) (hunwrap' : ∀ t, unwrap' (wrap' t) = some t) :
    (first.within wrap unwrap).Agrees (second.within wrap' unwrap')
      fun a b => ∃ s t, a = wrap s ∧ b = wrap' t ∧ Same s t := by
  constructor
  · rintro view tabSize _ _ ⟨s, t, rfl, rfl, hsame⟩
    have hstep := h.step view tabSize hsame
    simp only [Scanner.within, hunwrap, hunwrap', Option.getD_some]
    exact ⟨hstep.length, hstep.style, _, _, rfl, rfl, hstep.state⟩
  · rintro _ _ ⟨s, t, rfl, rfl, hsame⟩
    simp only [Scanner.within, hunwrap, hunwrap', Option.getD_some]
    exact ⟨_, _, rfl, rfl, h.blank hsame⟩

end Agrees

/-- The steps depend on the token so far and on the text ahead, not on the rest of the
line. -/
def Local (scanner : Scanner σ) : Prop :=
  ∀ view view', view.taken = view'.taken → view.ahead = view'.ahead →
    scanner.step view = scanner.step view'

theorem Local.within {scanner : Scanner σ} (h : scanner.Local) (wrap : σ → τ)
    (unwrap : τ → Option σ) : (scanner.within wrap unwrap).Local := by
  intro view view' htaken hahead
  simp only [Scanner.within, h view view' htaken hahead]

theorem Local.agrees {scanner : Scanner σ} (h : scanner.Local) :
    scanner.Agrees scanner (· = ·) := by
  constructor
  · rintro view tabSize s _ rfl
    have hstep : scanner.step (view.retab tabSize) = scanner.step view := h _ _ rfl rfl
    rw [hstep]
    exact ⟨rfl, rfl, rfl⟩
  · rintro s _ rfl
    rfl

end Scanner

end

theorem R.local_scanner : R.scanner.Local := by
  intro view view' htaken hahead
  funext state
  simp only [R.scanner, R.step, htaken, hahead]

theorem local_plainScanner : plainScanner.Local := by
  intro view view' _ hahead
  simp only [plainScanner, hahead]

/-! ## Regions -/

namespace Region

variable {τ : Type} {Same : τ → τ → Prop}

structure SameOutside (Same : τ → τ → Prop) (first second : MixedState τ) : Prop where
  outer : Same first.outer second.outer
  region : first.region = second.region
  inner : first.inner = second.inner
  opening : first.opening = second.opening

theorem SameOutside.leave {first second : MixedState τ} (h : SameOutside Same first second) :
    SameOutside Same first.leave second.leave :=
  ⟨h.outer, rfl, rfl, rfl⟩

variable {outer outer' : Scanner τ} {regions : List (Region (Scanner τ))}

theorem outerStep_agree (h : outer.Agrees outer' Same) (view : View) (tabSize : Nat)
    {first second : MixedState τ} (hsame : SameOutside Same first second) :
    Step.Agree (SameOutside Same) (outerStep outer regions view first)
      (outerStep outer' regions (view.retab tabSize) second) := by
  unfold outerStep
  rw [View.atLineStart_retab, View.ahead_retab]
  split
  · exact ⟨rfl, rfl, hsame.outer, rfl, rfl, rfl⟩
  · have hstep := h.step
      (view.limit? (nextOpening view.atLineStart view.ahead regions)) tabSize hsame.outer
    rw [View.limit?_retab]
    exact ⟨hstep.length, hstep.style, hstep.state, hsame.region, hsame.inner, hsame.opening⟩

theorem contentStep_agree {region : Region (Scanner τ)} (hlocal : region.content.Local)
    (bound : Option Nat) (view : View) (tabSize : Nat) {first second : MixedState τ}
    (hsame : SameOutside Same first second) :
    Step.Agree (SameOutside Same) (region.contentStep bound view first)
      (region.contentStep bound (view.retab tabSize) second) := by
  have hstep : region.content.step ((view.limit? bound).retab tabSize) =
      region.content.step (view.limit? bound) :=
    hlocal _ _ rfl rfl
  unfold contentStep
  rw [View.limit?_retab, hstep, View.taken_retab, ← hsame.inner, ← hsame.opening]
  refine ⟨rfl, rfl, ?_⟩
  dsimp only
  split
  · exact ⟨hsame.outer, rfl, rfl, rfl⟩
  · exact ⟨hsame.outer, hsame.region, rfl, rfl⟩

theorem innerStep_agree {region : Region (Scanner τ)} (hlocal : region.content.Local)
    (found : Option (Nat × Nat)) (view : View) (tabSize : Nat) {first second : MixedState τ}
    (hsame : SameOutside Same first second) :
    Step.Agree (SameOutside Same) (region.innerStep found view first)
      (region.innerStep found (view.retab tabSize) second) := by
  unfold innerStep
  split
  · exact contentStep_agree hlocal none view tabSize hsame
  split
  · exact contentStep_agree hlocal _ view tabSize hsame
  split
  · exact ⟨rfl, rfl, hsame.leave⟩
  · exact contentStep_agree hlocal _ view tabSize hsame

theorem agrees_mixedScanner (h : outer.Agrees outer' Same)
    (hlocal : ∀ region ∈ regions, region.content.Local) :
    (mixedScanner outer regions).Agrees (mixedScanner outer' regions) (SameOutside Same) := by
  constructor
  · intro view tabSize first second hsame
    show Step.Agree _ (mixedStep outer regions view first)
      (mixedStep outer' regions (view.retab tabSize) second)
    unfold mixedStep
    rw [← hsame.region]
    split
    · exact outerStep_agree h view tabSize hsame
    split
    · exact outerStep_agree h view tabSize hsame.leave
    · next region hregion =>
        have hcontent := hlocal region (List.mem_of_getElem? hregion)
        split
        · rw [View.atLineStart_retab]
          split
          · exact outerStep_agree h view tabSize hsame.leave
          · exact contentStep_agree hcontent none view tabSize hsame
        · next closer hcloser =>
            have hclosing : nextClosing closer (view.retab tabSize) second.opening =
                nextClosing closer view first.opening := by
              rw [hsame.opening]
              rfl
            rw [hclosing]
            exact innerStep_agree hcontent _ view tabSize hsame
  · intro first second hsame
    show SameOutside Same (mixedBlank outer regions first) (mixedBlank outer' regions second)
    have hactive : active regions second = active regions first := by
      rw [active, active, hsame.region]
    unfold mixedBlank
    rw [hactive]
    split
    · exact ⟨h.blank hsame.outer, hsame.region, hsame.inner, hsame.opening⟩
    · next region _ =>
        have hinner := congrArg (Option.map region.content.blank) hsame.inner
        dsimp only
        split
        · exact ⟨hsame.outer, rfl, rfl, rfl⟩
        · exact ⟨hsame.outer, hsame.region, hinner, hsame.opening⟩

end Region

/-! ## Elixir -/

namespace Elixir

structure State.SameCode (first second : State) : Prop where
  frames : first.frames = second.frames
  lastToken : first.lastToken = second.lastToken
  inParameters : first.inParameters = second.inParameters

variable {first second : State}

theorem State.SameCode.noteIndentation_mend (h : first.SameCode second)
    (options options' : Options) (view view' : View) :
    ((first.mend options).noteIndentation view).SameCode
      ((second.mend options').noteIndentation view') := by
  have hframes : withBase first.frames = withBase second.frames := congrArg _ h.frames
  unfold noteIndentation
  split <;> split <;> exact ⟨hframes, h.lastToken, h.inParameters⟩

theorem State.SameCode.barIsMarker (h : first.SameCode second) :
    first.barIsMarker = second.barIsMarker := by
  rw [State.barIsMarker, State.barIsMarker, h.inParameters, h.lastToken]

theorem State.SameCode.wordStyle (h : first.SameCode second) (word : List Char) :
    wordStyle first word = wordStyle second word := by
  rw [Elixir.wordStyle, Elixir.wordStyle, h.inParameters, h.lastToken]

theorem step_agree (options options' : Options) (view : View) (tabSize : Nat)
    (h : first.SameCode second) :
    Step.Agree State.SameCode (step options view first)
      (step options' (view.retab tabSize) second) := by
  have hnoted := h.noteIndentation_mend options options' view (view.retab tabSize)
  unfold step
  generalize (first.mend options).noteIndentation view = first at hnoted ⊢
  generalize (second.mend options').noteIndentation (view.retab tabSize) = second at hnoted ⊢
  simp only [View.atLineStart_retab, View.ahead_retab, View.taken_retab, ← hnoted.barIsMarker,
    ← hnoted.frames, ← hnoted.wordStyle]
  refine ⟨rfl, rfl, rfl, ?_, ?_⟩
  · simp only [State.lastTokenAfter, hnoted.lastToken]
  · simp only [hnoted.inParameters]

theorem agrees_scanner (options options' : Options) :
    (scanner options).Agrees (scanner options') State.SameCode where
  step view tabSize _ _ h := step_agree options options' view tabSize h
  blank h := ⟨h.frames, h.lastToken, h.inParameters⟩

end Elixir

/-! ## Sequences of lines -/

namespace Grammar

theorem scanLines_agree {grammar grammar' : Grammar} {Same : GrammarState → GrammarState → Prop}
    (h : grammar.scanner.Agrees grammar'.scanner Same) (lines : List (List Char))
    {s t : GrammarState} (hsame : Same s t) :
    (grammar.scanLines s lines).1 = (grammar'.scanLines t lines).1 ∧
      Same (grammar.scanLines s lines).2 (grammar'.scanLines t lines).2 := by
  induction lines generalizing s t with
  | nil => exact ⟨rfl, hsame⟩
  | cons line lines ih =>
      have hline := h.scanLine grammar.tabSize grammar'.tabSize hsame line
      have hrest := ih hline.2
      simp only [scanLines, scanLine, hline.1, hrest.1]
      exact ⟨trivial, hrest.2⟩

def SameCode (first second : GrammarState) : Prop :=
  ∃ state state', first = .elixir state ∧ second = .elixir state' ∧ state.SameCode state'

theorem agrees_elixir (options options' : Elixir.Options) :
    (elixir options).scanner.Agrees (elixir options').scanner SameCode := by
  simp only [scanner]
  exact (Elixir.agrees_scanner options options').within _ _ (fun _ => rfl) fun _ => rfl

theorem local_regions_cell :
    ∀ region ∈ regionScanners [directiveRegion, rRegion], region.content.Local := by
  intro region hregion
  simp only [regionScanners, List.mem_cons, List.not_mem_nil, or_false] at hregion
  rcases hregion with rfl | rfl
  · simp only [directiveRegion, Region.scanner, scanner]
    exact local_plainScanner.within _ _
  · simp only [rRegion, Region.scanner, scanner]
    exact R.local_scanner.within _ _

theorem agrees_cell (options options' : Elixir.Options) :
    (cell options).scanner.Agrees (cell options').scanner fun first second =>
      ∃ state state', first = .mixed state ∧ second = .mixed state' ∧
        Region.SameOutside SameCode state state' := by
  have hregions := Region.agrees_mixedScanner (agrees_elixir options options')
    local_regions_cell
  rw [cell, cell, scanner, scanner]
  exact hregions.within _ _ (fun _ => rfl) fun _ => rfl

/-- Scopes, indentation, the step of indentation and the tab size never show in the
tokens, neither of Elixir code nor of the cells of a notebook. -/
theorem scanLines_ignores_layout (options options' : Elixir.Options)
    (lines : List (List Char)) :
    (∀ state state' : Elixir.State, state.SameCode state' →
      let run := (elixir options).scanLines (.elixir state) lines
      let run' := (elixir options').scanLines (.elixir state') lines
      run.1 = run'.1 ∧ ∃ after after', run.2 = .elixir after ∧ run'.2 = .elixir after' ∧
        after.SameCode after') ∧
    ((elixir options).scanLines (elixir options).start lines).1 =
      ((elixir options').scanLines (elixir options').start lines).1 ∧
    ((cell options).scanLines (cell options).start lines).1 =
      ((cell options').scanLines (cell options').start lines).1 := by
  have hstart : SameCode (elixir options).start (elixir options').start :=
    ⟨_, _, rfl, rfl, rfl, rfl, rfl⟩
  have houtside : Region.SameOutside SameCode ⟨(elixir options).start, none, none, false⟩
      ⟨(elixir options').start, none, none, false⟩ :=
    ⟨hstart, rfl, rfl, rfl⟩
  refine ⟨?_, ?_, ?_⟩
  · intro state state' hsame
    exact scanLines_agree (agrees_elixir options options') lines ⟨_, _, rfl, rfl, hsame⟩
  · exact (scanLines_agree (agrees_elixir options options') lines hstart).1
  · exact (scanLines_agree (agrees_cell options options') lines
      ⟨_, _, rfl, rfl, houtside⟩).1

theorem scanLines_ignores_open_scope :
    let lines := ["\tif x do".toList, "end".toList]
    let deep : Elixir.State := ⟨[.base], [⟨.keyword, 8⟩], 8, none, false, true⟩
    (Elixir.State.start {}).SameCode deep ∧
      ((elixir {}).scanLines (.elixir (.start {})) lines).1 =
        ((elixir ⟨3, 0⟩).scanLines (.elixir deep) lines).1 := by
  intro lines deep
  have hsame : (Elixir.State.start {}).SameCode deep := ⟨rfl, rfl, rfl⟩
  have hruns := (scanLines_ignores_layout {} ⟨3, 0⟩ lines).1 (.start {}) deep hsame
  exact ⟨hsame, hruns.1⟩

end Grammar

end CellHighlight
