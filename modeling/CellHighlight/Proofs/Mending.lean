import CellHighlight.Proofs.Agreement
import CellHighlight.Proofs.Ownership

/-!
# Damaged states

A state from outside may be of the wrong kind, lack its base frame or its root scope,
or name a region that does not exist or whose state is missing.  Scanners put such
things right when they come to them, which may be many lines later.  The outcome is the
same as if the whole state had been mended before the first line.
-/

namespace CellHighlight

/-! ## States that cannot be told apart -/

namespace Scanner

variable {σ τ : Type}

def Alike (scanner : Scanner σ) (first second : σ) : Prop :=
  ∃ Same : σ → σ → Prop, scanner.Agrees scanner Same ∧ Same first second

theorem agrees_alike (scanner : Scanner σ) : scanner.Agrees scanner scanner.Alike := by
  constructor
  · rintro view tabSize first second ⟨Same, hagrees, hsame⟩
    have hstep := hagrees.step view tabSize hsame
    exact ⟨hstep.length, hstep.style, Same, hagrees, hstep.state⟩
  · rintro first second ⟨Same, hagrees, hsame⟩
    exact ⟨Same, hagrees, hagrees.blank hsame⟩

theorem alike_within (scanner : Scanner σ) {wrap : σ → τ} {unwrap : τ → Option σ}
    (hunwrap : ∀ state, unwrap (wrap state) = some state) {first second : τ}
    (h : scanner.Alike ((unwrap first).getD scanner.start)
      ((unwrap second).getD scanner.start)) :
    (scanner.within wrap unwrap).Alike first second := by
  refine ⟨fun a b => scanner.Alike ((unwrap a).getD scanner.start)
    ((unwrap b).getD scanner.start), ?_, h⟩
  constructor
  · intro view tabSize a b hsame
    have hstep := scanner.agrees_alike.step view tabSize hsame
    refine ⟨hstep.length, hstep.style, ?_⟩
    simpa only [within, hunwrap, Option.getD_some] using hstep.state
  · intro a b hsame
    simpa only [within, hunwrap, Option.getD_some] using scanner.agrees_alike.blank hsame

/-- A state that is missing may be put in at any time: empty lines leave the start state
as it is. -/
structure Restarts (scanner : Scanner σ) : Prop where
  start : scanner.Alike scanner.start scanner.start
  blank : scanner.blank scanner.start = scanner.start

end Scanner

/-! ## Regions -/

namespace Region

variable {τ : Type}

inductive AlikeMixed (outer : Scanner τ) (regions : List (Region (Scanner τ))) :
    MixedState τ → MixedState τ → Prop
  | outside {first second : MixedState τ} (houter : outer.Alike first.outer second.outer)
      (hfirst : active regions first = none) (hsecond : active regions second = none) :
      AlikeMixed outer regions first second
  | inside {state state' : τ} {index : Nat} {region : Region (Scanner τ)}
      {inner inner' : Option τ} {opening : Bool} (houter : outer.Alike state state')
      (hregion : regions[index]? = some region)
      (hinner : region.content.Alike (inner.getD region.content.start)
        (inner'.getD region.content.start)) :
      AlikeMixed outer regions ⟨state, some index, inner, opening⟩
        ⟨state', some index, inner', opening⟩

variable {outer : Scanner τ} {regions : List (Region (Scanner τ))}

theorem mixedStep_of_not_active {state : MixedState τ} (h : active regions state = none) :
    ∃ outside : MixedState τ, outside.outer = state.outer ∧ outside.region = none ∧
      ∀ view, mixedStep outer regions view state = outerStep outer regions view outside := by
  obtain ⟨outerState, region, inner, opening⟩ := state
  cases region with
  | none => exact ⟨_, rfl, rfl, fun _ => rfl⟩
  | some index =>
      have hindex : regions[index]? = none := h
      refine ⟨⟨outerState, none, none, false⟩, rfl, rfl, fun view => ?_⟩
      simp only [mixedStep, hindex]
      rfl

theorem outerStep_alike (hregions : ∀ region ∈ regions, region.content.Restarts) (view : View)
    (tabSize : Nat) {first second : MixedState τ} (houter : outer.Alike first.outer second.outer)
    (hfirst : first.region = none) (hsecond : second.region = none) :
    Step.Agree (AlikeMixed outer regions) (outerStep outer regions view first)
      (outerStep outer regions (view.retab tabSize) second) := by
  unfold outerStep
  rw [View.atLineStart_retab, View.ahead_retab, View.limit?_retab]
  cases hopened : openedAt view.atLineStart view.ahead regions with
  | none =>
      have hstep := outer.agrees_alike.step
        (view.limit? (nextOpening view.atLineStart view.ahead regions)) tabSize houter
      refine ⟨hstep.length, hstep.style, .outside hstep.state ?_ ?_⟩
      · simp [active, hfirst]
      · simp [active, hsecond]
  | some found =>
      obtain ⟨index, region, length⟩ := found
      have hregion := getElem?_of_openedAt hopened
      have hcontent := hregions region (List.mem_of_getElem? hregion)
      exact ⟨rfl, rfl, .inside houter hregion hcontent.start⟩

theorem leave_alike {first second : MixedState τ} (houter : outer.Alike first.outer second.outer) :
    AlikeMixed outer regions first.leave second.leave :=
  .outside houter rfl rfl

section

variable {state state' : τ} {index : Nat} {region : Region (Scanner τ)} {inner inner' : Option τ}
  (houter : outer.Alike state state') (hregion : regions[index]? = some region)
  (hinner : region.content.Alike (inner.getD region.content.start)
    (inner'.getD region.content.start))

include houter hregion hinner

theorem contentStep_alike (bound : Option Nat) (view : View) (tabSize : Nat) (opening : Bool) :
    Step.Agree (AlikeMixed outer regions)
      (region.contentStep bound view ⟨state, some index, inner, opening⟩)
      (region.contentStep bound (view.retab tabSize) ⟨state', some index, inner', opening⟩) := by
  have hstep := region.content.agrees_alike.step (view.limit? bound) tabSize hinner
  unfold contentStep
  rw [View.limit?_retab, View.taken_retab]
  refine ⟨hstep.length, hstep.style, ?_⟩
  dsimp only
  rw [← hstep.length]
  split
  · exact leave_alike houter
  · exact .inside houter hregion hstep.state

theorem innerStep_alike (found : Option (Nat × Nat)) (view : View) (tabSize : Nat)
    (opening : Bool) :
    Step.Agree (AlikeMixed outer regions)
      (region.innerStep found view ⟨state, some index, inner, opening⟩)
      (region.innerStep found (view.retab tabSize) ⟨state', some index, inner', opening⟩) := by
  have hcontent := contentStep_alike houter hregion hinner
  unfold innerStep
  split
  · exact hcontent none view tabSize opening
  split
  · exact hcontent _ view tabSize opening
  split
  · exact ⟨rfl, rfl, leave_alike houter⟩
  · exact hcontent _ view tabSize opening

end

theorem mixedStep_alike (hregions : ∀ region ∈ regions, region.content.Restarts) (view : View)
    (tabSize : Nat) {first second : MixedState τ} (h : AlikeMixed outer regions first second) :
    Step.Agree (AlikeMixed outer regions) (mixedStep outer regions view first)
      (mixedStep outer regions (view.retab tabSize) second) := by
  cases h with
  | outside houter hfirst hsecond =>
      obtain ⟨first', houter', hregion, hstep⟩ := mixedStep_of_not_active hfirst
      obtain ⟨second', houter'', hregion', hstep'⟩ := mixedStep_of_not_active hsecond
      rw [hstep, hstep']
      rw [← houter', ← houter''] at houter
      exact outerStep_alike hregions view tabSize houter hregion hregion'
  | @inside state state' index region inner inner' opening houter hregion hinner =>
      simp only [mixedStep, hregion, View.atLineStart_retab]
      cases region.closer with
      | none =>
          by_cases hstart : view.atLineStart = true
          · -- The region ended with its line, so a missing state is not missed.
            simp only [hstart, if_true]
            exact outerStep_alike hregions view tabSize houter rfl rfl
          · simp only [hstart]
            exact contentStep_alike houter hregion hinner none view tabSize opening
      | some closer =>
          exact innerStep_alike houter hregion hinner
            (nextClosing closer view opening) view tabSize opening

theorem mixedBlank_alike (hregions : ∀ region ∈ regions, region.content.Restarts)
    {first second : MixedState τ} (h : AlikeMixed outer regions first second) :
    AlikeMixed outer regions (mixedBlank outer regions first)
      (mixedBlank outer regions second) := by
  cases h with
  | outside houter hfirst hsecond =>
      simp only [mixedBlank, hfirst, hsecond]
      exact .outside (outer.agrees_alike.blank houter) hfirst hsecond
  | @inside state state' index region inner inner' opening houter hregion hinner =>
      have hcontent := hregions region (List.mem_of_getElem? hregion)
      -- An empty line does not put in a missing state, but would not have changed it.
      have hblank (inner : Option τ) :
          (inner.map region.content.blank).getD region.content.start =
            region.content.blank (inner.getD region.content.start) := by
        cases inner with
        | none => exact hcontent.blank.symm
        | some inner => rfl
      have hafter := region.content.agrees_alike.blank hinner
      rw [← hblank, ← hblank] at hafter
      simp only [mixedBlank, active, Option.bind_some, hregion]
      split
      · exact leave_alike houter
      · exact .inside houter hregion hafter

theorem alike_mixedScanner (hregions : ∀ region ∈ regions, region.content.Restarts)
    {first second : MixedState τ} (h : AlikeMixed outer regions first second) :
    (mixedScanner outer regions).Alike first second := by
  refine ⟨AlikeMixed outer regions, ?_, h⟩
  constructor
  · exact fun view tabSize _ _ hsame => mixedStep_alike hregions view tabSize hsame
  · exact fun hsame => mixedBlank_alike hregions hsame

end Region

/-! ## Elixir -/

namespace Elixir

namespace State

theorem withBase_withBase (frames : List Frame) : withBase (withBase frames) = withBase frames := by
  have hlast : (withBase frames).getLast? = some .base := by
    unfold withBase
    split
    · assumption
    · exact List.getLast?_concat
  exact if_pos hlast

theorem withRoot_withRoot (options : Options) (scopes : List Scope) :
    withRoot options (withRoot options scopes) = withRoot options scopes := by
  have hlast : (withRoot options scopes).getLast?.map Scope.kind = some .root := by
    unfold withRoot
    split
    · assumption
    · rw [List.getLast?_concat]
      rfl
  exact if_pos hlast

theorem mend_mend (options : Options) (state : State) :
    (state.mend options).mend options = state.mend options := by
  simp only [mend, withBase_withBase, withRoot_withRoot]

theorem SameCode.mend {first second : State} (h : first.SameCode second) (options : Options) :
    (first.mend options).SameCode (second.mend options) :=
  ⟨congrArg withBase h.frames, h.lastToken, h.inParameters⟩

end State

theorem step_mend (options : Options) (view : View) (state : State) :
    step options view (state.mend options) = step options view state := by
  simp only [step, State.mend_mend]

theorem alike_of_sameCode_mend (options : Options) {first second : State}
    (h : (first.mend options).SameCode (second.mend options)) :
    (scanner options).Alike first second := by
  refine ⟨fun a b => (a.mend options).SameCode (b.mend options), ?_, h⟩
  constructor
  · intro view tabSize a b hsame
    have hstep := step_agree options options view tabSize hsame
    rw [step_mend, step_mend] at hstep
    exact ⟨hstep.length, hstep.style, hstep.state.mend options⟩
  · intro a b hsame
    exact ⟨hsame.frames, hsame.lastToken, hsame.inParameters⟩

end Elixir

/-! ## Grammars -/

namespace Grammar

mutual

/-- Induction on how deep the regions of a grammar are nested. -/
theorem induction {P : Grammar → Prop} (elixir : ∀ options, P (.elixir options))
    (plainText : P .plainText) (r : P .r)
    (mixed : ∀ outer regions, P outer → (∀ region ∈ regions, P region.content) →
      P (.mixed outer regions)) :
    (grammar : Grammar) → P grammar
  | .elixir options => elixir options
  | .plainText => plainText
  | .r => r
  | .mixed outer regions =>
      mixed outer regions (induction elixir plainText r mixed outer)
        (induction_regions elixir plainText r mixed regions)

theorem induction_regions {P : Grammar → Prop} (elixir : ∀ options, P (.elixir options))
    (plainText : P .plainText) (r : P .r)
    (mixed : ∀ outer regions, P outer → (∀ region ∈ regions, P region.content) →
      P (.mixed outer regions)) :
    (regions : List (Region Grammar)) → ∀ region ∈ regions, P region.content
  | [] => fun _ hregion => absurd hregion List.not_mem_nil
  | ⟨_, _, content, _, _⟩ :: regions => by
      intro region hregion
      rcases List.mem_cons.mp hregion with rfl | hregion
      · exact induction elixir plainText r mixed content
      · exact induction_regions elixir plainText r mixed regions region hregion

end

mutual

/-- Puts right what is wrong with a state, at every depth.  A state of the wrong kind
gives way to the start state, and a region that does not exist is left. -/
def mend : Grammar → GrammarState → GrammarState
  | .elixir options, .elixir state => .elixir (state.mend options)
  | .plainText, .plainText => .plainText
  | .r, .r state => .r state
  | .mixed outer regions, .mixed ⟨state, region, inner, opening⟩ =>
      .mixed <|
        match region with
        | none => ⟨outer.mend state, none, inner, opening⟩
        | some index =>
            match mendInner regions index inner with
            | none => ⟨outer.mend state, none, none, false⟩
            | some inner => ⟨outer.mend state, some index, some inner, opening⟩
  | grammar, _ => grammar.start

def mendInner : List (Region Grammar) → Nat → Option GrammarState → Option GrammarState
  | [], _, _ => none
  | ⟨_, _, content, _, _⟩ :: _, 0, none => some content.start
  | ⟨_, _, content, _, _⟩ :: _, 0, some inner => some (content.mend inner)
  | _ :: regions, index + 1, inner => mendInner regions index inner

end

theorem mendInner_eq (regions : List (Region Grammar)) (index : Nat)
    (inner : Option GrammarState) :
    mendInner regions index inner =
      regions[index]?.map fun region =>
        (inner.map region.content.mend).getD region.content.start := by
  induction regions generalizing index with
  | nil => rfl
  | cons region regions ih =>
      obtain ⟨opener, closer, content, delimited, scansDelimiters⟩ := region
      cases index with
      | zero => cases inner <;> simp [mendInner]
      | succ index => simpa [mendInner] using ih index

theorem mend_start : (grammar : Grammar) → grammar.mend grammar.start = grammar.start
  | .elixir _ => rfl
  | .plainText => rfl
  | .r => rfl
  | .mixed outer _ =>
      congrArg (fun state => GrammarState.mixed ⟨state, none, none, false⟩) outer.mend_start

theorem blank_start : (grammar : Grammar) → grammar.scanner.blank grammar.start = grammar.start
  | .elixir _ => rfl
  | .plainText => rfl
  | .r => rfl
  | .mixed outer _ =>
      congrArg (fun state => GrammarState.mixed ⟨state, none, none, false⟩) outer.blank_start

theorem alike_mend_elixir (options : Elixir.Options) (state : GrammarState) :
    (elixir options).scanner.Alike state ((elixir options).mend state) := by
  have hmend : ((elixir options).mend state).elixir?.getD (.start options) =
      (state.elixir?.getD (.start options)).mend options := by
    cases state <;> rfl
  rw [scanner]
  refine Scanner.alike_within _ ?_ ?_
  · exact fun _ => rfl
  apply Elixir.alike_of_sameCode_mend
  show (Elixir.State.mend options _).SameCode
    (Elixir.State.mend options (((elixir options).mend state).elixir?.getD (.start options)))
  rw [hmend, Elixir.State.mend_mend]
  exact ⟨rfl, rfl, rfl⟩

section Mixed

variable {outer : Grammar} {regions : List (Region Grammar)}

theorem alikeMixed_mend (houter : ∀ state, outer.scanner.Alike state (outer.mend state))
    (hregions : ∀ region ∈ regions, ∀ state,
      region.content.scanner.Alike state (region.content.mend state))
    (state : MixedState GrammarState) :
    ∃ mended, (mixed outer regions).mend (.mixed state) = .mixed mended ∧
      Region.AlikeMixed outer.scanner (regionScanners regions) state mended := by
  obtain ⟨outerState, active, inner, opening⟩ := state
  cases active with
  | none => exact ⟨_, rfl, .outside (houter outerState) rfl rfl⟩
  | some index =>
      cases hregion : regions[index]? with
      | none =>
          refine ⟨⟨outer.mend outerState, none, none, false⟩, ?_,
            .outside (houter outerState) ?_ rfl⟩
          · simp [mend, mendInner_eq, hregion]
          · simp [Region.active, regionScanners_eq, hregion]
      | some region =>
          refine ⟨⟨outer.mend outerState, some index,
            some ((inner.map region.content.mend).getD region.content.start), opening⟩, ?_, ?_⟩
          · simp [mend, mendInner_eq, hregion]
          · have hcontent := hregions region (List.mem_of_getElem? hregion)
            apply Region.AlikeMixed.inside (houter outerState) (getElem?_regionScanners hregion)
            rw [Region.content_scanner]
            cases inner with
            | none =>
                have hstart := hcontent region.content.start
                rwa [mend_start] at hstart
            | some inner => exact hcontent inner

end Mixed

theorem alike_mend (grammar : Grammar) :
    ∀ state, grammar.scanner.Alike state (grammar.mend state) := by
  induction grammar using Grammar.induction with
  | elixir options => exact alike_mend_elixir options
  | plainText =>
      intro state
      rw [scanner]
      refine Scanner.alike_within _ ?_ ⟨Eq, local_plainScanner.agrees, rfl⟩
      exact fun _ => rfl
  | r =>
      intro state
      have hmend : (r.mend state).r?.getD R.scanner.start = state.r?.getD R.scanner.start := by
        cases state <;> rfl
      rw [scanner]
      refine Scanner.alike_within _ ?_ ⟨Eq, R.local_scanner.agrees, hmend.symm⟩
      exact fun _ => rfl
  | mixed outer regions houter hregions =>
      have hrestarts : ∀ region ∈ regionScanners regions, region.content.Restarts := by
        intro region hregion
        rw [regionScanners_eq] at hregion
        obtain ⟨region, hmem, rfl⟩ := List.mem_map.mp hregion
        have hstart := hregions region hmem region.content.start
        rw [mend_start] at hstart
        rw [Region.content_scanner]
        exact ⟨hstart, region.content.blank_start⟩
      have hstart : Region.AlikeMixed outer.scanner (regionScanners regions)
          ⟨outer.start, none, none, false⟩ ⟨outer.start, none, none, false⟩ := by
        have houterStart := houter outer.start
        rw [mend_start] at houterStart
        exact .outside houterStart rfl rfl
      intro state
      rw [scanner]
      cases state with
      | mixed state =>
          obtain ⟨mended, hmend, halike⟩ := alikeMixed_mend houter hregions state
          rw [hmend]
          refine Scanner.alike_within _ ?_ (Region.alike_mixedScanner hrestarts halike)
          exact fun _ => rfl
      | _ =>
          -- A state of the wrong kind is scanned as the start state.
          refine Scanner.alike_within _ ?_ (Region.alike_mixedScanner hrestarts hstart)
          exact fun _ => rfl

/-- A damaged state gives the tokens of the mended one, on every sequence of lines. -/
theorem scanLines_mend (grammar : Grammar) (state : GrammarState) (lines : List (List Char)) :
    (grammar.scanLines state lines).1 = (grammar.scanLines (grammar.mend state) lines).1 :=
  (scanLines_agree grammar.scanner.agrees_alike lines (grammar.alike_mend state)).1

example : (cell {}).mend (.mixed ⟨.r ⟨none⟩, some 7, none, true⟩) = (cell {}).start := by
  decide

example : (cell {}).mend (.mixed ⟨.elixir ⟨[], [], 0, none, false, false⟩, some 1, none, false⟩) =
    .mixed ⟨.elixir (.start {}), some 1, some (.r ⟨none⟩), false⟩ := by
  decide

end Grammar

end CellHighlight
