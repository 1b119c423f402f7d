import CellHighlight.Proofs.Progress
import CellHighlight.Proofs.Runs

/-!
# Invariants of a run

What every step keeps holds at every step of a run, over any number of lines.  An
invariant may speak of the place in the line as well as of the state, and has a form
of its own for the time between two lines.
-/

namespace CellHighlight

namespace Scanner

variable {σ τ : Type}

/-! ## The steps of a run -/

/-- The states in which steps are made at one place: all but the last take nothing. -/
def tries (scanner : Scanner σ) (view : View) : Nat → σ → List σ
  | 0, _ => []
  | patience + 1, state =>
      let step := scanner.step view state
      state :: if step.length = 0 then scanner.tries view patience step.state else []

def visits (scanner : Scanner σ) : Nat → View → σ → List (View × σ)
  | 0, _, _ => []
  | fuel + 1, view, state =>
      if view.ahead.isEmpty then []
      else
        let step := scanner.stepForward view stallLimit state
        (scanner.tries view stallLimit state).map (fun tried => (view, tried)) ++
          scanner.visits fuel (view.next step.length) step.state

theorem Advances.visits_cons {scanner : Scanner σ} (h : scanner.Advances)
    {view : View} (hahead : view.ahead ≠ []) (fuel : Nat) (state : σ) :
    scanner.visits (fuel + 1) view state =
      let step := scanner.step view state
      (view, state) :: scanner.visits fuel (view.next step.length) step.state := by
  have hlength := Nat.ne_of_gt (h view state hahead)
  have hforward : scanner.stepForward view stallLimit state = scanner.step view state :=
    stepForward_of_taken scanner hlength _
  have htries : scanner.tries view stallLimit state = [state] := by
    simp [stallLimit, tries, hlength]
  simp [visits, hahead, htries, hforward]

theorem Advances.mem_visits {scanner : Scanner σ} (h : scanner.Advances)
    {view : View} (hahead : view.ahead ≠ []) {fuel : Nat} (hfuel : view.ahead.length ≤ fuel)
    (state : σ) : (view, state) ∈ scanner.visits fuel view state := by
  cases fuel with
  | zero => exact absurd (List.eq_nil_of_length_eq_zero (Nat.le_zero.mp hfuel)) hahead
  | succ fuel =>
      rw [h.visits_cons hahead]
      exact List.mem_cons_self

theorem exists_next_of_mem_visits (scanner : Scanner σ) (fuel : Nat) {view : View}
    (htaken : view.taken = []) (state : σ) :
    ∀ visit ∈ scanner.visits fuel view state, ∃ n, visit.1 = view.next n := by
  induction fuel generalizing view state with
  | zero => exact fun _ hvisit => absurd hvisit List.not_mem_nil
  | succ fuel ih =>
      intro visit hvisit
      by_cases hahead : view.ahead = []
      · simp [visits, hahead] at hvisit
      · simp only [visits, List.isEmpty_iff, hahead, if_false, List.mem_append,
          List.mem_map] at hvisit
        rcases hvisit with ⟨tried, -, rfl⟩ | hvisit
        · exact ⟨0, (View.next_zero htaken).symm⟩
        · obtain ⟨n, hn⟩ := ih rfl _ visit hvisit
          exact ⟨_, hn.trans (View.next_next _ _ _)⟩

/-! ## Invariants -/

/-- `During` holds at every step, and `Between` before and after every line.  A step
that takes nothing must also leave the scanner fit to go on after the next character,
in case that one is skipped. -/
structure Invariant (scanner : Scanner σ) (During : View → σ → Prop) (Between : σ → Prop) :
    Prop where
  enter : ∀ line tabSize {state}, Between state → During (View.ofLine line tabSize) state
  step : ∀ {view state}, view.ahead ≠ [] → During view state →
    During (view.next (scanner.step view state).length) (scanner.step view state).state
  skip : ∀ {view state}, view.ahead ≠ [] → During view state →
    (scanner.step view state).length = 0 →
      During (view.next 1) (scanner.step view state).state
  leave : ∀ {view state}, view.ahead = [] → During view state → Between state
  blank : ∀ {state}, Between state → Between (scanner.blank state)

namespace Invariant

variable {scanner : Scanner σ} {During : View → σ → Prop} {Between : σ → Prop}

theorem stalled (h : scanner.Invariant During Between) {view : View}
    (hahead : view.ahead ≠ []) (htaken : view.taken = []) {state : σ}
    (hduring : During view state) (hlength : (scanner.step view state).length = 0) :
    During view (scanner.step view state).state := by
  have hstep := h.step hahead hduring
  rwa [hlength, View.next_zero htaken] at hstep

theorem tries (h : scanner.Invariant During Between) {view : View} (hahead : view.ahead ≠ [])
    (htaken : view.taken = []) (patience : Nat) {state : σ} (hduring : During view state) :
    ∀ tried ∈ scanner.tries view patience state, During view tried := by
  induction patience generalizing state with
  | zero => exact fun _ htried => absurd htried List.not_mem_nil
  | succ patience ih =>
      intro tried htried
      simp only [Scanner.tries, List.mem_cons] at htried
      rcases htried with rfl | htried
      · exact hduring
      split at htried
      · next hlength => exact ih (h.stalled hahead htaken hduring hlength) tried htried
      · exact absurd htried List.not_mem_nil

theorem stepForward_of_stalled (h : scanner.Invariant During Between) {view : View}
    (hahead : view.ahead ≠ []) (htaken : view.taken = []) (patience : Nat) {state : σ}
    (hduring : During view state) (hskip : During (view.next 1) state) :
    During (view.next (scanner.stepForward view patience state).length)
      (scanner.stepForward view patience state).state := by
  induction patience generalizing state with
  | zero => exact hskip
  | succ patience ih =>
      simp only [Scanner.stepForward]
      split
      · next hlength =>
          exact ih (h.stalled hahead htaken hduring hlength) (h.skip hahead hduring hlength)
      · exact h.step hahead hduring

theorem stepForward (h : scanner.Invariant During Between) {view : View}
    (hahead : view.ahead ≠ []) (htaken : view.taken = []) {state : σ}
    (hduring : During view state) :
    During (view.next (scanner.stepForward view stallLimit state).length)
      (scanner.stepForward view stallLimit state).state := by
  rw [show stallLimit = 9 + 1 from rfl]
  by_cases hlength : (scanner.step view state).length = 0
  · rw [Scanner.stepForward_of_stalled scanner hlength]
    exact h.stepForward_of_stalled hahead htaken 9
      (h.stalled hahead htaken hduring hlength) (h.skip hahead hduring hlength)
  · rw [Scanner.stepForward_of_taken scanner hlength]
    exact h.step hahead hduring

theorem visits (h : scanner.Invariant During Between) (fuel : Nat) {view : View}
    (htaken : view.taken = []) {state : σ} (hduring : During view state) :
    ∀ visit ∈ scanner.visits fuel view state, visit.1.ahead ≠ [] ∧ During visit.1 visit.2 := by
  induction fuel generalizing view state with
  | zero => exact fun _ hvisit => absurd hvisit List.not_mem_nil
  | succ fuel ih =>
      intro visit hvisit
      by_cases hahead : view.ahead = []
      · simp [Scanner.visits, hahead] at hvisit
      · simp only [Scanner.visits, List.isEmpty_iff, hahead, if_false, List.mem_append,
          List.mem_map] at hvisit
        rcases hvisit with ⟨tried, htried, rfl⟩ | hvisit
        · exact ⟨hahead, h.tries hahead htaken stallLimit hduring tried htried⟩
        · exact ih rfl (h.stepForward hahead htaken hduring) visit hvisit

theorem scanAhead (h : scanner.Invariant During Between) {fuel : Nat} {view : View}
    (hfuel : view.ahead.length ≤ fuel) (htaken : view.taken = []) {state : σ}
    (hduring : During view state) : Between (scanner.scanAhead fuel view state).2 := by
  induction fuel generalizing view state with
  | zero => exact h.leave (List.eq_nil_of_length_eq_zero (Nat.le_zero.mp hfuel)) hduring
  | succ fuel ih =>
      by_cases hahead : view.ahead = []
      · simp only [Scanner.scanAhead, hahead]
        exact h.leave hahead hduring
      · have hpos := scanner.stepForward_pos view stallLimit state
        simp only [Scanner.scanAhead, List.isEmpty_iff, hahead, if_false]
        apply ih _ rfl (h.stepForward hahead htaken hduring)
        simp only [View.next, List.length_drop]
        omega

theorem scanLine (h : scanner.Invariant During Between) (tabSize : Nat) {state : σ}
    (hbetween : Between state) (line : List Char) :
    Between (scanner.scanLine tabSize state line).2 := by
  unfold Scanner.scanLine
  split
  · exact h.blank hbetween
  · exact h.scanAhead (Nat.le_refl _) rfl (h.enter line tabSize hbetween)

theorem and {During' : View → σ → Prop} {Between' : σ → Prop}
    (h : scanner.Invariant During Between) (h' : scanner.Invariant During' Between') :
    scanner.Invariant (fun view state => During view state ∧ During' view state)
      (fun state => Between state ∧ Between' state) where
  enter line tabSize := fun hboth => ⟨h.enter line tabSize hboth.1, h'.enter line tabSize hboth.2⟩
  step hahead hboth := ⟨h.step hahead hboth.1, h'.step hahead hboth.2⟩
  skip hahead hboth hlength :=
    ⟨h.skip hahead hboth.1 hlength, h'.skip hahead hboth.2 hlength⟩
  leave hahead hboth := ⟨h.leave hahead hboth.1, h'.leave hahead hboth.2⟩
  blank hboth := ⟨h.blank hboth.1, h'.blank hboth.2⟩

theorem within (h : scanner.Invariant During Between) (wrap : σ → τ) {unwrap : τ → Option σ}
    (hunwrap : ∀ state, unwrap (wrap state) = some state) :
    (scanner.within wrap unwrap).Invariant
      (fun view wide => ∃ state, wide = wrap state ∧ During view state)
      (fun wide => ∃ state, wide = wrap state ∧ Between state) where
  enter line tabSize := by
    rintro _ ⟨state, rfl, hbetween⟩
    exact ⟨state, rfl, h.enter line tabSize hbetween⟩
  step := by
    rintro view _ hahead ⟨state, rfl, hduring⟩
    simp only [Scanner.within, hunwrap, Option.getD_some]
    exact ⟨_, rfl, h.step hahead hduring⟩
  skip := by
    rintro view _ hahead ⟨state, rfl, hduring⟩ hlength
    simp only [Scanner.within, hunwrap, Option.getD_some] at hlength ⊢
    exact ⟨_, rfl, h.skip hahead hduring hlength⟩
  leave := by
    rintro view _ hahead ⟨state, rfl, hduring⟩
    exact ⟨state, rfl, h.leave hahead hduring⟩
  blank := by
    rintro _ ⟨state, rfl, hbetween⟩
    simp only [Scanner.within, hunwrap, Option.getD_some]
    exact ⟨_, rfl, h.blank hbetween⟩

end Invariant

/-! ## Properties kept under a guard -/

structure KeptUnder (scanner : Scanner σ) (Guard : View → σ → Prop) (Keeps : σ → Prop) :
    Prop where
  step : ∀ {view state}, Guard view state → Keeps state → Keeps (scanner.step view state).state
  blank : ∀ {state}, Keeps state → Keeps (scanner.blank state)

namespace KeptUnder

variable {scanner : Scanner σ} {Guard : View → σ → Prop} {Keeps : σ → Prop}

theorem stepForward (h : scanner.KeptUnder Guard Keeps) {view : View} (patience : Nat) {state : σ}
    (hguard : ∀ tried ∈ scanner.tries view patience state, Guard view tried)
    (hkept : Keeps state) : Keeps (scanner.stepForward view patience state).state := by
  induction patience generalizing state with
  | zero => exact hkept
  | succ patience ih =>
      simp only [Scanner.tries, List.forall_mem_cons] at hguard
      have hstep := h.step hguard.1 hkept
      simp only [Scanner.stepForward]
      split
      · next hlength =>
          rw [if_pos hlength] at hguard
          exact ih hguard.2 hstep
      · exact hstep

theorem scanAhead (h : scanner.KeptUnder Guard Keeps) (fuel : Nat) {view : View} {state : σ}
    (hguard : ∀ visit ∈ scanner.visits fuel view state, Guard visit.1 visit.2)
    (hkept : Keeps state) : Keeps (scanner.scanAhead fuel view state).2 := by
  induction fuel generalizing view state with
  | zero => exact hkept
  | succ fuel ih =>
      by_cases hahead : view.ahead = []
      · simpa [Scanner.scanAhead, hahead] using hkept
      · simp only [Scanner.visits, List.isEmpty_iff, hahead, if_false, List.forall_mem_append,
          List.forall_mem_map] at hguard
        simp only [Scanner.scanAhead, List.isEmpty_iff, hahead, if_false]
        exact ih hguard.2 (h.stepForward stallLimit hguard.1 hkept)

theorem scanLine (h : scanner.KeptUnder Guard Keeps) {tabSize : Nat} {state : σ}
    {line : List Char}
    (hguard : ∀ visit ∈ scanner.visits line.length (View.ofLine line tabSize) state,
      Guard visit.1 visit.2)
    (hkept : Keeps state) : Keeps (scanner.scanLine tabSize state line).2 := by
  unfold Scanner.scanLine
  split
  · exact h.blank hkept
  · exact h.scanAhead line.length hguard hkept

theorem within (h : scanner.KeptUnder Guard Keeps) (wrap : σ → τ) {unwrap : τ → Option σ}
    (hunwrap : ∀ state, unwrap (wrap state) = some state) :
    (scanner.within wrap unwrap).KeptUnder
      (fun view wide => ∀ state, wide = wrap state → Guard view state)
      (fun wide => ∃ state, wide = wrap state ∧ Keeps state) where
  step := by
    rintro view _ hguard ⟨state, rfl, hkept⟩
    simp only [Scanner.within, hunwrap, Option.getD_some]
    exact ⟨_, rfl, h.step (hguard state rfl) hkept⟩
  blank := by
    rintro _ ⟨state, rfl, hkept⟩
    simp only [Scanner.within, hunwrap, Option.getD_some]
    exact ⟨_, rfl, h.blank hkept⟩

end KeptUnder

end Scanner

/-! ## Outside of regions -/

namespace Region

variable {γ τ : Type}

/-- An outer scanner can be suspended wherever a region opens: what holds there holds
between lines too, and what holds before some text does not depend on how much of the
text is shown. -/
structure Suspendable (regions : List (Region γ)) (During : List Char → τ → Prop)
    (Between : τ → Prop) : Prop where
  anywhere : ∀ text {state}, Between state → During text state
  hide : ∀ {text state n}, 0 < n → During text state → During (text.take n) state
  reveal : ∀ {text state n}, During (text.take n) state → During text state
  opened : ∀ {atLineStart text state}, openedAt atLineStart text regions ≠ none →
    During text state → Between state

theorem nextOpening_pos {atLineStart : Bool} {text : List Char} {regions : List (Region γ)}
    (hopened : openedAt atLineStart text regions = none) {bound : Nat}
    (hbound : nextOpening atLineStart text regions = some bound) : 0 < bound := by
  induction regions generalizing bound with
  | nil => cases hbound
  | cons region regions ih =>
      unfold openedAt at hopened
      unfold nextOpening at hbound
      split at hopened
      · cases hopened
      · next hfind =>
          have hothers := Option.map_eq_none_iff.mp hopened
          split at hbound
          · next start _ other hstart hother =>
              cases hbound
              have hother := ih hothers hother
              have hstart : start ≠ 0 := by
                rintro rfl
                exact hfind _ hstart
              omega
          · next start _ hstart _ =>
              cases hbound
              exact Nat.pos_of_ne_zero (by rintro rfl; exact hfind _ hstart)
          · exact ih hothers hbound

theorem ahead_limit?_ne_nil {view : View} (hahead : view.ahead ≠ []) {bound : Option Nat}
    (hbound : ∀ n ∈ bound, 0 < n) : (view.limit? bound).ahead ≠ [] := by
  cases bound with
  | none => exact hahead
  | some n =>
      have hn : 0 < n := hbound n rfl
      have hlength := List.length_pos_iff.mpr hahead
      apply List.length_pos_iff.mp
      simp only [View.limit?, View.limit, List.length_take]
      omega

section Suspension

variable {outer : Scanner τ} {regions : List (Region (Scanner τ))}
  {During : List Char → τ → Prop} {Between : τ → Prop}

@[simp] theorem outer_contentStep (region : Region (Scanner τ)) (bound : Option Nat)
    (view : View) (state : MixedState τ) :
    (region.contentStep bound view state).state.outer = state.outer := by
  unfold contentStep
  dsimp only
  split <;> rfl

@[simp] theorem outer_innerStep (region : Region (Scanner τ)) (found : Option (Nat × Nat))
    (view : View) (state : MixedState τ) :
    (region.innerStep found view state).state.outer = state.outer := by
  unfold innerStep
  split
  · exact outer_contentStep ..
  split
  · exact outer_contentStep ..
  split
  · rfl
  · exact outer_contentStep ..

theorem mixedStep_cases (outer : Scanner τ) (regions : List (Region (Scanner τ)))
    (view : View) (state : MixedState τ) :
    (∃ outside : MixedState τ, outside.outer = state.outer ∧ outside.region = none ∧
      mixedStep outer regions view state = outerStep outer regions view outside) ∨
    (state.region ≠ none ∧ (mixedStep outer regions view state).state.outer = state.outer) := by
  unfold mixedStep
  split
  · next hregion => exact .inl ⟨state, rfl, hregion, rfl⟩
  · next index hregion =>
      have hinside : state.region ≠ none := by simp [hregion]
      split
      · exact .inl ⟨state.leave, rfl, rfl, rfl⟩
      split
      · split
        · exact .inl ⟨state.leave, rfl, rfl, rfl⟩
        · exact .inr ⟨hinside, outer_contentStep ..⟩
      · exact .inr ⟨hinside, outer_innerStep ..⟩

/-- A step out of any region that takes nothing, or opens a region, keeps an outer state
that is fit to be suspended; any other step keeps what holds during the line. -/
theorem Suspendable.outerStep (h : outer.Invariant (fun view => During view.ahead) Between)
    (hsuspend : Suspendable regions During Between) (hadvances : outer.Advances)
    {view : View} (hahead : view.ahead ≠ []) {state : MixedState τ}
    (hregion : state.region = none) (hduring : During view.ahead state.outer) :
    Between (outerStep outer regions view state).state.outer ∨
      (outerStep outer regions view state).state.region = none ∧
      0 < (outerStep outer regions view state).length ∧
      During (view.ahead.drop (outerStep outer regions view state).length)
        (outerStep outer regions view state).state.outer := by
  unfold Region.outerStep
  split
  · next hopened =>
      have hsome : openedAt view.atLineStart view.ahead regions ≠ none := by simp [hopened]
      exact .inl (hsuspend.opened hsome hduring)
  · next hopened =>
      have hbound : ∀ n ∈ nextOpening view.atLineStart view.ahead regions, 0 < n :=
        fun n hn => nextOpening_pos hopened hn
      have hlimited := ahead_limit?_ne_nil hahead hbound
      refine .inr ⟨hregion, hadvances _ _ hlimited, ?_⟩
      cases hnext : nextOpening view.atLineStart view.ahead regions with
      | none => exact h.step hahead hduring
      | some n =>
          rw [hnext] at hlimited hbound
          have hstep := h.step hlimited (hsuspend.hide (hbound n rfl) hduring)
          simp only [View.next, View.limit?, View.limit, List.drop_take] at hstep
          exact hsuspend.reveal hstep

theorem Suspendable.invariant
    (h : outer.Invariant (fun view => During view.ahead) Between)
    (hsuspend : Suspendable regions During Between) (hadvances : outer.Advances) :
    (mixedScanner outer regions).Invariant
      (fun view state =>
        Between state.outer ∨ state.region = none ∧ During view.ahead state.outer)
      (fun state => Between state.outer) := by
  have hstep : ∀ {view : View} {state : MixedState τ}, view.ahead ≠ [] →
      Between state.outer ∨ state.region = none ∧ During view.ahead state.outer →
      Between (mixedStep outer regions view state).state.outer ∨
        (mixedStep outer regions view state).state.region = none ∧
        0 < (mixedStep outer regions view state).length ∧
        During (view.ahead.drop (mixedStep outer regions view state).length)
          (mixedStep outer regions view state).state.outer := by
    intro view state hahead hduring
    have hshown : During view.ahead state.outer :=
      hduring.elim (hsuspend.anywhere view.ahead) And.right
    rcases mixedStep_cases outer regions view state with
      ⟨outside, houter, hregion, hmixed⟩ | ⟨hregion, houter⟩
    · rw [hmixed]
      exact hsuspend.outerStep h hadvances hahead hregion (houter ▸ hshown)
    · -- Inside a region the outer state is not touched, so it stays suspended.
      rw [houter]
      exact .inl (hduring.resolve_right fun houtside => hregion houtside.1)
  constructor
  case enter => exact fun _ _ _ hbetween => .inl hbetween
  case step =>
    intro view state hahead hduring
    exact (hstep hahead hduring).imp_right fun hout => ⟨hout.1, hout.2.2⟩
  case skip =>
    intro view state hahead hduring hlength
    refine .inl ((hstep hahead hduring).resolve_right fun hout => ?_)
    exact absurd hlength (Nat.ne_of_gt hout.2.1)
  case leave =>
    intro view state hahead hduring
    exact hduring.elim id fun hout => h.leave hahead hout.2
  case blank =>
    intro state hbetween
    show Between (mixedBlank outer regions state).outer
    unfold mixedBlank
    split
    · exact h.blank hbetween
    · dsimp only
      split <;> exact hbetween

theorem keptUnder_mixedScanner {Guard : List Char → τ → Prop} {Keeps : τ → Prop}
    (h : outer.KeptUnder (fun view => Guard view.ahead) Keeps)
    (hguard : ∀ {text state n}, Guard text state → Guard (text.take n) state) :
    (mixedScanner outer regions).KeptUnder (fun view state => Guard view.ahead state.outer)
      (fun state => Keeps state.outer) where
  step := by
    intro view state hstate hkept
    show Keeps (mixedStep outer regions view state).state.outer
    rcases mixedStep_cases outer regions view state with
      ⟨outside, houter, -, hmixed⟩ | ⟨-, houter⟩
    · rw [← houter] at hstate hkept
      rw [hmixed, outerStep]
      split
      · exact hkept
      · apply h.step _ hkept
        cases nextOpening view.atLineStart view.ahead regions with
        | none => exact hstate
        | some n => exact hguard hstate
    · rwa [houter]
  blank := by
    intro state hkept
    show Keeps (mixedBlank outer regions state).outer
    unfold mixedBlank
    split
    · exact h.blank hkept
    · dsimp only
      split <;> exact hkept

end Suspension

end Region

/-! ## Grammars -/

namespace Grammar

def visits (grammar : Grammar) (state : GrammarState) (line : List Char) :
    List (View × GrammarState) :=
  grammar.scanner.visits line.length (View.ofLine line grammar.tabSize) state

variable {grammar : Grammar} {During : View → GrammarState → Prop}
  {Between : GrammarState → Prop}

theorem between_scanLines (h : grammar.scanner.Invariant During Between)
    (lines : List (List Char)) {state : GrammarState} (hbetween : Between state) :
    Between (grammar.scanLines state lines).2 := by
  induction lines generalizing state with
  | nil => exact hbetween
  | cons line lines ih => exact ih (h.scanLine grammar.tabSize hbetween line)

theorem during_visits (h : grammar.scanner.Invariant During Between) {state : GrammarState}
    (hbetween : Between state) (line : List Char) :
    ∀ visit ∈ grammar.visits state line, visit.1.ahead ≠ [] ∧ During visit.1 visit.2 :=
  h.visits line.length rfl (h.enter line grammar.tabSize hbetween)

def runVisits (grammar : Grammar) (state : GrammarState) :
    List (List Char) → List (View × GrammarState)
  | [] => []
  | line :: lines =>
      grammar.visits state line ++ grammar.runVisits (grammar.scanLine state line).2 lines

theorem keeps_scanLines {Guard : View → GrammarState → Prop} {Keeps : GrammarState → Prop}
    (h : grammar.scanner.KeptUnder Guard Keeps) (lines : List (List Char))
    {state : GrammarState}
    (hguard : ∀ visit ∈ grammar.runVisits state lines, Guard visit.1 visit.2)
    (hkept : Keeps state) : Keeps (grammar.scanLines state lines).2 := by
  induction lines generalizing state with
  | nil => exact hkept
  | cons line lines ih =>
      rw [runVisits, List.forall_mem_append] at hguard
      exact ih hguard.2 (h.scanLine hguard.1 hkept)

end Grammar

end CellHighlight
