import CellHighlight.Proofs.Coverage
import CellHighlight.Proofs.Invariants

/-!
# Regions that scan their delimiters

The scanner of such a region gets the opening and the closing text as part of its own.
The first token is taken before the closing text is searched for, and later the region
ends only when a token ends exactly where the closing text does.  So the region ends
with that text when the first token stops short of it and no later token begins inside
it; otherwise the region may run on past it.
-/

namespace CellHighlight

namespace Region

variable {τ : Type} {region : Region (Scanner τ)} {opener close : List Char}

structure ScansBetween (region : Region (Scanner τ)) (opener close : List Char) : Prop where
  opening : region.opener = .literal opener
  closing : region.closer = some (.literal close)
  opens : opener ≠ []
  closes : close ≠ []
  own : region.scansDelimiters = true
  advances : region.content.Advances
  inBounds : region.content.InBounds

namespace ScansBetween

/-- The scanner of the region sees the closing text and nothing after it.  A token that
takes all of it ends the region. -/
theorem step_eq (h : ScansBetween region opener close) (outer : Scanner τ) {view : View}
    {part rest : List Char} (hahead : view.ahead = part ++ (close ++ rest))
    (hfree : FreeOf close part (close ++ rest)) (outerState state : τ) :
    (mixedScanner outer [region]).step view ⟨outerState, some 0, some state, false⟩ =
      let step := region.content.step (view.limit (part.length + close.length)) state
      ⟨step.length, step.style,
        if step.length = part.length + close.length then ⟨outerState, none, none, false⟩
        else ⟨outerState, some 0, some step.state, false⟩⟩ := by
  have hfind : (Pattern.literal close).find view.atLineStart view.ahead =
      some (part.length, close.length) := by
    rw [hahead, Pattern.find_literal_append h.closes hfree,
      Pattern.find_literal_here h.closes]
    rfl
  simp only [mixedScanner, mixedStep, List.getElem?_cons_zero, h.closing, nextClosing,
    Bool.false_eq_true, if_false, hfind, innerStep, h.own, if_true, contentStep,
    Option.getD_some, View.limit?, Bool.true_and]
  by_cases hlength : (region.content.step (view.limit (part.length + close.length))
      state).length = part.length + close.length
  · simp [hlength, MixedState.leave]
  · simp [hlength, Ne.symm hlength]

/-- From a place before the closing text, the region runs to the end of that text if its
scanner begins no step inside it. -/
theorem scanRest_through (h : ScansBetween region opener close) (outer : Scanner τ)
    (fuel : Nat) {view window : View} {part rest : List Char}
    (hwindow : view.limit (part.length + close.length) = window)
    (hahead : view.ahead = part ++ (close ++ rest))
    (hfree : FreeOf close part (close ++ rest)) (outerState state : τ)
    (hfuel : window.ahead.length ≤ fuel)
    (hwhole : ∀ visit ∈ region.content.visits fuel window state,
      close.length ≤ visit.1.ahead.length) :
    (mixedScanner outer [region]).scanRest view ⟨outerState, some 0, some state, false⟩ =
      let inside := region.content.scanRest window state
      let outside := (mixedScanner outer [region]).scanRest
        (view.next (part.length + close.length)) ⟨outerState, none, none, false⟩
      (inside.1 ++ outside.1, outside.2) := by
  have hclose := List.length_pos_iff.mpr h.closes
  have hlength : window.ahead.length = part.length + close.length := by
    simp only [← hwindow, View.limit, hahead, List.length_take, List.length_append]
    omega
  -- Every step takes the closing text whole or stays before it, so the window shrinks from
  -- the left and its end stays where it is.
  induction fuel generalizing view window part state with
  | zero => omega
  | succ fuel ih =>
      have hne : window.ahead ≠ [] := List.length_pos_iff.mp (by omega)
      have hview : view.ahead ≠ [] := by simp [hahead, h.closes]
      have hpos := h.advances window state hne
      have hle := h.inBounds window state
      have hstep := h.step_eq outer hahead hfree outerState state
      rw [h.advances.visits_cons hne, List.forall_mem_cons] at hwhole
      rw [hwindow] at hstep
      rw [Scanner.scanRest_of_taken _ hne (Nat.ne_of_gt hpos),
        Scanner.scanRest_of_taken _ hview (by rw [hstep]; exact Nat.ne_of_gt hpos), hstep]
      generalize region.content.step window state = step at hpos hle hwhole
      have htoken : window.ahead.take step.length = view.ahead.take step.length := by
        simp only [← hwindow, View.limit, List.take_take]
        rw [Nat.min_eq_left (by omega)]
      simp only [htoken]
      by_cases hall : step.length = part.length + close.length
      · have hend : (window.next step.length).ahead = [] := by
          apply List.eq_nil_of_length_eq_zero
          simp only [View.next, List.length_drop]
          omega
        rw [Scanner.scanRest_nil _ hend, if_pos hall, hall]
        rfl
      · have hremains : (window.next step.length).ahead.length =
            window.ahead.length - step.length := List.length_drop
        have hagain : (window.next step.length).ahead ≠ [] :=
          List.length_pos_iff.mp (by omega)
        -- The next step begins where this one ended, so that is not inside the closing text.
        have hbefore : step.length ≤ part.length := by
          have hseen := hwhole.2 _ (h.advances.mem_visits hagain (by omega) step.state)
          simp only [hremains] at hseen
          omega
        have hpart : (part.drop step.length).length + close.length =
            part.length + close.length - step.length := by
          rw [List.length_drop]
          omega
        have hnext : (view.next step.length).limit
            ((part.drop step.length).length + close.length) = window.next step.length := by
          rw [hpart, ← hwindow, View.next_limit view (by omega)]
        have hdrop : (view.next step.length).ahead =
            part.drop step.length ++ (close ++ rest) := by
          rw [View.next, hahead, List.drop_append_of_le_length hbefore]
        have hrest := ih hnext hdrop (hfree.drop _) step.state (by omega) hwhole.2 (by omega)
        rw [hpart, View.next_next, Nat.add_sub_cancel' (by omega)] at hrest
        rw [if_neg hall, hrest]
        rfl

theorem stepForward_opening (h : ScansBetween region opener close) (outer : Scanner τ)
    {view : View} {rest : List Char} (htaken : view.taken = [])
    (hahead : view.ahead = opener ++ rest) (outerState : τ) (inner : Option τ)
    (opening : Bool) :
    (mixedScanner outer [region]).stepForward view Scanner.stallLimit
        ⟨outerState, none, inner, opening⟩ =
      let step := region.content.step view region.content.start
      ⟨step.length, step.style, ⟨outerState, some 0, some step.state, false⟩⟩ := by
  have hopened : openedAt view.atLineStart view.ahead [region] =
      some (0, region, opener.length) := by
    simp only [openedAt, hahead, h.opening, Pattern.find_literal_here h.opens]
  have hentered : (mixedScanner outer [region]).step view ⟨outerState, none, inner, opening⟩ =
      ⟨0, region.delimiterStyle .opening,
        ⟨outerState, some 0, some region.content.start, true⟩⟩ := by
    simp [mixedScanner, mixedStep, outerStep, hopened, h.own]
  have hpos := h.advances view region.content.start (by simp [hahead, h.opens])
  have htoken : (mixedScanner outer [region]).step view
      ⟨outerState, some 0, some region.content.start, true⟩ =
        let step := region.content.step view region.content.start
        ⟨step.length, step.style, ⟨outerState, some 0, some step.state, false⟩⟩ := by
    simp [mixedScanner, mixedStep, h.closing, nextClosing, innerStep, contentStep, View.limit?,
      htaken, Nat.ne_of_gt hpos]
  rw [show Scanner.stallLimit = 8 + 1 + 1 from rfl,
    Scanner.stepForward_of_stalled _ (by rw [hentered]), hentered,
    Scanner.stepForward_of_taken _ (by rw [htoken]; exact Nat.ne_of_gt hpos), htoken]

theorem scanRest_line (h : ScansBetween region opener close) (outer : Scanner τ)
    {view window : View} {first : Step τ} {body rest : List Char} (htaken : view.taken = [])
    (hahead : view.ahead = opener ++ body ++ (close ++ rest))
    (hfirst : region.content.step view region.content.start = first)
    (hwindow : (view.next first.length).limit
      ((opener ++ body ++ close).length - first.length) = window)
    (hbefore : first.length ≤ (opener ++ body).length)
    (hfree : FreeOf close ((opener ++ body).drop first.length) (close ++ rest))
    (hwhole : ∀ visit ∈ region.content.visits window.ahead.length window first.state,
      close.length ≤ visit.1.ahead.length)
    (outerState : τ) (inner : Option τ) (opening : Bool) :
    (mixedScanner outer [region]).scanRest view ⟨outerState, none, inner, opening⟩ =
      let inside := ⟨byteLength (view.ahead.take first.length), first.style⟩ ::
        (region.content.scanRest window first.state).1
      let outside := (mixedScanner outer [region]).scanRest
        (view.next (opener ++ body ++ close).length) ⟨outerState, none, none, false⟩
      (inside ++ outside.1, outside.2) := by
  have hopens : view.ahead = opener ++ (body ++ (close ++ rest)) := by
    rw [hahead, List.append_assoc]
  have hlength : ((opener ++ body).drop first.length).length + close.length =
      (opener ++ body ++ close).length - first.length := by
    simp only [List.length_drop, List.length_append] at hbefore ⊢
    omega
  have hdrop : (view.next first.length).ahead =
      (opener ++ body).drop first.length ++ (close ++ rest) := by
    rw [View.next, hahead, List.drop_append_of_le_length hbefore]
  have hrest := h.scanRest_through outer window.ahead.length (by rw [hlength, hwindow]) hdrop
    hfree outerState first.state (Nat.le_refl _) hwhole
  have hend : first.length + ((opener ++ body ++ close).length - first.length) =
      (opener ++ body ++ close).length := by
    simp only [List.length_append] at hbefore ⊢
    omega
  rw [hlength, View.next_next, hend] at hrest
  rw [Scanner.scanRest_cons _ (by simp [hopens, h.opens]),
    h.stepForward_opening outer htaken hopens, hfirst]
  simp only [hrest, List.cons_append]

end ScansBetween

end Region

namespace Grammar

/-- A region that scans its delimiters ends with its closing text, provided that the first
token, for which there is no limit, stops short of that text and that no later token
begins inside it. -/
theorem scanLine_ends_with_close (outer content : Grammar) (delimited : Bool)
    (opener body close rest : List Char) (hopener : opener ≠ []) (hclose : close ≠ [])
    (hadvances : content.scanner.Advances) :
    let line := opener ++ body ++ (close ++ rest)
    let view := View.ofLine line outer.tabSize
    let first := content.scanner.step view content.start
    let window := (view.next first.length).limit
      ((opener ++ body ++ close).length - first.length)
    first.length ≤ (opener ++ body).length →
    FreeOf close ((opener ++ body).drop first.length) (close ++ rest) →
    (∀ visit ∈ content.scanner.visits window.ahead.length window first.state,
      close.length ≤ visit.1.ahead.length) →
    let grammar : Grammar :=
      .mixed outer [⟨.literal opener, some (.literal close), content, delimited, true⟩]
    let inside := ⟨byteLength (line.take first.length), first.style⟩ ::
      (content.scanner.scanRest window first.state).1
    let outside := grammar.scanner.scanRest (view.next (opener ++ body ++ close).length)
      grammar.start
    grammar.scanLine grammar.start line = (inside ++ outside.1, outside.2) ∧
      Covers inside (opener ++ body ++ close) := by
  intro line view first window hbefore hfree hwhole grammar inside outside
  have hregion : Region.ScansBetween
      (Region.scanner ⟨.literal opener, some (.literal close), content, delimited, true⟩)
      opener close := by
    constructor
    case opening => rfl
    case closing => rfl
    case opens => exact hopener
    case closes => exact hclose
    case own => rfl
    case advances => exact hadvances
    case inBounds => exact content.inBounds_scanner
  have hstart : grammar.start = .mixed ⟨outer.start, none, none, false⟩ := by
    simp only [grammar, start, scanner]
    rfl
  have hline : line ≠ [] := by simp [line, hopener]
  have hahead : view.ahead = opener ++ body ++ (close ++ rest) := rfl
  have hfirst : content.scanner.step view content.start = first := rfl
  have hwindow : (view.next first.length).limit
      ((opener ++ body ++ close).length - first.length) = window := rfl
  constructor
  · have hrun := hregion.scanRest_line outer.scanner rfl hahead hfirst hwindow hbefore hfree
      hwhole outer.start none false
    simp only [outside]
    rw [hstart, scanLine_mixed, Scanner.scanLine_eq _ _ _ hline, scanRest_mixed]
    simp only [regionScanners]
    rw [hrun]
    rfl
  · have hpos := hadvances view content.start hline
    have hshown := content.inBounds_scanner.covers_scanRest window first.state
    have hcovers := hshown.cons first.style (take_ne_nil hpos hline)
    have htext : line.take first.length ++ window.ahead = opener ++ body ++ close :=
      calc
        line.take first.length ++ window.ahead =
            line.take (first.length + ((opener ++ body ++ close).length - first.length)) :=
          List.take_add.symm
        _ = line.take (opener ++ body ++ close).length := by
          congr 1
          simp only [List.length_append] at hbefore ⊢
          omega
        _ = opener ++ body ++ close := by
          simp only [line]
          rw [← List.append_assoc, List.take_left]
    rwa [htext] at hcovers

theorem scanLine_ends_with_close_tail :
    let grammar : Grammar :=
      .mixed .plainText [⟨.literal "<<".toList, some (.literal ">>".toList), .r, false, true⟩]
    grammar.scanLine grammar.start "<<x>> tail".toList =
      ([⟨2, .operator⟩, ⟨1, .identifier⟩, ⟨2, .operator⟩, ⟨5, .plain⟩], grammar.start) := by
  intro grammar
  have hscan := scanLine_ends_with_close .plainText .r false "<<".toList "x".toList ">>".toList
    " tail".toList (by decide) (by decide) advances_r (by decide) (by unfold FreeOf; decide)
    (by decide)
  exact hscan.1.trans (by decide)

/-- Plain text takes the line whole, the closing text and what follows included, and the
region is still open after it. -/
theorem scanLine_runs_past_close :
    let grammar : Grammar :=
      .mixed .r [⟨.literal "<<".toList, some (.literal ">>".toList), .plainText, false, true⟩]
    Grammar.r.scanner.Advances ∧ Grammar.plainText.scanner.Advances ∧
      FreeOf ">>".toList "x".toList ">> y".toList ∧
      grammar.scanLine grammar.start "<<x>> y".toList =
        ([⟨7, .plain⟩], .mixed ⟨.r ⟨none⟩, some 0, some .plainText, false⟩) := by
  intro grammar
  exact ⟨advances_r, advances_plainText, by unfold FreeOf; decide, by decide⟩

-- Here the first token stops short of the closing text, but another one begins inside it.
example :
    let grammar : Grammar :=
      .mixed .plainText [⟨.literal "<<".toList, some (.literal "]]".toList), .r, false, true⟩]
    grammar.scanLine grammar.start "<<x]] y".toList =
      ([⟨2, .operator⟩, ⟨1, .identifier⟩, ⟨1, .plain⟩, ⟨1, .plain⟩, ⟨1, .plain⟩,
          ⟨1, .identifier⟩],
        .mixed ⟨.plainText, some 0, some (.r ⟨none⟩), false⟩) := by
  decide

end Grammar

end CellHighlight
