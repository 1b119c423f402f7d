import CellHighlight.Proofs.StepBounds

/-!
# Runs of a scanner

Facts about scanning the rest of a line that do not depend on what a single step
does: every round takes something, so the fuel never runs out; a scanner for states
of a wider type runs as the scanner it was made from; and a scanner that hands part
of the line to another one produces the tokens of that other scanner there.
-/

namespace CellHighlight

namespace Scanner

variable {σ τ : Type}

/-! ## One round -/

theorem stepForward_of_stalled (scanner : Scanner σ) {view : View} {state : σ}
    (h : (scanner.step view state).length = 0) (patience : Nat) :
    scanner.stepForward view (patience + 1) state =
      scanner.stepForward view patience (scanner.step view state).state :=
  if_pos h

theorem stepForward_of_taken (scanner : Scanner σ) {view : View} {state : σ}
    (h : (scanner.step view state).length ≠ 0) (patience : Nat) :
    scanner.stepForward view (patience + 1) state = scanner.step view state :=
  if_neg h

theorem stepForward_pos (scanner : Scanner σ) (view : View) (patience : Nat) (state : σ) :
    0 < (scanner.stepForward view patience state).length := by
  induction patience generalizing state with
  | zero => exact Nat.one_pos
  | succ patience ih =>
      simp only [stepForward]
      split
      · exact ih _
      · next hlength => exact Nat.pos_of_ne_zero hlength

theorem InBounds.stepForward_le {scanner : Scanner σ} (h : scanner.InBounds) {view : View}
    (hahead : view.ahead ≠ []) (patience : Nat) (state : σ) :
    (scanner.stepForward view patience state).length ≤ view.ahead.length := by
  induction patience generalizing state with
  | zero => exact List.length_pos_iff.mpr hahead
  | succ patience ih =>
      simp only [stepForward]
      split
      · exact ih _
      · exact h view state

/-! ## The rest of a line -/

/-- Enough fuel is enough: any two amounts that cover the text give the same run. -/
theorem scanAhead_congr (scanner : Scanner σ) {first second : Nat} {view : View}
    (hfirst : view.ahead.length ≤ first) (hsecond : view.ahead.length ≤ second) (state : σ) :
    scanner.scanAhead first view state = scanner.scanAhead second view state := by
  induction first generalizing second view state with
  | zero =>
      have hempty : view.ahead = [] := List.eq_nil_of_length_eq_zero (Nat.le_zero.mp hfirst)
      cases second with
      | zero => rfl
      | succ second => simp [scanAhead, hempty]
  | succ first ih =>
      by_cases hempty : view.ahead = []
      · cases second with
        | zero => simp [scanAhead, hempty]
        | succ second => simp [scanAhead, hempty]
      · have hpos := List.length_pos_iff.mpr hempty
        obtain ⟨second, rfl⟩ : ∃ n, second = n + 1 := ⟨second - 1, by omega⟩
        have hstep := scanner.stepForward_pos view stallLimit state
        have hnext : (view.next (scanner.stepForward view stallLimit state).length).ahead.length =
            view.ahead.length - (scanner.stepForward view stallLimit state).length := by
          simp [View.next]
        simp only [scanAhead, List.isEmpty_iff, hempty, if_false]
        rw [ih (by omega) (by omega : _ ≤ second)]

def scanRest (scanner : Scanner σ) (view : View) (state : σ) : List Token × σ :=
  scanner.scanAhead view.ahead.length view state

theorem scanRest_nil (scanner : Scanner σ) {view : View} (h : view.ahead = []) (state : σ) :
    scanner.scanRest view state = ([], state) := by
  simp [scanRest, h, scanAhead]

theorem scanRest_cons (scanner : Scanner σ) {view : View} (h : view.ahead ≠ [])
    (state : σ) :
    scanner.scanRest view state =
      let step := scanner.stepForward view stallLimit state
      let following := scanner.scanRest (view.next step.length) step.state
      (⟨byteLength (view.ahead.take step.length), step.style⟩ :: following.1,
        following.2) := by
  obtain ⟨fuel, hfuel⟩ := Nat.exists_eq_add_one.mpr (List.length_pos_iff.mpr h)
  have hstep := scanner.stepForward_pos view stallLimit state
  rw [scanRest, hfuel]
  simp only [scanAhead, List.isEmpty_iff, h, if_false]
  have hrest : scanner.scanAhead fuel
      (view.next (scanner.stepForward view stallLimit state).length)
      (scanner.stepForward view stallLimit state).state =
      scanner.scanRest (view.next (scanner.stepForward view stallLimit state).length)
        (scanner.stepForward view stallLimit state).state := by
    apply scanAhead_congr
    · simp only [View.next, List.length_drop]
      omega
    · exact Nat.le_refl _
  rw [hrest]

theorem scanRest_of_taken (scanner : Scanner σ) {view : View} (hahead : view.ahead ≠ [])
    {state : σ} (htaken : (scanner.step view state).length ≠ 0) :
    scanner.scanRest view state =
      let step := scanner.step view state
      let following := scanner.scanRest (view.next step.length) step.state
      (⟨byteLength (view.ahead.take step.length), step.style⟩ :: following.1,
        following.2) := by
  have hstep : scanner.stepForward view stallLimit state = scanner.step view state :=
    stepForward_of_taken scanner htaken _
  rw [scanRest_cons scanner hahead, hstep]

theorem scanRest_of_taken_all (scanner : Scanner σ) {view : View} (hahead : view.ahead ≠ [])
    {state after : σ} {style : Style}
    (hstep : scanner.step view state = ⟨view.ahead.length, style, after⟩) :
    scanner.scanRest view state = ([⟨byteLength view.ahead, style⟩], after) := by
  have hlength : (scanner.step view state).length ≠ 0 := by
    rw [hstep]
    exact Nat.ne_of_gt (List.length_pos_iff.mpr hahead)
  have hend : (view.next view.ahead.length).ahead = [] := List.drop_length
  rw [scanRest_of_taken scanner hahead hlength, hstep]
  simp only [List.take_length, scanRest_nil scanner hend]

def resume (scanner : Scanner σ) (view : View) (patience : Nat) (state : σ) : List Token × σ :=
  if view.ahead.isEmpty then ([], state)
  else
    let step := scanner.stepForward view patience state
    let following := scanner.scanRest (view.next step.length) step.state
    (⟨byteLength (view.ahead.take step.length), step.style⟩ :: following.1, following.2)

theorem resume_stallLimit (scanner : Scanner σ) (view : View) (state : σ) :
    scanner.resume view stallLimit state = scanner.scanRest view state := by
  unfold resume
  split
  · next hempty => rw [scanRest_nil scanner (List.isEmpty_iff.mp hempty)]
  · next hahead => rw [scanRest_cons scanner (by simpa using hahead)]

theorem scanRest_of_step_eq (scanner : Scanner σ) {view : View} (hahead : view.ahead ≠ [])
    {first second : σ} (h : scanner.step view first = scanner.step view second) :
    scanner.scanRest view first = scanner.scanRest view second := by
  have hforward : scanner.stepForward view stallLimit first =
      scanner.stepForward view stallLimit second := by
    simp only [stallLimit, stepForward, h]
  rw [scanRest_cons scanner hahead, scanRest_cons scanner hahead, hforward]

theorem scanLine_eq (scanner : Scanner σ) (tabSize : Nat) (state : σ) {line : List Char}
    (h : line ≠ []) :
    scanner.scanLine tabSize state line =
      scanner.scanRest (View.ofLine line tabSize) state := by
  simp [scanLine, h, scanRest, View.ofLine]

/-! ## States of a wider type -/

section Within

variable (scanner : Scanner σ) {wrap : σ → τ} {unwrap : τ → Option σ}

theorem stepForward_within (h : ∀ state, unwrap (wrap state) = some state) (view : View)
    (patience : Nat) (state : σ) :
    (scanner.within wrap unwrap).stepForward view patience (wrap state) =
      let step := scanner.stepForward view patience state
      ⟨step.length, step.style, wrap step.state⟩ := by
  induction patience generalizing state with
  | zero => rfl
  | succ patience ih =>
      simp only [stepForward, within, h, Option.getD_some]
      split
      · exact ih _
      · rfl

theorem scanAhead_within (h : ∀ state, unwrap (wrap state) = some state) (fuel : Nat)
    (view : View) (state : σ) :
    (scanner.within wrap unwrap).scanAhead fuel view (wrap state) =
      ((scanner.scanAhead fuel view state).1, wrap (scanner.scanAhead fuel view state).2) := by
  induction fuel generalizing view state with
  | zero => rfl
  | succ fuel ih =>
      simp only [scanAhead]
      split
      · rfl
      · rw [stepForward_within scanner h]
        simp only [ih]

theorem scanRest_within (h : ∀ state, unwrap (wrap state) = some state) (view : View)
    (state : σ) :
    (scanner.within wrap unwrap).scanRest view (wrap state) =
      ((scanner.scanRest view state).1, wrap (scanner.scanRest view state).2) :=
  scanAhead_within scanner h _ _ _

theorem scanLine_within (h : ∀ state, unwrap (wrap state) = some state) (tabSize : Nat)
    (state : σ) (line : List Char) :
    (scanner.within wrap unwrap).scanLine tabSize (wrap state) line =
      ((scanner.scanLine tabSize state line).1,
        wrap (scanner.scanLine tabSize state line).2) := by
  unfold scanLine
  split
  · simp [within, h]
  · exact scanAhead_within scanner h _ _ _

end Within

end Scanner

/-! ## Scanning for another scanner -/

namespace View

/-- A place in part of a line, as a place in the whole line: `earlier` comes before the
part, and `later` after it. -/
def inside (earlier later : List Char) (view : View) : View :=
  { view with before := earlier ++ view.before, ahead := view.ahead ++ later }

theorem next_next (view : View) (m n : Nat) : (view.next m).next n = view.next (m + n) := by
  simp [next, List.take_add]

theorem next_zero {view : View} (h : view.taken = []) : view.next 0 = view := by
  cases view
  simp_all [next]

theorem next_limit (view : View) {m n : Nat} (hle : n ≤ m) :
    (view.limit m).next n = (view.next n).limit (m - n) := by
  simp [next, limit, List.take_take, List.drop_take, List.drop_drop, hle]

theorem next_inside (earlier later : List Char) {view : View} {n : Nat}
    (hn : n ≤ view.ahead.length) :
    (view.inside earlier later).next n = (view.next n).inside earlier later := by
  simp [inside, next, List.take_append_of_le_length hn, List.drop_append_of_le_length hn]

end View

namespace Scanner

variable {σ τ : Type}

/-- On views that satisfy `Part`, the steps of the guest are those of the host, which
sees `earlier` before the part of the line and `later` after it. -/
structure Hosts (host : Scanner τ) (guest : Scanner σ) (wrap : σ → τ)
    (earlier later : List Char) (Part : View → Prop) : Prop where
  step : ∀ view state, Part view → view.ahead ≠ [] →
    host.step (view.inside earlier later) (wrap state) =
      let step := guest.step view state
      ⟨step.length, step.style, wrap step.state⟩
  next : ∀ view n, Part view → Part (view.next n)

namespace Hosts

variable {host : Scanner τ} {guest : Scanner σ} {wrap : σ → τ} {earlier later : List Char}
  {Part : View → Prop}

theorem stepForward (h : host.Hosts guest wrap earlier later Part) {view : View}
    (hpart : Part view) (hahead : view.ahead ≠ []) (patience : Nat) (state : σ) :
    host.stepForward (view.inside earlier later) patience (wrap state) =
      let step := guest.stepForward view patience state
      ⟨step.length, step.style, wrap step.state⟩ := by
  induction patience generalizing state with
  | zero => rfl
  | succ patience ih =>
      simp only [Scanner.stepForward, h.step view state hpart hahead]
      split
      · exact ih _
      · rfl

theorem scanRest (h : host.Hosts guest wrap earlier later Part) (hguest : guest.InBounds)
    (view : View) (hpart : Part view) (htaken : view.taken = []) (state : σ) :
    host.scanRest (view.inside earlier later) (wrap state) =
      let part := guest.scanRest view state
      let following := host.scanRest
        ((view.inside earlier later).next view.ahead.length) (wrap part.2)
      (part.1 ++ following.1, following.2) := by
  by_cases hahead : view.ahead = []
  · have hhost : (view.inside earlier later).taken = [] := htaken
    rw [scanRest_nil guest hahead, hahead, List.length_nil, View.next_zero hhost]
    rfl
  · have hinside : (view.inside earlier later).ahead ≠ [] := by simp [View.inside, hahead]
    have hpos := guest.stepForward_pos view stallLimit state
    have hle := hguest.stepForward_le hahead stallLimit state
    have hstep := h.stepForward hpart hahead stallLimit state
    rw [scanRest_cons guest hahead, scanRest_cons host hinside, hstep]
    generalize guest.stepForward view stallLimit state = step at hpos hle
    have hlength : (view.next step.length).ahead.length = view.ahead.length - step.length :=
      List.length_drop
    have hpiece : (view.inside earlier later).ahead.take step.length =
        view.ahead.take step.length :=
      List.take_append_of_le_length hle
    have hrest := h.scanRest hguest _ (h.next view step.length hpart) rfl step.state
    rw [hlength, ← View.next_inside earlier later hle, View.next_next,
      Nat.add_sub_cancel' hle] at hrest
    simp only [hpiece, hrest, List.cons_append]
termination_by view.ahead.length

end Hosts

end Scanner

/-! ## Grammars -/

namespace Grammar

theorem scanLines_append (grammar : Grammar) (state : GrammarState)
    (lines lines' : List (List Char)) :
    (grammar.scanLines state (lines ++ lines')).2 =
      (grammar.scanLines (grammar.scanLines state lines).2 lines').2 := by
  induction lines generalizing state with
  | nil => rfl
  | cons line lines ih => exact ih (grammar.scanLine state line).2

theorem scanLine_elixir (options : Elixir.Options) (state : Elixir.State) (line : List Char) :
    (Grammar.elixir options).scanLine (.elixir state) line =
      let scan := (Elixir.scanner options).scanLine options.tabSize state line
      (scan.1, .elixir scan.2) := by
  have hunwrap (state : Elixir.State) : GrammarState.elixir? (.elixir state) = some state := rfl
  rw [scanLine, scanner, tabSize]
  exact Scanner.scanLine_within _ hunwrap _ _ _

theorem scanRest_mixed (outer : Grammar) (regions : List (Region Grammar)) (view : View)
    (state : MixedState GrammarState) :
    (Grammar.mixed outer regions).scanner.scanRest view (.mixed state) =
      let scan := (Region.mixedScanner outer.scanner (regionScanners regions)).scanRest view state
      (scan.1, .mixed scan.2) := by
  have hunwrap (state : MixedState GrammarState) :
      GrammarState.mixed? (.mixed state) = some state := rfl
  rw [scanner]
  exact Scanner.scanRest_within _ hunwrap _ _

theorem scanLine_mixed (outer : Grammar) (regions : List (Region Grammar))
    (state : MixedState GrammarState) (line : List Char) :
    (Grammar.mixed outer regions).scanLine (.mixed state) line =
      let scan := (Region.mixedScanner outer.scanner (regionScanners regions)).scanLine
        outer.tabSize state line
      (scan.1, .mixed scan.2) := by
  have hunwrap (state : MixedState GrammarState) :
      GrammarState.mixed? (.mixed state) = some state := rfl
  rw [scanLine, scanner, tabSize]
  exact Scanner.scanLine_within _ hunwrap _ _ _

end Grammar

end CellHighlight
