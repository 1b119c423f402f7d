import CellHighlight.Proofs.Agreement
import CellHighlight.Proofs.Cells

/-!
# Snippets

The text between two delimiters is scanned as if it stood alone, over any number of
lines.  The scanner of the region sees a line that begins after the opening text and
ends before the closing text; a scanner that looks at nothing but the text ahead cannot
tell it from a line of its own.
-/

namespace CellHighlight

def enclose {α : Type} (before after : List α) : List (List α) → List (List α)
  | [] => []
  | [only] => [before ++ only ++ after]
  | first :: second :: rest => (before ++ first) :: enclose [] after (second :: rest)

example : enclose ['<'] ['>'] [['a'], [], ['b']] = [['<', 'a'], [], ['b', '>']] := rfl

/-! ## Inside the region -/

namespace Region

variable {τ : Type} {regions : List (Region (Scanner τ))} {index : Nat}
  {region : Region (Scanner τ)} {close : List Char}

/-- A region that one text closes, with a scanner that looks at the text ahead only. -/
structure Encloses (regions : List (Region (Scanner τ))) (index : Nat)
    (region : Region (Scanner τ)) (close : List Char) : Prop where
  index : regions[index]? = some region
  closer : region.closer = some (.literal close)
  nonempty : close ≠ []
  separate : region.scansDelimiters = false
  isLocal : region.content.Local
  inBounds : region.content.InBounds

theorem Encloses.contentStep_eq (h : Encloses regions index region close) (outer : τ)
    (state : τ) {bound : Option Nat} {view part : View} (htaken : view.taken = part.taken)
    (hahead : (view.limit? bound).ahead = part.ahead) :
    region.contentStep bound view ⟨outer, some index, some state, false⟩ =
      let step := region.content.step part state
      ⟨step.length, step.style, ⟨outer, some index, some step.state, false⟩⟩ := by
  have hlimited : (view.limit? bound).taken = part.taken := by
    cases bound <;> exact htaken
  simp only [contentStep, h.isLocal _ _ hlimited hahead, h.separate, Option.getD_some,
    Bool.false_and]
  rfl

/-- The closing text, or the end of the line, is the end of the text that the scanner
of the region sees. -/
theorem Encloses.hosts (h : Encloses regions index region close) (outer : Scanner τ)
    (outerState : τ) (earlier : List Char) {later : List Char}
    (hlater : later = [] ∨ later = close) :
    (mixedScanner outer regions).Hosts region.content
      (fun state => ⟨outerState, some index, some state, false⟩) earlier later
      fun view => FreeOf close view.ahead later := by
  constructor
  · intro view state hfree hahead
    have hfind := Pattern.find_literal_append h.nonempty hfree
      (view.inside earlier later).atLineStart
    simp only [mixedScanner, mixedStep, h.index, h.closer, nextClosing, Bool.false_eq_true,
      if_false]
    rcases hlater with rfl | rfl
    · have hnone : (Pattern.literal close).find (view.inside earlier []).atLineStart
          (view.inside earlier []).ahead = none :=
        hfind.trans (by rw [Pattern.find_literal_nil h.nonempty]; rfl)
      rw [hnone]
      exact h.contentStep_eq outerState state rfl (List.append_nil _)
    · have hhere := Pattern.find_literal_here h.nonempty
        (view.inside earlier later).atLineStart []
      rw [List.append_nil] at hhere
      have hsome : (Pattern.literal later).find (view.inside earlier later).atLineStart
          (view.inside earlier later).ahead = some (view.ahead.length, later.length) :=
        hfind.trans (by rw [hhere]; rfl)
      have hstart : view.ahead.length ≠ 0 := by simpa using hahead
      rw [hsome]
      simp only [innerStep, h.separate, Bool.false_eq_true, if_false, hstart]
      exact h.contentStep_eq outerState state rfl (List.take_left ..)
  · intro view n hfree
    exact hfree.drop n

theorem Encloses.scanRest_open (h : Encloses regions index region close) (outer : Scanner τ)
    (outerState : τ) (earlier : List Char) {view : View} (htaken : view.taken = [])
    (hfree : FreeOf close view.ahead []) (state : τ) :
    (mixedScanner outer regions).scanRest (view.inside earlier [])
        ⟨outerState, some index, some state, false⟩ =
      let scan := region.content.scanRest view state
      (scan.1, ⟨outerState, some index, some scan.2, false⟩) := by
  have hrun := (h.hosts outer outerState earlier (.inl rfl)).scanRest h.inBounds view hfree
    htaken state
  have hend : ((view.inside earlier []).next view.ahead.length).ahead = [] :=
    List.drop_left
  rw [hrun]
  simp only [Scanner.scanRest_nil _ hend, List.append_nil]

theorem Encloses.scanRest_at_close (h : Encloses regions index region close)
    (outer : Scanner τ) (outerState state : τ) {view : View} (hclose : view.ahead = close) :
    (mixedScanner outer regions).scanRest view ⟨outerState, some index, some state, false⟩ =
      ([⟨byteLength close, region.delimiterStyle .closing⟩],
        ⟨outerState, none, none, false⟩) := by
  have hhere := Pattern.find_literal_here h.nonempty view.atLineStart []
  rw [List.append_nil] at hhere
  have hstep : (mixedScanner outer regions).step view
      ⟨outerState, some index, some state, false⟩ =
        ⟨close.length, region.delimiterStyle .closing, ⟨outerState, none, none, false⟩⟩ := by
    simp only [mixedScanner, mixedStep, h.index, h.closer, nextClosing, Bool.false_eq_true,
      if_false, hclose, hhere, innerStep, h.separate]
    rfl
  have hend : (view.next close.length).ahead = [] := by
    rw [View.next, hclose, List.drop_length]
  have hahead : view.ahead ≠ [] := by
    rw [hclose]
    exact h.nonempty
  rw [Scanner.scanRest_of_taken _ hahead (by simpa [hstep] using h.nonempty)]
  simp only [hstep, hclose, List.take_length, Scanner.scanRest_nil _ hend]

theorem Encloses.scanRest_close (h : Encloses regions index region close)
    (outer : Scanner τ) (outerState : τ) (earlier : List Char) {view : View}
    (htaken : view.taken = []) (hfree : FreeOf close view.ahead close) (state : τ) :
    (mixedScanner outer regions).scanRest (view.inside earlier close)
        ⟨outerState, some index, some state, false⟩ =
      ((region.content.scanRest view state).1 ++
          [⟨byteLength close, region.delimiterStyle .closing⟩],
        ⟨outerState, none, none, false⟩) := by
  have hrun := (h.hosts outer outerState earlier (.inr rfl)).scanRest h.inBounds view hfree
    htaken state
  have hclose : ((view.inside earlier close).next view.ahead.length).ahead = close :=
    List.drop_left
  rw [hrun]
  simp only [h.scanRest_at_close outer outerState _ hclose]

theorem scanRest_opening (outer : Scanner τ) {opener : List Char} (hopener : opener ≠ [])
    {rest : List Char} (hseparate : region.scansDelimiters = false)
    (hopened : openedAt true (opener ++ rest) regions = some (index, region, opener.length))
    (tabSize : Nat) (outerState : τ) (inner : Option τ) (opening : Bool) :
    (mixedScanner outer regions).scanRest (View.ofLine (opener ++ rest) tabSize)
        ⟨outerState, none, inner, opening⟩ =
      let following := (mixedScanner outer regions).scanRest
        ((View.ofLine rest tabSize).inside opener [])
        ⟨outerState, some index, some region.content.start, false⟩
      (⟨byteLength opener, region.delimiterStyle .opening⟩ :: following.1, following.2) := by
  have hstart : (View.ofLine (opener ++ rest) tabSize).atLineStart = true := rfl
  have hahead : (View.ofLine (opener ++ rest) tabSize).ahead = opener ++ rest := rfl
  have hstep : (mixedScanner outer regions).step (View.ofLine (opener ++ rest) tabSize)
      ⟨outerState, none, inner, opening⟩ =
        ⟨opener.length, region.delimiterStyle .opening,
          ⟨outerState, some index, some region.content.start, false⟩⟩ := by
    simp only [mixedScanner, mixedStep, outerStep, hstart, hahead, hopened, hseparate]
    rfl
  have hnext : (View.ofLine (opener ++ rest) tabSize).next opener.length =
      (View.ofLine rest tabSize).inside opener [] := by
    simp [View.next, View.ofLine, View.inside]
  rw [Scanner.scanRest_of_taken _ (by simp [hahead, hopener]) (by simpa [hstep] using hopener)]
  simp only [hstep, hnext, hahead, List.take_left]

end Region

/-! ## Whole snippets -/

theorem FreeOf.alone {text part : List Char} (h : FreeOf text part text) :
    FreeOf text part [] := by
  intro place hplace hprefix
  rw [List.append_nil] at hprefix
  apply h place hplace
  rw [List.drop_append_of_le_length (Nat.le_of_lt hplace)]
  exact hprefix.trans (List.prefix_append _ _)

namespace Grammar

theorem scanLine_eq_scanRest {grammar : Grammar} (hlocal : grammar.scanner.Local)
    (state : GrammarState) {line : List Char} (hline : line ≠ []) (tabSize : Nat) :
    grammar.scanLine state line =
      grammar.scanner.scanRest (View.ofLine line tabSize) state := by
  have htab := hlocal.agrees.scanLine grammar.tabSize tabSize (Eq.refl state) line
  rw [← Scanner.scanLine_eq _ _ _ hline]
  exact Prod.ext htab.1 htab.2

theorem tokens_scanLine {grammar : Grammar} (hlocal : grammar.scanner.Local)
    (state : GrammarState) (line : List Char) (tabSize : Nat) :
    (grammar.scanLine state line).1 =
      (grammar.scanner.scanRest (View.ofLine line tabSize) state).1 := by
  by_cases hline : line = []
  · subst hline
    rfl
  · rw [scanLine_eq_scanRest hlocal state hline tabSize]

section

variable (outer : Grammar) {regions : List (Region Grammar)} {index : Nat}
  {region : Region Grammar} {close : List Char}
  (h : Region.Encloses (regionScanners regions) index region.scanner close)

include h

theorem local_content : region.content.scanner.Local := by
  rw [← Region.content_scanner]
  exact h.isLocal

theorem scanLine_open (outerState state : GrammarState) {line : List Char}
    (hfree : FreeOf close line close) :
    (mixed outer regions).scanLine (.mixed ⟨outerState, some index, some state, false⟩) line =
      let scan := region.content.scanLine state line
      (scan.1, .mixed ⟨outerState, some index, some scan.2, false⟩) := by
  rw [scanLine_mixed]
  by_cases hline : line = []
  · subst hline
    have hactive : Region.active (regionScanners regions)
        (⟨outerState, some index, some state, false⟩ : MixedState GrammarState) =
          some region.scanner := h.index
    simp [scanLine, Scanner.scanLine, Region.mixedScanner, Region.mixedBlank, hactive, h.closer]
  · have hinside : View.ofLine line outer.tabSize =
        (View.ofLine line outer.tabSize).inside [] [] := by
      simp [View.inside, View.ofLine]
    rw [Scanner.scanLine_eq _ _ _ hline, hinside,
      h.scanRest_open outer.scanner outerState [] rfl hfree.alone, Region.content_scanner,
      scanLine_eq_scanRest (local_content h) state hline outer.tabSize]

theorem scanLine_close (outerState state : GrammarState) {line : List Char}
    (hfree : FreeOf close line close) :
    (mixed outer regions).scanLine (.mixed ⟨outerState, some index, some state, false⟩)
        (line ++ close) =
      ((region.content.scanLine state line).1 ++
          [⟨byteLength close, region.delimiterStyle .closing⟩],
        .mixed ⟨outerState, none, none, false⟩) := by
  have hinside : View.ofLine (line ++ close) outer.tabSize =
      (View.ofLine line outer.tabSize).inside [] close := rfl
  have hline : line ++ close ≠ [] := List.append_ne_nil_of_right_ne_nil _ h.nonempty
  rw [scanLine_mixed, Scanner.scanLine_eq _ _ _ hline, hinside,
    h.scanRest_close outer.scanner outerState [] rfl hfree, Region.content_scanner,
    Region.delimiterStyle_scanner, tokens_scanLine (local_content h) state line outer.tabSize]

theorem scanLines_inside (outerState state : GrammarState) {body : List (List Char)}
    (hbody : body ≠ []) (hfree : ∀ line ∈ body, FreeOf close line close) :
    (mixed outer regions).scanLines (.mixed ⟨outerState, some index, some state, false⟩)
        (enclose [] close body) =
      (enclose [] [⟨byteLength close, region.delimiterStyle .closing⟩]
          (region.content.scanLines state body).1,
        .mixed ⟨outerState, none, none, false⟩) := by
  induction body generalizing state with
  | nil => exact absurd rfl hbody
  | cons line body ih =>
      have hline := hfree line List.mem_cons_self
      cases body with
      | nil =>
          simp only [enclose, scanLines, List.nil_append,
            scanLine_close outer h outerState state hline]
      | cons second rest =>
          have hrest := ih (region.content.scanLine state line).2 (by simp)
            fun other hother => hfree other (List.mem_cons_of_mem _ hother)
          simp only [scanLines] at hrest
          simp only [enclose, scanLines, List.nil_append,
            scanLine_open outer h outerState state hline, hrest]

variable {opener : List Char} (hopener : opener ≠ [])
  (hopened : ∀ rest, Region.openedAt true (opener ++ rest) (regionScanners regions) =
    some (index, region.scanner, opener.length))

include hopener hopened

theorem scanLine_opening_open
    (hblank : region.content.scanner.blank region.content.start = region.content.start)
    (outerState : GrammarState) (inner : Option GrammarState) (opening : Bool)
    {line : List Char} (hfree : FreeOf close line close) :
    (mixed outer regions).scanLine (.mixed ⟨outerState, none, inner, opening⟩)
        (opener ++ line) =
      let scan := region.content.scanLine region.content.start line
      (⟨byteLength opener, region.delimiterStyle .opening⟩ :: scan.1,
        .mixed ⟨outerState, some index, some scan.2, false⟩) := by
  have hscan : region.content.scanner.scanRest (View.ofLine line outer.tabSize)
      region.content.start = region.content.scanLine region.content.start line := by
    by_cases hline : line = []
    · subst hline
      exact Prod.ext rfl hblank.symm
    · exact (scanLine_eq_scanRest (local_content h) _ hline outer.tabSize).symm
  rw [scanLine_mixed,
    Scanner.scanLine_eq _ _ _ (List.append_ne_nil_of_left_ne_nil hopener line),
    Region.scanRest_opening outer.scanner hopener h.separate (hopened line),
    h.scanRest_open outer.scanner outerState opener rfl hfree.alone, Region.content_scanner,
    Region.delimiterStyle_scanner]
  simp only [← hscan]
  rfl

theorem scanLine_opening_close (outerState : GrammarState) (inner : Option GrammarState)
    (opening : Bool) {line : List Char} (hfree : FreeOf close line close) :
    (mixed outer regions).scanLine (.mixed ⟨outerState, none, inner, opening⟩)
        (opener ++ line ++ close) =
      (⟨byteLength opener, region.delimiterStyle .opening⟩ ::
          (region.content.scanLine region.content.start line).1 ++
            [⟨byteLength close, region.delimiterStyle .closing⟩],
        .mixed ⟨outerState, none, none, false⟩) := by
  have hinside : (View.ofLine (line ++ close) outer.tabSize).inside opener [] =
      (View.ofLine line outer.tabSize).inside opener close := by
    simp [View.inside, View.ofLine]
  rw [List.append_assoc, scanLine_mixed,
    Scanner.scanLine_eq _ _ _ (List.append_ne_nil_of_left_ne_nil hopener _),
    Region.scanRest_opening outer.scanner hopener h.separate (hopened _), hinside,
    h.scanRest_close outer.scanner outerState opener rfl hfree, Region.content_scanner,
    Region.delimiterStyle_scanner, Region.delimiterStyle_scanner,
    tokens_scanLine (local_content h) _ line outer.tabSize]
  rfl

/-- The text between the delimiters of a region has the tokens of its own language,
over any number of lines, and the outer state is kept. -/
theorem scanLines_enclose
    (hblank : region.content.scanner.blank region.content.start = region.content.start)
    (outerState : GrammarState) (inner : Option GrammarState) (opening : Bool)
    {body : List (List Char)} (hbody : body ≠ [])
    (hfree : ∀ line ∈ body, FreeOf close line close) :
    (mixed outer regions).scanLines (.mixed ⟨outerState, none, inner, opening⟩)
        (enclose opener close body) =
      (enclose [⟨byteLength opener, region.delimiterStyle .opening⟩]
          [⟨byteLength close, region.delimiterStyle .closing⟩]
          (region.content.scanLines region.content.start body).1,
        .mixed ⟨outerState, none, none, false⟩) := by
  cases body with
  | nil => exact absurd rfl hbody
  | cons first rest =>
      have hfirst := hfree first List.mem_cons_self
      cases rest with
      | nil =>
          simp only [enclose, scanLines,
            scanLine_opening_close outer h hopener hopened outerState inner opening hfirst]
          rfl
      | cons second rest =>
          have hrest := scanLines_inside outer h outerState
            (region.content.scanLine region.content.start first).2 (List.cons_ne_nil second rest)
            fun other hother => hfree other (List.mem_cons_of_mem _ hother)
          simp only [scanLines] at hrest
          simp only [enclose, scanLines,
            scanLine_opening_open outer h hopener hopened hblank outerState inner opening hfirst,
            hrest]
          rfl

end

/-! ## R in the cells of a notebook -/

def snippetOpeners : List (List Char) :=
  ["[r|".toList, "[rprint|".toList, "[rgraph|".toList]

theorem openedAt_snippet {opener : List Char} (hopener : opener ∈ snippetOpeners)
    (rest : List Char) :
    Region.openedAt true (opener ++ rest) (regionScanners [directiveRegion, rRegion]) =
      some (1, rRegion.scanner, opener.length) := by
  have hopening : openingHere (opener ++ rest)
      ((regionScanners [directiveRegion, rRegion]).map Region.delimiters) =
        some (1, opener.length) := by
    simp only [snippetOpeners, List.mem_cons, List.not_mem_nil, or_false] at hopener
    rcases hopener with rfl | rfl | rfl <;> rfl
  rw [Region.openedAt_eq true _ isText_opener_cell, hopening]
  rfl

theorem encloses_rRegion :
    Region.Encloses (regionScanners [directiveRegion, rRegion]) 1 rRegion.scanner
      "|]".toList where
  index := rfl
  closer := rfl
  nonempty := by decide
  separate := rfl
  isLocal := local_regions_cell _ (by simp [regionScanners])
  inBounds := inBounds_regionScanners [directiveRegion, rRegion] _ (by simp [regionScanners])

/-- A bar at the end of the text does not make it close earlier. -/
theorem freeOf_snippet_close {line : List Char} (h : ¬ "|]".toList <:+: line) :
    FreeOf "|]".toList line "|]".toList := by
  intro place hplace hprefix
  rw [List.drop_append_of_le_length (Nat.le_of_lt hplace)] at hprefix
  apply h
  have hsuffix := List.drop_suffix place line
  have hne : line.drop place ≠ [] := by simpa using hplace
  generalize line.drop place = rest at hprefix hsuffix hne
  match rest with
  | [c] => simp at hprefix
  | c :: d :: rest =>
      have hstarts : "|]".toList <+: c :: d :: rest := by simpa using hprefix
      exact hstarts.isInfix.trans hsuffix.isInfix

/-- An R snippet in a cell is scanned as R on its own is. -/
theorem scanLines_cell_eq_r (options : Elixir.Options) (outer : GrammarState)
    (inner : Option GrammarState) (opening : Bool) (opener : List Char)
    (hopener : opener ∈ snippetOpeners) (body : List (List Char)) (hbody : body ≠ [])
    (hfree : ∀ line ∈ body, ¬ "|]".toList <:+: line) :
    (cell options).scanLines (.mixed ⟨outer, none, inner, opening⟩)
        (enclose opener "|]".toList body) =
      (enclose [⟨byteLength opener, .delimiter .opening⟩] [⟨2, .delimiter .closing⟩]
          (Grammar.r.scanLines Grammar.r.start body).1,
        .mixed ⟨outer, none, none, false⟩) := by
  have hnonempty : opener ≠ [] := by
    have hall : ∀ opener ∈ snippetOpeners, opener ≠ [] := by decide
    exact hall opener hopener
  exact scanLines_enclose (.elixir options) encloses_rRegion hnonempty
    (openedAt_snippet hopener) rfl outer inner opening hbody
    fun line hline => freeOf_snippet_close (hfree line hline)

theorem scanLines_cell_plot :
    let body := ["plot(".toList, [], "x) :! [r| |".toList]
    let outside : GrammarState := .mixed ⟨(elixir {}).start, none, none, false⟩
    (cell {}).scanLines outside ["[rgraph|plot(".toList, [], "x) :! [r| ||]".toList] =
      (enclose [⟨8, .delimiter .opening⟩] [⟨2, .delimiter .closing⟩]
        (Grammar.r.scanLines Grammar.r.start body).1, outside) := by
  intro body outside
  have hlines : ["[rgraph|plot(".toList, [], "x) :! [r| ||]".toList] =
      enclose "[rgraph|".toList "|]".toList body := by decide
  have hlength : byteLength "[rgraph|".toList = 8 := by decide
  have hfree : ∀ line ∈ body, ¬ "|]".toList <:+: line := by
    simp [body, List.infix_cons_iff]
  have hscan := scanLines_cell_eq_r {} (elixir {}).start none false "[rgraph|".toList
    (by decide) body (by decide) hfree
  rw [hlines]
  rwa [hlength] at hscan

end Grammar

end CellHighlight
