import CellHighlight.Proofs.Segments.Scan

/-!
# Cells of a notebook

Up to the first text that opens a region a cell is scanned as Elixir.  The outer
scanner must not see the region, and to the Elixir scanner text that it must not see
is no different from the end of the line.
-/

namespace CellHighlight

/-! ## Hidden text -/

theorem takeWhile_isBlank_append (line : List Char) {more : List Char}
    (h : headIs isBlank more = false) :
    (line ++ more).takeWhile isBlank = line.takeWhile isBlank := by
  have hmore : more.takeWhile isBlank = [] := by
    cases more with
    | nil => rfl
    | cons c more => exact List.takeWhile_cons_of_neg (by simpa [headIs] using h)
  rw [List.takeWhile_append, hmore, List.append_nil]
  split
  · next hall => exact ((List.takeWhile_prefix isBlank).eq_of_length hall).symm
  · rfl

/-- Of hidden text the Elixir scanner reads only whether it adds to the indentation. -/
theorem Elixir.step_hidden (options : Options) {view : View} (hview : view.hidden = [])
    {hidden : List Char} (h : headIs isBlank hidden = false) (state : State) :
    step options { view with hidden } state = step options view state := by
  have hblanks : (View.line { view with hidden }).takeWhile isBlank =
      view.line.takeWhile isBlank := by
    rw [View.line, View.line, hview, List.append_nil]
    exact takeWhile_isBlank_append _ h
  have hindentation : View.indentation { view with hidden } = view.indentation := by
    rw [View.indentation, View.indentation, indentationOf, hblanks, indentationOf]
  have hkept : View.keptIndentation { view with hidden } = view.keptIndentation := by
    rw [View.keptIndentation, View.keptIndentation, keptIndentationOf, hblanks]
    exact congrArg (fun width => min width _) hindentation
  simp only [step, State.noteIndentation, hindentation, hkept]
  rfl

/-! ## Before the first opening -/

/-- No region opens within `part`, which may be looked at together with what follows. -/
def FreeOfOpenings (all : List Delimiters) (part following : List Char) : Prop :=
  ∀ place < part.length, openingHere ((part ++ following).drop place) all = none

def EndsOrOpens (all : List Delimiters) (text : List Char) : Prop :=
  text = [] ∨ (openingHere text all).isSome

theorem FreeOfOpenings.firstPlace {all : List Delimiters} {part following : List Char}
    (hfree : FreeOfOpenings all part following) (hends : EndsOrOpens all following) :
    (firstPlace (fun text => openingHere text all) (part ++ following)).map Prod.fst =
      if following = [] then none else some part.length := by
  split
  · next hempty =>
      subst hempty
      rw [Option.map_eq_none_iff, firstPlace_eq_none_iff]
      intro place hplace
      exact hfree place (by simpa using hplace)
  · next hnonempty =>
      obtain ⟨found, hfound⟩ := Option.isSome_iff_exists.mp (hends.resolve_left hnonempty)
      have hplace : CellHighlight.firstPlace (fun text => openingHere text all)
          (part ++ following) = some (part.length, found) := by
        refine firstPlace_eq_some_iff.mpr ⟨?_, ?_, hfree⟩
        · have := List.length_pos_iff.mpr hnonempty
          rw [List.length_append]
          omega
        · rwa [List.drop_left]
      rw [hplace]
      rfl

theorem FreeOfOpenings.later {all : List Delimiters} {first second following : List Char}
    (hfree : FreeOfOpenings all (first ++ second) following) :
    FreeOfOpenings all second following := by
  intro place hplace
  have hdrop := hfree (first.length + place) (by rw [List.length_append]; omega)
  rwa [← List.drop_drop, List.append_assoc, List.drop_left] at hdrop

theorem outerStep_of_free {τ : Type} (outer : Scanner τ) {regions : List (Region (Scanner τ))}
    (hregions : ∀ region ∈ regions, region.opener.IsText) {view : View}
    {following : List Char} (hahead : view.ahead ≠ []) (hhidden : view.hidden = [])
    (hfree : FreeOfOpenings (regions.map Region.delimiters) view.ahead following)
    (hends : EndsOrOpens (regions.map Region.delimiters) following) (state : MixedState τ) :
    Region.outerStep outer regions (view.inside [] following) state =
      let step := outer.step { view with hidden := following } state.outer
      ⟨step.length, step.style, { state with outer := step.state }⟩ := by
  have hopened : Region.openedAt (view.inside [] following).atLineStart
      (view.inside [] following).ahead regions = none := by
    rw [Region.openedAt_eq _ _ hregions]
    have hhere := hfree 0 (List.length_pos_iff.mpr hahead)
    rw [List.drop_zero] at hhere
    rw [View.inside, hhere, Option.bind_none]
  have hnext : Region.nextOpening (view.inside [] following).atLineStart
      (view.inside [] following).ahead regions =
        if following = [] then none else some view.ahead.length :=
    (Region.nextOpening_eq _ _ hregions).trans (hfree.firstPlace hends)
  have hlimit : (view.inside [] following).limit?
      (if following = [] then none else some view.ahead.length) =
        { view with hidden := following } := by
    split
    · next hempty => simp [View.limit?, View.inside, hempty, ← hhidden]
    · simp [View.limit?, View.limit, View.inside, hhidden]
  simp only [Region.outerStep, hopened, hnext, hlimit]

theorem hosts_elixir (options : Elixir.Options) {regions : List (Region (Scanner GrammarState))}
    (hregions : ∀ region ∈ regions, region.opener.IsText) {part following : List Char}
    (hfree : FreeOfOpenings (regions.map Region.delimiters) part following)
    (hends : EndsOrOpens (regions.map Region.delimiters) following)
    (hblank : headIs isBlank following = false) (inner : Option GrammarState)
    (opening : Bool) :
    (Region.mixedScanner (Grammar.elixir options).scanner regions).Hosts
      (Grammar.elixir options).scanner (fun state => ⟨state, none, inner, opening⟩) [] following
      fun view => view.line = part ∧ view.hidden = [] := by
  constructor
  · rintro view state ⟨rfl, hhidden⟩ hahead
    have hlater : FreeOfOpenings (regions.map Region.delimiters) view.ahead following := by
      rw [View.line, hhidden, List.append_nil] at hfree
      exact hfree.later
    refine (outerStep_of_free _ hregions hahead hhidden hlater hends _).trans ?_
    simp only [Grammar.scanner, Scanner.within, Elixir.scanner]
    rw [Elixir.step_hidden options hhidden hblank]
  · rintro view n ⟨hline, hhidden⟩
    exact ⟨(view.line_next n).trans hline, hhidden⟩

/-! ## The regions of a cell -/

theorem append_singleton_isPrefix_iff {text all : List Char} {c : Char} :
    text ++ [c] <+: all ↔ text <+: all ∧ (all.drop text.length).head? = some c := by
  constructor
  · rintro ⟨rest, rfl⟩
    rw [List.append_assoc, List.drop_left]
    exact ⟨List.prefix_append _ _, rfl⟩
  · rintro ⟨⟨rest, rfl⟩, hhead⟩
    rw [List.drop_left] at hhead
    obtain ⟨rest, rfl⟩ := List.head?_eq_some_iff.mp hhead
    exact ⟨rest, by simp⟩

namespace Pattern

theorem isSome_standing?_texts (alternatives : List (List Char)) (text : List Char) :
    (standing? ⟨.texts alternatives, none⟩ text).isSome =
      alternatives.any fun alternative => alternative.isPrefixOf text := by
  rw [Bool.eq_iff_iff]
  simp [standing?, textAt, accepts]

theorem isSome_standing?_followedBy (text all : List Char) (c : Char) :
    (((literal text).followedBy c).standing? all).isSome = (text ++ [c]).isPrefixOf all := by
  rw [Bool.eq_iff_iff, List.isPrefixOf_iff_prefix, append_singleton_isPrefix_iff]
  simp [standing?, textAt, accepts, literal, followedBy, Lookahead.holds]

end Pattern

namespace Grammar

def openers : List (List Char) :=
  [":!".toList, "[r|".toList, "[rprint|".toList, "[rgraph|".toList]

def opensRegion (text : List Char) : Bool := openers.any fun opener => opener.isPrefixOf text

theorem isText_opener_cell :
    ∀ region ∈ regionScanners [directiveRegion, rRegion], region.opener.IsText := by
  intro region hregion
  simp only [regionScanners, List.mem_cons, List.not_mem_nil, or_false] at hregion
  rcases hregion with rfl | rfl
  · exact ⟨_, rfl, by decide⟩
  · exact ⟨_, rfl, by decide⟩

theorem isSome_openingHere_cell (text : List Char) :
    (openingHere text
      ((regionScanners [directiveRegion, rRegion]).map Region.delimiters)).isSome =
        opensRegion text := by
  have hdirective := Pattern.isSome_standing?_followedBy [':'] text '!'
  have hr := Pattern.isSome_standing?_texts
    ["[r|".toList, "[rprint|".toList, "[rgraph|".toList] text
  rw [map_delimiters_regionScanners, List.map_cons, isSome_openingHere_cons, List.map_cons,
    isSome_openingHere_cons]
  rw [show directiveRegion.delimiters.opener = (Pattern.literal [':']).followedBy '!' from rfl,
    show rRegion.delimiters.opener = ⟨.texts _, none⟩ from rfl, hdirective, hr]
  exact congrArg _ (Bool.or_false _)

theorem headIs_of_opensRegion {p : Char → Bool}
    (hheads : ∀ opener ∈ openers, opener ≠ [] ∧ headIs p opener = false) {text : List Char}
    (h : opensRegion text) : headIs p text = false := by
  obtain ⟨opener, hopener, hprefix⟩ := List.any_eq_true.mp h
  obtain ⟨hnonempty, hhead⟩ := hheads opener hopener
  obtain ⟨rest, rfl⟩ := List.isPrefixOf_iff_prefix.mp hprefix
  cases opener with
  | nil => exact absurd rfl hnonempty
  | cons c opener => exact hhead

theorem headIs_isBlank_of_opensRegion {text : List Char} (h : opensRegion text) :
    headIs isBlank text = false :=
  headIs_of_opensRegion (by decide) h

/-- Up to the first opening, a cell has the tokens and the state of an Elixir line that
ends there; what follows is scanned from that state. -/
theorem scanLine_cell_eq_elixir (options : Elixir.Options) (state : Elixir.State)
    (inner : Option GrammarState) (opening : Bool) (part following : List Char)
    (hpart : part ≠ [])
    (hfree : ∀ place < part.length, opensRegion ((part ++ following).drop place) = false)
    (hends : following = [] ∨ opensRegion following = true) :
    let alone := (elixir options).scanLine (.elixir state) part
    let reached : GrammarState := .mixed ⟨alone.2, none, inner, opening⟩
    let later := (cell options).scanner.scanRest
      ((View.ofLine (part ++ following) options.tabSize).next part.length) reached
    (cell options).scanLine (.mixed ⟨.elixir state, none, inner, opening⟩)
        (part ++ following) = (alone.1 ++ later.1, later.2) ∧
      Covers alone.1 part ∧ Covers later.1 following ∧
      (∃ after, alone.2 = .elixir after) ∧
      (following = [] → (cell options).scanLine
        (.mixed ⟨.elixir state, none, inner, opening⟩) part = (alone.1, reached)) := by
  have hblank : headIs isBlank following = false := by
    rcases hends with rfl | hends
    · rfl
    · exact headIs_isBlank_of_opensRegion hends
  have hhosts := hosts_elixir options isText_opener_cell
    (fun place hplace => by simpa [← isSome_openingHere_cell] using hfree place hplace)
    (hends.imp_right fun h => (isSome_openingHere_cell following).trans h) hblank inner opening
  have hrun := hhosts.scanRest (elixir options).inBounds_scanner
    (View.ofLine part options.tabSize) ⟨View.line_ofLine _ _, rfl⟩ rfl (.elixir state)
  have halone : (elixir options).scanLine (.elixir state) part =
      (elixir options).scanner.scanRest (View.ofLine part options.tabSize) (.elixir state) :=
    Scanner.scanLine_eq _ _ _ hpart
  have hcell : (cell options).scanLine (.mixed ⟨.elixir state, none, inner, opening⟩)
      (part ++ following) =
        let alone := (elixir options).scanLine (.elixir state) part
        let later := (cell options).scanner.scanRest
          ((View.ofLine (part ++ following) options.tabSize).next part.length)
          (.mixed ⟨alone.2, none, inner, opening⟩)
        (alone.1 ++ later.1, later.2) := by
    rw [cell, scanLine_mixed, halone,
      Scanner.scanLine_eq _ _ _ (List.append_ne_nil_of_left_ne_nil hpart following)]
    simp only [scanRest_mixed]
    exact congrArg (fun run => (run.1, GrammarState.mixed run.2)) hrun
  have hahead : ((View.ofLine (part ++ following) options.tabSize).next part.length).ahead =
      following := List.drop_left
  refine ⟨hcell, covers_scanLine _ _ _, ?_, ?_, ?_⟩
  · have hcovers := (cell options).inBounds_scanner.covers_scanRest
      ((View.ofLine (part ++ following) options.tabSize).next part.length)
    rw [hahead] at hcovers
    exact hcovers _
  · have hunwrap (state : Elixir.State) :
        GrammarState.elixir? (.elixir state) = some state := rfl
    exact ⟨_, congrArg Prod.snd (Scanner.scanLine_within _ hunwrap _ _ _)⟩
  · rintro rfl
    rw [List.append_nil] at hcell hahead
    simp only [hcell, Scanner.scanRest_nil _ hahead, List.append_nil]

theorem scanLine_cell_snippet :
    let alone := (elixir {}).scanLine (.elixir (.start {})) "x = ".toList
    let later := (cell {}).scanner.scanRest ((View.ofLine "x = [r|1|]".toList 4).next 4)
      (.mixed ⟨alone.2, none, none, false⟩)
    (cell {}).scanLine (cell {}).start "x = [r|1|]".toList = (alone.1 ++ later.1, later.2) :=
  (scanLine_cell_eq_elixir {} (.start {}) none false "x = ".toList "[r|1|]".toList
    (by decide) (by decide) (.inr (by decide))).1

end Grammar

end CellHighlight
