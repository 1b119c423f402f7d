import CellHighlight.Proofs.Scopes.Lines
import CellHighlight.Proofs.Stalls
import CellHighlight.Proofs.Styles.Tokens

/-!
# Conditions at the beginning of a line

`if` and `unless` open a scope only as the first word of a line.  The scanner decides this by
columns, in which a tab counts for the places that are left up to the next stop.  Columns grow
with every character, whatever the tab size, so they tell the places of a line apart as long as
they fit into a word.
-/

namespace CellHighlight

/-! ## Columns -/

/-- The text as it is drawn from a column on, with spaces up to the next stop for each tab. -/
def expandTabs (tabSize : Nat) : Nat → List Char → List Char
  | _, [] => []
  | column, c :: text =>
      let drawn := if c = '\t' then List.replicate (tabSize - column % tabSize) ' ' else [c]
      drawn ++ expandTabs tabSize (column + drawn.length) text

section Columns

variable {tabSize : Nat} {text : List Char}

theorem expandTabs_append (tabSize column : Nat) (first second : List Char) :
    expandTabs tabSize column (first ++ second) =
      let drawn := expandTabs tabSize column first
      drawn ++ expandTabs tabSize (column + drawn.length) second := by
  induction first generalizing column with
  | nil => rfl
  | cons c first ih =>
      simp only [List.cons_append, expandTabs, ih, List.length_append, List.append_assoc,
        Nat.add_assoc]

theorem length_expandTabs_pos (h : 0 < tabSize) (column : Nat) (htext : text ≠ []) :
    0 < (expandTabs tabSize column text).length := by
  cases text with
  | nil => exact absurd rfl htext
  | cons c text =>
      have hmod := Nat.mod_lt column h
      simp only [expandTabs, List.length_append]
      split
      · rw [List.length_replicate]
        omega
      · rw [List.length_singleton]
        omega

theorem foldl_nextColumn (h : 0 < tabSize) {limit column : Nat}
    (hlimit : column + (expandTabs tabSize column text).length < limit) :
    text.foldl (nextColumn limit tabSize) column =
      column + (expandTabs tabSize column text).length := by
  induction text generalizing column with
  | nil => rfl
  | cons c text ih =>
      have hmod := Nat.mod_lt column h
      simp only [expandTabs, List.length_append, ← Nat.add_assoc] at hlimit ⊢
      have hnext : nextColumn limit tabSize column c = column +
          (if c = '\t' then List.replicate (tabSize - column % tabSize) ' ' else [c]).length := by
        rw [nextColumn]
        split at hlimit <;> split
        · rw [List.length_replicate] at hlimit ⊢
          rw [Nat.mod_eq_of_lt (by omega)]
          omega
        · contradiction
        · contradiction
        · rw [List.length_singleton] at hlimit ⊢
          exact Nat.mod_eq_of_lt (by omega)
      rw [List.foldl_cons, hnext]
      exact ih hlimit

theorem columnAfter_eq_length (h : 0 < tabSize)
    (hwidth : (expandTabs tabSize 0 text).length < 2 ^ 64) :
    columnAfter tabSize text = (expandTabs tabSize 0 text).length := by
  have hlimit : 0 + (expandTabs tabSize 0 text).length < columnLimit text := by
    unfold columnLimit UInt64.size
    omega
  exact (foldl_nextColumn h hlimit).trans (Nat.zero_add _)

/-- Two places of a text are in the same column only if they are the same. -/
theorem columnAfter_eq_iff (h : 0 < tabSize) {first second : List Char}
    (hfirst : first <+: second) (hwidth : (expandTabs tabSize 0 second).length < 2 ^ 64) :
    columnAfter tabSize second = columnAfter tabSize first ↔
      byteLength second = byteLength first := by
  obtain ⟨more, rfl⟩ := hfirst
  by_cases hmore : more = []
  · simp [hmore]
  · have hbytes := byteLength_pos hmore
    have hdrawn := length_expandTabs_pos h (0 + (expandTabs tabSize 0 first).length) hmore
    have hlength := congrArg List.length (expandTabs_append tabSize 0 first more)
    rw [List.length_append] at hlength
    rw [columnAfter_eq_length h hwidth, columnAfter_eq_length h (by omega), byteLength_append]
    omega

theorem length_expandTabs_le {first second : List Char} (h : first <+: second) :
    (expandTabs tabSize 0 first).length ≤ (expandTabs tabSize 0 second).length := by
  obtain ⟨more, rfl⟩ := h
  rw [expandTabs_append, List.length_append]
  exact Nat.le_add_right _ _

theorem length_le_byteLength (text : List Char) : text.length ≤ byteLength text := by
  induction text with
  | nil => exact Nat.le_refl 0
  | cons c text ih =>
      have hc := c.utf8Size_pos
      rw [List.length_cons, byteLength_cons]
      omega

theorem keptIndentationOf_eq (h : 0 < tabSize) {line : List Char} (hline : byteLength line < 2 ^ 63)
    (hwidth : (expandTabs tabSize 0 (line.takeWhile isBlank)).length < 2 ^ 64) :
    keptIndentationOf tabSize line =
      min (expandTabs tabSize 0 (line.takeWhile isBlank)).length (2 ^ 63 - 1) := by
  have hblanks : (line.takeWhile isBlank).length ≤ line.length :=
    (List.takeWhile_prefix isBlank).length_le
  have hlength := length_le_byteLength line
  rw [keptIndentationOf, indentationOf, columnAfter_eq_length h hwidth, lastKept]
  omega

end Columns

namespace Elixir

variable {options : Options} {view : View} {state : State} {before text : List Char}
  {frames : List Frame}

/-! ## Words in code -/

structure Scan.Lettered (scan : Scan) : Prop where
  keyword : scan.kind ≠ .styled .keyword
  marker : scan.kind = .word → scan.marker = none

theorem lettered_onto_codeLexeme (hletter : headIs isAsciiLetter text = true)
    (atLineStart barIsMarker : Bool) (frames : List Frame) :
    ((codeLexeme atLineStart barIsMarker text).onto frames).Lettered := by
  cases text with
  | nil => cases hletter
  | cons c text =>
      rw [codeLexeme_of_isAsciiLetter hletter]
      unfold nameLexeme
      dsimp only
      split
      · exact ⟨nofun, nofun⟩
      · exact ⟨nofun, fun _ => rfl⟩

theorem lettered_scanQuoted {quoted : Quoted} (h : isLiteralStyle quoted.style = true)
    (below : List Frame) (text : List Char) : (scanQuoted quoted below text).Lettered := by
  refine ⟨?_, nofun⟩
  intro hkind
  have hstyle : quoted.style = .keyword := by simpa [scanQuoted] using hkind
  rw [hstyle] at h
  cases h

theorem StyledAt.lettered_scanFrames (h : StyledAt before text frames)
    (hletter : headIs isAsciiLetter text = true) (atLineStart barIsMarker : Bool) :
    (scanFrames atLineStart barIsMarker text frames).Lettered := by
  have hcode := lettered_onto_codeLexeme hletter atLineStart barIsMarker
  obtain ⟨hshaped, hstyled, -⟩ := h
  cases hshaped with
  | pending => exact hcode _
  | shaped hshaped =>
      cases hshaped with
      | quoted => exact lettered_scanQuoted (hstyled _ List.mem_cons_self) _ _
      | once =>
          exact lettered_scanQuoted (hstyled _ (List.mem_cons_of_mem _ List.mem_cons_self)) _ _
      | heredoc => exact ⟨nofun, nofun⟩
      | blockComment => exact ⟨nofun, nofun⟩
      | code hframes =>
          cases hframes with
          | base => exact hcode _
          | embedded =>
              simp only [Elixir.scanFrames]
              split
              · exact lettered_scanQuoted
                  (hstyled _ (List.mem_cons_of_mem _ List.mem_cons_self)) _ _
              · exact hcode _

/-! ## Steps -/

def State.Notes (state : State) (view : View) : Prop :=
  view.atLineStart = false → state.indentation = view.keptIndentation

theorem State.Notes.indentation_noted (h : state.Notes view) (options : Options) :
    ((state.mend options).noteIndentation view).indentation = view.keptIndentation := by
  unfold State.noteIndentation
  split
  · rfl
  · next hstart => exact h (Bool.eq_false_iff.mpr hstart)

theorem invariant_notes (options : Options) :
    (scanner options).Invariant (fun view state => state.Notes view) (fun _ => True) := by
  constructor
  case enter =>
    intro line tabSize state _ hstart
    cases hstart
  case step =>
    intro view state _ h _
    rw [keptIndentation_next]
    exact h.indentation_noted options
  case skip =>
    intro view state hahead _ hlength
    exact absurd hlength (Nat.ne_of_gt (advances_scanner options view state hahead))
  case leave => exact fun _ _ => trivial
  case blank => exact fun _ => trivial

def conditionWords : List (List Char) := ["if".toList, "unless".toList]

theorem headIs_of_mem_conditionWords {n : Nat} (h : text.take n ∈ conditionWords) :
    headIs isAsciiLetter text = true :=
  headIs_of_take ((by decide : ∀ word ∈ conditionWords, headIs isAsciiLetter word = true) _ h)

theorem headIs_isBlank_of_headIs (h : headIs isAsciiLetter text = true) :
    headIs isBlank text = false := by
  cases text with
  | nil => rfl
  | cons c text => exact isBlank_of_isAsciiLetter h

theorem directive?_conditionWord {word : List Char} (h : word ∈ conditionWords) (state : State)
    (firstOnLine : Bool) :
    directive? state firstOnLine word = if firstOnLine then some .openScope else none := by
  simp only [conditionWords, List.mem_cons, List.not_mem_nil, or_false] at h
  rcases h with rfl | rfl <;> cases firstOnLine <;> rfl

theorem step_condition (hregular : state.Regular options (ShapedAt view.ahead))
    (hstyled : StyledAt view.before view.ahead state.frames) (hnotes : state.Notes view)
    (htaken : view.taken = []) (hkeyword : (step options view state).style = .keyword)
    (hword : view.ahead.take (step options view state).length ∈ conditionWords) :
    (step options view state).state.scopes =
      if view.column = view.indentation then ⟨.keyword, view.keptIndentation⟩ :: state.scopes
      else state.scopes := by
  have hletter := headIs_of_mem_conditionWords hword
  have hindentation := hnotes.indentation_noted options
  have hlettered := hstyled.lettered_scanFrames hletter view.atLineStart
    ((state.mend options).noteIndentation view).barIsMarker
  rw [← State.frames_noted hstyled.shaped.getLast? options view] at hlettered
  have hscopes : ((state.mend options).noteIndentation view).scopes = state.scopes := by
    rw [State.scopes_noteIndentation, hregular.intact.mend]
  unfold step at hkeyword hword ⊢
  dsimp only at hkeyword hword ⊢
  generalize (state.mend options).noteIndentation view = noted at *
  generalize scanFrames view.atLineStart noted.barIsMarker view.ahead noted.frames = scan at *
  -- Only a word can be drawn as a keyword here, and a word has no marker.
  cases hkind : scan.kind with
  | styled style =>
      rw [hkind] at hkeyword
      exact absurd (hkind.trans (congrArg LexemeKind.styled hkeyword)) hlettered.keyword
  | word =>
      rw [hkind] at hkeyword
      dsimp only at hkeyword
      rw [htaken, List.nil_append] at hkeyword ⊢
      rw [hlettered.marker hkind, hkeyword, directive?_conditionWord hword, ← hindentation]
      by_cases hfirst : view.column = view.indentation
      · simp [hfirst, State.scopesAfter, hscopes]
      · simp [hfirst, State.scopesAfter, hscopes]

end Elixir

namespace Grammar

open Elixir

theorem tokens_visits_of_advances {grammar : Grammar} (h : grammar.scanner.Advances)
    (state : GrammarState) (line : List Char) :
    (grammar.scanLine state line).1 =
      (grammar.visits state line).filterMap grammar.scanner.tokenAt? := by
  by_cases hline : line = []
  · subst hline
    rfl
  · rw [scanLine, Scanner.scanLine, if_neg (by simpa using hline)]
    exact (h.stallsOnce.tokens_visits _ _ _).symm

structure InRun (options : Options) (view : View) (code : State) : Prop where
  regular : code.Regular options (ShapedAt view.ahead)
  styled : StyledAt view.before view.ahead code.frames
  notes : code.Notes view

theorem inRun_of_mem_visits (options : Options) (lines : List (List Char)) (line : List Char) :
    let grammar := elixir options
    ∀ visit ∈ grammar.visits (grammar.scanLines grammar.start lines).2 line,
      ∃ code, visit.2 = .elixir code ∧ InRun options visit.1 code := by
  intro grammar visit hvisit
  have hinvariant := ((invariant_scanner options).and ((invariant_styledAt options).and
    (invariant_notes options))).within GrammarState.elixir
      (show ∀ code, GrammarState.elixir? (.elixir code) = some code from fun _ => rfl)
  have hscanner : grammar.scanner =
      (Elixir.scanner options).within GrammarState.elixir GrammarState.elixir? := by
    rw [scanner]
  rw [← hscanner] at hinvariant
  have hstart : grammar.start = .elixir (.start options) := by
    rw [Grammar.start, hscanner]
    rfl
  have hreached := between_scanLines hinvariant lines
    ⟨_, hstart, Elixir.regular_start options, styledAt_start options, trivial⟩
  obtain ⟨-, code, hcode, hregular, hstyled, hnotes⟩ :=
    during_visits hinvariant hreached line visit hvisit
  exact ⟨code, hcode, hregular, hstyled, hnotes⟩

/-- In every run, a condition opens a scope exactly when only blanks are before it on its line,
and the scope has the width of these blanks as they are drawn, or the greatest number that a
state can keep.  Columns must not go past the last word before the condition; the line is one
that fits into memory. -/
theorem scanLines_conditions (options : Options) (lines : List (List Char)) (line : List Char)
    (hline : byteLength line < 2 ^ 63) :
    let grammar := elixir options
    let state := (grammar.scanLines grammar.start lines).2
    let blanks := line.takeWhile isBlank
    let width := fun text => (expandTabs (max options.tabSize 1) 0 text).length
    (grammar.scanLine state line).1 =
        (grammar.visits state line).filterMap grammar.scanner.tokenAt? ∧
      ∀ visit ∈ grammar.visits state line, ∃ code, visit.2 = .elixir code ∧
        let token := step options visit.1 code
        visit.1.before ++ visit.1.ahead = line ∧
          grammar.scanner.step visit.1 visit.2 = ⟨token.length, token.style, .elixir token.state⟩ ∧
          (token.style = .keyword → visit.1.ahead.take token.length ∈ conditionWords →
            width visit.1.before < 2 ^ 64 →
            token.state.scopes =
              if byteLength visit.1.before = byteLength blanks then
                ⟨.keyword, (min (width blanks) (2 ^ 63 - 1) : Nat)⟩ :: code.scopes
              else code.scopes) := by
  intro grammar state blanks width
  refine ⟨tokens_visits_of_advances (advances_elixir options) state line, fun visit hvisit => ?_⟩
  obtain ⟨code, hcode, hrun⟩ := inRun_of_mem_visits options lines line visit hvisit
  obtain ⟨n, hn⟩ := grammar.scanner.exists_next_of_mem_visits line.length rfl state visit hvisit
  have hparts : visit.1.before ++ visit.1.ahead = line := by simp [hn, View.next, View.ofLine]
  refine ⟨code, hcode, hparts, ?_, fun hkeyword hword hwidth => ?_⟩
  · rw [hcode]
    simp only [grammar, scanner]
    rfl
  · have htab : visit.1.tabSize = max options.tabSize 1 := by rw [hn]; rfl
    have hsize : 0 < max options.tabSize 1 := by omega
    -- A condition is not blank, so the blanks of the line are before it.
    have hblanks : blanks = visit.1.before.takeWhile isBlank := by
      have hhead := headIs_isBlank_of_headIs (headIs_of_mem_conditionWords hword)
      rw [← takeWhile_isBlank_append _ hhead, hparts]
    have hfirst : blanks <+: visit.1.before := by
      rw [hblanks]
      exact List.takeWhile_prefix isBlank
    have hindented : width blanks < 2 ^ 64 :=
      Nat.lt_of_le_of_lt (length_expandTabs_le hfirst) hwidth
    have hstep := step_condition hrun.regular hrun.styled hrun.notes (by rw [hn]; rfl)
      hkeyword hword
    have hwhole : visit.1.line = line := by rw [hn, View.line_next, View.line_ofLine]
    have hfirst : visit.1.column = visit.1.indentation ↔
        byteLength visit.1.before = byteLength blanks := by
      rw [View.column, View.indentation, indentationOf, hwhole, htab]
      exact columnAfter_eq_iff hsize hfirst hwidth
    rw [hstep, if_congr hfirst rfl rfl, View.keptIndentation, hwhole, htab,
      keptIndentationOf_eq hsize hline hindented]

theorem scanLines_conditions_inline :
    let options : Options := ⟨2, 4⟩
    let line := "\tif if".toList
    let root := State.rootScope options
    let first : State := ⟨[.base], [root], 4, none, false, false⟩
    let second : State :=
      ⟨[.base], [⟨.keyword, 4⟩, root], 4, some (.keyword "if".toList), false, false⟩
    let view : View := .ofLine line 4
    (view.next 1, .elixir first) ∈ (elixir options).visits (elixir options).start line ∧
      (step options (view.next 1) first).state.scopes = ⟨.keyword, 4⟩ :: first.scopes ∧
      (view.next 4, .elixir second) ∈ (elixir options).visits (elixir options).start line ∧
      (step options (view.next 4) second).state.scopes = second.scopes := by
  intro options line root first second view
  have hvisits : (view.next 1, .elixir first) ∈
        (elixir options).visits (elixir options).start line ∧
      (view.next 4, .elixir second) ∈ (elixir options).visits (elixir options).start line := by
    decide
  obtain ⟨-, hconditions⟩ := scanLines_conditions options [] line (by decide)
  obtain ⟨_, ⟨⟩, -, -, hfirst⟩ := hconditions _ hvisits.1
  obtain ⟨_, ⟨⟩, -, -, hsecond⟩ := hconditions _ hvisits.2
  exact ⟨hvisits.1, hfirst (by decide) (by decide) (by decide), hvisits.2,
    hsecond (by decide) (by decide) (by decide)⟩

/-! ## Columns that overflow -/

def tabs (n : Nat) : List Char := List.replicate n '\t'

theorem isBlank_of_mem_tabs {n : Nat} {c : Char} (h : c ∈ tabs n) : isBlank c = true := by
  rw [List.eq_of_mem_replicate h]
  rfl

theorem length_expandTabs_tabs (tabSize m n : Nat) :
    (expandTabs tabSize (m * tabSize) (tabs n)).length = n * tabSize := by
  induction n generalizing m with
  | zero => simp [tabs, expandTabs]
  | succ n ih =>
      have hnext : m * tabSize + tabSize = (m + 1) * tabSize := (Nat.succ_mul m tabSize).symm
      rw [tabs, List.replicate_succ]
      simp only [expandTabs, if_true, List.length_append, List.length_replicate,
        Nat.mul_mod_left, Nat.sub_zero, hnext]
      rw [← tabs, ih, Nat.succ_mul, Nat.add_comm]

/-- Where the stops go on over the limit as before it, tabs are counted modulo the limit. -/
theorem foldl_nextColumn_tabs {tabSize limit : Nat} (hlimit : tabSize ∣ limit) (m n : Nat) :
    (tabs n).foldl (nextColumn limit tabSize) (m * tabSize % limit) =
      (m + n) * tabSize % limit := by
  induction n generalizing m with
  | zero => rfl
  | succ n ih =>
      have hstop : m * tabSize % limit % tabSize = 0 := by
        rw [Nat.mod_mod_of_dvd _ hlimit, Nat.mul_mod_left]
      have hnext : nextColumn limit tabSize (m * tabSize % limit) '\t' =
          (m + 1) * tabSize % limit := by
        simp only [nextColumn, if_true, hstop, Nat.sub_zero]
        rw [Nat.mod_add_mod, ← Nat.succ_mul]
      rw [tabs, List.replicate_succ, List.foldl_cons, hnext, ← tabs, ih, Nat.add_right_comm m 1 n,
        Nat.add_assoc]

theorem linesTurn_condition {options : Options} {first : List Scope} {before : List Char}
    (hbefore : ∀ view : View, view.ahead = before ++ "if".toList →
      Turns options view before first first)
    (hplace : columnAfter (max options.tabSize 1) before =
      indentationOf (max options.tabSize 1) (before ++ "if".toList)) :
    LinesTurn options [before ++ "if".toList] first
      (⟨.keyword, keptIndentationOf (max options.tabSize 1) (before ++ "if".toList)⟩ :: first) := by
  have hword : "if".toList ∈ leadingWords := by decide
  let view := View.ofLine (before ++ "if".toList) options.tabSize
  have hahead : (view.next before.length).ahead = "if".toList ++ [] := by
    simp [view, View.next, View.ofLine]
  have hcolumn : (view.next before.length).column = (view.next before.length).indentation := by
    rw [indentation_next, View.indentation, View.line_ofLine, View.column]
    simpa [view, View.next, View.ofLine] using hplace
  have hcondition : Turns options (view.next before.length) "if".toList first _ :=
    turns_leadingWord hword hahead rfl hcolumn
  rw [keptIndentation_next, View.keptIndentation, View.line_ofLine] at hcondition
  exact linesTurn_line ((hbefore view rfl).append hcondition)

theorem linesTurn_wide {options : Options} {first : List Scope} {n : Nat}
    (hsize : 0 < options.tabSize) (hn : n < 2 ^ 63) (hwide : 2 ^ 63 ≤ n * options.tabSize)
    (hwidth : n * options.tabSize < 2 ^ 64) :
    LinesTurn options [tabs n ++ "if".toList] first (⟨.keyword, (2 ^ 63 - 1 : Nat)⟩ :: first) := by
  have htab : max options.tabSize 1 = options.tabSize := by omega
  have hblanks : (tabs n ++ "if".toList).takeWhile isBlank = tabs n := by
    rw [takeWhile_isBlank_append _ (by decide)]
    exact List.takeWhile_eq_self_iff.mpr fun _ => isBlank_of_mem_tabs
  have hdrawn : (expandTabs options.tabSize 0 (tabs n)).length = n * options.tabSize := by
    simpa using length_expandTabs_tabs options.tabSize 0 n
  have hkept : keptIndentationOf (max options.tabSize 1) (tabs n ++ "if".toList) = 2 ^ 63 - 1 := by
    rw [keptIndentationOf, indentationOf, hblanks, htab,
      columnAfter_eq_length hsize (by omega), hdrawn, lastKept, tabs, List.length_replicate]
    omega
  have hturns : LinesTurn options [tabs n ++ "if".toList] first _ :=
    linesTurn_condition (fun _ hahead => turns_blanks (fun _ => isBlank_of_mem_tabs) hahead)
      (by rw [indentationOf, hblanks])
  rwa [hkept] at hturns

theorem linesTurn_wrapped {options : Options} {first : List Scope} {n : Nat}
    (hsize : 1 < options.tabSize) (hstops : (1 + n) * options.tabSize = 2 ^ 64) :
    LinesTurn options [('x' :: '\t' :: tabs n) ++ "if".toList] first (⟨.keyword, 0⟩ :: first) := by
  have htab : max options.tabSize 1 = options.tabSize := by omega
  have hcount : (1 + n) * 2 ≤ 2 ^ 64 := by
    rw [← hstops]
    exact Nat.mul_le_mul_left (1 + n) hsize
  have hcolumn : columnAfter options.tabSize ('x' :: '\t' :: tabs n) = 0 := by
    have hlimit : columnLimit ('x' :: '\t' :: tabs n) = 2 ^ 64 := by
      simp only [columnLimit, UInt64.size, List.length_cons, tabs, List.length_replicate]
      omega
    have hword : nextColumn (2 ^ 64) options.tabSize 0 'x' = 1 := rfl
    have htabbed : nextColumn (2 ^ 64) options.tabSize 1 '\t' =
        1 * options.tabSize % 2 ^ 64 := by
      simp only [nextColumn, if_true, Nat.mod_eq_of_lt hsize, Nat.add_sub_cancel_left, Nat.one_mul]
    rw [columnAfter, hlimit, List.foldl_cons, List.foldl_cons, hword, htabbed,
      foldl_nextColumn_tabs ⟨1 + n, by rw [← hstops, Nat.mul_comm]⟩, hstops, Nat.mod_self]
  have hindentation : indentationOf options.tabSize
      (('x' :: '\t' :: tabs n) ++ "if".toList) = 0 := rfl
  have hkept : keptIndentationOf options.tabSize
      (('x' :: '\t' :: tabs n) ++ "if".toList) = 0 := by
    rw [keptIndentationOf, hindentation, Nat.zero_min]
  have hbefore : ∀ view : View, view.ahead = ('x' :: '\t' :: tabs n) ++ "if".toList →
      Turns options view ('x' :: '\t' :: tabs n) first first := by
    intro view hahead
    have hrest : view.ahead = "x".toList ++ (('\t' :: tabs n) ++ "if".toList) := hahead
    exact (turns_name ⟨rfl, rfl⟩ hrest rfl).append (turns_blanks
      (List.forall_mem_cons.mpr ⟨rfl, fun _ => isBlank_of_mem_tabs⟩) (ahead_next hrest))
  have hturns : LinesTurn options [('x' :: '\t' :: tabs n) ++ "if".toList] first _ :=
    linesTurn_condition hbefore (by rw [htab, hcolumn, hindentation])
  rwa [htab, hkept] at hturns

theorem LinesTurn.exists_scanLine {options : Options} {line : List Char} {scopes : List Scope}
    (h : LinesTurn options [line] [State.rootScope options] scopes) :
    ∃ after, ((elixir options).scanLine (elixir options).start line).2 = .elixir after ∧
      after.scopes = scopes := by
  have hstart : (elixir options).start = .elixir (.start options) := by
    simp only [start, scanner]
    rfl
  have hcode : (State.start options).InCode options :=
    ⟨(Elixir.regular_start options).imp fun _ => rfl, by simp [State.start]⟩
  obtain ⟨after, -, hafter, hrun⟩ := h _ hcode rfl
  rw [hstart]
  exact ⟨after, hrun, hafter⟩

/-- A scope does not have the width of the blanks before its condition when the tab size is
zero, since a tab is at least one column wide, or when tabs make the line too wide to be kept;
and if they make it too wide to be counted, a condition opens a scope within its line. -/
theorem scanLine_conditions_unequal :
    (let options : Options := ⟨2, 0⟩
      ∃ after, ((elixir options).scanLine (elixir options).start "\tif".toList).2 =
        .elixir after ∧ after.scopes = [⟨.keyword, 1⟩, State.rootScope options] ∧
        (expandTabs 0 0 "\t".toList).length = 0) ∧
    (let options : Options := ⟨2, 4294967295⟩
      let blanks := tabs (2 ^ 31 + 1)
      ∃ after, ((elixir options).scanLine (elixir options).start (blanks ++ "if".toList)).2 =
        .elixir after ∧
        after.scopes = [⟨.keyword, 9223372036854775807⟩, State.rootScope options] ∧
        (expandTabs 4294967295 0 blanks).length = 9223372039002259455) ∧
    (let options : Options := ⟨2, 2147483648⟩
      let line := 'x' :: '\t' :: tabs (2 ^ 33 - 1) ++ "if".toList
      ∃ after, ((elixir options).scanLine (elixir options).start line).2 = .elixir after ∧
        after.scopes = [⟨.keyword, 0⟩, State.rootScope options] ∧
        line.takeWhile isBlank = []) := by
  refine ⟨?_, ?_, ?_⟩
  · exact ⟨_, rfl, by decide, by decide⟩
  · intro options blanks
    obtain ⟨after, hrun, hafter⟩ := LinesTurn.exists_scanLine
      (linesTurn_wide (by decide : 0 < options.tabSize) (by decide : 2 ^ 31 + 1 < 2 ^ 63)
        (by decide) (by decide))
    have hdrawn := length_expandTabs_tabs 4294967295 0 (2 ^ 31 + 1)
    exact ⟨after, hrun, hafter, hdrawn⟩
  · intro options line
    obtain ⟨after, hrun, hafter⟩ := LinesTurn.exists_scanLine
      (linesTurn_wrapped (by decide : 1 < options.tabSize)
        (by decide : (1 + (2 ^ 33 - 1)) * 2147483648 = 2 ^ 64))
    exact ⟨after, hrun, hafter, rfl⟩

end Grammar

end CellHighlight
