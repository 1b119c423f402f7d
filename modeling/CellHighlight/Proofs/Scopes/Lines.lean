import CellHighlight.Proofs.Literals.Stack
import Mathlib.Data.List.TakeWhile

/-!
# Scopes along a line

What the pieces of a line of code make of the open scopes.  Blanks and names change
nothing, a bracket opens or closes a scope, and a keyword does so by its directive.  A line
is put together from its pieces, and a text from its lines.
-/

namespace CellHighlight.Elixir

/-! ## Words -/

def isWord (word : List Char) : Bool := headIs isAsciiLetter word && word.all isNameChar

def extendsWord (c : Char) : Bool := isNameChar c || c == '?' || c == '!' || c == ':'

theorem runLength_append {p : Char → Bool} {first second : List Char}
    (hfirst : ∀ c ∈ first, p c = true) (hsecond : headIs p second = false) :
    runLength p (first ++ second) = first.length := by
  induction first with
  | nil => exact runLength_eq_zero hsecond
  | cons c first ih =>
      rw [List.cons_append, runLength_cons, if_pos (hfirst c (by simp)),
        ih fun d hd => hfirst d (by simp [hd]), List.length_cons, Nat.add_comm]

theorem headIs_append {p : Char → Bool} {text rest : List Char} (htext : headIs p text = false)
    (hrest : headIs p rest = false) : headIs p (text ++ rest) = false := by
  cases text with
  | nil => exact hrest
  | cons c text => exact htext

theorem headIs_eq_false_of_imp {p q : Char → Bool} (hpq : ∀ c, p c = true → q c = true)
    {text : List Char} (h : headIs q text = false) : headIs p text = false := by
  cases text with
  | nil => rfl
  | cons c text => exact Bool.eq_false_iff.mpr fun hp => Bool.eq_false_iff.mp h (hpq c hp)

theorem codeLexeme_word {word rest : List Char} (hword : isWord word = true)
    (hrest : headIs extendsWord rest = false) (atLineStart barIsMarker : Bool) :
    codeLexeme atLineStart barIsMarker (word ++ rest) = ⟨word.length, .word, none, []⟩ := by
  cases word with
  | nil => cases hword
  | cons c word =>
      simp only [isWord, headIs, List.all_cons, Bool.and_eq_true, List.all_eq_true] at hword
      have hbody : runLength isNameChar (word ++ rest) = word.length :=
        runLength_append hword.2.2
          (headIs_eq_false_of_imp (fun c hc => by simp [extendsWord, hc]) hrest)
      have hmark : oneIf (fun c => c == '?' || c == '!') rest = 0 :=
        oneIf_eq_zero (headIs_eq_false_of_imp
          (fun c hc => by simp only [extendsWord, Bool.or_assoc, hc]; grind) hrest)
      have hcolon : headIs (· == ':') rest = false :=
        headIs_eq_false_of_imp (fun c hc => by simp [extendsWord, hc]) hrest
      rw [List.cons_append, codeLexeme_of_isAsciiLetter hword.1]
      simp [nameLexeme, hbody, hmark, hcolon, Nat.add_comm]

structure IsName (word : List Char) : Prop where
  isWord : isWord word = true
  isKeyword : isKeyword word = false

def leadingWords : List (List Char) :=
  "if".toList :: "unless".toList :: openingWords.filter isWord

theorem isWord_of_mem_leadingWords {word : List Char} (h : word ∈ leadingWords) :
    isWord word = true ∧ isKeyword word = true := by
  have hall : ∀ word ∈ leadingWords, isWord word = true ∧ isKeyword word = true := by decide
  exact hall word h

theorem directive?_leadingWord {word : List Char} (h : word ∈ leadingWords) (state : State) :
    directive? state true word = some .openScope := by
  simp only [leadingWords, List.mem_cons] at h
  rcases h with rfl | rfl | h
  · rfl
  · rfl
  · simp [directive?, List.mem_filter.mp h]

/-- The innermost scope was opened on a line indented less than `column`. -/
def leftOf (column : Int) (scopes : List Scope) : Bool :=
  scopes.head?.any fun scope => scope.indentation < column

theorem headIs_isBlank_of_isWord {word : List Char} (h : isWord word = true)
    (rest : List Char) : headIs isBlank (word ++ rest) = false := by
  cases word with
  | nil => cases h
  | cons c word =>
      simp only [isWord, headIs, Bool.and_eq_true] at h
      exact isBlank_of_isAsciiLetter h.1

/-! ## States in code -/

@[simp] theorem indentation_next (view : View) (n : Nat) :
    (view.next n).indentation = view.indentation := by
  rw [View.indentation, View.indentation, View.line_next]
  rfl

@[simp] theorem keptIndentation_next (view : View) (n : Nat) :
    (view.next n).keptIndentation = view.keptIndentation := by
  rw [View.keptIndentation, View.keptIndentation, View.line_next]
  rfl

namespace State

structure InCode (options : Options) (state : State) : Prop where
  regular : state.Regular options (· = [.base])
  lastToken : state.lastToken ≠ some (.marker .dot)

structure InLine (options : Options) (view : View) (state : State) : Prop
    extends state.InCode options where
  taken : view.taken = []
  indentation : view.atLineStart = false → state.indentation = view.keptIndentation

variable {options : Options} {view : View} {state : State}

theorem InCode.inLine (h : state.InCode options) (line : List Char) (tabSize : Nat) :
    state.InLine options (View.ofLine line tabSize) :=
  ⟨h, rfl, fun hstart => by cases hstart⟩

theorem InCode.blank (h : state.InCode options) :
    ((scanner options).blank state).InCode options :=
  ⟨⟨h.regular.frames, h.regular.scopes, h.regular.indentation, h.regular.lastToken⟩,
    h.lastToken⟩

@[simp] theorem scopes_noteIndentation (view : View) (state : State) :
    (state.noteIndentation view).scopes = state.scopes := by
  unfold noteIndentation
  split <;> rfl

@[simp] theorem lastToken_noteIndentation (view : View) (state : State) :
    (state.noteIndentation view).lastToken = state.lastToken := by
  unfold noteIndentation
  split <;> rfl

theorem InLine.indentation_noteIndentation (h : state.InLine options view) :
    (state.noteIndentation view).indentation = view.keptIndentation := by
  unfold noteIndentation
  split
  · rfl
  · next hstart => exact h.indentation (Bool.eq_false_iff.mpr hstart)

theorem lastTokenAfter_ne_dot (hlast : state.lastToken ≠ some (.marker .dot))
    {marker : Option Marker} (hmarker : marker ≠ some .dot) (style : Style) (word : List Char)
    (kind : LexemeKind) :
    state.lastTokenAfter marker style word kind ≠ some (.marker .dot) := by
  unfold lastTokenAfter
  split
  · next marker => simpa using hmarker
  split
  · exact hlast
  split
  · nofun
  · nofun

theorem wordStyle_eq_keyword_iff (hlast : state.lastToken ≠ some (.marker .dot))
    (word : List Char) : wordStyle state word = .keyword ↔ isKeyword word = true := by
  refine ⟨isKeyword_of_wordStyle, fun hkeyword => ?_⟩
  rw [wordStyle, if_neg hlast, if_pos hkeyword]

def directiveAfter (state : State) (firstOnLine : Bool) (kind : LexemeKind) (word : List Char) :
    Option Directive :=
  if kind = .word ∧ isKeyword word = true then directive? state firstOnLine word else none

theorem InLine.shaped (h : state.InLine options view) :
    state.Regular options (ShapedAt view.ahead) :=
  h.regular.imp fun hframes => hframes ▸ .shaped (.code .base)

theorem InLine.step_eq (h : state.InLine options view) {lexeme : Lexeme}
    (hlexeme : codeLexeme view.atLineStart (state.noteIndentation view).barIsMarker view.ahead =
      lexeme) (hpushed : lexeme.pushed = []) :
    step options view state =
      let noted := state.noteIndentation view
      let word := view.ahead.take lexeme.length
      let style :=
        match lexeme.kind with
        | .styled style => style
        | .word => wordStyle noted word
      { length := lexeme.length
        style
        state :=
          { frames := [.base]
            scopes := noted.scopesAfter
              (noted.directiveAfter (view.column == view.indentation) lexeme.kind word)
              lexeme.marker
            indentation := noted.indentation
            lastToken := noted.lastTokenAfter lexeme.marker style word lexeme.kind
            inParameters := noted.inParameters != (lexeme.marker == some .bar)
            continued :=
              if lexeme.length = view.ahead.length then continuesLine lexeme.marker style
              else noted.continued } } := by
  have hscan : scanFrames view.atLineStart (state.noteIndentation view).barIsMarker view.ahead
      (state.noteIndentation view).frames = lexeme.onto [.base] := by
    have hframes := (h.regular.noteIndentation view).frames
    rw [hframes, scanFrames, hlexeme]
  have hlast : (state.noteIndentation view).lastToken ≠ some (.marker .dot) := by
    simpa using h.lastToken
  simp only [Elixir.step, h.shaped.intact.mend, hscan, Lexeme.onto, hpushed, h.taken,
    List.nil_append, directiveAfter]
  cases lexeme.kind with
  | styled style => simp
  | word => simp [wordStyle_eq_keyword_iff hlast]

theorem InLine.step_blank (h : state.InLine options view) {c : Char} {rest : List Char}
    (hblank : isBlank c = true) (hahead : view.ahead = c :: rest) :
    Elixir.step options view state =
      let noted := state.noteIndentation view
      let count := runLength isBlank rest
      ⟨1 + count, .plain,
        { noted with continued := if count = rest.length then false else noted.continued }⟩ := by
  have hlexeme := codeLexeme_blank hblank view.atLineStart
    (state.noteIndentation view).barIsMarker rest
  rw [← hahead] at hlexeme
  have hframes := (h.regular.noteIndentation view).frames
  have hends : continuesLine none .plain = false := rfl
  rw [h.step_eq hlexeme rfl]
  simp [directiveAfter, scopesAfter, lastTokenAfter, hends, hframes, hahead, Nat.add_comm]

theorem noteIndentation_next {n : Nat} (hn : 0 < n) (hahead : view.ahead ≠ []) :
    state.noteIndentation (view.next n) = state :=
  if_neg (by simp [View.atLineStart_next hn hahead])

theorem InLine.noteIndentation (h : state.InLine options view) (n : Nat) :
    (state.noteIndentation view).InLine options (view.next n) := by
  refine ⟨⟨h.regular.noteIndentation view, by simpa using h.lastToken⟩, rfl, fun _ => ?_⟩
  rw [h.indentation_noteIndentation, keptIndentation_next]

theorem InLine.step (h : state.InLine options view) {lexeme : Lexeme}
    (hlexeme : codeLexeme view.atLineStart (state.noteIndentation view).barIsMarker view.ahead =
      lexeme) (hpushed : lexeme.pushed = []) (hmarker : lexeme.marker ≠ some .dot) :
    (step options view state).state.InLine options (view.next lexeme.length) := by
  have hnext := h.shaped.step
  rw [h.step_eq hlexeme hpushed] at hnext ⊢
  refine ⟨⟨hnext.imp fun _ => rfl, ?_⟩, rfl, fun _ => ?_⟩
  · exact lastTokenAfter_ne_dot (by simpa using h.lastToken) hmarker _ _ _
  · rw [keptIndentation_next]
    exact h.indentation_noteIndentation

end State

/-! ## Pieces of a line -/

def Bracket.opener : Bracket → Char
  | .round => '('
  | .square => '['
  | .curly => '{'

def Bracket.closer : Bracket → Char
  | .round => ')'
  | .square => ']'
  | .curly => '}'

/-- With `first` open before the text, the scan comes to its end with `second` open. -/
def Turns (options : Options) (view : View) (text : List Char) (first second : List Scope) :
    Prop :=
  ∀ state : State, state.InLine options view → state.scopes = first →
    ∃ after : State, after.InLine options (view.next text.length) ∧ after.scopes = second ∧
      ((scanner options).scanRest view state).2 =
        ((scanner options).scanRest (view.next text.length) after).2

section Pieces

variable {options : Options} {view : View} {text rest word : List Char}
  {first second third : List Scope}

theorem ahead_next (h : view.ahead = text ++ rest) : (view.next text.length).ahead = rest := by
  simp [View.next, h]

theorem turns_nil : Turns options view [] first first := by
  intro state hstate hscopes
  refine ⟨state, ?_, hscopes, ?_⟩
  · rwa [List.length_nil, View.next_zero hstate.taken]
  · rw [List.length_nil, View.next_zero hstate.taken]

theorem Turns.append {text' : List Char} (h : Turns options view text first second)
    (h' : Turns options (view.next text.length) text' second third) :
    Turns options view (text ++ text') first third := by
  intro state hstate hscopes
  obtain ⟨middle, hmiddle, hsecond, hrun⟩ := h state hstate hscopes
  obtain ⟨after, hafter, hthird, hrun'⟩ := h' middle hmiddle hsecond
  rw [View.next_next, ← List.length_append] at hafter hrun'
  exact ⟨after, hafter, hthird, hrun.trans hrun'⟩

theorem turns_of_ne_nil (h : first ≠ [] → Turns options view text first second) :
    Turns options view text first second := by
  intro state hstate hscopes
  refine h ?_ state hstate hscopes
  rintro rfl
  have hroot := hstate.regular.scopes
  rw [hscopes] at hroot
  cases hroot

theorem turns_of_lexeme {kind : LexemeKind} {marker : Option Marker}
    (hahead : view.ahead = text ++ rest) (htext : text ≠ [])
    (hlexeme : ∀ atLineStart barIsMarker, codeLexeme atLineStart barIsMarker view.ahead =
      ⟨text.length, kind, marker, []⟩)
    (hmarker : marker ≠ some .dot)
    (hscopes : ∀ noted : State, noted.scopes = first → noted.indentation = view.keptIndentation →
      noted.scopesAfter
        (noted.directiveAfter (view.column == view.indentation) kind text) marker = second) :
    Turns options view text first second := by
  intro state hstate hfirst
  have hlexeme := hlexeme view.atLineStart (state.noteIndentation view).barIsMarker
  have hstep := hstate.step_eq hlexeme rfl
  have hlength : ((scanner options).step view state).length = text.length :=
    congrArg Step.length hstep
  refine ⟨(step options view state).state, hstate.step hlexeme rfl hmarker, ?_, ?_⟩
  · rw [hstep]
    have htake : view.ahead.take text.length = text := by simp [hahead]
    simp only [htake]
    exact hscopes _ (by simpa using hfirst) hstate.indentation_noteIndentation
  · have hpos := List.length_pos_iff.mpr htext
    rw [Scanner.scanRest_of_taken _ (by simp [hahead, htext]) (by omega)]
    simp only [hlength]
    rfl

/-- A blank is taken with the blanks after it, but they may as well be scanned on their own. -/
theorem turns_blank {c : Char} (hblank : isBlank c = true) (hahead : view.ahead = c :: rest) :
    Turns options view [c] first first := by
  by_cases hrest : headIs isBlank rest = true
  · cases rest with
    | nil => cases hrest
    | cons d rest =>
        have hd : isBlank d = true := hrest
        have hnext : (view.next 1).ahead = d :: rest := by simp [View.next, hahead]
        intro state hstate hscopes
        have hnoted := hstate.noteIndentation 1
        refine ⟨state.noteIndentation view, hnoted, by simpa using hscopes, ?_⟩
        have hstep : (scanner options).step view state = _ := hstate.step_blank hblank hahead
        have hstep' : (scanner options).step (view.next 1) (state.noteIndentation view) = _ :=
          hnoted.step_blank hd hnext
        rw [List.length_singleton, Scanner.scanRest_of_taken _ (by simp [hahead]) (by simp [hstep]),
          Scanner.scanRest_of_taken _ (by simp [hnext]) (by simp [hstep'])]
        have hagain : (state.noteIndentation view).noteIndentation (view.next 1) =
            state.noteIndentation view :=
          State.noteIndentation_next Nat.one_pos (by simp [hahead])
        simp only [hstep, hstep', hagain, View.next_next, runLength_cons, hd, if_true,
          List.length_cons, Nat.add_comm 1, Nat.add_right_cancel_iff]
  · have hlexeme (atLineStart barIsMarker : Bool) :
        codeLexeme atLineStart barIsMarker view.ahead = ⟨1, .styled .plain, none, []⟩ := by
      rw [hahead, codeLexeme_blank hblank, runLength_eq_zero (Bool.eq_false_iff.mpr hrest)]
    exact turns_of_lexeme hahead (List.cons_ne_nil c []) hlexeme (by simp) fun _ hnoted _ => hnoted

theorem turns_blanks {blanks : List Char} (hblanks : ∀ c ∈ blanks, isBlank c = true)
    (hahead : view.ahead = blanks ++ rest) : Turns options view blanks first first := by
  induction blanks generalizing view with
  | nil => exact turns_nil
  | cons c blanks ih =>
      have hnext : (view.next [c].length).ahead = blanks ++ rest := ahead_next hahead
      exact (turns_blank (hblanks c (by simp)) hahead).append
        (ih (fun d hd => hblanks d (by simp [hd])) hnext)

theorem turns_bracket {c : Char} (hc : c ∈ ['(', '[', '{', ')', ']', '}'])
    (hahead : view.ahead = c :: rest)
    (hscopes : ∀ noted : State, noted.scopes = first → noted.indentation = view.keptIndentation →
      noted.scopesAfter none (Marker.ofChar? c) = second) :
    Turns options view [c] first second := by
  have hlexeme (atLineStart barIsMarker : Bool) :
      codeLexeme atLineStart barIsMarker view.ahead =
        ⟨1, .styled .plain, Marker.ofChar? c, []⟩ := by
    rw [hahead, codeLexeme_bracket hc]
  have hmarker : Marker.ofChar? c ≠ some .dot := by
    unfold Marker.ofChar?
    split <;> simp
  exact turns_of_lexeme hahead (List.cons_ne_nil c []) hlexeme hmarker hscopes

theorem turns_opener (bracket : Bracket) (hahead : view.ahead = bracket.opener :: rest) :
    Turns options view [bracket.opener] first
      (⟨.bracket bracket, view.keptIndentation⟩ :: first) := by
  refine turns_bracket (by cases bracket <;> decide) hahead fun noted hnoted hindentation => ?_
  have hmarker : Marker.ofChar? bracket.opener = some (.opening bracket) := by
    cases bracket <;> rfl
  simp [hmarker, State.scopesAfter, hnoted, hindentation]

theorem turns_closer (bracket : Bracket) (hahead : view.ahead = bracket.closer :: rest)
    (hfirst : first ≠ []) (scope : Scope) :
    Turns options view [bracket.closer] (scope :: first) first := by
  refine turns_bracket (by cases bracket <;> decide) hahead fun noted hnoted _ => ?_
  have hmarker : Marker.ofChar? bracket.closer = some (.closing bracket) := by
    cases bracket <;> rfl
  simp [hmarker, State.scopesAfter, hnoted, List.length_pos_iff, hfirst]

theorem turns_word (hword : isWord word = true) (hahead : view.ahead = word ++ rest)
    (hrest : headIs extendsWord rest = false)
    (hscopes : ∀ noted : State, noted.scopes = first → noted.indentation = view.keptIndentation →
      noted.scopesAfter
        (noted.directiveAfter (view.column == view.indentation) .word word) none = second) :
    Turns options view word first second := by
  have hne : word ≠ [] := by
    rintro rfl
    cases hword
  have hlexeme (atLineStart barIsMarker : Bool) :
      codeLexeme atLineStart barIsMarker view.ahead = ⟨word.length, .word, none, []⟩ := by
    rw [hahead, codeLexeme_word hword hrest]
  exact turns_of_lexeme hahead hne hlexeme (by simp) hscopes

theorem turns_name (hname : IsName word) (hahead : view.ahead = word ++ rest)
    (hrest : headIs extendsWord rest = false) : Turns options view word first first := by
  refine turns_word hname.isWord hahead hrest fun noted hnoted _ => ?_
  simpa [State.directiveAfter, hname.isKeyword, State.scopesAfter] using hnoted

theorem turns_leadingWord (hword : word ∈ leadingWords) (hahead : view.ahead = word ++ rest)
    (hrest : headIs extendsWord rest = false) (hplace : view.column = view.indentation) :
    Turns options view word first (⟨.keyword, view.keptIndentation⟩ :: first) := by
  obtain ⟨hisWord, hkeyword⟩ := isWord_of_mem_leadingWords hword
  refine turns_word hisWord hahead hrest fun noted hnoted hindentation => ?_
  have hdirective : noted.directiveAfter (view.column == view.indentation) .word word =
      some .openScope := by
    simp [State.directiveAfter, hkeyword, hplace, directive?_leadingWord hword]
  simp [hdirective, State.scopesAfter, hnoted, hindentation]

theorem turns_do (hahead : view.ahead = "do".toList ++ rest)
    (hrest : headIs extendsWord rest = false) :
    Turns options view "do".toList first
      (if leftOf view.keptIndentation first then ⟨.keyword, view.keptIndentation⟩ :: first
      else first) := by
  refine turns_word (by decide) hahead hrest fun noted hnoted hindentation => ?_
  have hdirective : noted.directiveAfter (view.column == view.indentation) .word "do".toList =
      if leftOf noted.indentation noted.scopes then some .openScope else none := rfl
  rw [hdirective, hnoted, hindentation]
  split <;> simp [State.scopesAfter, hnoted, hindentation]

theorem turns_end (hahead : view.ahead = "end".toList ++ rest)
    (hrest : headIs extendsWord rest = false) (hfirst : first ≠ []) (scope : Scope) :
    Turns options view "end".toList (scope :: first) first := by
  refine turns_word (by decide) hahead hrest fun noted hnoted _ => ?_
  have hdirective : noted.directiveAfter (view.column == view.indentation) .word "end".toList =
      some .closeScope := rfl
  rw [hdirective]
  simp [State.scopesAfter, hnoted, List.length_pos_iff, hfirst]

end Pieces

/-! ## Lines -/

def spaces (n : Nat) : List Char := List.replicate n ' '

theorem isBlank_of_mem_spaces {n : Nat} {c : Char} (h : c ∈ spaces n) : isBlank c = true := by
  rw [List.eq_of_mem_replicate h]
  rfl

/-- However many spaces there are, they can be counted. -/
theorem columnAfter_spaces (tabSize n : Nat) : columnAfter tabSize (spaces n) = n := by
  have hrun (limit column n : Nat) (hlimit : column + n < limit) :
      (spaces n).foldl (nextColumn limit tabSize) column = column + n := by
    induction n generalizing column with
    | zero => rfl
    | succ n ih =>
        have hnext : nextColumn limit tabSize column ' ' = column + 1 :=
          Nat.mod_eq_of_lt (show column + 1 < limit by omega)
        rw [spaces, List.replicate_succ, List.foldl_cons, hnext]
        exact (ih _ (by omega)).trans (Nat.add_right_comm column 1 n)
  have hlimit : 0 + n < columnLimit (spaces n) := by
    simp only [columnLimit, spaces, List.length_replicate]
    omega
  exact (hrun _ 0 n hlimit).trans (Nat.zero_add n)

theorem takeWhile_isBlank_spaces {text : List Char} (h : headIs isBlank text = false) (n : Nat) :
    (spaces n ++ text).takeWhile isBlank = spaces n := by
  rw [takeWhile_isBlank_append _ h]
  exact List.takeWhile_eq_self_iff.mpr fun c hc => isBlank_of_mem_spaces hc

theorem indentationOf_spaces {text : List Char} (h : headIs isBlank text = false)
    (tabSize n : Nat) : indentationOf tabSize (spaces n ++ text) = n := by
  rw [indentationOf, takeWhile_isBlank_spaces h, columnAfter_spaces]

theorem keptIndentationOf_spaces {text : List Char} (h : headIs isBlank text = false)
    (tabSize n : Nat) : keptIndentationOf tabSize (spaces n ++ text) = n := by
  have hlength : (spaces n).length = n := List.length_replicate
  rw [keptIndentationOf, indentationOf_spaces h, takeWhile_isBlank_spaces h, hlength]
  omega

section Lines

variable {options : Options} {first second third : List Scope}

theorem turns_spaces_append {text : List Char} {tabSize n : Nat}
    (htext : ∀ view : View, view.ahead = text → Turns options view text first second) :
    Turns options (View.ofLine (spaces n ++ text) tabSize) (spaces n ++ text) first second :=
  (turns_blanks (fun _ hc => isBlank_of_mem_spaces hc) rfl).append
    (htext _ List.drop_left)

theorem turns_indented {text : List Char} (hhead : headIs isBlank text = false) {tabSize n : Nat}
    (htext : ∀ view : View, view.ahead = text → view.column = view.indentation →
      view.keptIndentation = n → Turns options view text first second) :
    Turns options (View.ofLine (spaces n ++ text) tabSize) (spaces n ++ text) first second := by
  refine (turns_blanks (fun _ hc => isBlank_of_mem_spaces hc) rfl).append (htext _ ?_ ?_ ?_)
  · exact List.drop_left
  · rw [indentation_next, View.indentation, View.line_ofLine, indentationOf_spaces hhead]
    simp [View.column, View.next, View.ofLine, columnAfter_spaces]
  · rw [keptIndentation_next, View.keptIndentation, View.line_ofLine,
      keptIndentationOf_spaces hhead]

def LinesTurn (options : Options) (lines : List (List Char)) (first second : List Scope) : Prop :=
  ∀ state : State, state.InCode options → state.scopes = first →
    ∃ after : State, after.InCode options ∧ after.scopes = second ∧
      ((Grammar.elixir options).scanLines (.elixir state) lines).2 = .elixir after

theorem linesTurn_nil : LinesTurn options [] first first :=
  fun state hstate hscopes => ⟨state, hstate, hscopes, rfl⟩

theorem linesTurn_line {line : List Char}
    (h : Turns options (View.ofLine line options.tabSize) line first second) :
    LinesTurn options [line] first second := by
  intro state hstate hscopes
  obtain ⟨after, hafter, hsecond, hrun⟩ := h state (hstate.inLine line _) hscopes
  have hend : ((View.ofLine line options.tabSize).next line.length).ahead = [] :=
    List.drop_length
  rw [Scanner.scanRest_nil _ hend] at hrun
  simp only [Grammar.scanLines, Grammar.scanLine_elixir]
  by_cases hline : line = []
  · subst hline
    rw [Scanner.scanRest_nil _ rfl] at hrun
    cases hrun
    exact ⟨(scanner options).blank state, hstate.blank, hsecond, rfl⟩
  · rw [Scanner.scanLine_eq _ _ _ hline, hrun]
    exact ⟨after, hafter.toInCode, hsecond, rfl⟩

theorem LinesTurn.append {lines lines' : List (List Char)}
    (h : LinesTurn options lines first second) (h' : LinesTurn options lines' second third) :
    LinesTurn options (lines ++ lines') first third := by
  intro state hstate hscopes
  obtain ⟨middle, hmiddle, hsecond, hrun⟩ := h state hstate hscopes
  obtain ⟨after, hafter, hthird, hrun'⟩ := h' middle hmiddle hsecond
  refine ⟨after, hafter, hthird, ?_⟩
  rw [Grammar.scanLines_append, hrun, hrun']

end Lines

end CellHighlight.Elixir
