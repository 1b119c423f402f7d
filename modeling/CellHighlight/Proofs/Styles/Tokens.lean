import CellHighlight.Proofs.Styles.Lexemes
import Mathlib.Data.List.Forall2

/-!
# Styles and texts of tokens

In every run of Elixir code from the start, the style of each token fits its text.  A token
of code fits by its lexeme.  A token of an open literal has the style that the stack holds
for it, so the stack must never hold any other style than that of a literal.
-/

namespace CellHighlight

/-! ## Tokens with their texts -/

def EachToken (Good : List Char → List Char → List Char → Style → Prop) :
    List Char → List Char → List Token → Prop
  | _, text, [] => text = []
  | before, text, token :: tokens =>
      ∃ piece rest, text = piece ++ rest ∧ piece ≠ [] ∧ byteLength piece = token.length ∧
        Good before piece rest token.style ∧ EachToken Good (before ++ piece) rest tokens

section Run

variable {σ : Type} {scanner : Scanner σ} {During : View → σ → Prop} {Between : σ → Prop}
  {Good : List Char → List Char → List Char → Style → Prop}

def Scanner.StepsAre (scanner : Scanner σ) (During : View → σ → Prop)
    (Good : List Char → List Char → List Char → Style → Prop) : Prop :=
  ∀ view state, view.ahead ≠ [] → view.taken = [] → During view state →
    let step := scanner.step view state
    Good view.before (view.ahead.take step.length) (view.ahead.drop step.length) step.style

theorem Scanner.StepsAre.imp {Good' : List Char → List Char → List Char → Style → Prop}
    (hgood : scanner.StepsAre During Good)
    (himp : ∀ {before text after style}, Good before text after style →
      Good' before text after style) : scanner.StepsAre During Good' :=
  fun view state hahead htaken hduring => himp (hgood view state hahead htaken hduring)

theorem Scanner.StepsAre.scanRest (hgood : scanner.StepsAre During Good)
    (hinvariant : scanner.Invariant During Between) (hadvances : scanner.Advances)
    {view : View} {state : σ} (htaken : view.taken = []) (hduring : During view state) :
    EachToken Good view.before view.ahead (scanner.scanRest view state).1 := by
  by_cases hahead : view.ahead = []
  · rw [scanRest_nil scanner hahead]
    exact hahead
  · have hpos := hadvances view state hahead
    have hlength := List.length_pos_iff.mpr hahead
    have hrest := hgood.scanRest hinvariant hadvances
      (show (view.next (scanner.step view state).length).taken = [] from rfl)
      (hinvariant.step hahead hduring)
    rw [scanRest_of_taken scanner hahead (Nat.ne_of_gt hpos)]
    refine ⟨_, _, (List.take_append_drop _ _).symm, take_ne_nil hpos hahead, rfl,
      hgood view state hahead htaken hduring, ?_⟩
    simpa [View.next, htaken] using hrest
termination_by view.ahead.length
decreasing_by
  simp only [View.next, List.length_drop]
  omega

theorem Scanner.StepsAre.scanLine (hgood : scanner.StepsAre During Good)
    (hinvariant : scanner.Invariant During Between) (hadvances : scanner.Advances)
    {state : σ} (hbetween : Between state) (tabSize : Nat) (line : List Char) :
    EachToken Good [] line (scanner.scanLine tabSize state line).1 := by
  by_cases hline : line = []
  · subst hline
    rfl
  · rw [scanLine_eq scanner tabSize state hline]
    exact hgood.scanRest hinvariant hadvances rfl (hinvariant.enter line tabSize hbetween)

end Run

theorem Grammar.eachToken_scanLines {grammar : Grammar} {During : View → GrammarState → Prop}
    {Between : GrammarState → Prop} {Good : List Char → List Char → List Char → Style → Prop}
    (hgood : grammar.scanner.StepsAre During Good)
    (hinvariant : grammar.scanner.Invariant During Between)
    (hadvances : grammar.scanner.Advances) (lines : List (List Char)) {state : GrammarState}
    (hbetween : Between state) :
    List.Forall₂ (EachToken Good []) lines (grammar.scanLines state lines).1 := by
  induction lines generalizing state with
  | nil => exact .nil
  | cons line lines ih =>
      exact .cons (hgood.scanLine hinvariant hadvances hbetween grammar.tabSize line)
        (ih (hinvariant.scanLine grammar.tabSize hbetween line))

namespace Elixir

/-! ## Styles on the stack -/

/-- The stack at a place in a line.  A block comment takes its lines whole, so a line is
either still to be taken or taken already while one is open. -/
structure StyledAt (before text : List Char) (frames : List Frame) : Prop where
  shaped : ShapedAt text frames
  styled : ∀ frame ∈ frames, frame.hasLiteralStyle = true
  alone : .blockComment ∈ frames → before = [] ∨ text = []

structure Scan.Sound (before text : List Char) (scan : Scan) : Prop where
  fits : scan.kind.Fits before (text.take scan.length) (text.drop scan.length)
  styled : ∀ frame ∈ scan.frames, frame.hasLiteralStyle = true
  alone : .blockComment ∈ scan.frames → text.drop scan.length = []

variable {before text : List Char} {frames below : List Frame}

theorem IsCode.blockComment_notMem (h : IsCode frames) : .blockComment ∉ frames := by
  induction h with
  | base => simp
  | embedded _ _ _ ih => simpa using ih

theorem Lexeme.Sound.onto {lexeme : Lexeme} (h : lexeme.Sound before text)
    (hstyled : ∀ frame ∈ frames, frame.hasLiteralStyle = true)
    (hblock : .blockComment ∉ frames) : (lexeme.onto frames).Sound before text := by
  refine ⟨h.fits, ?_, ?_⟩
  · intro frame hframe
    rcases List.mem_append.mp hframe with hpushed | hbelow
    · exact h.styled frame hpushed
    · exact hstyled frame hbelow
  · intro hmem
    rcases List.mem_append.mp hmem with hpushed | hbelow
    · exact h.alone hpushed
    · exact absurd hbelow hblock

theorem sound_scanQuoted {quoted : Quoted} (h : isLiteralStyle quoted.style = true)
    (hstyled : ∀ frame ∈ below, frame.hasLiteralStyle = true)
    (hblock : .blockComment ∉ below) (before text : List Char) :
    (scanQuoted quoted below text).Sound before text := by
  have hrest : isLiteralStyle { quoted with afterBrace := false : Quoted }.style = true := h
  -- What is left of the literal is taken like a literal whose opening is the brace.
  exact (sound_quotedLexeme hrest before text _ _).onto hstyled hblock

theorem sound_scanHeredoc (hstyled : ∀ frame ∈ below, frame.hasLiteralStyle = true)
    (before text tag : List Char) (indented : Bool) :
    Scan.Sound before text
      ⟨text.length, .styled .string, none, heredocAfter tag indented text ++ below⟩ := by
  refine ⟨trivial, ?_, fun _ => List.drop_length⟩
  intro frame hframe
  rcases List.mem_append.mp hframe with hheredoc | hbelow
  · rw [frame_of_mem_heredocAfter hheredoc]
    rfl
  · exact hstyled frame hbelow

theorem StyledAt.sound_scanFrames (h : StyledAt before text frames) (htext : text ≠ [])
    {atLineStart : Bool} (hbefore : atLineStart = true → before = []) (barIsMarker : Bool) :
    (scanFrames atLineStart barIsMarker text frames).Sound before text := by
  have hcode := sound_codeLexeme hbefore barIsMarker text htext
  obtain ⟨hshaped, hstyled, halone⟩ := h
  cases hshaped with
  | pending _ _ _ hbelow =>
      apply hcode.onto
      · simpa [Frame.hasLiteralStyle] using hstyled
      · simpa using hbelow.blockComment_notMem
  | shaped hshaped =>
      cases hshaped with
      | quoted _ hbelow =>
          rw [List.forall_mem_cons] at hstyled
          exact sound_scanQuoted hstyled.1 hstyled.2 hbelow.blockComment_notMem before text
      | once _ _ hbelow =>
          rw [List.forall_mem_cons, List.forall_mem_cons] at hstyled
          exact sound_scanQuoted hstyled.2.1 hstyled.2.2 hbelow.blockComment_notMem before text
      | heredoc =>
          rw [List.forall_mem_cons] at hstyled
          exact sound_scanHeredoc hstyled.2 before text _ _
      | blockComment =>
          have hline : before = [] := (halone List.mem_cons_self).resolve_right htext
          refine ⟨.inr ⟨hline, List.drop_length⟩, ?_, fun _ => List.drop_length⟩
          simp only [Elixir.scanFrames]
          split
          · exact (List.forall_mem_cons.mp hstyled).2
          · exact hstyled
      | code hframes =>
          cases hframes with
          | base => exact hcode.onto hstyled (by simp)
          | embedded _ _ hbelow =>
              rw [List.forall_mem_cons, List.forall_mem_cons] at hstyled
              simp only [Elixir.scanFrames]
              split
              · exact sound_scanQuoted hstyled.2.1 hstyled.2.2 hbelow.blockComment_notMem
                  before text
              · apply hcode.onto
                · simpa [Frame.hasLiteralStyle] using hstyled.2
                · simpa using hbelow.blockComment_notMem

/-! ## Steps -/

theorem fits_wordStyle {word : List Char} (h : IsIdentifier word) (state : State)
    (before after : List Char) : Fits before word after (wordStyle state word) := by
  have hupper : word.head?.any isUpper = headIs isUpper word := by
    cases word <;> rfl
  unfold wordStyle
  rw [hupper]
  split
  · exact h
  split
  · next hkeyword => exact ⟨h, hkeyword⟩
  next hkeyword =>
    have hkeyword := Bool.eq_false_iff.mpr hkeyword
    split
    · next hfirst => exact ⟨h, hkeyword, hfirst⟩
    next hfirst =>
      have hfirst := Bool.eq_false_iff.mpr hfirst
      split
      · exact ⟨h, hkeyword, hfirst⟩
      · exact ⟨h, hkeyword, hfirst⟩

section Step

variable {view : View} {state : State}

theorem StyledAt.sound_step (h : StyledAt view.before view.ahead state.frames)
    (hahead : view.ahead ≠ []) (options : Options) :
    let noted := (state.mend options).noteIndentation view
    (scanFrames view.atLineStart noted.barIsMarker view.ahead noted.frames).Sound
      view.before view.ahead := by
  have hbefore (hstart : view.atLineStart = true) : view.before = [] := by
    simp only [View.atLineStart, Bool.and_eq_true, List.isEmpty_iff] at hstart
    exact hstart.1
  rw [← State.frames_noted h.shaped.getLast? options view] at h
  exact h.sound_scanFrames hahead hbefore _

theorem StyledAt.fits_step (h : StyledAt view.before view.ahead state.frames)
    (hahead : view.ahead ≠ []) (htaken : view.taken = []) (options : Options) :
    let step := step options view state
    Fits view.before (view.ahead.take step.length) (view.ahead.drop step.length)
      step.style := by
  have hfits := (h.sound_step hahead options).fits
  unfold Elixir.step
  dsimp only
  rw [htaken, List.nil_append]
  generalize scanFrames _ _ _ _ = scan at hfits ⊢
  cases hkind : scan.kind with
  | styled style =>
      rw [hkind] at hfits
      exact hfits
  | word =>
      rw [hkind] at hfits
      exact fits_wordStyle hfits _ _ _

theorem StyledAt.step (h : StyledAt view.before view.ahead state.frames)
    (hahead : view.ahead ≠ []) (options : Options) :
    let step := step options view state
    StyledAt (view.next step.length).before (view.next step.length).ahead
      step.state.frames := by
  have hsound := h.sound_step hahead options
  refine ⟨?_, hsound.styled, fun hblock => .inr (hsound.alone hblock)⟩
  rw [← State.frames_noted h.shaped.getLast? options view] at h
  exact h.shaped.scanFrames _ _

end Step

theorem invariant_styledAt (options : Options) :
    (scanner options).Invariant (fun view state => StyledAt view.before view.ahead state.frames)
      (fun state => StyledAt [] [] state.frames) := by
  constructor
  case enter =>
    intro line tabSize state h
    exact ⟨h.shaped.imp nofun, h.styled, fun _ => .inl rfl⟩
  case step => exact fun hahead h => h.step hahead options
  case skip =>
    intro view state hahead _ hlength
    exact absurd hlength (Nat.ne_of_gt (advances_scanner options view state hahead))
  case leave =>
    intro view state hahead h
    rw [hahead] at h
    exact ⟨h.shaped, h.styled, fun _ => .inl rfl⟩
  case blank => exact fun h => h

theorem styledAt_start (options : Options) :
    StyledAt [] [] (State.start options).frames :=
  ⟨.shaped (.code .base), by simp [State.start, Frame.hasLiteralStyle], fun _ => .inl rfl⟩

/-! ## Percent signs -/

theorem percentLexeme_of_not_delimiter {text : List Char}
    (h : headIs isPercentDelimiter (text.drop (oneIf isPercentLetter text)) = false) :
    percentLexeme text = ⟨1 + oneIf isPercentLetter text, .styled .operator, none, []⟩ := by
  unfold percentLexeme
  dsimp only
  split
  · rfl
  · next hbody =>
      rw [hbody] at h
      exact if_neg (Bool.eq_false_iff.mp h)

theorem byteLength_take_percent (text : List Char) :
    byteLength (('%' :: text).take (1 + oneIf isPercentLetter text)) =
      1 + oneIf isPercentLetter text := by
  have hall : "sWQrwxq".toList.all (fun c => c.utf8Size == 1) = true := by decide
  have hpercent : '%'.utf8Size = 1 := by decide
  cases text with
  | nil => simp [oneIf, hpercent]
  | cons c text =>
      by_cases hc : isPercentLetter c = true
      · have hletter : c.utf8Size = 1 :=
          beq_iff_eq.mp (List.all_eq_true.mp hall c (List.contains_iff_mem.mp hc))
        simp [oneIf, hc, hpercent, hletter]
      · simp [oneIf, hc, hpercent]

theorem IsCode.scanFrames_percent {frames : List Frame} (h : IsCode frames) {text : List Char}
    (htext : headIs isPercentDelimiter (text.drop (oneIf isPercentLetter text)) = false)
    (atLineStart barIsMarker : Bool) :
    scanFrames atLineStart barIsMarker ('%' :: text) frames =
      ⟨1 + oneIf isPercentLetter text, .styled .operator, none, frames⟩ := by
  have hcode : codeLexeme atLineStart barIsMarker ('%' :: text) = percentLexeme text :=
    codeLexeme_cons (by simp [tripleQuote]) (by decide) atLineStart barIsMarker
  rw [h.scanFrames_eq (by simp [headIs]) (by simp [headIs]), hcode,
    percentLexeme_of_not_delimiter htext]
  rfl

theorem IsCode.step_percent {view : View} {state : State} (h : IsCode state.frames)
    {text : List Char} (hahead : view.ahead = '%' :: text)
    (htext : headIs isPercentDelimiter (text.drop (oneIf isPercentLetter text)) = false)
    (options : Options) :
    ∃ after : State, after.frames = state.frames ∧
      step options view state = ⟨1 + oneIf isPercentLetter text, .operator, after⟩ := by
  have hframes := State.frames_noted h.getLast? options view
  have hscan := h.scanFrames_percent htext view.atLineStart
    ((state.mend options).noteIndentation view).barIsMarker
  rw [← hahead, ← hframes] at hscan
  refine ⟨(step options view state).state, ?_, ?_⟩
  · rw [← hframes]
    exact congrArg Scan.frames hscan
  · simp [step, hscan]

end Elixir

/-! ## Runs -/

namespace Grammar

open Elixir

def Styled (before text : List Char) (state : GrammarState) : Prop :=
  ∃ code, state = .elixir code ∧ StyledAt before text code.frames

theorem invariant_styled (options : Options) :
    (elixir options).scanner.Invariant (fun view => Styled view.before view.ahead)
      (Styled [] []) := by
  simp only [scanner]
  exact (invariant_styledAt options).within _ fun _ => rfl

theorem styled_start (options : Options) : Styled [] [] (elixir options).start := by
  simp only [start, scanner]
  exact ⟨_, rfl, styledAt_start options⟩

theorem stepsAre_fitting (options : Options) :
    (elixir options).scanner.StepsAre (fun view => Styled view.before view.ahead) Fits := by
  rintro view _ hahead htaken ⟨code, rfl, hstyled⟩
  simp only [scanner]
  exact hstyled.fits_step hahead htaken options

/-- In every run the style of each token fits its text. -/
theorem scanLines_fits (options : Options) (lines : List (List Char)) :
    List.Forall₂ (EachToken Fits []) lines
      ((elixir options).scanLines (elixir options).start lines).1 :=
  eachToken_scanLines (stepsAre_fitting options) (invariant_styled options)
    (advances_elixir options) lines (styled_start options)

/-- Operators are made of operator characters, except that a percent sign before no literal
takes one of seven letters with it.  The text after that is scanned as the next token. -/
theorem scanLines_operators (options : Options) :
    (∀ lines, List.Forall₂
      (EachToken (fun _ text after style => style = .operator → IsOperator text after) []) lines
      ((elixir options).scanLines (elixir options).start lines).1) ∧
    ∀ {view : View} {state : State} {text : List Char}, IsCode state.frames →
      view.ahead = '%' :: text →
      headIs isPercentDelimiter (text.drop (oneIf isPercentLetter text)) = false →
      ∃ after : State, after.frames = state.frames ∧
        let n := 1 + oneIf isPercentLetter text
        let following := (Elixir.scanner options).scanRest (view.next n) after
        (Elixir.scanner options).scanRest view state =
          (⟨n, .operator⟩ :: following.1, following.2) := by
  constructor
  · intro lines
    refine eachToken_scanLines ?_ (invariant_styled options) (advances_elixir options) lines
      (styled_start options)
    apply (stepsAre_fitting options).imp
    rintro before text after _ hfits rfl
    exact hfits
  · intro view state text hcode hahead htext
    obtain ⟨after, hframes, hstep⟩ := hcode.step_percent hahead htext options
    refine ⟨after, hframes, ?_⟩
    have hstep : (Elixir.scanner options).step view state = ⟨_, _, after⟩ := hstep
    have htaken : ((Elixir.scanner options).step view state).length ≠ 0 := by
      rw [hstep]
      exact Nat.ne_of_gt (Nat.add_pos_left Nat.one_pos _)
    rw [Scanner.scanRest_of_taken _ (by simp [hahead]) htaken, hstep]
    simp only [hahead, byteLength_take_percent]

theorem scanLines_operators_before_name :
    ∃ after : State, after.frames = [.base] ∧
      let following := (Elixir.scanner {}).scanRest ((View.ofLine "%sum".toList 4).next 2) after
      (Elixir.scanner {}).scanRest (View.ofLine "%sum".toList 4) (State.start {}) =
        (⟨2, .operator⟩ :: following.1, following.2) :=
  (scanLines_operators {}).2 (show IsCode (State.start {}).frames from .base)
    (show (View.ofLine "%sum".toList 4).ahead = '%' :: "sum".toList from rfl) (by decide)

theorem scanLines_operator_with_letter :
    ¬ List.Forall₂
      (EachToken (fun _ text _ style => style = .operator → ∀ c ∈ text, isOperatorChar c = true) [])
      ["%sum".toList] ((elixir {}).scanLines (elixir {}).start ["%sum".toList]).1 := by
  have htokens : ((elixir {}).scanLines (elixir {}).start ["%sum".toList]).1 =
      [[⟨2, .operator⟩, ⟨2, .identifier⟩]] := by
    decide
  rw [htokens]
  rintro (_ | ⟨⟨piece, rest, htext, -, hlength, hoperator, -⟩, -⟩)
  have hsplit := splitAtByte?_append piece rest
  rw [← htext, hlength] at hsplit
  have hletter : 's' ∈ piece := by
    rw [show splitAtByte? "%sum".toList 2 = some (['%', 's'], ['u', 'm']) by decide] at hsplit
    cases hsplit
    decide
  exact absurd (hoperator rfl 's' hletter) (by decide)

end Grammar

end CellHighlight
