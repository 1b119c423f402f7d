import CellHighlight.Proofs.Reachable

/-!
# The stack along a line

What the frames of a state become on a line is settled by the text of the line.  A
relation between the text ahead and the stack of frames that every scan keeps holds at
the end of the line, when there is no text ahead.
-/

namespace CellHighlight

theorem Scanner.Advances.scanRest_keeps {σ : Type} {scanner : Scanner σ} (h : scanner.Advances)
    (Keeps : List Char → σ → Prop)
    (hstep : ∀ {view state}, view.ahead ≠ [] → Keeps view.ahead state →
      Keeps (view.ahead.drop (scanner.step view state).length) (scanner.step view state).state)
    {view : View} {state : σ} (hkept : Keeps view.ahead state) :
    Keeps [] (scanner.scanRest view state).2 := by
  by_cases hahead : view.ahead = []
  · rw [scanRest_nil scanner hahead]
    rwa [hahead] at hkept
  · have hpos := h view state hahead
    have hlength := List.length_pos_iff.mpr hahead
    have hnext : Keeps (view.next (scanner.step view state).length).ahead
        (scanner.step view state).state := hstep hahead hkept
    rw [scanRest_of_taken scanner hahead (Nat.ne_of_gt hpos)]
    exact h.scanRest_keeps Keeps hstep hnext
termination_by view.ahead.length
decreasing_by
  simp only [View.next, List.length_drop]
  omega

namespace Elixir

theorem State.frames_noted {state : State} (h : state.frames.getLast? = some .base)
    (options : Options) (view : View) :
    ((state.mend options).noteIndentation view).frames = state.frames := by
  rw [frames_noteIndentation_mend]
  exact if_pos h

structure KeptByScans (Stack : List Char → List Frame → Prop) : Prop where
  base : ∀ {text frames}, Stack text frames → frames.getLast? = some .base
  scan : ∀ {text frames}, text ≠ [] → Stack text frames → ∀ atLineStart barIsMarker,
    let scan := scanFrames atLineStart barIsMarker text frames
    Stack (text.drop scan.length) scan.frames

namespace KeptByScans

variable {Stack : List Char → List Frame → Prop}

theorem step (h : KeptByScans Stack) (options : Options) {view : View} {state : State}
    (hahead : view.ahead ≠ []) (hstack : Stack view.ahead state.frames) :
    Stack (view.ahead.drop (step options view state).length)
      (step options view state).state.frames := by
  have hscan := h.scan hahead hstack view.atLineStart
    ((state.mend options).noteIndentation view).barIsMarker
  rw [← State.frames_noted (h.base hstack) options view] at hscan
  exact hscan

theorem scanLine (h : KeptByScans Stack) (options : Options) {state : State}
    {line : List Char} (hstack : Stack line state.frames) :
    ∃ after, ((Grammar.elixir options).scanLine (.elixir state) line).2 = .elixir after ∧
      Stack [] after.frames := by
  refine ⟨((scanner options).scanLine options.tabSize state line).2, ?_, ?_⟩
  · rw [Grammar.scanLine_elixir]
  · by_cases hline : line = []
    · subst hline
      exact hstack
    · have hend := (advances_scanner options).scanRest_keeps
        (fun text state => Stack text state.frames) (h.step options)
        (show Stack (View.ofLine line options.tabSize).ahead state.frames from hstack)
      rwa [← Scanner.scanLine_eq _ _ _ hline] at hend

end KeptByScans

/-! ## States that can be reached -/

/-- The state of the code after some lines from the start, on their own or in a cell. -/
def State.Reachable (options : Options) (state : State) : Prop :=
  ∃ lines, ∃ grammar ∈ [Grammar.elixir options, .cell options],
    (grammar.scanLines grammar.start lines).2.code? = some state

theorem State.Reachable.regular {options : Options} {state : State}
    (h : state.Reachable options) : state.Regular options Shaped := by
  obtain ⟨lines, grammar, hgrammar, hreached⟩ := h
  have hkeeps : grammar.KeepsShape options := by
    simp only [List.mem_cons, List.not_mem_nil, or_false] at hgrammar
    rcases hgrammar with rfl | rfl
    · exact Grammar.keepsShape_elixir options
    · exact Grammar.keepsShape_cell options
  obtain ⟨code, hcode, hregular, -⟩ := hkeeps lines
  rw [hreached] at hcode
  cases hcode
  exact hregular

theorem Shaped.isCode {frames : List Frame} (h : Shaped frames)
    (htop : frames.head? = some .base ∨ ∃ depth, frames.head? = some (.untilBrace depth)) :
    IsCode frames := by
  cases h with
  | code hcode => exact hcode
  | quoted => simp at htop
  | once => simp at htop
  | heredoc => simp at htop
  | blockComment => simp at htop

theorem Shaped.eq_base {frames : List Frame} (h : Shaped frames)
    (htop : frames.head? = some .base) : frames = [.base] := by
  cases h.isCode (.inl htop) with
  | base => rfl
  | embedded => cases htop

/-! ## Tokens of code -/

theorem eq_false_of_any {p : Char → Bool} {chars : List Char} (h : chars.any p = false)
    {c : Char} (hc : c ∈ chars) : p c = false :=
  Bool.eq_false_iff.mpr (List.any_eq_false.mp h c hc)

def doubleQuoted : Quoted := ⟨'"', .interpolated, true, false, false⟩

theorem Quoted.scanBody_cons (quoted : Quoted) {c : Char} {text : List Char}
    (hdelimiter : c ≠ quoted.delimiter) (hbackslash : c ≠ '\\')
    (hembedded : c = '#' → headIs (· == '{') text = false ∧ ¬ AtVariable text) :
    quoted.scanBody false (c :: text) =
      ((quoted.scanBody false text).1 + 1, (quoted.scanBody false text).2) := by
  rw [scanBody]
  by_cases hc : c = '#'
  · obtain ⟨hbrace, hvariable⟩ := hembedded hc
    have hname : headIs (fun c => c == '@' || c == '$') text = false := by
      simpa [AtVariable] using hvariable
    simp [hdelimiter, hbackslash, hbrace, hname]
  · simp [hdelimiter, hbackslash, hc]

theorem scanQuoted_eq {quoted : Quoted} (h : quoted.afterBrace = false) (below : List Frame)
    (text : List Char) :
    scanQuoted quoted below text =
      let body := quoted.scanBody false text
      ⟨body.1, .styled quoted.style, none, quoted.framesAfter body.2 ++ below⟩ := by
  obtain ⟨delimiter, style, interpolates, raw, afterBrace⟩ := quoted
  subst h
  simp [scanQuoted]

theorem codeLexeme_cons {c : Char} {text : List Char} (hquote : c :: text ≠ tripleQuote)
    (hblank : isBlank c = false) (atLineStart barIsMarker : Bool) :
    codeLexeme atLineStart barIsMarker (c :: text) =
      (literalLexeme? c text).getD (symbolLexeme barIsMarker c text) := by
  have hquote : ((c :: text) == tripleQuote) = false := by simpa using hquote
  simp [codeLexeme, hquote, hblank]

theorem codeLexeme_blank {c : Char} (h : isBlank c = true) (atLineStart barIsMarker : Bool)
    (text : List Char) :
    codeLexeme atLineStart barIsMarker (c :: text) =
      ⟨1 + runLength isBlank text, .styled .plain, none, []⟩ := by
  have hquote : ((c :: text) == tripleQuote) = false := by
    suffices hc : c ≠ '"' by simp [tripleQuote, hc]
    rintro rfl
    exact absurd h (by decide)
  simp [codeLexeme, hquote, h]

theorem codeLexeme_bracket {c : Char} (h : c ∈ ['(', '[', '{', ')', ']', '}'])
    (atLineStart barIsMarker : Bool) (text : List Char) :
    codeLexeme atLineStart barIsMarker (c :: text) =
      ⟨1, .styled .plain, Marker.ofChar? c, []⟩ := by
  simp only [List.mem_cons, List.not_mem_nil, or_false] at h
  rcases h with rfl | rfl | rfl | rfl | rfl | rfl <;>
    cases atLineStart <;> cases barIsMarker <;> rfl

theorem toNat_of_isAsciiLetter {c : Char} (h : isAsciiLetter c = true) :
    97 ≤ c.toNat ∧ c.toNat ≤ 122 ∨ 65 ≤ c.toNat ∧ c.toNat ≤ 90 := by
  simpa [isAsciiLetter, Char.le_def, UInt32.le_iff_toNat_le] using h

theorem isBlank_of_isAsciiLetter {c : Char} (h : isAsciiLetter c = true) : isBlank c = false := by
  have hbounds := toNat_of_isAsciiLetter h
  simp only [isBlank, blankRanges, RangeTable.covers]
  simp
  omega

theorem codeLexeme_of_isAsciiLetter {c : Char} (h : isAsciiLetter c = true)
    (atLineStart barIsMarker : Bool) (text : List Char) :
    codeLexeme atLineStart barIsMarker (c :: text) = nameLexeme text := by
  have hne (d : Char) (hd : isAsciiLetter d = false) : c ≠ d := by
    rintro rfl
    rw [h] at hd
    cases hd
  have hquote : c :: text ≠ tripleQuote := by
    simp [tripleQuote, hne '"' (by decide)]
  have hdigit : isAsciiDigit c = false := by
    have hnine : ¬ c ≤ '9' := by
      intro hle
      have hle : c.toNat ≤ 57 := hle
      have hbounds := toNat_of_isAsciiLetter h
      omega
    simp [isAsciiDigit, hnine]
  have hliteral : literalLexeme? c text = none := by
    simp [literalLexeme?, hdigit, hne, isAsciiLetter]
  rw [codeLexeme_cons hquote (isBlank_of_isAsciiLetter h), hliteral]
  simp [symbolLexeme, isNameStart, h]

theorem codeLexeme_quote {text : List Char} (h : '"' :: text ≠ tripleQuote)
    (atLineStart barIsMarker : Bool) :
    codeLexeme atLineStart barIsMarker ('"' :: text) = quotedLexeme 1 doubleQuoted text :=
  codeLexeme_cons h (by decide) atLineStart barIsMarker

/-- Code is scanned in the same way at the bottom of the stack and within a literal, where
only braces matter. -/
theorem IsCode.scanFrames_eq {frames : List Frame} (h : IsCode frames) {text : List Char}
    (hopening : headIs (· == '{') text = false) (hclosing : headIs (· == '}') text = false)
    (atLineStart barIsMarker : Bool) :
    scanFrames atLineStart barIsMarker text frames =
      (codeLexeme atLineStart barIsMarker text).onto frames := by
  cases h with
  | base => rfl
  | embedded => simp [scanFrames, depthAfter, hopening, hclosing]

theorem IsCode.scanFrames_literal {frames : List Frame} (h : IsCode frames) {text : List Char}
    (htext : '"' :: text ≠ tripleQuote) (atLineStart barIsMarker : Bool) :
    scanFrames atLineStart barIsMarker ('"' :: text) frames =
      (quotedLexeme 1 doubleQuoted text).onto frames := by
  rw [h.scanFrames_eq (by simp [headIs]) (by simp [headIs]), codeLexeme_quote htext]

end Elixir

end CellHighlight
