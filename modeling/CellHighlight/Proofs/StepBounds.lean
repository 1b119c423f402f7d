import CellHighlight.Grammar
import CellHighlight.Proofs.Search

/-!
# Steps stay inside the text

No scanner takes more than the text ahead of it, whatever its state.  For a scanner
with regions this follows from the scanners it is made of: each of them sees a part
of the text only, and a delimiter lies inside the text as every match does.
-/

namespace CellHighlight

def Scanner.InBounds {σ : Type} (scanner : Scanner σ) : Prop :=
  ∀ view state, (scanner.step view state).length ≤ view.ahead.length

theorem Scanner.InBounds.within {σ τ : Type} {scanner : Scanner σ} (h : scanner.InBounds)
    (wrap : σ → τ) (unwrap : τ → Option σ) : (scanner.within wrap unwrap).InBounds :=
  fun view state => h view ((unwrap state).getD scanner.start)

theorem length_pos_of_headIs {p : Char → Bool} {text : List Char}
    (h : headIs p text = true) : 1 ≤ text.length := by
  cases text with
  | nil => simp [headIs] at h
  | cons c text => simp

theorem runLength_drop_le (p : Char → Bool) (text : List Char) (n : Nat) :
    runLength p (text.drop n) ≤ text.length - n := by
  rw [← List.length_drop]
  exact runLength_le p _

theorem oneIf_drop_le (p : Char → Bool) (text : List Char) (n : Nat) :
    oneIf p (text.drop n) ≤ text.length - n := by
  rw [← List.length_drop]
  exact oneIf_le p _

/-! ## Elixir -/

namespace Elixir

theorem Quoted.scanBody_le (quoted : Quoted) (escaped : Bool) (text : List Char) :
    (quoted.scanBody escaped text).1 ≤ text.length := by
  induction text generalizing escaped with
  | nil => simp [scanBody]
  | cons c text ih =>
      have := ih (!escaped && c = '\\')
      unfold scanBody
      split
      · simp
      · split
        · next hcode =>
            cases text with
            | nil => simp [headIs] at hcode
            | cons d text => simp
        · split
          · simp
          · simpa using this

theorem quotedLexeme_le (opening : Nat) (quoted : Quoted) (text : List Char) :
    (quotedLexeme opening quoted text).length ≤ opening + text.length := by
  have := quoted.scanBody_le false text
  simp only [quotedLexeme]
  omega

theorem slashLexeme_le (text : List Char) : (slashLexeme text).length ≤ 1 + text.length := by
  unfold slashLexeme
  split
  · exact quotedLexeme_le _ _ _
  · simp

theorem percentLexeme_le (text : List Char) :
    (percentLexeme text).length ≤ 1 + text.length := by
  have hletters := oneIf_le isPercentLetter text
  unfold percentLexeme
  dsimp only
  split
  · dsimp only
    omega
  · next c body hbody =>
      have hlength := congrArg List.length hbody
      simp only [List.length_drop, List.length_cons] at hlength
      split
      · refine Nat.le_trans (quotedLexeme_le _ _ _) ?_
        omega
      · dsimp only
        omega

theorem sigilLexeme?_le {text : List Char} {lexeme : Lexeme}
    (h : sigilLexeme? text = some lexeme) : lexeme.length ≤ 1 + text.length := by
  unfold sigilLexeme? at h
  split at h
  · next letter delimiter body =>
      split at h
      · cases h
        refine Nat.le_trans (quotedLexeme_le _ _ _) ?_
        simp only [List.length_cons]
        omega
      · contradiction
  · contradiction

theorem heredocLexeme?_le {text : List Char} {lexeme : Lexeme}
    (h : heredocLexeme? text = some lexeme) : lexeme.length ≤ 1 + text.length := by
  obtain ⟨opening, -, rfl⟩ := Option.map_eq_some_iff.mp h
  exact Nat.le_refl _

theorem radixLength_le (text : List Char) : radixLength text ≤ text.length := by
  unfold radixLength
  split
  · next text =>
      have := runLength_le isHexDigit text
      rw [List.length_cons]
      omega
  · next text =>
      have := runLength_le isBinaryDigit text
      rw [List.length_cons]
      omega
  · exact runLength_le _ _

theorem fractionLength_le (text : List Char) : fractionLength text ≤ text.length := by
  unfold fractionLength
  split
  · next text =>
      have := runLength_le isDecimalDigit text
      rw [List.length_cons]
      dsimp only
      split <;> omega
  · simp

theorem decimalLength_le (text : List Char) : decimalLength text ≤ text.length := by
  have hwhole := runLength_le isDecimalDigit text
  have hfraction := fractionLength_le (text.drop (runLength isDecimalDigit text))
  have hexponent := exponentLength_le isDecimalDigit
    (text.drop (runLength isDecimalDigit text +
      fractionLength (text.drop (runLength isDecimalDigit text))))
  rw [List.length_drop] at hfraction hexponent
  simp only [decimalLength]
  omega

theorem characterLength_le (text : List Char) : characterLength text ≤ text.length := by
  fun_induction characterLength text with
  | case1 text ih => simp only [List.length_cons]; omega
  | case2 text ih => simp only [List.length_cons]; omega
  | case3 text _ _ =>
      have := runLength_le isWordChar text
      simp only [List.length_cons]
      omega
  | case4 => simp
  | case5 => simp

theorem colonLexeme_le (text : List Char) : (colonLexeme text).length ≤ 1 + text.length := by
  cases text with
  | nil => simp [colonLexeme]
  | cons c rest =>
      have hangle := oneIf_le isAngle rest
      have hbody := runLength_le (fun c => isNameChar c || c == '$') rest
      have hmark := oneIf_drop_le (fun c => c == '?' || c == '!' || c == '=') rest
        (runLength (fun c => isNameChar c || c == '$') rest)
      simp only [colonLexeme, List.length_cons]
      split
      · exact Nat.le_trans (quotedLexeme_le _ _ _) (by omega)
      · split
        · exact Nat.le_trans (quotedLexeme_le _ _ _) (by omega)
        · split
          · dsimp only
            omega
          · split
            · dsimp only
              omega
            · split <;> dsimp only <;> omega

theorem attributeLexeme?_le {text : List Char} {lexeme : Lexeme}
    (h : attributeLexeme? text = some lexeme) : lexeme.length ≤ 1 + text.length := by
  have hsigns := oneIf_le (· == '@') text
  have hname := runLength_drop_le isNameChar text (oneIf (· == '@') text)
  unfold attributeLexeme? at h
  dsimp only at h
  split at h
  · cases h
    dsimp only
    omega
  · contradiction

theorem globalLength_le (text : List Char) : globalLength text ≤ text.length := by
  cases text with
  | nil => simp [globalLength]
  | cons c text =>
      have hname := runLength_le isWordChar text
      have hdigit := oneIf_le isAsciiDigit text
      simp only [globalLength, List.length_cons]
      split
      · omega
      · split <;> omega

theorem nameLexeme_le (text : List Char) : (nameLexeme text).length ≤ 1 + text.length := by
  have hbody := runLength_le isNameChar text
  have hmark := oneIf_drop_le (fun c => c == '?' || c == '!') text (runLength isNameChar text)
  unfold nameLexeme
  dsimp only
  split
  · next hcolon =>
      -- The colon is one more character of the text.
      have hlt : runLength isNameChar text +
          oneIf (fun c => c == '?' || c == '!') (text.drop (runLength isNameChar text)) <
          text.length := by
        apply Nat.lt_of_not_le
        intro hle
        rw [List.drop_eq_nil_of_le hle] at hcolon
        simp [headIs] at hcolon
      dsimp only
      omega
  · dsimp only
    omega

def AtMost (n : Nat) (lexeme : Option Lexeme) : Prop :=
  ∀ found, lexeme = some found → found.length ≤ n

theorem AtMost.some {n : Nat} {lexeme : Lexeme} (h : lexeme.length ≤ n) :
    AtMost n (some lexeme) := by
  rintro found ⟨⟩
  exact h

theorem AtMost.ite {n : Nat} {p : Prop} [Decidable p] {first second : Option Lexeme}
    (hfirst : AtMost n first) (hsecond : AtMost n second) :
    AtMost n (if p then first else second) := by
  split
  · exact hfirst
  · exact hsecond

theorem literalLexeme?_le (c : Char) (text : List Char) :
    AtMost (1 + text.length) (literalLexeme? c text) := by
  unfold literalLexeme?
  apply AtMost.ite (.some (quotedLexeme_le _ _ _))
  apply AtMost.ite (.some (quotedLexeme_le _ _ _))
  apply AtMost.ite (.some (slashLexeme_le text))
  apply AtMost.ite (.some (percentLexeme_le text))
  apply AtMost.ite fun _ => sigilLexeme?_le
  apply AtMost.ite (.some (Nat.le_refl _))
  apply AtMost.ite fun _ => heredocLexeme?_le
  apply AtMost.ite (.some (Nat.add_le_add_left (radixLength_le text) 1))
  apply AtMost.ite (.some (Nat.add_le_add_left (decimalLength_le text) 1))
  apply AtMost.ite (.some (Nat.add_le_add_left (characterLength_le text) 1))
  apply AtMost.ite (.some (colonLexeme_le text))
  apply AtMost.ite fun _ => attributeLexeme?_le
  apply AtMost.ite (.some (Nat.add_le_add_left (globalLength_le text) 1))
  intro found hfound
  contradiction

theorem operatorLexeme_le (c : Char) (text : List Char) :
    (operatorLexeme c text).length ≤ 1 + text.length := by
  have := runLength_le isOperatorTail text
  unfold operatorLexeme
  dsimp only
  split <;> dsimp only <;> omega

theorem symbolLexeme_le (barIsMarker : Bool) (c : Char) (text : List Char) :
    (symbolLexeme barIsMarker c text).length ≤ 1 + text.length := by
  unfold symbolLexeme
  split
  · exact nameLexeme_le text
  split
  · dsimp only
    omega
  split
  · dsimp only
    omega
  split
  · next harrow =>
      have := length_pos_of_headIs (Bool.and_eq_true_iff.mp harrow).2
      dsimp only
      omega
  split
  · next hpipe =>
      have := length_pos_of_headIs (Bool.and_eq_true_iff.mp hpipe).2
      dsimp only
      omega
  split
  · exact operatorLexeme_le c text
  · dsimp only
    omega

theorem codeLexeme_le (atLineStart barIsMarker : Bool) (text : List Char) :
    (codeLexeme atLineStart barIsMarker text).length ≤ text.length := by
  cases text with
  | nil => simp [codeLexeme]
  | cons c rest =>
      have hblank := runLength_le isBlank rest
      simp only [codeLexeme, List.length_cons]
      split
      · next hquote =>
          simp only [Bool.and_eq_true, beq_iff_eq] at hquote
          have := congrArg List.length hquote.2
          simp only [tripleQuote, List.length_cons, List.length_nil] at this
          dsimp only
          omega
      split
      · dsimp only
        omega
      · cases hliteral : literalLexeme? c rest with
        | none =>
            have := symbolLexeme_le barIsMarker c rest
            rw [Option.getD_none]
            omega
        | some lexeme =>
            have := literalLexeme?_le c rest lexeme hliteral
            rw [Option.getD_some]
            omega

theorem scanQuoted_le (quoted : Quoted) (below : List Frame) (text : List Char) :
    (scanQuoted quoted below text).length ≤ text.length := by
  have hbrace := oneIf_le (· == '}') text
  unfold scanQuoted
  dsimp only
  generalize hb : (if quoted.afterBrace = true then oneIf (· == '}') text else 0) = brace
  have hle : brace ≤ text.length := by
    rw [← hb]
    split <;> omega
  have hbody :=
    Quoted.scanBody_le { quoted with afterBrace := false } false (text.drop brace)
  rw [List.length_drop] at hbody
  omega

theorem scanFrames_le (atLineStart barIsMarker : Bool) (text : List Char)
    (frames : List Frame) :
    (scanFrames atLineStart barIsMarker text frames).length ≤ text.length := by
  have hcode := codeLexeme_le atLineStart barIsMarker text
  induction frames with
  | nil => exact hcode
  | cons frame below ih =>
      cases frame with
      | base => exact hcode
      | quoted quoted => exact scanQuoted_le quoted below text
      | heredoc tag indented => exact Nat.le_refl _
      | blockComment => exact Nat.le_refl _
      | untilBrace depth =>
          unfold scanFrames
          split
          · exact ih
          · exact hcode
      | once used =>
          unfold scanFrames
          split
          · exact ih
          · exact hcode

theorem inBounds_scanner (options : Options) : (scanner options).InBounds :=
  fun _ _ => scanFrames_le _ _ _ _

end Elixir

/-! ## R -/

namespace R

theorem stringLength_le (quote : Char) (escaped : Bool) (text : List Char) :
    (stringLength quote escaped text).1 ≤ text.length := by
  induction text generalizing escaped with
  | nil => simp [stringLength]
  | cons c text ih =>
      have := ih (!escaped && c = '\\')
      unfold stringLength
      split
      · simp
      · simpa using this

theorem drop_runLength_of_mem {c : Char} {text : List Char} (h : c ∈ text) :
    ∃ rest, text.drop (runLength (· != c) text) = c :: rest := by
  induction text with
  | nil => cases h
  | cons d text ih =>
      rw [runLength_cons]
      by_cases hd : d = c
      · exact ⟨text, by simp [hd]⟩
      · obtain ⟨rest, hrest⟩ := ih (by simpa [Ne.symm hd] using h)
        exact ⟨rest, by simpa [hd, Nat.add_comm 1] using hrest⟩

theorem runLength_lt_of_mem {c : Char} {text : List Char} (h : c ∈ text) :
    runLength (· != c) text < text.length := by
  obtain ⟨rest, hrest⟩ := drop_runLength_of_mem h
  have hlength := congrArg List.length hrest
  rw [List.length_drop, List.length_cons] at hlength
  omega

theorem lengthThrough?_le {c : Char} {text : List Char} {length : Nat}
    (h : lengthThrough? c text = some length) : length ≤ text.length := by
  unfold lengthThrough? at h
  split at h
  · next hmem =>
      cases h
      exact runLength_lt_of_mem (List.contains_iff_mem.mp hmem)
  · contradiction

theorem numberLength_le (text : List Char) : numberLength text ≤ text.length := by
  have hwhole := runLength_le isAsciiDigit text
  unfold numberLength
  extract_lets whole fraction exponent mantissa
  have hfraction : fraction ≤ (text.drop whole).length := by
    dsimp only [fraction]
    split
    · next rest hrest =>
        have := runLength_le isAsciiDigit rest
        rw [hrest, List.length_cons]
        show 1 + runLength isAsciiDigit rest ≤ rest.length + 1
        omega
    · simp
  have hexponent : exponent ≤ (text.drop (whole + fraction)).length :=
    exponentLength_le isAsciiDigit _
  have hsuffix := oneIf_drop_le isNumberSuffix text mantissa
  rw [List.length_drop] at hfraction hexponent
  dsimp only [whole, mantissa] at *
  omega

theorem hexLength_le (text : List Char) : hexLength text ≤ text.length := by
  have hdigits := runLength_le isHexDigit text
  have hsuffix := oneIf_drop_le isNumberSuffix text (runLength isHexDigit text)
  simp only [hexLength]
  omega

theorem fst_ite_le {p : Prop} [Decidable p] {first second : Nat × Style} {n : Nat}
    (hfirst : p → first.1 ≤ n) (hsecond : second.1 ≤ n) :
    (if p then first else second).1 ≤ n := by
  split
  · next hp => exact hfirst hp
  · exact hsecond

theorem codeToken_le (taken : List Char) (c : Char) (text : List Char) :
    (codeToken taken c text).1 ≤ 1 + text.length := by
  have hname := runLength_le isNameChar text
  have hoperator := runLength_le isOperatorChar text
  have hthrough (d : Char) (n : Nat) (hn : n ≤ text.length) :
      (lengthThrough? d text).getD n ≤ text.length := by
    cases hfound : lengthThrough? d text with
    | none => exact hn
    | some length => exact lengthThrough?_le hfound
  unfold codeToken
  apply fst_ite_le fun _ => Nat.le_refl _
  apply fst_ite_le fun _ => Nat.add_le_add_left (hthrough _ _ (Nat.le_refl _)) 1
  apply fst_ite_le
  · intro hhex
    have hpos := length_pos_of_headIs (Bool.and_eq_true_iff.mp hhex).2
    have hdigits := hexLength_le (text.drop 1)
    rw [List.length_drop] at hdigits
    dsimp only
    omega
  apply fst_ite_le fun _ => Nat.add_le_add_left (numberLength_le text) 1
  apply fst_ite_le fun _ => Nat.add_le_add_left (hthrough _ _ (Nat.zero_le _)) 1
  apply fst_ite_le fun _ => Nat.add_le_add_left hname 1
  apply fst_ite_le
  · intro harrow
    have hprefix := List.isPrefixOf_iff_prefix.mp (Bool.and_eq_true_iff.mp harrow).2
    have := hprefix.length_le
    simp only [List.length_cons, List.length_nil] at this
    dsimp only
    omega
  apply fst_ite_le
  · intro harrow
    have hpos := length_pos_of_headIs (Bool.and_eq_true_iff.mp harrow).2
    dsimp only
    omega
  apply fst_ite_le
  · intro harrow
    have hpos := length_pos_of_headIs (Bool.and_eq_true_iff.mp harrow).2
    have hsecond := oneIf_drop_le (· == '>') text 1
    dsimp only
    omega
  apply fst_ite_le fun _ => Nat.add_le_add_left hname 1
  apply fst_ite_le fun _ => Nat.add_le_add_left hoperator 1
  dsimp only
  omega

theorem inBounds_scanner : scanner.InBounds := by
  intro view state
  show (step view state).length ≤ view.ahead.length
  unfold step
  split
  · next quote _ =>
      have := stringLength_le quote false view.ahead
      simp only [stringStep]
      omega
  · exact Nat.zero_le _
  · next c text _ hahead =>
      have hblank := runLength_le isBlank text
      have hstring := stringLength_le c false text
      have hcode := codeToken_le view.taken c text
      rw [hahead, List.length_cons]
      split
      · dsimp only
        omega
      split
      · simp only [stringStep]
        omega
      · dsimp only
        omega

end R

/-! ## Regions -/

namespace Region

variable {τ : Type}

theorem openedAt_le {γ : Type} {atLineStart : Bool} {text : List Char}
    {regions : List (Region γ)} {index length : Nat} {region : Region γ}
    (h : openedAt atLineStart text regions = some (index, region, length)) :
    length ≤ text.length := by
  induction regions generalizing index with
  | nil => simp [openedAt] at h
  | cons first regions ih =>
      unfold openedAt at h
      split at h
      · next found hfound =>
          cases h
          have := Pattern.find_le hfound
          omega
      · simp only [Option.map_eq_some_iff, Prod.mk.injEq] at h
        obtain ⟨⟨index', region', length'⟩, hfound, -, rfl, rfl⟩ := h
        exact ih hfound

theorem length_ahead_limit? (view : View) (bound : Option Nat) :
    (view.limit? bound).ahead.length = min (bound.getD view.ahead.length) view.ahead.length := by
  cases bound with
  | none => exact (Nat.min_self _).symm
  | some n => exact List.length_take

theorem length_ahead_limit?_le (view : View) (bound : Option Nat) :
    (view.limit? bound).ahead.length ≤ view.ahead.length := by
  rw [length_ahead_limit?]
  exact Nat.min_le_right _ _

theorem outerStep_le {outer : Scanner τ} (houter : outer.InBounds)
    (regions : List (Region (Scanner τ))) (view : View) (state : MixedState τ) :
    (outerStep outer regions view state).length ≤ view.ahead.length := by
  unfold outerStep
  split
  · next index region length hopened =>
      have := openedAt_le hopened
      dsimp only
      split <;> omega
  · exact Nat.le_trans (houter _ _) (length_ahead_limit?_le view _)

theorem contentStep_le {region : Region (Scanner τ)} (hcontent : region.content.InBounds)
    (bound : Option Nat) (view : View) (state : MixedState τ) :
    (region.contentStep bound view state).length ≤ view.ahead.length :=
  Nat.le_trans (hcontent _ _) (length_ahead_limit?_le view bound)

theorem innerStep_le {region : Region (Scanner τ)} (hcontent : region.content.InBounds)
    {found : Option (Nat × Nat)} {view : View}
    (hfound : ∀ start length, found = some (start, length) →
      start + length ≤ view.ahead.length)
    (state : MixedState τ) :
    (region.innerStep found view state).length ≤ view.ahead.length := by
  unfold innerStep
  split
  · exact contentStep_le hcontent _ _ _
  · next start length =>
      have hle := hfound start length rfl
      split
      · exact contentStep_le hcontent _ _ _
      split
      · dsimp only
        omega
      · exact contentStep_le hcontent _ _ _

theorem inBounds_mixedScanner {outer : Scanner τ} {regions : List (Region (Scanner τ))}
    (houter : outer.InBounds) (hregions : ∀ region ∈ regions, region.content.InBounds) :
    (mixedScanner outer regions).InBounds := by
  intro view state
  show (mixedStep outer regions view state).length ≤ view.ahead.length
  unfold mixedStep
  split
  · exact outerStep_le houter _ _ _
  split
  · exact outerStep_le houter _ _ _
  · next index region hregion =>
      have hcontent := hregions region (List.mem_of_getElem? hregion)
      split
      · split
        · exact outerStep_le houter _ _ _
        · exact contentStep_le hcontent _ _ _
      · next closer hcloser =>
          apply innerStep_le hcontent
          intro start length hfound
          unfold nextClosing at hfound
          split at hfound
          · contradiction
          · exact Pattern.find_le hfound

end Region

/-! ## Grammars -/

mutual

theorem Grammar.inBounds_scanner : (grammar : Grammar) → grammar.scanner.InBounds
  | .elixir options => (Elixir.inBounds_scanner options).within _ _
  | .plainText => fun _ _ => Nat.le_refl _
  | .r => R.inBounds_scanner.within _ _
  | .mixed outer regions =>
      (Region.inBounds_mixedScanner outer.inBounds_scanner
        (inBounds_regionScanners regions)).within _ _

theorem inBounds_regionScanners : (regions : List (Region Grammar)) →
    ∀ region ∈ regionScanners regions, region.content.InBounds
  | [] => by simp [regionScanners]
  | ⟨opener, closer, content, delimited, scansDelimiters⟩ :: regions => by
      intro region hregion
      rw [regionScanners, List.mem_cons] at hregion
      rcases hregion with rfl | hregion
      · exact content.inBounds_scanner
      · exact inBounds_regionScanners regions region hregion

end

end CellHighlight
