import CellHighlight.Grammar

/-!
# Steps that take something

The scanners of the languages take at least one character in every step, whatever
their state, as long as there is text ahead.  Only a scanner with regions may hand the
line over without taking anything.
-/

namespace CellHighlight

def Scanner.Advances {σ : Type} (scanner : Scanner σ) : Prop :=
  ∀ view state, view.ahead ≠ [] → 0 < (scanner.step view state).length

theorem Scanner.Advances.within {σ τ : Type} {scanner : Scanner σ} (h : scanner.Advances)
    (wrap : σ → τ) (unwrap : τ → Option σ) : (scanner.within wrap unwrap).Advances :=
  fun view state => h view ((unwrap state).getD scanner.start)

theorem advances_plainScanner : plainScanner.Advances :=
  fun _ _ hahead => List.length_pos_iff.mpr hahead

/-! ## Elixir -/

namespace Elixir

theorem Quoted.scanBody_pos (quoted : Quoted) (escaped : Bool) {text : List Char}
    (htext : text ≠ []) : 0 < (quoted.scanBody escaped text).1 := by
  cases text with
  | nil => exact absurd rfl htext
  | cons c text =>
      unfold scanBody
      split
      · exact Nat.one_pos
      split
      · exact Nat.two_pos
      split
      · exact Nat.one_pos
      · exact Nat.succ_pos _

theorem quotedLexeme_pos {opening : Nat} (hopening : 0 < opening) (quoted : Quoted)
    (text : List Char) : 0 < (quotedLexeme opening quoted text).length :=
  Nat.add_pos_left hopening _

theorem slashLexeme_pos (text : List Char) : 0 < (slashLexeme text).length := by
  unfold slashLexeme
  split
  · exact quotedLexeme_pos Nat.one_pos _ _
  · exact Nat.one_pos

theorem percentLexeme_pos (text : List Char) : 0 < (percentLexeme text).length := by
  unfold percentLexeme
  dsimp only
  split
  · exact Nat.add_pos_left Nat.one_pos _
  split
  · exact quotedLexeme_pos (Nat.add_pos_left Nat.two_pos _) _ _
  · exact Nat.add_pos_left Nat.one_pos _

theorem colonLexeme_pos (text : List Char) : 0 < (colonLexeme text).length := by
  cases text with
  | nil => exact Nat.one_pos
  | cons c rest =>
      unfold colonLexeme
      dsimp only
      split
      · exact quotedLexeme_pos Nat.two_pos _ _
      split
      · exact quotedLexeme_pos Nat.two_pos _ _
      split
      · exact Nat.add_pos_left Nat.two_pos _
      split
      · exact Nat.two_pos
      split
      · exact Nat.add_pos_left (Nat.add_pos_left Nat.two_pos _) _
      · exact Nat.one_pos

theorem nameLexeme_pos (text : List Char) : 0 < (nameLexeme text).length := by
  unfold nameLexeme
  dsimp only
  split
  · exact Nat.add_pos_left (Nat.add_pos_left Nat.two_pos _) _
  · exact Nat.add_pos_left (Nat.add_pos_left Nat.one_pos _) _

theorem operatorLexeme_pos (c : Char) (text : List Char) :
    0 < (operatorLexeme c text).length := by
  unfold operatorLexeme
  dsimp only
  split
  · exact Nat.one_pos
  · exact Nat.add_pos_left Nat.one_pos _

def Positive (lexeme : Option Lexeme) : Prop := ∀ found ∈ lexeme, 0 < found.length

theorem Positive.some {lexeme : Lexeme} (h : 0 < lexeme.length) : Positive (some lexeme) := by
  rintro found ⟨⟩
  exact h

theorem Positive.ite {p : Prop} [Decidable p] {first second : Option Lexeme}
    (hfirst : Positive first) (hsecond : Positive second) :
    Positive (if p then first else second) := by
  split
  · exact hfirst
  · exact hsecond

theorem sigilLexeme?_pos (text : List Char) : Positive (sigilLexeme? text) := by
  unfold sigilLexeme?
  split
  · exact Positive.ite (.some (quotedLexeme_pos (by decide) _ _)) (by rintro found ⟨⟩)
  · rintro found ⟨⟩

theorem heredocLexeme?_pos (text : List Char) : Positive (heredocLexeme? text) := by
  intro found hfound
  obtain ⟨opening, -, rfl⟩ := Option.map_eq_some_iff.mp hfound
  exact Nat.add_pos_left Nat.one_pos _

theorem attributeLexeme?_pos (text : List Char) : Positive (attributeLexeme? text) := by
  unfold attributeLexeme?
  apply Positive.ite
  · exact .some (Nat.add_pos_left (Nat.add_pos_left Nat.one_pos _) _)
  · rintro found ⟨⟩

theorem literalLexeme?_pos (c : Char) (text : List Char) :
    Positive (literalLexeme? c text) := by
  have hone (n : Nat) : 0 < 1 + n := Nat.add_pos_left Nat.one_pos n
  unfold literalLexeme?
  apply Positive.ite (.some (quotedLexeme_pos Nat.one_pos _ _))
  apply Positive.ite (.some (quotedLexeme_pos Nat.one_pos _ _))
  apply Positive.ite (.some (slashLexeme_pos text))
  apply Positive.ite (.some (percentLexeme_pos text))
  apply Positive.ite (sigilLexeme?_pos text)
  apply Positive.ite (.some (hone _))
  apply Positive.ite (heredocLexeme?_pos text)
  apply Positive.ite (.some (hone _))
  apply Positive.ite (.some (hone _))
  apply Positive.ite (.some (hone _))
  apply Positive.ite (.some (colonLexeme_pos text))
  apply Positive.ite (attributeLexeme?_pos text)
  apply Positive.ite (.some (hone _))
  rintro found ⟨⟩

theorem symbolLexeme_pos (barIsMarker : Bool) (c : Char) (text : List Char) :
    0 < (symbolLexeme barIsMarker c text).length := by
  unfold symbolLexeme
  split
  · exact nameLexeme_pos text
  split
  · exact Nat.one_pos
  split
  · exact Nat.one_pos
  split
  · exact Nat.two_pos
  split
  · exact Nat.two_pos
  split
  · exact operatorLexeme_pos c text
  · exact Nat.one_pos

theorem codeLexeme_pos (atLineStart barIsMarker : Bool) {text : List Char}
    (htext : text ≠ []) : 0 < (codeLexeme atLineStart barIsMarker text).length := by
  cases text with
  | nil => exact absurd rfl htext
  | cons c rest =>
      unfold codeLexeme
      dsimp only
      split
      · exact Nat.succ_pos 2
      split
      · exact Nat.add_pos_left Nat.one_pos _
      · cases hliteral : literalLexeme? c rest with
        | none => exact symbolLexeme_pos barIsMarker c rest
        | some lexeme => exact literalLexeme?_pos c rest lexeme hliteral

theorem scanQuoted_pos (quoted : Quoted) (below : List Frame) {text : List Char}
    (htext : text ≠ []) : 0 < (scanQuoted quoted below text).length := by
  unfold scanQuoted
  dsimp only
  generalize (if quoted.afterBrace = true then oneIf (· == '}') text else 0) = brace
  cases brace with
  | zero => exact Nat.add_pos_right _ (Quoted.scanBody_pos _ _ htext)
  | succ brace => exact Nat.add_pos_left (Nat.succ_pos brace) _

theorem scanFrames_pos (atLineStart barIsMarker : Bool) {text : List Char}
    (htext : text ≠ []) (frames : List Frame) :
    0 < (scanFrames atLineStart barIsMarker text frames).length := by
  have hcode := codeLexeme_pos atLineStart barIsMarker htext
  have hlength := List.length_pos_iff.mpr htext
  induction frames with
  | nil => exact hcode
  | cons frame below ih =>
      cases frame with
      | base => exact hcode
      | quoted quoted => exact scanQuoted_pos quoted below htext
      | heredoc tag indented => exact hlength
      | blockComment => exact hlength
      | untilBrace depth =>
          unfold scanFrames
          split
          · exact ih
          · exact hcode
      | once used =>
          unfold scanFrames
          split
          · exact ih
          · exact hcode

theorem advances_scanner (options : Options) : (scanner options).Advances :=
  fun _ _ hahead => scanFrames_pos _ _ hahead _

end Elixir

/-! ## R -/

namespace R

theorem stringLength_pos (quote : Char) (escaped : Bool) {text : List Char}
    (htext : text ≠ []) : 0 < (stringLength quote escaped text).1 := by
  cases text with
  | nil => exact absurd rfl htext
  | cons c text =>
      unfold stringLength
      split
      · exact Nat.one_pos
      · exact Nat.succ_pos _

theorem fst_ite_pos {p : Prop} [Decidable p] {first second : Nat × Style}
    (hfirst : 0 < first.1) (hsecond : 0 < second.1) :
    0 < (if p then first else second).1 := by
  split
  · exact hfirst
  · exact hsecond

theorem codeToken_pos (taken : List Char) (c : Char) (text : List Char) :
    0 < (codeToken taken c text).1 := by
  have hone (n : Nat) : 0 < 1 + n := Nat.add_pos_left Nat.one_pos n
  have htwo (n : Nat) : 0 < 2 + n := Nat.add_pos_left Nat.two_pos n
  unfold codeToken
  apply fst_ite_pos (hone _)
  apply fst_ite_pos (hone _)
  apply fst_ite_pos (htwo _)
  apply fst_ite_pos (hone _)
  apply fst_ite_pos (hone _)
  apply fst_ite_pos (hone _)
  apply fst_ite_pos (Nat.succ_pos 2)
  apply fst_ite_pos Nat.two_pos
  apply fst_ite_pos (htwo _)
  apply fst_ite_pos (hone _)
  apply fst_ite_pos (hone _)
  exact Nat.one_pos

theorem advances_scanner : scanner.Advances := by
  intro view state hahead
  show 0 < (step view state).length
  unfold step
  split
  · exact Nat.add_pos_right 0 (stringLength_pos _ _ hahead)
  · next hempty => exact absurd hempty hahead
  · split
    · exact Nat.add_pos_left Nat.one_pos _
    split
    · exact Nat.add_pos_left Nat.one_pos _
    · exact codeToken_pos _ _ _

end R

/-! ## Grammars -/

namespace Grammar

theorem advances_elixir (options : Elixir.Options) : (elixir options).scanner.Advances := by
  simp only [scanner]
  exact (Elixir.advances_scanner options).within _ _

theorem advances_plainText : plainText.scanner.Advances := by
  simp only [scanner]
  exact advances_plainScanner.within _ _

theorem advances_r : r.scanner.Advances := by
  simp only [scanner]
  exact R.advances_scanner.within _ _

end Grammar

end CellHighlight
