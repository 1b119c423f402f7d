import CellHighlight.Proofs.Literals.Slashes
import CellHighlight.Proofs.Numbers.Parts

/-!
# Decimal numbers

Where code is scanned, a number that begins with a digit other than zero is taken as far as its
written form allows: a point or an exponent without digits after it is left, and an underscore
is as good as a digit.
-/

namespace CellHighlight.Elixir

open Computability

def isLeadingDigit (c : Char) : Bool := '1' ≤ c && c ≤ '9'

def decimalForm : String := "[1-9][0-9_]*(\\.[0-9_]+)?([eE][+-]?[0-9_]+)?"

def decimal : Language Char :=
  oneOf isLeadingDigit *
    ((oneOf isDecimalDigit)∗ * ((point * manyOf isDecimalDigit + 1) *
      (exponentOf isDecimalDigit + 1)))

theorem longestMatch_decimal (text : List Char) (n : Nat) :
    LongestMatch decimalForm text n ↔ Longest decimal text n := by
  let digits : CharSet := ⟨false, [('0', '9'), ('_', '_')]⟩
  have hdigits : digits.contains = isDecimalDigit := by
    simp only [digits, Regex.contains_ranges, List.any_cons, List.any_nil, Regex.between_self,
      Bool.or_false]
    rfl
  have hleading : CharSet.contains ⟨false, [('1', '9')]⟩ = isLeadingDigit := by
    simp only [Regex.contains_ranges, List.any_cons, List.any_nil, Bool.or_false]
    rfl
  let regex : Regex :=
    .seq (.char ⟨false, [('1', '9')]⟩)
      (.seq ((Regex.char digits).repeated 0 none true)
        (.seq ((Regex.seq (Regex.one '.') ((Regex.char digits).repeated 1 none true)).repeated
            0 (some 1) true)
          ((exponentRegex digits).repeated 0 (some 1) true)))
  have hform : Regex.ofText? decimalForm.toList = some regex := by decide
  refine longestMatch_iff hform ?_
  simp only [regex, Regex.one, Regex.language?, Regex.language?_optional, Regex.language?_some,
    Regex.language?_any, language?_exponentRegex, hdigits, hleading, Regex.contains_one]
  rfl

theorem longest_fraction (text : List Char) :
    Longest (point * manyOf isDecimalDigit + 1) text (fractionLength text) := by
  unfold fractionLength
  split
  · next text =>
      dsimp only
      split
      · next hnone =>
          refine .of_not_begins fun n hn => ?_
          obtain ⟨_, m, hpoint, hm, rfl⟩ := begins_mul.mp hn
          obtain ⟨rfl, -⟩ := begins_oneOf.mp hpoint
          obtain ⟨hpos, hle⟩ := begins_manyOf.mp hm
          exact Nat.not_le_of_gt hpos (hnone ▸ hle)
      · next hsome => exact ((longest_manyOf hsome).oneOf_mul rfl).optional
  · next hpoint => exact .of_not_begins (not_begins_point_mul hpoint)

theorem longest_decimal {c : Char} (hc : isLeadingDigit c = true) (text : List Char) :
    Longest decimal (c :: text) (1 + decimalLength text) := by
  have hdigit : ApartFromMarks isDecimalDigit := rfl
  have hparts := longest_parts hdigit (longest_kstar_oneOf isDecimalDigit text)
    (avoids_oneOf hdigit.partMark.symm).kstar (longest_fraction _)
    (avoids_manyOf hdigit.exponentMark.symm)
  exact hparts.oneOf_mul hc

theorem scanFrames_decimal {frames : List Frame} (hcode : codeStack? frames = some frames)
    {c : Char} (h : isLeadingDigit c = true) (atLineStart barIsMarker : Bool) (text : List Char) :
    scanFrames atLineStart barIsMarker (c :: text) frames =
      ⟨1 + decimalLength text, .styled .number, none, frames⟩ := by
  have hzero : c ≠ '0' := by
    rintro rfl
    exact absurd h (by decide)
  have hdigit : isAsciiDigit c = true := by
    simp only [isLeadingDigit, Bool.and_eq_true, decide_eq_true_eq] at h
    have hone : ('0' : Char) ≤ '1' := by decide
    simp [isAsciiDigit, Std.le_trans hone h.1, h.2]
  have hne {d : Char} (hd : isAsciiDigit d = false) : c ≠ d := ne_of_isAsciiDigit hdigit hd
  have hquote : c :: text ≠ tripleQuote := by
    simp [tripleQuote, hne (by decide : isAsciiDigit '"' = false)]
  have hliteral :
      literalLexeme? c text = some ⟨1 + decimalLength text, .styled .number, none, []⟩ := by
    simp (disch := decide) [literalLexeme?, hdigit, hzero, hne]
  have hopening : headIs (· == '{') (c :: text) = false := beq_false_of_ne (hne (by decide))
  have hclosing : headIs (· == '}') (c :: text) = false := beq_false_of_ne (hne (by decide))
  rw [scanFrames_of_code hcode hopening hclosing,
    codeLexeme_cons hquote (isBlank_of_isAsciiDigit hdigit), hliteral]
  rfl

/-- Where code is scanned, the longest match of the written form is taken, and the stack stays. -/
theorem step_decimal (options : Options) (view : View) (state : State)
    (hbottom : state.frames.getLast? = some .base)
    (htop : state.frames.head? = some .base ∨
      ∃ depth, state.frames.head? = some (.untilBrace depth))
    (hdigit : headIs isLeadingDigit view.ahead = true) :
    let token := step options view state
    token.style = .number ∧ LongestMatch decimalForm view.ahead token.length ∧
      token.state.frames = state.frames := by
  intro token
  have hcode : codeStack? state.frames = some state.frames := by
    rcases htop with htop | ⟨depth, htop⟩
    all_goals
      obtain ⟨below, hframes⟩ := List.head?_eq_some_iff.mp htop
      rw [hframes]
      rfl
  cases hahead : view.ahead with
  | nil => simp [hahead, headIs] at hdigit
  | cons c text =>
      rw [hahead] at hdigit
      let noted := (state.mend options).noteIndentation view
      have hscan : scanFrames view.atLineStart noted.barIsMarker view.ahead noted.frames =
          ⟨1 + decimalLength text, .styled .number, none, state.frames⟩ := by
        rw [State.frames_noted hbottom, hahead, scanFrames_decimal hcode hdigit]
      have htoken : token.style = .number ∧ token.length = 1 + decimalLength text ∧
          token.state.frames = state.frames := by
        simp only [token, step]
        rw [hscan]
        exact ⟨rfl, rfl, rfl⟩
      obtain ⟨hstyle, hlength, hframes⟩ := htoken
      rw [hlength, longestMatch_decimal]
      exact ⟨hstyle, longest_decimal hdigit text, hframes⟩

theorem step_decimal_embedded :
    let frames : List Frame := [.untilBrace 1, .quoted doubleQuoted, .base]
    let view : View := ⟨"\"#\x7b".toList, [], "1_0.5e+\x7d\"".toList, [], 4⟩
    frames.getLast? = some .base ∧ frames.head? = some (.untilBrace 1) ∧
      headIs isLeadingDigit view.ahead = true ∧ LongestMatch decimalForm view.ahead 5 := by
  intro frames view
  obtain ⟨-, hlongest, -⟩ := step_decimal {} view ⟨frames, [], 0, none, false, false⟩ rfl
    (.inr ⟨1, rfl⟩) rfl
  exact ⟨rfl, rfl, rfl, hlongest⟩

end CellHighlight.Elixir
