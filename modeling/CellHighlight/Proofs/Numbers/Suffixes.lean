import CellHighlight.Proofs.Numbers.Parts
import CellHighlight.R.Scanner
import Mathlib.Tactic.Abel

/-!
# Numbers with a suffix

A number of R is hexadecimal or decimal and may end in a suffix.  One scanner takes what follows
the first character, whether that is a digit or the point.  After a first digit this is the
longest match of the written form.  After a point it may take a second point, and then it is
not.
-/

namespace CellHighlight.R

open Computability

variable {text : List Char} {c : Char} {n : Nat}

/-! ## Languages of numbers -/

def isHexMark (c : Char) : Bool := c == 'x' || c == 'X'

/-- A number has at most one point. -/
def numberForm : String :=
  "(0[xX][0-9A-Fa-f]*|([0-9]+(\\.[0-9]*)?|\\.[0-9]+)([eE][+-]?[0-9]+)?)[Li]?"

/-- What is scanned may have a point before the digits and another one after them. -/
def scannedForm : String :=
  "(0[xX][0-9A-Fa-f]*|\\.?[0-9]+(\\.[0-9]*)?([eE][+-]?[0-9]+)?)[Li]?"

def hexNumber : Language Char :=
  oneOf (· == '0') * (oneOf isHexMark * (oneOf isHexDigit)∗)

def fraction : Language Char := point * (oneOf isAsciiDigit)∗ + 1

def exponent : Language Char := exponentOf isAsciiDigit + 1

def suffix : Language Char := oneOf isNumberSuffix + 1

def number : Language Char :=
  (hexNumber +
    (manyOf isAsciiDigit * fraction + point * manyOf isAsciiDigit) * exponent) * suffix

def mantissa : Language Char := manyOf isAsciiDigit * (fraction * exponent)

def unsuffixed : Language Char := hexNumber + (point + 1) * mantissa

def scannedNumber : Language Char := unsuffixed * suffix

def twoPointNumber : Language Char :=
  point * (manyOf isAsciiDigit * (point * ((oneOf isAsciiDigit)∗ * (exponent * suffix))))

theorem scannedNumber_eq : scannedNumber = number + twoPointNumber := by
  simp only [scannedNumber, unsuffixed, mantissa, number, twoPointNumber, fraction, mul_add,
    add_mul, mul_assoc, mul_one, one_mul]
  abel

/-! ## Written forms -/

def digitSet : CharSet := ⟨false, [('0', '9')]⟩

theorem contains_digitSet : digitSet.contains = isAsciiDigit := by
  simp only [digitSet, Regex.contains_ranges, List.any_cons, List.any_nil, Bool.or_false]
  rfl

def hexRegex : Regex :=
  .seq (Regex.one '0') (.seq (.char ⟨false, [('x', 'x'), ('X', 'X')]⟩)
    ((Regex.char ⟨false, [('0', '9'), ('A', 'F'), ('a', 'f')]⟩).repeated 0 none true))

theorem language?_hexRegex : hexRegex.language? = some hexNumber := by
  have hdigits : CharSet.contains ⟨false, [('0', '9'), ('A', 'F'), ('a', 'f')]⟩ = isHexDigit := by
    funext c
    simp only [Regex.contains_ranges, List.any_cons, List.any_nil, Bool.or_false, isHexDigit,
      isAsciiDigit, Bool.or_assoc]
    rw [Bool.or_comm ('A' ≤ c && c ≤ 'F')]
  simp only [hexRegex, Regex.one, Regex.language?, Regex.language?_any, Regex.contains_one,
    Regex.contains_two, hdigits]
  rfl

def wholeRegex : Regex := (Regex.char digitSet).repeated 1 none true

theorem language?_wholeRegex : wholeRegex.language? = some (manyOf isAsciiDigit) := by
  simp only [wholeRegex, Regex.language?_some, Regex.language?, contains_digitSet]
  rfl

def fractionRegex : Regex :=
  (Regex.seq (Regex.one '.') ((Regex.char digitSet).repeated 0 none true)).repeated
    0 (some 1) true

theorem language?_fractionRegex : fractionRegex.language? = some fraction := by
  simp only [fractionRegex, Regex.language?_optional, Regex.one, Regex.language?,
    Regex.language?_any, Regex.contains_one, contains_digitSet]
  rfl

def suffixRegex : Regex := (Regex.char ⟨false, [('L', 'L'), ('i', 'i')]⟩).repeated 0 (some 1) true

theorem language?_suffixRegex : suffixRegex.language? = some suffix := by
  simp only [suffixRegex, Regex.language?_optional, Regex.language?, Regex.contains_two]
  rfl

theorem longestMatch_number (text : List Char) (n : Nat) :
    LongestMatch numberForm text n ↔ Longest number text n := by
  let regex : Regex :=
    .seq (.alt hexRegex
      (.seq (.alt (.seq wholeRegex fractionRegex) (.seq (Regex.one '.') wholeRegex))
        ((exponentRegex digitSet).repeated 0 (some 1) true)))
      suffixRegex
  have hform : Regex.ofText? numberForm.toList = some regex := by decide
  refine longestMatch_iff hform ?_
  simp only [regex, Regex.one, Regex.language?, Regex.language?_optional, Regex.contains_one,
    language?_exponentRegex, language?_hexRegex, language?_wholeRegex, language?_fractionRegex,
    language?_suffixRegex, contains_digitSet]
  rfl

theorem longestMatch_scannedNumber (text : List Char) (n : Nat) :
    LongestMatch scannedForm text n ↔ Longest scannedNumber text n := by
  let regex : Regex :=
    .seq (.alt hexRegex
      (.seq ((Regex.one '.').repeated 0 (some 1) true)
        (.seq wholeRegex
          (.seq fractionRegex ((exponentRegex digitSet).repeated 0 (some 1) true)))))
      suffixRegex
  have hform : Regex.ofText? scannedForm.toList = some regex := by decide
  refine longestMatch_iff hform ?_
  simp only [regex, Regex.one, Regex.language?, Regex.language?_optional, Regex.contains_one,
    language?_exponentRegex, language?_hexRegex, language?_wholeRegex, language?_fractionRegex,
    language?_suffixRegex, contains_digitSet]
  rfl

/-! ## What is scanned -/

def mantissaLength (text : List Char) : Nat :=
  let whole := runLength isAsciiDigit text
  let fraction :=
    match text.drop whole with
    | '.' :: rest => 1 + runLength isAsciiDigit rest
    | _ => 0
  whole + fraction + exponentLength isAsciiDigit (text.drop (whole + fraction))

theorem numberLength_eq (text : List Char) :
    numberLength text =
      mantissaLength text + oneIf isNumberSuffix (text.drop (mantissaLength text)) := rfl

theorem mantissaLength_cons (hc : isAsciiDigit c = true) (text : List Char) :
    mantissaLength (c :: text) = 1 + mantissaLength text := by
  have hdrop (n : Nat) : (c :: text).drop (1 + n) = text.drop n := by
    rw [Nat.add_comm, List.drop_succ_cons]
  simp only [mantissaLength, runLength_cons, hc, if_true, hdrop, Nat.add_assoc]

theorem mantissaLength_of_isHexMark (h : isHexMark c = true) (text : List Char) :
    mantissaLength (c :: text) = 0 := by
  simp only [isHexMark, Bool.or_eq_true, beq_iff_eq] at h
  rcases h with rfl | rfl <;> rfl

theorem longest_fraction (text : List Char) :
    Longest fraction text
      (match text with
        | '.' :: rest => 1 + runLength isAsciiDigit rest
        | _ => 0) := by
  split
  · next rest => exact ((longest_kstar_oneOf isAsciiDigit rest).oneOf_mul rfl).optional
  · next hpoint => exact .of_not_begins (not_begins_point_mul hpoint)

theorem longest_mantissa (h : headIs isAsciiDigit text = true) :
    Longest mantissa text (mantissaLength text) := by
  have hdigit : ApartFromMarks isAsciiDigit := rfl
  have hrun : runLength isAsciiDigit text ≠ 0 := by
    cases text with
    | nil => cases h
    | cons c text => simp [runLength_cons, show isAsciiDigit c = true from h]
  exact longest_parts hdigit (longest_manyOf hrun) (avoids_manyOf hdigit.partMark.symm)
    (longest_fraction _) (avoids_oneOf hdigit.exponentMark.symm).kstar

def NumberStarts (c : Char) (text : List Char) : Prop :=
  isAsciiDigit c = true ∨ c = '.' ∧ headIs isAsciiDigit text = true

theorem longest_decimal (h : NumberStarts c text) :
    Longest ((point + 1) * mantissa) (c :: text) (1 + mantissaLength text) := by
  have hpoint : Longest (point + 1) (c :: text) (oneIf (· == '.') (c :: text)) := longest_oneIf _ _
  have havoids : Avoids isAsciiDigit (point + 1) := (avoids_point rfl).add avoids_one
  have hstarts : StartsIn isAsciiDigit mantissa := by
    rw [mantissa, manyOf, mul_assoc]
    exact startsIn_oneOf_mul fun _ hc => hc
  rcases h with hdigit | ⟨rfl, htext⟩
  · have hnone : oneIf (· == '.') (c :: text) = 0 := by
      simp [oneIf, ne_of_isAsciiDigit hdigit (by decide : isAsciiDigit '.' = false)]
    have hlongest := longest_mantissa (show headIs isAsciiDigit (c :: text) = true from hdigit)
    rw [hnone] at hpoint
    rw [← mantissaLength_cons hdigit, ← Nat.zero_add (mantissaLength _)]
    exact hpoint.mul hlongest havoids hstarts
  · exact hpoint.mul (longest_mantissa htext) havoids hstarts

theorem longest_hex (h : isHexMark c = true) (text : List Char) :
    Longest unsuffixed ('0' :: c :: text) (2 + runLength isHexDigit text) := by
  have hhex : Longest hexNumber ('0' :: c :: text) (1 + (1 + runLength isHexDigit text)) :=
    ((longest_kstar_oneOf isHexDigit text).oneOf_mul h).oneOf_mul rfl
  -- The other alternative stops after the zero.
  have hzero : Longest ((point + 1) * mantissa) ('0' :: c :: text)
      (1 + mantissaLength (c :: text)) :=
    longest_decimal (.inl rfl)
  rw [mantissaLength_of_isHexMark h] at hzero
  rw [← Nat.add_assoc] at hhex
  exact hhex.add_of_le fun n hn => Nat.le_trans (hzero.2 hn) (by omega)

theorem longest_not_hex (h : NumberStarts c text)
    (hhex : ¬ (c = '0' && headIs isHexMark text) = true) :
    Longest unsuffixed (c :: text) (1 + mantissaLength text) := by
  rw [unsuffixed, add_comm]
  refine (longest_decimal h).add_of_le fun n hn => absurd ?_ hhex
  obtain ⟨_, _, hfirst, hrest, rfl⟩ := begins_mul.mp hn
  obtain ⟨_, _, hmark, -⟩ := begins_mul.mp hrest
  obtain ⟨rfl, hzero⟩ := begins_oneOf.mp hfirst
  exact Bool.and_eq_true_iff.mpr
    ⟨decide_eq_true (beq_iff_eq.mp hzero), (begins_oneOf.mp hmark).2⟩

theorem codeToken_number (h : NumberStarts c text) (taken : List Char) :
    ∃ n, Longest unsuffixed (c :: text) n ∧
      codeToken taken c text = (n + oneIf isNumberSuffix ((c :: text).drop n), .number) := by
  have hne : c ≠ '#' ∧ c ≠ '\x60' := by
    rcases h with hdigit | ⟨rfl, -⟩
    · exact ⟨ne_of_isAsciiDigit hdigit (by decide), ne_of_isAsciiDigit hdigit (by decide)⟩
    · decide
  simp only [codeToken, hne, if_false]
  split
  · next hhex =>
      obtain ⟨hzero, hmark⟩ := Bool.and_eq_true_iff.mp hhex
      obtain rfl := of_decide_eq_true hzero
      cases text with
      | nil => cases hmark
      | cons mark rest =>
          refine ⟨_, longest_hex hmark rest, ?_⟩
          have hdrop : ('0' :: mark :: rest).drop (2 + runLength isHexDigit rest) =
              rest.drop (runLength isHexDigit rest) := by
            rw [Nat.add_comm]
            rfl
          rw [hdrop, Nat.add_assoc]
          rfl
  · next hhex =>
      have hstarts : (isAsciiDigit c || c = '.' && headIs isAsciiDigit text) = true := by
        simpa [NumberStarts] using h
      refine ⟨_, longest_not_hex h hhex, ?_⟩
      rw [if_pos hstarts, numberLength_eq, ← Nat.add_assoc, Nat.add_comm 1 (mantissaLength text),
        List.drop_succ_cons]

/-! ## Characters of a number -/

section Characters

variable {p : Char → Bool} (hp : ∀ c, p c = true → c ∈ ".Li".toList)
include hp

theorem avoids_hexNumber : Avoids p hexNumber :=
  (avoids_of_chars _ hp rfl).mul
    ((avoids_of_chars _ hp rfl).mul (avoids_of_chars _ hp rfl).kstar)

theorem avoids_digits : Avoids p (oneOf isAsciiDigit)∗ := (avoids_of_chars _ hp rfl).kstar

theorem avoids_whole : Avoids p (manyOf isAsciiDigit) :=
  (avoids_of_chars _ hp rfl).mul (avoids_digits hp)

theorem avoids_exponent : Avoids p exponent :=
  ((avoids_of_chars _ hp rfl).mul
    (((avoids_of_chars _ hp rfl).add avoids_one).mul (avoids_whole hp))).add avoids_one

end Characters

theorem avoids_unsuffixed : Avoids isNumberSuffix unsuffixed := by
  have hp : ∀ c, isNumberSuffix c = true → c ∈ ".Li".toList := by simp +contextual [isNumberSuffix]
  have hpoint : Avoids isNumberSuffix point := avoids_point rfl
  have hfraction : Avoids isNumberSuffix fraction := (hpoint.mul (avoids_digits hp)).add avoids_one
  exact (avoids_hexNumber hp).add ((hpoint.add avoids_one).mul
    ((avoids_whole hp).mul (hfraction.mul (avoids_exponent hp))))

theorem longest_scannedNumber (h : Longest unsuffixed text n) :
    Longest scannedNumber text (n + oneIf isNumberSuffix (text.drop n)) := by
  have hstarts : StartsIn isNumberSuffix suffix := (startsIn_oneOf fun _ hc => hc).optional
  exact h.mul (longest_oneIf isNumberSuffix (text.drop n)) avoids_unsuffixed hstarts

/-! ## Points -/

def PointsAtMost (n : Nat) (language : Language Char) : Prop :=
  ∀ piece ∈ language, piece.count '.' ≤ n

namespace PointsAtMost

variable {first second : Language Char} {m : Nat}

theorem of_avoids (h : Avoids (· == '.') first) (n : Nat) : PointsAtMost n first := by
  intro piece hpiece
  have hnone : piece.count '.' = 0 := by
    rw [List.count_eq_zero]
    intro hmem
    cases h piece hpiece '.' hmem
  omega

theorem add (hfirst : PointsAtMost n first) (hsecond : PointsAtMost n second) :
    PointsAtMost n (first + second) := by
  rintro piece (hpiece | hpiece)
  · exact hfirst piece hpiece
  · exact hsecond piece hpiece

theorem mul (hfirst : PointsAtMost m first) (hsecond : PointsAtMost n second) :
    PointsAtMost (m + n) (first * second) := by
  rintro _ ⟨a, ha, b, hb, rfl⟩
  have ha := hfirst a ha
  have hb := hsecond b hb
  simp only [List.count_append]
  omega

end PointsAtMost

theorem pointsAtMost_point : PointsAtMost 1 point := by
  rintro _ ⟨c, -, rfl⟩
  exact List.count_le_length

theorem pointsAtMost_suffix : PointsAtMost 0 suffix := by
  have hapart : Apart isNumberSuffix (· == '.') :=
    apart_of_chars ['L', 'i'] (by simp [isNumberSuffix]) rfl
  exact .of_avoids ((avoids_oneOf hapart).add avoids_one) 0

theorem pointsAtMost_number : PointsAtMost 1 number := by
  have hp : ∀ c, (c == '.') = true → c ∈ ".Li".toList := by simp +contextual
  have hhex := PointsAtMost.of_avoids (avoids_hexNumber hp) 1
  have hwhole := PointsAtMost.of_avoids (avoids_whole hp) 0
  have hfraction : PointsAtMost 1 fraction :=
    (pointsAtMost_point.mul (.of_avoids (avoids_digits hp) 0)).add (.of_avoids avoids_one 1)
  have hexponent := PointsAtMost.of_avoids (avoids_exponent hp) 0
  exact (hhex.add (((hwhole.mul hfraction).add (pointsAtMost_point.mul hwhole)).mul
    hexponent)).mul pointsAtMost_suffix

theorem two_le_count_of_mem {piece : List Char} (h : piece ∈ twoPointNumber) :
    2 ≤ piece.count '.' := by
  obtain ⟨_, ⟨c, hc, rfl⟩, _, ⟨digits, -, _, ⟨_, ⟨d, hd, rfl⟩, after, -, rfl⟩, rfl⟩, rfl⟩ := h
  obtain rfl := beq_iff_eq.mp hc
  obtain rfl := beq_iff_eq.mp hd
  simp [List.count_append]
  omega

theorem longest_number_iff (h : Longest scannedNumber text n) :
    Longest number text n ↔ (text.take n).count '.' ≤ 1 := by
  rw [scannedNumber_eq] at h
  constructor
  · rintro ⟨⟨piece, rest, rfl, hpiece, rfl⟩, -⟩
    rw [List.take_left]
    exact pointsAtMost_number piece hpiece
  · intro hcount
    refine h.of_add ((begins_add.mp h.1).resolve_right ?_)
    rintro ⟨piece, rest, rfl, hpiece, rfl⟩
    rw [List.take_left] at hcount
    have htwo := two_le_count_of_mem hpiece
    omega

theorem longest_number_of_digit (hdigit : headIs isAsciiDigit text = true)
    (h : Longest scannedNumber text n) : Longest number text n := by
  rw [scannedNumber_eq] at h
  refine h.of_add ((begins_add.mp h.1).resolve_right (not_begins_point_mul ?_ n))
  rintro rest rfl
  cases hdigit

/-! ## Steps -/

/-- Outside of strings a number is taken as far as the scanned form allows.  This is the longest
number if it begins with a digit, and in any case if there is no second point in it. -/
theorem step_number (view : View) (state : State) (hcode : state.openQuote = none)
    (hnumber : headIs isAsciiDigit view.ahead = true ∨
      ∃ rest, view.ahead = '.' :: rest ∧ headIs isAsciiDigit rest = true) :
    let token := step view state
    token.style = .number ∧ token.state = state ∧
      LongestMatch scannedForm view.ahead token.length ∧
      (headIs isAsciiDigit view.ahead = true →
        LongestMatch numberForm view.ahead token.length) ∧
      (LongestMatch numberForm view.ahead token.length ↔
        (view.ahead.take token.length).count '.' ≤ 1) := by
  intro token
  cases hahead : view.ahead with
  | nil => simp [hahead, headIs] at hnumber
  | cons c text =>
      rw [hahead] at hnumber
      have hstarts : NumberStarts c text := by
        rcases hnumber with hdigit | ⟨rest, ⟨⟩, hrest⟩
        · exact .inl hdigit
        · exact .inr ⟨rfl, hrest⟩
      have hplain : isBlank c = false ∧ c ≠ '\'' ∧ c ≠ '"' := by
        rcases hstarts with hdigit | ⟨rfl, -⟩
        · exact ⟨isBlank_of_isAsciiDigit hdigit, ne_of_isAsciiDigit hdigit (by decide),
            ne_of_isAsciiDigit hdigit (by decide)⟩
        · decide
      obtain ⟨n, hlength, htoken⟩ := codeToken_number hstarts view.taken
      have hstep : token =
          ⟨n + oneIf isNumberSuffix ((c :: text).drop n), .number, state⟩ := by
        simp [token, step, hcode, hahead, hplain, htoken]
      have hlongest := longest_scannedNumber hlength
      rw [hstep, longestMatch_scannedNumber, longestMatch_number]
      exact ⟨rfl, rfl, hlongest, fun hdigit => longest_number_of_digit hdigit hlongest,
        longest_number_iff hlongest⟩

theorem step_number_suffix :
    let view : View := .ofLine "1.5e-3i*x".toList 4
    headIs isAsciiDigit view.ahead = true ∧ (step view ⟨none⟩).length = 7 ∧
      LongestMatch numberForm view.ahead 7 := by
  intro view
  obtain ⟨-, -, -, hlongest, -⟩ := step_number view ⟨none⟩ rfl (.inl rfl)
  exact ⟨rfl, rfl, hlongest rfl⟩

/-- A number that begins with its point takes a second one. -/
theorem step_number_two_points :
    let view : View := .ofLine ".5.3".toList 4
    (step view ⟨none⟩).length = 4 ∧ (step view ⟨none⟩).style = .number ∧
      LongestMatch numberForm view.ahead 2 ∧ ¬ LongestMatch numberForm view.ahead 4 := by
  intro view
  have hlengths : (Regex.ofText? numberForm.toList).map (·.lengths none view.ahead) =
      some [2] := by decide
  obtain ⟨regex, hform, hregex⟩ := Option.map_eq_some_iff.mp hlengths
  have hlongest (n : Nat) : LongestMatch numberForm view.ahead n ↔ n = 2 := by
    simp +contextual [LongestMatch, hform, hregex, IsGreatest, upperBounds]
  exact ⟨rfl, rfl, (hlongest 2).mpr rfl, fun h => absurd ((hlongest 4).mp h) (by decide)⟩

end CellHighlight.R
