import CellHighlight.Proofs.Languages
import CellHighlight.Text.Letter

/-!
# Parts of numbers

A number is taken part by part, and the next characters decide whether a part is there.  No part
can begin with a character of the part before it, so the parts together are the longest match.
-/

namespace CellHighlight

open Computability

variable {text : List Char}

def isExponentMark (c : Char) : Bool := c == 'e' || c == 'E'

def isSign (c : Char) : Bool := c == '+' || c == '-'

def exponentOf (digit : Char → Bool) : Language Char :=
  oneOf isExponentMark * ((oneOf isSign + 1) * manyOf digit)

def point : Language Char := oneOf (· == '.')

def isPartMark (c : Char) : Bool := c == '.' || isExponentMark c

def ApartFromMarks (digit : Char → Bool) : Prop := ".eE+-".toList.any digit = false

namespace ApartFromMarks

variable {digit : Char → Bool}

theorem sign (h : ApartFromMarks digit) : Apart isSign digit :=
  apart_of_chars _ (by simp +contextual [isSign]) h

theorem exponentMark (h : ApartFromMarks digit) : Apart isExponentMark digit :=
  apart_of_chars _ (by simp +contextual [isExponentMark, or_imp]) h

theorem partMark (h : ApartFromMarks digit) : Apart isPartMark digit :=
  apart_of_chars _ (by simp +contextual [isPartMark, isExponentMark, or_imp]) h

end ApartFromMarks

theorem longest_exponent {digit : Char → Bool} (hdigit : ApartFromMarks digit)
    (text : List Char) : Longest (exponentOf digit + 1) text (exponentLength digit text) := by
  cases text with
  | nil =>
      refine .of_not_begins fun n hn => ?_
      obtain ⟨_, _, hmark, -⟩ := begins_mul.mp hn
      cases (begins_oneOf.mp hmark).2
  | cons c text =>
      have hsigns : Longest (oneOf isSign + 1) text (oneIf isSign text) := longest_oneIf _ _
      have havoids : Avoids digit (oneOf isSign + 1) := (avoids_oneOf hdigit.sign).add avoids_one
      simp only [exponentLength]
      split
      · next hpart =>
          obtain ⟨hmark, hdigits⟩ := Bool.and_eq_true_iff.mp hpart
          have hdigits := longest_manyOf (bne_iff_ne.mp hdigits)
          rw [Nat.add_assoc]
          exact ((hsigns.mul hdigits havoids (startsIn_manyOf digit)).oneOf_mul hmark).optional
      · next hpart =>
          -- The sign is taken first in any exponent, so the digits would have to come right after.
          refine .of_not_begins fun n hn => hpart ?_
          obtain ⟨_, m, hfirst, hm, rfl⟩ := begins_mul.mp hn
          obtain ⟨rfl, hmark⟩ := begins_oneOf.mp hfirst
          obtain ⟨k, hk, -⟩ := hsigns.exists_begins havoids (startsIn_manyOf digit) hm
          obtain ⟨hpos, hle⟩ := begins_manyOf.mp hk
          exact Bool.and_eq_true_iff.mpr
            ⟨hmark, bne_iff_ne.mpr (Nat.ne_of_gt (Nat.lt_of_lt_of_le hpos hle))⟩

theorem avoids_point {p : Char → Bool} (hp : p '.' = false) : Avoids p point :=
  avoids_oneOf fun _ hc => by rw [beq_iff_eq.mp hc, hp]

theorem not_begins_point_mul {language : Language Char} (h : ∀ rest, text = '.' :: rest → False)
    (n : Nat) : ¬ Begins (point * language) text n := by
  intro hn
  obtain ⟨_, _, ⟨_, rest, rfl, ⟨c, hc, rfl⟩, -⟩, -⟩ := begins_mul.mp hn
  exact h rest (by rw [beq_iff_eq.mp hc]; rfl)

theorem longest_parts {digit : Char → Bool} {whole fraction : Language Char} {m n : Nat}
    (hdigit : ApartFromMarks digit) (hwhole : Longest whole text m)
    (hwholeAvoids : Avoids isPartMark whole)
    (hfraction : Longest (point * fraction + 1) (text.drop m) n)
    (hfractionAvoids : Avoids isExponentMark fraction) :
    Longest (whole * ((point * fraction + 1) * (exponentOf digit + 1))) text
      (m + n + exponentLength digit (text.drop (m + n))) := by
  have hexponent := longest_exponent hdigit (text.drop (m + n))
  rw [← List.drop_drop] at hexponent
  have hpoint : Avoids isExponentMark point := avoids_point rfl
  have hmark : StartsIn isExponentMark (exponentOf digit + 1) :=
    (startsIn_oneOf_mul fun _ h => h).optional
  have hparts := hfraction.mul hexponent ((hpoint.mul hfractionAvoids).add avoids_one) hmark
  have hmarks : StartsIn isPartMark ((point * fraction + 1) * (exponentOf digit + 1)) :=
    (startsIn_oneOf_mul (by simp +contextual [isPartMark])).optional.mul
      (startsIn_oneOf_mul (by simp +contextual [isPartMark])).optional
  have hall := hwhole.mul hparts hwholeAvoids hmarks
  rwa [← Nat.add_assoc, List.drop_drop] at hall

theorem isBlank_of_isAsciiDigit {c : Char} (h : isAsciiDigit c = true) : isBlank c = false := by
  have hbounds : 48 ≤ c.toNat ∧ c.toNat ≤ 57 := by
    simpa [isAsciiDigit, Char.le_def, UInt32.le_iff_toNat_le] using h
  simp only [isBlank, blankRanges, RangeTable.covers]
  simp
  omega

theorem ne_of_isAsciiDigit {c : Char} (h : isAsciiDigit c = true) {d : Char}
    (hd : isAsciiDigit d = false) : c ≠ d := by
  rintro rfl
  rw [h] at hd
  cases hd

def exponentRegex (digits : CharSet) : Regex :=
  .seq (.char ⟨false, [('e', 'e'), ('E', 'E')]⟩)
    (.seq ((Regex.char ⟨false, [('+', '+'), ('-', '-')]⟩).repeated 0 (some 1) true)
      ((Regex.char digits).repeated 1 none true))

theorem language?_exponentRegex (digits : CharSet) :
    (exponentRegex digits).language? = some (exponentOf digits.contains) := by
  simp only [exponentRegex, Regex.language?, Regex.contains_two, Regex.language?_optional,
    Regex.language?_some]
  rfl

end CellHighlight
