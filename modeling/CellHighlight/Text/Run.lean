/-!
# Lengths of leading runs

Every scanner measures how many characters of the text ahead belong to a token.
The measures here are its parts; all of them count characters.
-/

namespace CellHighlight

def runLength (p : Char → Bool) (text : List Char) : Nat :=
  (text.takeWhile p).length

def oneIf (p : Char → Bool) : List Char → Nat
  | [] => 0
  | c :: _ => if p c then 1 else 0

def headIs (p : Char → Bool) : List Char → Bool
  | [] => false
  | c :: _ => p c

def exponentLength (digit : Char → Bool) : List Char → Nat
  | [] => 0
  | c :: text =>
      let sign := oneIf (fun s => s == '+' || s == '-') text
      let digits := runLength digit (text.drop sign)
      if (c == 'e' || c == 'E') && digits != 0 then 1 + sign + digits else 0

@[simp] theorem runLength_nil (p : Char → Bool) : runLength p [] = 0 := rfl

theorem runLength_cons (p : Char → Bool) (c : Char) (text : List Char) :
    runLength p (c :: text) = if p c then 1 + runLength p text else 0 := by
  cases h : p c <;> simp [runLength, h, Nat.add_comm]

theorem runLength_eq_zero {p : Char → Bool} {text : List Char} (h : headIs p text = false) :
    runLength p text = 0 := by
  cases text with
  | nil => rfl
  | cons c text =>
      rw [headIs] at h
      rw [runLength_cons, h]
      rfl

theorem runLength_bne_zero (p : Char → Bool) (text : List Char) :
    (runLength p text != 0) = headIs p text := by
  cases text with
  | nil => rfl
  | cons c text =>
      rw [runLength_cons, headIs]
      cases p c <;> simp

theorem runLength_le (p : Char → Bool) (text : List Char) :
    runLength p text ≤ text.length := by
  induction text with
  | nil => simp
  | cons c text ih =>
      rw [runLength_cons, List.length_cons]
      split <;> omega

theorem oneIf_eq_zero {p : Char → Bool} {text : List Char} (h : headIs p text = false) :
    oneIf p text = 0 := by
  cases text with
  | nil => rfl
  | cons c text => exact if_neg (Bool.eq_false_iff.mp h)

theorem oneIf_eq_one {p : Char → Bool} {text : List Char} (h : headIs p text = true) :
    oneIf p text = 1 := by
  cases text with
  | nil => cases h
  | cons c text => exact if_pos h

theorem oneIf_le (p : Char → Bool) (text : List Char) : oneIf p text ≤ text.length := by
  cases text with
  | nil => simp [oneIf]
  | cons c text =>
      simp only [oneIf, List.length_cons]
      split <;> omega

theorem exponentLength_le (digit : Char → Bool) (text : List Char) :
    exponentLength digit text ≤ text.length := by
  cases text with
  | nil => simp [exponentLength]
  | cons c text =>
      have hsign := oneIf_le (fun s => s == '+' || s == '-') text
      have hdigits := runLength_le digit
        (text.drop (oneIf (fun s => s == '+' || s == '-') text))
      simp only [List.length_drop] at hdigits
      simp only [exponentLength, List.length_cons]
      split <;> omega

end CellHighlight
