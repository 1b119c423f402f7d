/-!
# Byte measures of a text

A text is a list of characters.  Lengths and positions that leave the library
count bytes of the UTF-8 form; a byte offset that falls inside a character cuts
nothing.
-/

namespace CellHighlight

def byteLength : List Char → Nat
  | [] => 0
  | c :: text => c.utf8Size + byteLength text

@[simp] theorem byteLength_nil : byteLength [] = 0 := rfl

@[simp] theorem byteLength_cons (c : Char) (text : List Char) :
    byteLength (c :: text) = c.utf8Size + byteLength text := rfl

@[simp] theorem byteLength_append (first second : List Char) :
    byteLength (first ++ second) = byteLength first + byteLength second := by
  induction first with
  | nil => simp
  | cons c first ih => simp [ih, Nat.add_assoc]

theorem byteLength_pos {text : List Char} (h : text ≠ []) : 0 < byteLength text := by
  cases text with
  | nil => exact absurd rfl h
  | cons c text =>
      have := c.utf8Size_pos
      simp only [byteLength_cons]
      omega

/-- The text before and after a byte offset; `none` when the offset is inside a
character or past the end. -/
def splitAtByte? : List Char → Nat → Option (List Char × List Char)
  | text, 0 => some ([], text)
  | [], _ + 1 => none
  | c :: text, n + 1 =>
      if c.utf8Size ≤ n + 1 then
        (splitAtByte? text (n + 1 - c.utf8Size)).map fun cut => (c :: cut.1, cut.2)
      else none

@[simp] theorem splitAtByte?_zero (text : List Char) :
    splitAtByte? text 0 = some ([], text) := by
  cases text <;> rfl

@[simp] theorem splitAtByte?_append (first second : List Char) :
    splitAtByte? (first ++ second) (byteLength first) = some (first, second) := by
  induction first with
  | nil => simp
  | cons c first ih =>
      obtain ⟨n, hn⟩ := Nat.exists_eq_add_one.mpr (byteLength_pos (List.cons_ne_nil c first))
      have hrest : n + 1 - c.utf8Size = byteLength first := by
        rw [← hn, byteLength_cons, Nat.add_sub_cancel_left]
      rw [hn, List.cons_append, splitAtByte?, hrest, ih, if_pos]
      · rfl
      · rw [← hn, byteLength_cons]
        exact Nat.le_add_right _ _

def slice? (text : List Char) (first last : Nat) : Option (List Char) := do
  let (_, rest) ← splitAtByte? text first
  let (middle, _) ← splitAtByte? rest (last - first)
  if first ≤ last then some middle else none

theorem slice?_append (before middle after : List Char) :
    slice? (before ++ middle ++ after) (byteLength before)
      (byteLength before + byteLength middle) = some middle := by
  rw [slice?, List.append_assoc, splitAtByte?_append]
  simp

def utf8Bytes (text : List Char) : List UInt8 :=
  text.flatMap String.utf8EncodeChar

end CellHighlight
