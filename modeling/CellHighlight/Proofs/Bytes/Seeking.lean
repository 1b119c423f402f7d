import CellHighlight.Proofs.Bytes.Expressions

/-!
# Seeking delimiters in bytes

A delimiter is sought from a byte offset of a line on: its texts are compared with what
follows an offset, and the lookahead asks for the character after the match.  Each of these
reads the line from an offset on, which fails inside a character.  None of them does.
-/

namespace CellHighlight.Pattern

def acceptsAt (lookahead : Option Lookahead) (text : List Char) (offset : Nat) :
    Except CursorError Bool := do
  match lookahead with
  | none => return true
  | some lookahead => return lookahead.holds (← textFrom text offset).head?

def textMatches (lookahead : Option Lookahead) (text : List Char) (offset : Nat)
    (alternative : List Char) : Except CursorError Bool := do
  if alternative.isPrefixOf (← textFrom text offset) then
    acceptsAt lookahead text (offset + byteLength alternative)
  else return false

def seekAlternative (lookahead : Option Lookahead) (text : List Char) (offset : Nat) :
    List (List Char) → Except CursorError (Option (List Char))
  | [] => return none
  | alternative :: others => do
      if ← textMatches lookahead text offset alternative then return some alternative
      else seekAlternative lookahead text offset others

def seekText (alternatives : List (List Char)) (lookahead : Option Lookahead)
    (text : List Char) : List Char → Nat → Except CursorError (Option (Nat × Nat))
  | [], offset => do
      return (← seekAlternative lookahead text offset alternatives).map fun found =>
        (offset, byteLength found)
  | c :: rest, offset => do
      match ← seekAlternative lookahead text offset alternatives with
      | some found => return some (offset, byteLength found)
      | none => seekText alternatives lookahead text rest (offset + c.utf8Size)

/-- There is nothing to be found past the end or inside a character. -/
def seek (pattern : Pattern) (text : List Char) (offset : Nat) :
    Except CursorError (Option (Nat × Nat)) := do
  match splitAtByte? text offset with
  | none => return none
  | some (_, rest) =>
      match pattern.kind with
      | .lineStart =>
          if offset = 0 then
            return if ← acceptsAt pattern.lookahead text 0 then some (0, 0) else none
          else return none
      | .texts alternatives => seekText alternatives pattern.lookahead text rest offset
      | .regex finder =>
          let found ← searchInBytes finder pattern.lookahead rest (rest.length + 2) 0
          return found.join.map fun found => (offset + found.1, found.2)

def seekAt (pattern : Pattern) (text : List Char) (offset : Nat) :
    Except CursorError (Option Nat) := do
  match ← pattern.seek text offset with
  | none => return none
  | some (start, length) => return if start = offset then some length else none

/-! ## Seeking never fails -/

section Texts

variable (lookahead : Option Lookahead) (before rest : List Char)

theorem textFrom_append : textFrom (before ++ rest) (byteLength before) = .ok rest := by
  rw [textFrom, splitAtByte?_append]

theorem acceptsAt_append :
    acceptsAt lookahead (before ++ rest) (byteLength before) = .ok (accepts lookahead rest) := by
  cases lookahead with
  | none => rfl
  | some lookahead =>
      rw [acceptsAt, textFrom_append]
      rfl

theorem textMatches_append (alternative : List Char) :
    textMatches lookahead (before ++ rest) (byteLength before) alternative =
      .ok (alternative.isPrefixOf rest && accepts lookahead (rest.drop alternative.length)) := by
  rw [textMatches, textFrom_append, ok_bind]
  split
  · next hbegins =>
      obtain ⟨after, rfl⟩ := List.isPrefixOf_iff_prefix.mp hbegins
      rw [← List.append_assoc, ← byteLength_append, acceptsAt_append, List.drop_left, hbegins,
        Bool.true_and]
  · next hbegins =>
      rw [Bool.eq_false_iff.mpr hbegins]
      rfl

theorem seekAlternative_append (alternatives : List (List Char)) :
    seekAlternative lookahead (before ++ rest) (byteLength before) alternatives =
      .ok (textAt alternatives lookahead rest) := by
  induction alternatives with
  | nil => rfl
  | cons alternative others ih =>
      rw [seekAlternative, textMatches_append, ok_bind, ih]
      simp only [textAt, List.find?_cons]
      cases alternative.isPrefixOf rest && accepts lookahead (rest.drop alternative.length) <;> rfl

end Texts

theorem byteLength_of_textAt {alternatives : List (List Char)} {lookahead : Option Lookahead}
    {text found : List Char} (h : textAt alternatives lookahead text = some found) :
    byteLength found = byteLength (text.take found.length) := by
  rw [← List.prefix_iff_eq_take.mp (textAt_eq_some h).2]

theorem seekText_append (alternatives : List (List Char)) (lookahead : Option Lookahead)
    (before rest : List Char) :
    seekText alternatives lookahead (before ++ rest) rest (byteLength before) =
      .ok ((findText alternatives lookahead rest).map fun found =>
        (byteLength before + byteLength (rest.take found.1),
          byteLength ((rest.drop found.1).take found.2))) := by
  induction rest generalizing before with
  | nil =>
      rw [seekText, seekAlternative_append, findText, ok_bind]
      cases hfound : textAt alternatives lookahead [] with
      | none => rfl
      | some found => simp [byteLength_of_textAt hfound]; rfl
  | cons c rest ih =>
      rw [seekText, seekAlternative_append, findText, ok_bind]
      cases hfound : textAt alternatives lookahead (c :: rest) with
      | some found => simp [byteLength_of_textAt hfound]; rfl
      | none =>
          have hlater := ih (before ++ [c])
          have hbytes : byteLength (before ++ [c]) = byteLength before + c.utf8Size := by simp
          rw [List.append_assoc, List.singleton_append, hbytes] at hlater
          simp only [hlater, Option.map_map]
          congr 2
          funext found
          simp [Nat.add_assoc]

/-- A search goes at least one place further in each round, so more rounds than there are
places find nothing else. -/
theorem findRegex_succ {finder : Finder} {lookahead : Option Lookahead} {text : List Char}
    {fuel place : Nat} (hfuel : text.length < fuel + place) :
    findRegex finder lookahead text (fuel + 1) place =
      findRegex finder lookahead text fuel place := by
  induction fuel generalizing place with
  | zero =>
      rw [findRegex, findRegex]
      cases hfound : finder.findAt text place with
      | none => rfl
      | some found =>
          have := finder.bounds hfound
          omega
  | succ fuel ih =>
      rw [findRegex.eq_2, findRegex.eq_2]
      cases hfound : finder.findAt text place with
      | none => rfl
      | some found =>
          have := finder.bounds hfound
          dsimp only
          rw [ih (by omega)]

theorem seek_eq (pattern : Pattern) (text : List Char) (offset : Nat) :
    pattern.seek text offset = .ok (pattern.findInBytes text offset) := by
  unfold seek
  cases hsplit : splitAtByte? text offset with
  | none =>
      rw [findInBytes, hsplit]
      rfl
  | some parts =>
      obtain ⟨before, rest⟩ := parts
      obtain ⟨rfl, rfl⟩ := splitAtByte?_eq_some_iff.mp hsplit
      rw [findInBytes_append]
      cases hkind : pattern.kind with
      | lineStart =>
          simp only [find, hkind]
          by_cases hzero : byteLength before = 0
          · have haccepts := acceptsAt_append pattern.lookahead before rest
            rw [hzero] at haccepts ⊢
            rw [if_pos rfl, haccepts]
            cases accepts pattern.lookahead rest <;> rfl
          · simp only [if_neg hzero, beq_eq_false_iff_ne.mpr hzero]
            rfl
      | texts alternatives =>
          simp only [find, hkind, seekText_append]
      | regex finder =>
          have hsearch := searchInBytes_eq finder pattern.lookahead
            (show rest.length + 1 < rest.length + 2 + 0 by omega) (Nat.zero_le _)
          have hfuel : findRegex finder pattern.lookahead rest (rest.length + 2) 0 =
              findRegex finder pattern.lookahead rest (rest.length + 1) 0 :=
            findRegex_succ (by omega)
          rw [show offsetOf rest 0 = 0 from rfl, hfuel] at hsearch
          simp only [find, hkind, hsearch, ok_bind, Option.join_some, Option.map_map]
          rfl

theorem seekAt_eq (pattern : Pattern) (text : List Char) (offset : Nat) :
    pattern.seekAt text offset = .ok (pattern.matchInBytes text offset) := by
  rw [seekAt, seek_eq, matchInBytes, ok_bind]
  cases pattern.findInBytes text offset <;> rfl

end CellHighlight.Pattern
