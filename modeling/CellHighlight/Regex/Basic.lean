import CellHighlight.Text.WordCharacter

/-!
# Regular expressions

A regular expression is matched at a place of a text, given by the character
before it and the text ahead.  Its matches there are listed by their lengths in
characters, most preferred first: alternatives from left to right, a greedy
repetition longest first, a lazy one shortest first.  The match that counts is
the head of the list.
-/

namespace CellHighlight

/-- The characters in one of the closed ranges, or in none of them. -/
structure CharSet where
  negated : Bool
  ranges : List (Char × Char)
deriving DecidableEq, Repr

def CharSet.contains (set : CharSet) (c : Char) : Bool :=
  set.ranges.any (fun range => range.1 ≤ c && c ≤ range.2) != set.negated

inductive Regex
  | empty
  /-- Any character but a line feed. -/
  | anyChar
  | char (set : CharSet)
  | textStart
  | textEnd
  | wordBoundary
  | seq (first second : Regex)
  | alt (first second : Regex)
  | star (body : Regex) (greedy : Bool)
deriving DecidableEq, Repr

namespace Regex

/-- The lengths of the matches at a place, most preferred first. -/
abbrev Matcher := Option Char → List Char → List Nat

def charBefore (previous : Option Char) (text : List Char) : Nat → Option Char
  | 0 => previous
  | n + 1 => text[n]?

def matchChar (p : Char → Bool) : Matcher
  | _, [] => []
  | _, c :: _ => if p c then [1] else []

def matchIf (holds : Bool) : List Nat := if holds then [0] else []

def matchSeq (first second : Matcher) : Matcher := fun previous text =>
  ((first previous text).flatMap fun n =>
    (second (charBefore previous text n) (text.drop n)).map (n + ·)).eraseDups

/-- One round of a repetition, given the matches of the repetition at every later
place.  A round that takes nothing ends the repetition. -/
def matchRound (body : Matcher) (greedy : Bool) (previous : Option Char)
    (text : List Char) (later : List (List Nat)) : List Nat :=
  let rounds := (body previous text).flatMap fun
    | 0 => [0]
    | n + 1 => (later[n]?.getD []).map (n + 1 + ·)
  (if greedy then rounds ++ [0] else 0 :: rounds).eraseDups

def matchStarAll (body : Matcher) (greedy : Bool) : Option Char → List Char → List (List Nat)
  | previous, [] => [matchRound body greedy previous [] []]
  | previous, c :: text =>
      let later := matchStarAll body greedy (some c) text
      matchRound body greedy previous (c :: text) later :: later

def matchStar (body : Matcher) (greedy : Bool) : Matcher := fun previous text =>
  (matchStarAll body greedy previous text).headD []

def isWordAt : Option Char → Bool
  | none => false
  | some c => isWordCharacter c

def lengths : Regex → Matcher
  | .empty => fun _ _ => [0]
  | .anyChar => matchChar (· != '\n')
  | .char set => matchChar set.contains
  | .textStart => fun previous _ => matchIf previous.isNone
  | .textEnd => fun _ text => matchIf text.isEmpty
  | .wordBoundary => fun previous text =>
      matchIf (isWordAt previous != isWordAt text.head?)
  | .seq first second => matchSeq first.lengths second.lengths
  | .alt first second => fun previous text =>
      (first.lengths previous text ++ second.lengths previous text).eraseDups
  | .star body greedy => matchStar body.lengths greedy

def search (regex : Regex) : Option Char → List Char → Option (Nat × Nat)
  | previous, [] => (regex.lengths previous []).head?.map fun n => (0, n)
  | previous, c :: text =>
      match (regex.lengths previous (c :: text)).head? with
      | some n => some (0, n)
      | none => (regex.search (some c) text).map fun found => (found.1 + 1, found.2)

/-- The match with the least start at or after a place.  The characters
before it still count as context. -/
def findAt (regex : Regex) (text : List Char) (place : Nat) : Option (Nat × Nat) :=
  if place ≤ text.length then
    (regex.search (charBefore none text place) (text.drop place)).map fun found =>
      (place + found.1, found.2)
  else none

/-! ## Counted repetitions -/

def optional (body : Regex) (greedy : Bool) : Regex :=
  if greedy then .alt body .empty else .alt .empty body

def times (body : Regex) : Nat → Regex
  | 0 => .empty
  | n + 1 => .seq body (body.times n)

def upTo (body : Regex) (greedy : Bool) : Nat → Regex
  | 0 => .empty
  | n + 1 => (Regex.seq body (body.upTo greedy n)).optional greedy

def repeated (body : Regex) (least : Nat) (most : Option Nat) (greedy : Bool) : Regex :=
  match most with
  | none => .seq (body.times least) (.star body greedy)
  | some most => .seq (body.times least) (body.upTo greedy (most - least))

end Regex

end CellHighlight
