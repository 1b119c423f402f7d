import CellHighlight.Regex.Basic

/-!
# Finders

A pattern knows a regular expression only by the matches it finds.  Whatever finds
them, a match lies inside the text and not before the place where the search began.
-/

namespace CellHighlight

/-- A search for the match with the least start at or after a place of a text, as its
start and its length in characters. -/
structure Finder where
  findAt : List Char → Nat → Option (Nat × Nat)
  bounds {text : List Char} {place start length : Nat} :
    findAt text place = some (start, length) → place ≤ start ∧ start + length ≤ text.length

namespace Regex

def Matcher.InText (matcher : Matcher) : Prop :=
  ∀ previous text n, n ∈ matcher previous text → n ≤ text.length

theorem inText_matchChar (p : Char → Bool) : Matcher.InText (matchChar p) := by
  intro previous text n hn
  cases text with
  | nil => simp [matchChar] at hn
  | cons c text =>
      simp only [matchChar] at hn
      split at hn
      · simp_all
      · simp at hn

theorem inText_matchIf (holds : Option Char → List Char → Bool) :
    Matcher.InText fun previous text => matchIf (holds previous text) := by
  intro previous text n hn
  simp only [matchIf] at hn
  split at hn
  · simp_all
  · simp at hn

theorem Matcher.InText.seq {first second : Matcher} (hfirst : first.InText)
    (hsecond : second.InText) : Matcher.InText (matchSeq first second) := by
  intro previous text n hn
  simp only [matchSeq, List.mem_eraseDups, List.mem_flatMap, List.mem_map] at hn
  obtain ⟨a, ha, b, hb, rfl⟩ := hn
  have hle := hfirst _ _ _ ha
  have hrest := hsecond _ _ _ hb
  rw [List.length_drop] at hrest
  omega

theorem mem_matchRound {body : Matcher} {greedy : Bool} {previous : Option Char}
    {text : List Char} {later : List (List Nat)} {n : Nat}
    (hn : n ∈ matchRound body greedy previous text later) :
    n = 0 ∨ ∃ k lengths m, later[k]? = some lengths ∧ m ∈ lengths ∧ n = k + 1 + m := by
  unfold matchRound at hn
  extract_lets rounds at hn
  have hrounds : n = 0 ∨ n ∈ rounds := by
    cases greedy with
    | false => simpa using hn
    | true => simpa [or_comm] using hn
  rcases hrounds with hzero | hround
  · exact .inl hzero
  · obtain ⟨taken, -, hmem⟩ := List.mem_flatMap.mp hround
    cases taken with
    | zero => exact .inl (List.mem_singleton.mp hmem)
    | succ k =>
        obtain ⟨m, hm, rfl⟩ := List.mem_map.mp hmem
        cases hlater : later[k]? with
        | none => simp [hlater] at hm
        | some lengths =>
            rw [hlater] at hm
            exact .inr ⟨k, lengths, m, hlater, hm, rfl⟩

theorem matchStarAll_le {body : Matcher} {greedy : Bool} (previous : Option Char)
    (text : List Char) {k : Nat} {lengths : List Nat}
    (hk : (matchStarAll body greedy previous text)[k]? = some lengths) :
    ∀ n ∈ lengths, k + n ≤ text.length := by
  induction text generalizing previous k lengths with
  | nil =>
      intro n hn
      cases k with
      | zero =>
          simp only [matchStarAll, List.getElem?_cons_zero, Option.some.injEq] at hk
          subst hk
          rcases mem_matchRound hn with rfl | ⟨_, _, _, hlater, -⟩
          · simp
          · simp at hlater
      | succ k => simp [matchStarAll] at hk
  | cons c text ih =>
      intro n hn
      cases k with
      | zero =>
          simp only [matchStarAll, List.getElem?_cons_zero, Option.some.injEq] at hk
          subst hk
          rcases mem_matchRound hn with rfl | ⟨k, lengths, m, hlater, hm, rfl⟩
          · simp
          · have := ih (some c) hlater m hm
            rw [List.length_cons]
            omega
      | succ k =>
          simp only [matchStarAll, List.getElem?_cons_succ] at hk
          have := ih (some c) hk n hn
          rw [List.length_cons]
          omega

theorem Matcher.InText.star (body : Matcher) (greedy : Bool) :
    Matcher.InText (matchStar body greedy) := by
  intro previous text n hn
  unfold matchStar at hn
  cases hall : matchStarAll body greedy previous text with
  | nil => simp [hall] at hn
  | cons lengths later =>
      have hhead : (matchStarAll body greedy previous text)[0]? = some lengths := by
        simp [hall]
      rw [hall, List.headD_cons] at hn
      have := matchStarAll_le previous text hhead n hn
      omega

theorem inText_lengths (regex : Regex) : regex.lengths.InText := by
  induction regex with
  | empty =>
      intro previous text n hn
      simp_all [lengths]
  | anyChar => exact inText_matchChar _
  | char set => exact inText_matchChar _
  | textStart => exact inText_matchIf fun previous _ => previous.isNone
  | textEnd => exact inText_matchIf fun _ text => text.isEmpty
  | wordBoundary =>
      exact inText_matchIf fun previous text => isWordAt previous != isWordAt text.head?
  | seq first second ihFirst ihSecond => exact ihFirst.seq ihSecond
  | alt first second ihFirst ihSecond =>
      intro previous text n hn
      simp only [lengths, List.mem_eraseDups, List.mem_append] at hn
      rcases hn with hn | hn
      · exact ihFirst _ _ _ hn
      · exact ihSecond _ _ _ hn
  | star body greedy _ => exact .star _ _

theorem search_le {regex : Regex} {previous : Option Char} {text : List Char}
    {start length : Nat} (h : regex.search previous text = some (start, length)) :
    start + length ≤ text.length := by
  induction text generalizing previous start with
  | nil =>
      simp only [search, Option.map_eq_some_iff, Prod.mk.injEq] at h
      obtain ⟨n, hn, rfl, rfl⟩ := h
      simpa using regex.inText_lengths _ _ _ (List.mem_of_head? hn)
  | cons c text ih =>
      unfold search at h
      split at h
      · next n hn =>
          simp only [Option.some.injEq, Prod.mk.injEq] at h
          obtain ⟨rfl, rfl⟩ := h
          simpa using regex.inText_lengths _ _ _ (List.mem_of_head? hn)
      · simp only [Option.map_eq_some_iff, Prod.mk.injEq] at h
        obtain ⟨⟨skipped, length⟩, hfound, rfl, rfl⟩ := h
        have := ih hfound
        rw [List.length_cons]
        omega

theorem findAt_bounds {regex : Regex} {text : List Char} {place start length : Nat}
    (h : regex.findAt text place = some (start, length)) :
    place ≤ start ∧ start + length ≤ text.length := by
  unfold findAt at h
  split at h
  · simp only [Option.map_eq_some_iff, Prod.mk.injEq] at h
    obtain ⟨⟨skipped, length⟩, hfound, rfl, rfl⟩ := h
    have := search_le hfound
    rw [List.length_drop] at this
    dsimp only
    omega
  · contradiction

def finder (regex : Regex) : Finder := ⟨regex.findAt, findAt_bounds⟩

end Regex

end CellHighlight
