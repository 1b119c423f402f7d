import CellHighlight.Proofs.Bytes.Position
import Mathlib.Order.Bounds.Basic

/-!
# Searching for texts

A search for texts finds the least offset at which one of them stands, and the first one
in the order they are listed.  An empty text stands everywhere, also at the end.  What
stands at an offset does not depend on where the search began, so a search that begins
later, but not after the match, finds the same match.
-/

namespace CellHighlight

/-! ## The leftmost place, with the end -/

section FirstPlaceOrEnd

variable {α : Type} {here : List Char → Option α} {text : List Char} {place : Nat} {found : α}

def firstPlaceOrEnd (here : List Char → Option α) (text : List Char) : Option (Nat × α) :=
  (firstPlace here text).or ((here []).map fun found => (text.length, found))

theorem firstPlaceOrEnd_eq_none_iff :
    firstPlaceOrEnd here text = none ↔
      ∀ place ≤ text.length, here (text.drop place) = none := by
  simp only [firstPlaceOrEnd, Option.or_eq_none_iff, Option.map_eq_none_iff,
    firstPlace_eq_none_iff]
  constructor
  · rintro ⟨hinside, hend⟩ place hplace
    rcases Nat.lt_or_eq_of_le hplace with hlt | rfl
    · exact hinside place hlt
    · rwa [List.drop_length]
  · intro h
    refine ⟨fun place hplace => h place (Nat.le_of_lt hplace), ?_⟩
    have hend := h text.length (Nat.le_refl _)
    rwa [List.drop_length] at hend

theorem firstPlaceOrEnd_eq_some_iff :
    firstPlaceOrEnd here text = some (place, found) ↔
      place ≤ text.length ∧ here (text.drop place) = some found ∧
        ∀ earlier < place, here (text.drop earlier) = none := by
  simp only [firstPlaceOrEnd, Option.or_eq_some_iff, Option.map_eq_some_iff, Prod.mk.injEq,
    firstPlace_eq_some_iff, firstPlace_eq_none_iff]
  constructor
  · rintro (⟨hplace, hhere, hearlier⟩ | ⟨hinside, _, hend, rfl, rfl⟩)
    · exact ⟨Nat.le_of_lt hplace, hhere, hearlier⟩
    · exact ⟨Nat.le_refl _, by rwa [List.drop_length], hinside⟩
  · rintro ⟨hplace, hhere, hearlier⟩
    rcases Nat.lt_or_eq_of_le hplace with hlt | rfl
    · exact .inl ⟨hlt, hhere, hearlier⟩
    · rw [List.drop_length] at hhere
      exact .inr ⟨hearlier, found, hhere, rfl, rfl⟩

end FirstPlaceOrEnd

theorem byteLength_take_le_iff {m n : Nat} {text : List Char} (hm : m ≤ text.length) :
    byteLength (text.take m) ≤ byteLength (text.take n) ↔ m ≤ n := by
  constructor
  · intro hle
    by_contra hlt
    have := byteLength_take_lt (Nat.lt_of_not_le hlt) hm
    omega
  · exact fun hle => byteLength_take_mono hle text

theorem isBoundary_iff {text : List Char} {offset : Nat} :
    IsBoundary text offset ↔ ∃ n ≤ text.length, byteLength (text.take n) = offset := by
  constructor
  · rintro ⟨first, hfirst, rfl⟩
    exact ⟨first.length, hfirst.length_le, by rw [← List.prefix_iff_eq_take.mp hfirst]⟩
  · rintro ⟨n, -, rfl⟩
    exact ⟨text.take n, List.take_prefix n text, rfl⟩

namespace Pattern

variable {alternatives : List (List Char)} {lookahead : Option Lookahead}
  {text found : List Char} {n place offset start length : Nat}

def StandsAt (lookahead : Option Lookahead) (text : List Char) (offset : Nat)
    (found : List Char) : Prop :=
  ∃ before after, text = before ++ found ++ after ∧ byteLength before = offset ∧
    accepts lookahead after = true

def StandsFirstAt (alternatives : List (List Char)) (lookahead : Option Lookahead)
    (text : List Char) (offset : Nat) (found : List Char) : Prop :=
  StandsAt lookahead text offset found ∧ ∃ earlier later,
    alternatives = earlier ++ found :: later ∧
      ∀ other ∈ earlier, ¬ StandsAt lookahead text offset other

/-! ## Texts at a place -/

theorem StandsAt.isBoundary (h : StandsAt lookahead text offset found) :
    IsBoundary text offset := by
  obtain ⟨before, after, rfl, rfl, -⟩ := h
  exact ⟨before, ⟨found ++ after, by simp⟩, rfl⟩

theorem standsAt_take_iff (hplace : place ≤ text.length) :
    StandsAt lookahead text (byteLength (text.take place)) found ↔
      (found.isPrefixOf (text.drop place) &&
        accepts lookahead ((text.drop place).drop found.length)) = true := by
  rw [Bool.and_eq_true, List.isPrefixOf_iff_prefix]
  constructor
  · rintro ⟨before, after, rfl, hbefore, haccepts⟩
    have htake : byteLength before =
        byteLength ((before ++ found ++ after).take before.length) := by simp
    rw [htake, byteLength_take_inj (by simp) hplace] at hbefore
    subst hbefore
    simpa using haccepts
  · rintro ⟨⟨after, hafter⟩, haccepts⟩
    refine ⟨text.take place, after, ?_, rfl, ?_⟩
    · rw [List.append_assoc, hafter, List.take_append_drop]
    · rwa [← hafter, List.drop_left] at haccepts

theorem textAt_drop_eq_none_iff (hplace : place ≤ text.length) :
    textAt alternatives lookahead (text.drop place) = none ↔
      ∀ found ∈ alternatives, ¬ StandsAt lookahead text (byteLength (text.take place)) found := by
  simp only [textAt, List.find?_eq_none, standsAt_take_iff hplace]

theorem textAt_drop_eq_some_iff (hplace : place ≤ text.length) :
    textAt alternatives lookahead (text.drop place) = some found ↔
      StandsFirstAt alternatives lookahead text (byteLength (text.take place)) found := by
  simp only [textAt, List.find?_eq_some_iff_append, StandsFirstAt, standsAt_take_iff hplace,
    Bool.not_eq_true', Bool.not_eq_true]

/-! ## The search in bytes -/

theorem findText_eq (alternatives : List (List Char)) (lookahead : Option Lookahead)
    (text : List Char) :
    findText alternatives lookahead text =
      (firstPlaceOrEnd (textAt alternatives lookahead) text).map fun found =>
        (found.1, found.2.length) := by
  induction text with
  | nil => simp [findText, firstPlaceOrEnd, Function.comp_def]
  | cons c text ih =>
      rw [findText, firstPlaceOrEnd, firstPlace_cons, ih, firstPlaceOrEnd]
      cases textAt alternatives lookahead (c :: text) with
      | some found => rfl
      | none => simp only [Option.map_or, Option.map_map, Function.comp_def, List.length_cons]

theorem findInBytes_texts_take (alternatives : List (List Char)) (lookahead : Option Lookahead)
    (text : List Char) (n : Nat) :
    findInBytes ⟨.texts alternatives, lookahead⟩ text (byteLength (text.take n)) =
      (firstPlaceOrEnd (textAt alternatives lookahead) (text.drop n)).map fun found =>
        (byteLength (text.take (n + found.1)), byteLength found.2) := by
  have hsplit : splitAtByte? text (byteLength (text.take n)) = some (text.take n, text.drop n) :=
    splitAtByte?_eq_some_iff.mpr ⟨(List.take_append_drop n text).symm, rfl⟩
  simp only [findInBytes, hsplit, find, findText_eq, Option.bind_eq_bind, Option.bind_some]
  cases hfirst : firstPlaceOrEnd (textAt alternatives lookahead) (text.drop n) with
  | none => rfl
  | some first =>
      obtain ⟨skipped, found⟩ := first
      obtain ⟨-, hfound, -⟩ := firstPlaceOrEnd_eq_some_iff.mp hfirst
      have htake := List.prefix_iff_eq_take.mp (textAt_eq_some hfound).2
      simp only [Option.map_some, Option.bind_some, ← htake, List.take_add, byteLength_append]

theorem isLeast_stands_iff (hn : n ≤ text.length) (hplace : place ≤ text.length) :
    IsLeast {start | byteLength (text.take n) ≤ start ∧
        ∃ found ∈ alternatives, StandsAt lookahead text start found}
        (byteLength (text.take place)) ↔
      n ≤ place ∧ textAt alternatives lookahead (text.drop place) ≠ none ∧
        ∀ k, n ≤ k → k < place → textAt alternatives lookahead (text.drop k) = none := by
  have hstands {k : Nat} (hk : k ≤ text.length) :
      textAt alternatives lookahead (text.drop k) ≠ none ↔
        ∃ found ∈ alternatives, StandsAt lookahead text (byteLength (text.take k)) found := by
    rw [Ne, textAt_drop_eq_none_iff hk]
    simp only [not_forall, not_not, exists_prop]
  constructor
  · rintro ⟨⟨hle, hfound⟩, hleast⟩
    refine ⟨(byteLength_take_le_iff hn).mp hle, (hstands hplace).mpr hfound, ?_⟩
    intro k hk hlt
    by_contra hearlier
    have hbefore := (hstands (by omega)).mp hearlier
    have hle := hleast ⟨byteLength_take_mono hk text, hbefore⟩
    rw [byteLength_take_le_iff hplace] at hle
    omega
  · rintro ⟨hle, hfound, hearlier⟩
    refine ⟨⟨byteLength_take_mono hle text, (hstands hplace).mp hfound⟩, ?_⟩
    rintro other ⟨hother, alternative, hmem, hat⟩
    obtain ⟨k, hk, rfl⟩ := isBoundary_iff.mp hat.isBoundary
    rw [byteLength_take_le_iff hn] at hother
    apply byteLength_take_mono
    by_contra hlt
    exact (hstands hk).mpr ⟨alternative, hmem, hat⟩ (hearlier k hother (Nat.lt_of_not_le hlt))

theorem findInBytes_texts_eq_some_iff (hoffset : IsBoundary text offset) :
    findInBytes ⟨.texts alternatives, lookahead⟩ text offset = some (start, length) ↔
      IsLeast {start | offset ≤ start ∧
          ∃ found ∈ alternatives, StandsAt lookahead text start found} start ∧
        ∃ found, StandsFirstAt alternatives lookahead text start found ∧
          byteLength found = length := by
  obtain ⟨n, hn, rfl⟩ := isBoundary_iff.mp hoffset
  rw [findInBytes_texts_take, Option.map_eq_some_iff]
  constructor
  · rintro ⟨⟨skipped, found⟩, hfirst, heq⟩
    obtain ⟨hskipped, hfound, hearlier⟩ := firstPlaceOrEnd_eq_some_iff.mp hfirst
    rw [List.length_drop] at hskipped
    rw [List.drop_drop] at hfound
    cases heq
    have hplace : n + skipped ≤ text.length := by omega
    refine ⟨(isLeast_stands_iff hn hplace).mpr ⟨Nat.le_add_right _ _, ?_, ?_⟩, found,
      (textAt_drop_eq_some_iff hplace).mp hfound, rfl⟩
    · simp [hfound]
    · intro k hk hlt
      have hbefore := hearlier (k - n) (by omega)
      rwa [List.drop_drop, Nat.add_sub_cancel' hk] at hbefore
  · rintro ⟨hleast, found, hfirst, rfl⟩
    obtain ⟨place, hplace, rfl⟩ := isBoundary_iff.mp hfirst.1.isBoundary
    obtain ⟨hle, -, hearlier⟩ := (isLeast_stands_iff hn hplace).mp hleast
    refine ⟨(place - n, found), firstPlaceOrEnd_eq_some_iff.mpr ⟨?_, ?_, ?_⟩, ?_⟩
    · rw [List.length_drop]
      omega
    · rw [List.drop_drop, Nat.add_sub_cancel' hle]
      exact (textAt_drop_eq_some_iff hplace).mpr hfirst
    · intro k hk
      rw [List.drop_drop]
      exact hearlier (n + k) (by omega) (by omega)
    · simp only [Nat.add_sub_cancel' hle]

theorem findInBytes_texts_eq_none_iff (hoffset : IsBoundary text offset) :
    findInBytes ⟨.texts alternatives, lookahead⟩ text offset = none ↔
      ∀ start, offset ≤ start → ∀ found ∈ alternatives, ¬ StandsAt lookahead text start found := by
  obtain ⟨n, hn, rfl⟩ := isBoundary_iff.mp hoffset
  rw [findInBytes_texts_take, Option.map_eq_none_iff, firstPlaceOrEnd_eq_none_iff]
  constructor
  · intro h start hle found hmem hstands
    obtain ⟨place, hplace, rfl⟩ := isBoundary_iff.mp hstands.isBoundary
    rw [byteLength_take_le_iff hn] at hle
    have hnone := h (place - n) (by rw [List.length_drop]; omega)
    rw [List.drop_drop, Nat.add_sub_cancel' hle] at hnone
    exact (textAt_drop_eq_none_iff hplace).mp hnone found hmem hstands
  · intro h place hplace
    rw [List.length_drop] at hplace
    rw [List.drop_drop, textAt_drop_eq_none_iff (by omega)]
    exact h _ (byteLength_take_mono (Nat.le_add_right n place) text)

theorem findInBytes_eq_none (pattern : Pattern) (h : ¬ IsBoundary text offset) :
    pattern.findInBytes text offset = none := by
  cases hsplit : splitAtByte? text offset with
  | none => simp [findInBytes, hsplit]
  | some cut =>
      obtain ⟨first, second⟩ := cut
      obtain ⟨rfl, rfl⟩ := splitAtByte?_eq_some_iff.mp hsplit
      exact absurd ⟨first, List.prefix_append first second, rfl⟩ h

theorem isBoundary_of_findInBytes {pattern : Pattern} {found : Nat × Nat}
    (h : pattern.findInBytes text offset = some found) : IsBoundary text offset := by
  by_contra hinside
  rw [findInBytes_eq_none pattern hinside] at h
  cases h

theorem findInBytes_texts_later
    (h : findInBytes ⟨.texts alternatives, lookahead⟩ text offset = some (start, length))
    {later : Nat} (hlater : IsBoundary text later) (hle : offset ≤ later) (hstart : later ≤ start) :
    findInBytes ⟨.texts alternatives, lookahead⟩ text later = some (start, length) := by
  have hoffset := isBoundary_of_findInBytes h
  obtain ⟨⟨⟨-, hfound⟩, hleast⟩, hfirst⟩ := (findInBytes_texts_eq_some_iff hoffset).mp h
  refine (findInBytes_texts_eq_some_iff hlater).mpr ⟨⟨⟨hstart, hfound⟩, ?_⟩, hfirst⟩
  rintro other ⟨hother, hstands⟩
  exact hleast ⟨Nat.le_trans hle hother, hstands⟩

/-- The search finds the leftmost text that the lookahead accepts, and finds it again from
every later offset up to it; what is found is the text alone. -/
theorem findInBytes_texts (alternatives : List (List Char)) (lookahead : Option Lookahead)
    (text : List Char) (offset : Nat) :
    let pattern : Pattern := ⟨.texts alternatives, lookahead⟩
    (byteLength text < offset ∨ ¬ IsBoundary text offset →
        pattern.findInBytes text offset = none) ∧
      (IsBoundary text offset →
        (∀ start length, pattern.findInBytes text offset = some (start, length) ↔
          IsLeast {start | offset ≤ start ∧
              ∃ found ∈ alternatives, StandsAt lookahead text start found} start ∧
            ∃ found, StandsFirstAt alternatives lookahead text start found ∧
              byteLength found = length) ∧
        (pattern.findInBytes text offset = none ↔ ∀ start, offset ≤ start →
          ∀ found ∈ alternatives, ¬ StandsAt lookahead text start found)) ∧
      ∀ start length, pattern.findInBytes text offset = some (start, length) →
        (∀ later, IsBoundary text later → offset ≤ later → later ≤ start →
          pattern.findInBytes text later = some (start, length)) ∧
        pattern.matchInBytes text start = some length ∧
        ∃ before found after, text = before ++ found ++ after ∧ byteLength before = start ∧
          byteLength found = length ∧ found ∈ alternatives ∧ accepts lookahead after = true := by
  intro pattern
  refine ⟨?_, fun hoffset => ⟨fun start length => findInBytes_texts_eq_some_iff hoffset,
    findInBytes_texts_eq_none_iff hoffset⟩, fun start length hfind => ?_⟩
  · intro houtside
    apply findInBytes_eq_none
    rcases houtside with hpast | hinside
    · rintro ⟨first, hfirst, rfl⟩
      obtain ⟨rest, rfl⟩ := hfirst
      rw [byteLength_append] at hpast
      omega
    · exact hinside
  · have hoffset := isBoundary_of_findInBytes hfind
    obtain ⟨⟨⟨hle, -⟩, -⟩, found, hfirst, rfl⟩ :=
      (findInBytes_texts_eq_some_iff hoffset).mp hfind
    have hagain := findInBytes_texts_later hfind hfirst.1.isBoundary hle (Nat.le_refl start)
    obtain ⟨⟨before, after, htext, hbefore, haccepts⟩, earlier, later, rfl, -⟩ := hfirst
    refine ⟨fun later => findInBytes_texts_later hfind, ?_, before, found, after, htext, hbefore,
      rfl, by simp, haccepts⟩
    simp [pattern, matchInBytes, hagain]

end Pattern

end CellHighlight
