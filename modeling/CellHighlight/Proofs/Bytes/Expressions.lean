import CellHighlight.Proofs.Bytes.Texts

/-!
# Searching for regular expressions

A search for a regular expression asks for the leftmost match, and when the lookahead
refuses the character after it, asks again from the character after its beginning.  No match
is passed over that way, so the search finds the first match that the lookahead accepts.
-/

namespace CellHighlight

/-! ## The first place from a place on -/

/-- What a search from a place has to find when `lengthAt?` tells what there is to be found at
each place. -/
def FirstFrom (lengthAt? : Nat → Option Nat) (place : Nat) : Option (Nat × Nat) → Prop
  | none => ∀ start, place ≤ start → lengthAt? start = none
  | some (start, length) =>
      place ≤ start ∧ lengthAt? start = some length ∧
        ∀ earlier, place ≤ earlier → earlier < start → lengthAt? earlier = none

namespace FirstFrom

variable {lengthAt? : Nat → Option Nat} {place later : Nat} {found other : Option (Nat × Nat)}

theorem here {length : Nat} (h : lengthAt? place = some length) :
    FirstFrom lengthAt? place (some (place, length)) :=
  ⟨Nat.le_refl place, h, fun _ hle hlt => absurd hle (Nat.not_le_of_lt hlt)⟩

theorem of_later (h : FirstFrom lengthAt? later found) (hle : place ≤ later)
    (hpassed : ∀ start, place ≤ start → start < later → lengthAt? start = none) :
    FirstFrom lengthAt? place found := by
  have hnone (start : Nat) (hstart : place ≤ start)
      (hlater : later ≤ start → lengthAt? start = none) : lengthAt? start = none := by
    rcases Nat.lt_or_ge start later with hlt | hge
    · exact hpassed start hstart hlt
    · exact hlater hge
  cases found with
  | none => exact fun start hstart => hnone start hstart (h start)
  | some found =>
      obtain ⟨hstart, hlength, hearlier⟩ := h
      exact ⟨Nat.le_trans hle hstart, hlength, fun earlier hplace hlt =>
        hnone earlier hplace fun hge => hearlier earlier hge hlt⟩

theorem ne_some (h : FirstFrom lengthAt? place none) {start length : Nat}
    (hstart : place ≤ start) : lengthAt? start ≠ some length := by
  rw [h start hstart]
  exact nofun

theorem unique (h : FirstFrom lengthAt? place found) (hother : FirstFrom lengthAt? place other) :
    found = other := by
  cases found with
  | none =>
      cases other with
      | none => rfl
      | some other => exact absurd hother.2.1 (h.ne_some hother.1)
  | some found =>
      cases other with
      | none => exact absurd h.2.1 (hother.ne_some h.1)
      | some other =>
          obtain ⟨start, length⟩ := found
          obtain ⟨start', length'⟩ := other
          obtain ⟨hstart, hlength, hearlier⟩ := h
          obtain ⟨hstart', hlength', hearlier'⟩ := hother
          have hsame : start = start' := by
            rcases Nat.lt_trichotomy start start' with hlt | heq | hlt
            · exact absurd hlength (by simp [hearlier' start hstart hlt])
            · exact heq
            · exact absurd hlength' (by simp [hearlier start' hstart' hlt])
          subst hsame
          rw [hlength] at hlength'
          cases hlength'
          rfl

theorem shift {before : Nat} (h : FirstFrom (fun start => lengthAt? (before + start)) 0 found) :
    FirstFrom lengthAt? before (found.map fun found => (before + found.1, found.2)) := by
  cases found with
  | none =>
      intro start hstart
      rw [← Nat.add_sub_cancel' hstart]
      exact h (start - before) (Nat.zero_le _)
  | some found =>
      obtain ⟨-, hlength, hearlier⟩ := h
      refine ⟨Nat.le_add_right _ _, hlength, fun earlier hplace hlt => ?_⟩
      rw [← Nat.add_sub_cancel' hplace]
      exact hearlier (earlier - before) (Nat.zero_le _) (by omega)

end FirstFrom

/-! ## Finders -/

/-- The finder finds the match with the least start, and its length depends only on the text
and that start: it is what `lengthAt?` gives. -/
def Finder.Leftmost (finder : Finder) (lengthAt? : List Char → Nat → Option Nat) : Prop :=
  ∀ text place, FirstFrom (lengthAt? text) place (finder.findAt text place)

theorem Finder.Leftmost.bounds {finder : Finder} {lengthAt? : List Char → Nat → Option Nat}
    (h : finder.Leftmost lengthAt?) {text : List Char} {start length : Nat}
    (hlength : lengthAt? text start = some length) : start + length ≤ text.length :=
  (finder.bounds ((h text start).unique (.here hlength))).2

namespace Regex

def lengthAt? (regex : Regex) (previous : Option Char) (text : List Char) (place : Nat) :
    Option Nat :=
  if place ≤ text.length then
    (regex.lengths (charBefore previous text place) (text.drop place)).head?
  else none

theorem charBefore_drop (previous : Option Char) (text : List Char) (m n : Nat) :
    charBefore (charBefore previous text m) (text.drop m) n = charBefore previous text (m + n) := by
  cases n with
  | zero => rfl
  | succ n => simp [charBefore]

theorem lengthAt?_drop (regex : Regex) (previous : Option Char) {text : List Char} {m : Nat}
    (hm : m ≤ text.length) (n : Nat) :
    regex.lengthAt? (charBefore previous text m) (text.drop m) n =
      regex.lengthAt? previous text (m + n) := by
  simp only [lengthAt?, charBefore_drop, List.length_drop, List.drop_drop]
  congr 1
  exact propext (by omega)

theorem firstFrom_search (regex : Regex) (previous : Option Char) (text : List Char) :
    FirstFrom (regex.lengthAt? previous text) 0 (regex.search previous text) := by
  induction text generalizing previous with
  | nil =>
      unfold search
      cases hhead : (regex.lengths previous []).head? with
      | none =>
          intro start _
          cases start with
          | zero => exact hhead
          | succ start => rfl
      | some length => exact .here hhead
  | cons c text ih =>
      unfold search
      cases hhead : (regex.lengths previous (c :: text)).head? with
      | some length => exact .here hhead
      | none =>
          have hlater : FirstFrom (regex.lengthAt? previous (c :: text)) 1
              ((regex.search (some c) text).map fun found => (1 + found.1, found.2)) := by
            apply FirstFrom.shift
            simp only [← regex.lengthAt?_drop previous (show 1 ≤ (c :: text).length by simp)]
            exact ih (some c)
          simp only [Nat.add_comm _ 1]
          apply hlater.of_later (Nat.zero_le _)
          intro start _ hlt
          obtain rfl : start = 0 := by omega
          exact hhead

theorem leftmost_finder (regex : Regex) : regex.finder.Leftmost (regex.lengthAt? none) := by
  intro text place
  show FirstFrom _ place (regex.findAt text place)
  unfold findAt
  split
  · next hplace =>
      apply FirstFrom.shift
      simp only [← regex.lengthAt?_drop none hplace]
      exact regex.firstFrom_search _ _
  · next hplace =>
      intro start hstart
      exact if_neg (by omega)

end Regex

/-! ## Matches that the lookahead accepts -/

namespace Pattern

variable {finder : Finder} {lengthAt? : List Char → Nat → Option Nat}
  {lookahead : Option Lookahead} {text : List Char} {fuel place : Nat}

def acceptedAt? (lengthAt? : List Char → Nat → Option Nat) (lookahead : Option Lookahead)
    (text : List Char) (start : Nat) : Option Nat :=
  (lengthAt? text start).filter fun length => accepts lookahead (text.drop (start + length))

theorem acceptedAt?_eq_some_iff {start length : Nat} :
    acceptedAt? lengthAt? lookahead text start = some length ↔
      lengthAt? text start = some length ∧
        accepts lookahead (text.drop (start + length)) = true := by
  simp [acceptedAt?, Option.filter_eq_some_iff]

theorem acceptedAt?_eq_none {start : Nat} (h : lengthAt? text start = none) :
    acceptedAt? lengthAt? lookahead text start = none := by
  simp [acceptedAt?, h]

/-- A refused match sends the search on past its beginning only, and before that there is
no other match. -/
theorem firstFrom_findRegex (h : finder.Leftmost lengthAt?)
    (hfuel : text.length < fuel + place) :
    FirstFrom (acceptedAt? lengthAt? lookahead text) place
      (findRegex finder lookahead text fuel place) := by
  induction fuel generalizing place with
  | zero =>
      intro start hstart
      apply acceptedAt?_eq_none
      cases hlength : lengthAt? text start with
      | none => rfl
      | some length =>
          have := h.bounds hlength
          omega
  | succ fuel ih =>
      have hfirst := h text place
      unfold findRegex
      cases hfound : finder.findAt text place with
      | none =>
          rw [hfound] at hfirst
          exact fun start hstart => acceptedAt?_eq_none (hfirst start hstart)
      | some found =>
          rw [hfound] at hfirst
          obtain ⟨start, length⟩ := found
          obtain ⟨hstart, hlength, hearlier⟩ := hfirst
          dsimp only
          split
          · next haccepts =>
              exact ⟨hstart, acceptedAt?_eq_some_iff.mpr ⟨hlength, haccepts⟩,
                fun earlier hplace hlt => acceptedAt?_eq_none (hearlier earlier hplace hlt)⟩
          · next hrefused =>
              apply (ih (by omega)).of_later (by omega)
              intro other hplace hlt
              rcases Nat.lt_or_eq_of_le (Nat.le_of_lt_succ hlt) with hbefore | rfl
              · exact acceptedAt?_eq_none (hearlier other hplace hbefore)
              · simp [acceptedAt?, hlength, hrefused]

/-! ## The search in bytes -/

def MatchesAt (lengthAt? : List Char → Nat → Option Nat) (lookahead : Option Lookahead)
    (text : List Char) (start length : Nat) : Prop :=
  ∃ before found after, text = before ++ found ++ after ∧ byteLength before = start ∧
    byteLength found = length ∧ lengthAt? text before.length = some found.length ∧
    accepts lookahead after = true

def inBytes (text : List Char) (found : Nat × Nat) : Nat × Nat :=
  (byteLength (text.take found.1), byteLength ((text.drop found.1).take found.2))

theorem matchesAt_inBytes (h : finder.Leftmost lengthAt?) {found : Nat × Nat}
    (haccepted : acceptedAt? lengthAt? lookahead text found.1 = some found.2) :
    MatchesAt lengthAt? lookahead text (inBytes text found).1 (inBytes text found).2 := by
  obtain ⟨start, length⟩ := found
  obtain ⟨hlength, haccepts⟩ := acceptedAt?_eq_some_iff.mp haccepted
  dsimp only at hlength haccepts
  have hbounds := h.bounds hlength
  have hrest : length ≤ (text.drop start).length := by
    rw [List.length_drop]
    omega
  refine ⟨text.take start, (text.drop start).take length, text.drop (start + length), ?_, rfl,
    rfl, ?_, haccepts⟩
  · rw [← List.take_add, List.take_append_drop]
  · rw [List.length_take_of_le (by omega), List.length_take_of_le hrest]
    exact hlength

theorem MatchesAt.exists_acceptedAt? {start length : Nat}
    (h : MatchesAt lengthAt? lookahead text start length) :
    ∃ found, found.1 ≤ text.length ∧ inBytes text found = (start, length) ∧
      acceptedAt? lengthAt? lookahead text found.1 = some found.2 := by
  obtain ⟨before, found, after, rfl, rfl, rfl, hlength, haccepts⟩ := h
  refine ⟨(before.length, found.length), by simp, by simp [inBytes], ?_⟩
  rw [acceptedAt?_eq_some_iff]
  exact ⟨hlength, by simpa using haccepts⟩

theorem MatchesAt.unique {start length other : Nat}
    (h : MatchesAt lengthAt? lookahead text start length)
    (hother : MatchesAt lengthAt? lookahead text start other) : length = other := by
  obtain ⟨⟨place, size⟩, hplace, heq, haccepted⟩ := h.exists_acceptedAt?
  obtain ⟨⟨place', size'⟩, hplace', heq', haccepted'⟩ := hother.exists_acceptedAt?
  simp only [inBytes, Prod.mk.injEq] at heq heq'
  obtain rfl : place = place' :=
    (byteLength_take_inj hplace hplace').mp (heq.1.trans heq'.1.symm)
  rw [haccepted] at haccepted'
  cases haccepted'
  exact heq.2.symm.trans heq'.2

theorem isLeast_inBytes (h : finder.Leftmost lengthAt?) {found : Nat × Nat}
    (hfound : FirstFrom (acceptedAt? lengthAt? lookahead text) 0 (some found)) :
    IsLeast {start | ∃ length, MatchesAt lengthAt? lookahead text start length}
      (inBytes text found).1 := by
  obtain ⟨-, haccepted, hearlier⟩ := hfound
  refine ⟨⟨_, matchesAt_inBytes h haccepted⟩, ?_⟩
  rintro start ⟨length, hmatch⟩
  obtain ⟨other, -, heq, hother⟩ := hmatch.exists_acceptedAt?
  have hstart : byteLength (text.take other.1) = start := congrArg Prod.fst heq
  rw [← hstart]
  apply byteLength_take_mono
  by_contra hlt
  rw [hearlier other.1 (Nat.zero_le _) (Nat.lt_of_not_le hlt)] at hother
  cases hother

theorem inBytes_eq_some_iff (h : finder.Leftmost lengthAt?) {found : Option (Nat × Nat)}
    (hfound : FirstFrom (acceptedAt? lengthAt? lookahead text) 0 found) (start length : Nat) :
    found.map (inBytes text) = some (start, length) ↔
      IsLeast {start | ∃ length, MatchesAt lengthAt? lookahead text start length} start ∧
        MatchesAt lengthAt? lookahead text start length := by
  constructor
  · intro heq
    obtain ⟨found, rfl, hbytes⟩ := Option.map_eq_some_iff.mp heq
    have hleast := isLeast_inBytes h hfound
    have hmatch := matchesAt_inBytes h hfound.2.1
    rw [hbytes] at hleast hmatch
    exact ⟨hleast, hmatch⟩
  · rintro ⟨hleast, hmatch⟩
    cases found with
    | none =>
        obtain ⟨other, -, -, hother⟩ := hmatch.exists_acceptedAt?
        exact absurd hother (hfound.ne_some (Nat.zero_le other.1))
    | some found =>
        have hstart : (inBytes text found).1 = start := (isLeast_inBytes h hfound).unique hleast
        subst hstart
        have hlength : (inBytes text found).2 = length :=
          (matchesAt_inBytes h hfound.2.1).unique hmatch
        rw [Option.map_some, ← hlength]

theorem inBytes_eq_none_iff (h : finder.Leftmost lengthAt?) {found : Option (Nat × Nat)}
    (hfound : FirstFrom (acceptedAt? lengthAt? lookahead text) 0 found) :
    found.map (inBytes text) = none ↔
      ∀ start length, ¬ MatchesAt lengthAt? lookahead text start length := by
  rw [Option.map_eq_none_iff]
  constructor
  · rintro rfl start length hmatch
    obtain ⟨other, -, -, hother⟩ := hmatch.exists_acceptedAt?
    exact hfound.ne_some (Nat.zero_le other.1) hother
  · intro hnone
    cases found with
    | none => rfl
    | some found => exact absurd (matchesAt_inBytes h hfound.2.1) (hnone _ _)

/-! ## Where the finder is asked -/

def textFrom (text : List Char) (offset : Nat) : Except CursorError (List Char) :=
  match splitAtByte? text offset with
  | some (_, rest) => .ok rest
  | none => .error .insideCharacter

def askInBytes (finder : Finder) (text : List Char) (offset : Nat) :
    Except CursorError (Option (Nat × Nat)) := do
  let rest ← textFrom text offset
  return (finder.findAt text (text.length - rest.length)).map (inBytes text)

/-- The search with all its offsets in bytes; no answer when the rounds are used up. -/
def searchInBytes (finder : Finder) (lookahead : Option Lookahead) (text : List Char) :
    Nat → Nat → Except CursorError (Option (Option (Nat × Nat)))
  | 0, _ => return none
  | rounds + 1, offset =>
      if byteLength text < offset then return some none
      else do
        match ← askInBytes finder text offset with
        | none => return some none
        | some (start, length) =>
            if accepts lookahead (← textFrom text (start + length)) then
              return some (some (start, length))
            else
              let rest ← textFrom text start
              searchInBytes finder lookahead text rounds
                (start + (rest.head?.map Char.utf8Size).getD 1)

/-- The byte offset of a place; one place is past the end. -/
def offsetOf (text : List Char) (place : Nat) : Nat :=
  if place ≤ text.length then byteLength (text.take place) else byteLength text + 1

theorem textFrom_take (text : List Char) (n : Nat) :
    textFrom text (byteLength (text.take n)) = .ok (text.drop n) := by
  have hsplit : splitAtByte? text (byteLength (text.take n)) = some (text.take n, text.drop n) :=
    splitAtByte?_eq_some_iff.mpr ⟨(List.take_append_drop n text).symm, rfl⟩
  rw [textFrom, hsplit]

theorem askInBytes_take (finder : Finder) (hplace : place ≤ text.length) :
    askInBytes finder text (byteLength (text.take place)) =
      .ok ((finder.findAt text place).map (inBytes text)) := by
  rw [askInBytes, textFrom_take, ok_bind, List.length_drop, Nat.sub_sub_self hplace]
  rfl

theorem inBytes_end (text : List Char) (start length : Nat) :
    (inBytes text (start, length)).1 + (inBytes text (start, length)).2 =
      byteLength (text.take (start + length)) := by
  rw [List.take_add, byteLength_append]
  rfl

theorem offsetOf_succ {start : Nat} (hstart : start ≤ text.length) :
    byteLength (text.take start) + ((text.drop start).head?.map Char.utf8Size).getD 1 =
      offsetOf text (start + 1) := by
  unfold offsetOf
  split
  · next hlt =>
      rw [List.take_succ_eq_append_getElem hlt, List.drop_eq_getElem_cons hlt, byteLength_append]
      rfl
  · next hlt =>
      obtain rfl : start = text.length := by omega
      simp

/-- The search in bytes asks only between two characters and not past the end, ends in time
and finds what the search in characters finds. -/
theorem searchInBytes_eq (finder : Finder) (lookahead : Option Lookahead) {rounds : Nat}
    (hrounds : text.length + 1 < rounds + place) (hplace : place ≤ text.length + 1) :
    searchInBytes finder lookahead text rounds (offsetOf text place) =
      .ok (some ((findRegex finder lookahead text rounds place).map (inBytes text))) := by
  induction rounds generalizing place with
  | zero => omega
  | succ rounds ih =>
      unfold searchInBytes findRegex
      by_cases hinside : place ≤ text.length
      · have hoffset : offsetOf text place = byteLength (text.take place) := if_pos hinside
        have hlimit := byteLength_take_le place text
        rw [hoffset, if_neg (Nat.not_lt_of_le hlimit), askInBytes_take finder hinside, ok_bind]
        cases hfound : finder.findAt text place with
        | none => rfl
        | some found =>
            obtain ⟨start, length⟩ := found
            have hbounds := finder.bounds hfound
            have hend := inBytes_end text start length
            simp only [Option.map_some, hend, textFrom_take, ok_bind]
            split
            · rfl
            · have hstart : (inBytes text (start, length)).1 = byteLength (text.take start) := rfl
              rw [hstart, textFrom_take, ok_bind, offsetOf_succ (by omega)]
              exact ih (by omega) (by omega)
      · -- Only the place past the end is left; nothing is asked there, and nothing is found.
        have hoffset : offsetOf text place = byteLength text + 1 := if_neg hinside
        have hfound : finder.findAt text place = none := by
          cases hfound : finder.findAt text place with
          | none => rfl
          | some found =>
              have := finder.bounds hfound
              omega
        rw [hoffset, if_pos (Nat.lt_succ_self _), hfound]
        rfl

/-- When the finder finds the leftmost match, the search from any offset between two
characters asks it only at such offsets of the text that follows, ends, and gives the match
with the least start among those that the lookahead accepts; it gives none only if the
lookahead accepts no match at all. -/
theorem findInBytes_regex (finder : Finder) (lengthAt? : List Char → Nat → Option Nat)
    (hfinder : finder.Leftmost lengthAt?) (lookahead : Option Lookahead)
    (before rest : List Char) :
    ∃ found,
      findInBytes ⟨.regex finder, lookahead⟩ (before ++ rest) (byteLength before) =
          found.map (fun found => (byteLength before + found.1, found.2)) ∧
        (∀ extra, searchInBytes finder lookahead rest (rest.length + 2 + extra) 0 =
          .ok (some found)) ∧
        (∀ start length, found = some (start, length) ↔
          IsLeast {start | ∃ length, MatchesAt lengthAt? lookahead rest start length} start ∧
            MatchesAt lengthAt? lookahead rest start length) ∧
        (found = none ↔
          ∀ start length, ¬ MatchesAt lengthAt? lookahead rest start length) := by
  have hfirst : FirstFrom (acceptedAt? lengthAt? lookahead rest) 0
      (findRegex finder lookahead rest (rest.length + 1) 0) :=
    firstFrom_findRegex hfinder (by omega)
  refine ⟨(findRegex finder lookahead rest (rest.length + 1) 0).map (inBytes rest), ?_, ?_,
    inBytes_eq_some_iff hfinder hfirst, inBytes_eq_none_iff hfinder hfirst⟩
  · rw [findInBytes, splitAtByte?_append]
    simp only [find, Option.bind_eq_bind, Option.bind_some]
    cases findRegex finder lookahead rest (rest.length + 1) 0 <;> rfl
  · intro extra
    have hsame : findRegex finder lookahead rest (rest.length + 2 + extra) 0 =
        findRegex finder lookahead rest (rest.length + 1) 0 :=
      (firstFrom_findRegex hfinder (by omega)).unique hfirst
    rw [← hsame]
    exact searchInBytes_eq finder lookahead (by omega) (Nat.zero_le _)

theorem findInBytes_regex_after_refusal :
    let optional := Regex.optional .anyChar true
    findInBytes ⟨.regex optional.finder, some ⟨'!', false⟩⟩ "x\u00E9a!".toList 1 =
        some (3, 1) ∧
      searchInBytes optional.finder (some ⟨'!', false⟩) "\u00E9a!".toList 5 0 =
        .ok (some (some (2, 1))) ∧
      IsLeast {start | ∃ length, MatchesAt (optional.lengthAt? none) (some ⟨'!', false⟩)
        "\u00E9a!".toList start length} 2 := by
  intro optional
  obtain ⟨found, hfind, hsearch, hfound, -⟩ :=
    findInBytes_regex optional.finder (optional.lengthAt? none) optional.leftmost_finder
      (some ⟨'!', false⟩) "x".toList "\u00E9a!".toList
  have hbytes : findInBytes ⟨.regex optional.finder, some ⟨'!', false⟩⟩
      "x\u00E9a!".toList 1 = some (3, 1) := by decide
  obtain ⟨⟨start, length⟩, rfl, heq⟩ := Option.map_eq_some_iff.mp (hfind.symm.trans hbytes)
  obtain ⟨hstart, rfl⟩ := Prod.mk.inj heq
  obtain rfl : start = 2 := Nat.add_left_cancel hstart
  exact ⟨hbytes, hsearch 0, ((hfound 2 1).mp rfl).1⟩

end Pattern

end CellHighlight
