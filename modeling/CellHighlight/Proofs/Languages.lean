import CellHighlight.Regex.Finder
import CellHighlight.Regex.Reader
import Mathlib.Computability.Language
import Mathlib.Order.Bounds.Defs

/-!
# Languages of regular expressions

The matcher of a regular expression lists the lengths of its matches at a place.  Without
anchors these are the lengths of the leading parts of the text that belong to a regular
language.  The longest match of a sequence is found part by part, each as long as possible,
when no part can begin with a character of the part before it.
-/

namespace CellHighlight

open Computability

variable {language first second : Language Char} {text : List Char} {p q : Char → Bool}
  {k m n : Nat}

def oneOf (p : Char → Bool) : Language Char := {text | ∃ c, p c = true ∧ text = [c]}

def manyOf (p : Char → Bool) : Language Char := oneOf p * (oneOf p)∗

/-! ## Leading parts of a text -/

def Begins (language : Language Char) (text : List Char) (n : Nat) : Prop :=
  ∃ piece rest, text = piece ++ rest ∧ piece ∈ language ∧ piece.length = n

theorem begins_one : Begins 1 text n ↔ n = 0 := by
  constructor
  · rintro ⟨piece, rest, -, hpiece, rfl⟩
    rw [Language.mem_one] at hpiece
    simp [hpiece]
  · rintro rfl
    exact ⟨[], text, rfl, Language.nil_mem_one, rfl⟩

theorem begins_oneOf : Begins (oneOf p) text n ↔ n = 1 ∧ headIs p text = true := by
  constructor
  · rintro ⟨_, rest, rfl, ⟨c, hc, rfl⟩, rfl⟩
    exact ⟨rfl, hc⟩
  · rintro ⟨rfl, hhead⟩
    cases text with
    | nil => cases hhead
    | cons c rest => exact ⟨[c], rest, rfl, ⟨c, hhead, rfl⟩, rfl⟩

theorem begins_add :
    Begins (first + second) text n ↔ Begins first text n ∨ Begins second text n := by
  simp only [Begins, Language.mem_add]
  grind

theorem begins_mul :
    Begins (first * second) text n ↔
      ∃ k m, Begins first text k ∧ Begins second (text.drop k) m ∧ k + m = n := by
  constructor
  · rintro ⟨piece, rest, rfl, hpiece, rfl⟩
    obtain ⟨a, ha, b, hb, rfl⟩ := Language.mem_mul.mp hpiece
    exact ⟨a.length, b.length, ⟨a, b ++ rest, by simp, ha, rfl⟩,
      ⟨b, rest, by simp, hb, rfl⟩, by simp⟩
  · rintro ⟨_, _, ⟨a, following, rfl, ha, rfl⟩, ⟨b, rest, hdrop, hb, rfl⟩, rfl⟩
    rw [List.drop_left] at hdrop
    exact ⟨a ++ b, rest, by simp [hdrop], Language.append_mem_mul ha hb, by simp⟩

theorem begins_kstar :
    Begins language∗ text n ↔
      n = 0 ∨ ∃ k m, Begins language text (k + 1) ∧ Begins language∗ (text.drop (k + 1)) m ∧
        k + 1 + m = n := by
  constructor
  · rintro ⟨piece, rest, rfl, hpiece, rfl⟩
    obtain ⟨rounds, rfl, hrounds⟩ := Language.mem_kstar_iff_exists_nonempty.mp hpiece
    cases rounds with
    | nil => exact .inl rfl
    | cons round rounds =>
        obtain ⟨hround, hne⟩ := hrounds round List.mem_cons_self
        obtain ⟨k, hk⟩ := Nat.exists_eq_add_one.mpr (List.length_pos_iff.mpr hne)
        have hlater : rounds.flatten ∈ language∗ :=
          Language.join_mem_kstar fun other hother =>
            (hrounds other (List.mem_cons_of_mem round hother)).1
        refine .inr ⟨k, rounds.flatten.length, ⟨round, rounds.flatten ++ rest, by simp, hround, hk⟩,
          ⟨rounds.flatten, rest, ?_, hlater, rfl⟩, by simp [hk]⟩
        simp [← hk]
  · rintro (rfl | ⟨k, m, hround, hlater, rfl⟩)
    · exact ⟨[], text, rfl, Language.nil_mem_kstar language, rfl⟩
    · rw [← Language.one_add_self_mul_kstar_eq_kstar, begins_add, begins_mul]
      exact .inr ⟨k + 1, m, hround, hlater, rfl⟩

theorem Begins.le (h : Begins language text n) : n ≤ text.length := by
  obtain ⟨piece, rest, rfl, -, rfl⟩ := h
  simp

theorem begins_kstar_oneOf : Begins (oneOf p)∗ text n ↔ n ≤ runLength p text := by
  induction text generalizing n with
  | nil =>
      rw [begins_kstar]
      simp [begins_oneOf, headIs]
  | cons c text ih =>
      rw [begins_kstar, runLength_cons]
      split
      · next hc =>
          constructor
          · rintro (rfl | ⟨k, m, hround, hlater, rfl⟩)
            · exact Nat.zero_le _
            · obtain rfl : k = 0 := Nat.succ.inj (begins_oneOf.mp hround).1
              exact Nat.add_le_add_left (ih.mp hlater) 1
          · intro hn
            cases n with
            | zero => exact .inl rfl
            | succ n =>
                exact .inr ⟨0, n, begins_oneOf.mpr ⟨rfl, hc⟩, ih.mpr (by omega), by omega⟩
      · next hc => simp [begins_oneOf, headIs, hc]

theorem begins_manyOf : Begins (manyOf p) text n ↔ 0 < n ∧ n ≤ runLength p text := by
  rw [manyOf, begins_mul]
  cases text with
  | nil => simp [begins_oneOf, headIs]; omega
  | cons c text =>
      simp only [begins_oneOf, begins_kstar_oneOf, headIs, runLength_cons]
      by_cases hc : p c = true
      · simp only [hc, and_true, if_true]
        constructor
        · rintro ⟨k, m, rfl, hm, rfl⟩
          exact ⟨by omega, Nat.add_le_add_left hm 1⟩
        · rintro ⟨hpos, hle⟩
          exact ⟨1, n - 1, rfl, by simp; omega, by omega⟩
      · simp [hc]
        omega

/-! ## The matcher -/

namespace Regex

theorem mem_matchChar {previous : Option Char} :
    n ∈ matchChar p previous text ↔ n = 1 ∧ headIs p text = true := by
  cases text with
  | nil => simp [matchChar, headIs]
  | cons c text => by_cases hc : p c = true <;> simp [matchChar, headIs, hc]

theorem mem_matchSeq {firstMatcher secondMatcher : Matcher} {previous : Option Char} :
    n ∈ matchSeq firstMatcher secondMatcher previous text ↔
      ∃ k m, k ∈ firstMatcher previous text ∧
        m ∈ secondMatcher (charBefore previous text k) (text.drop k) ∧ k + m = n := by
  simp only [matchSeq, List.mem_eraseDups, List.mem_flatMap, List.mem_map]
  grind

section Star

variable {body : Matcher} {greedy : Bool} {previous : Option Char}

theorem mem_matchRound_iff {later : List (List Nat)} :
    n ∈ matchRound body greedy previous text later ↔
      n = 0 ∨ ∃ k m, k + 1 ∈ body previous text ∧ m ∈ later[k]?.getD [] ∧ k + 1 + m = n := by
  unfold matchRound
  extract_lets rounds
  have hrounds : n = 0 ∨ n ∈ rounds ↔
      n = 0 ∨ ∃ k m, k + 1 ∈ body previous text ∧ m ∈ later[k]?.getD [] ∧ k + 1 + m = n := by
    simp only [rounds, List.mem_flatMap]
    constructor
    · rintro (hzero | ⟨_ | k, hround, hn⟩)
      · exact .inl hzero
      · exact .inl (List.mem_singleton.mp hn)
      · obtain ⟨m, hm, hsum⟩ := List.mem_map.mp hn
        exact .inr ⟨k, m, hround, hm, hsum⟩
    · rintro (hzero | ⟨k, m, hround, hm, hsum⟩)
      · exact .inl hzero
      · exact .inr ⟨k + 1, hround, List.mem_map.mpr ⟨m, hm, hsum⟩⟩
  rw [← hrounds]
  cases greedy with
  | false => simp
  | true => simp [or_comm]

theorem getElem?_matchStarAll (previous : Option Char) (hk : k ≤ text.length) :
    (matchStarAll body greedy previous text)[k]? =
      some (matchStar body greedy (charBefore previous text k) (text.drop k)) := by
  induction text generalizing previous k with
  | nil =>
      obtain rfl := Nat.le_zero.mp hk
      rfl
  | cons c text ih =>
      cases k with
      | zero => rfl
      | succ k =>
          have hbefore : charBefore (some c) text k = charBefore previous (c :: text) (k + 1) := by
            cases k <;> rfl
          have hlater := ih (some c) (Nat.le_of_succ_le_succ hk)
          rw [hbefore] at hlater
          exact hlater

theorem mem_matchStar_iff (hbody : ∀ n ∈ body previous text, n ≤ text.length) :
    n ∈ matchStar body greedy previous text ↔
      n = 0 ∨ ∃ k m, k + 1 ∈ body previous text ∧
        m ∈ matchStar body greedy (charBefore previous text (k + 1)) (text.drop (k + 1)) ∧
        k + 1 + m = n := by
  have hround : matchStar body greedy previous text =
      matchRound body greedy previous text ((matchStarAll body greedy previous text).drop 1) := by
    cases text <;> rfl
  have hlater {k : Nat} (hk : k + 1 ∈ body previous text) :
      ((matchStarAll body greedy previous text).drop 1)[k]?.getD [] =
        matchStar body greedy (charBefore previous text (k + 1)) (text.drop (k + 1)) := by
    rw [List.getElem?_drop, Nat.add_comm, getElem?_matchStarAll previous (hbody _ hk),
      Option.getD_some]
  rw [hround, mem_matchRound_iff]
  refine or_congr_right (exists_congr fun k => exists_congr fun m => and_congr_right fun hk => ?_)
  rw [hlater hk]

theorem mem_matchStar_iff_begins (hbody : ∀ previous text n,
      n ∈ body previous text ↔ Begins language text n) (previous : Option Char)
    (text : List Char) (n : Nat) :
    n ∈ matchStar body greedy previous text ↔ Begins language∗ text n := by
  have hbounds : ∀ n ∈ body previous text, n ≤ text.length :=
    fun n hn => ((hbody _ _ _).mp hn).le
  rw [mem_matchStar_iff hbounds, begins_kstar]
  refine or_congr_right (exists_congr fun k => exists_congr fun m => ?_)
  rw [hbody]
  refine and_congr_right fun hround => and_congr_left fun _ => ?_
  -- A round takes something, so what is left of the text is shorter.
  have hle := hround.le
  exact mem_matchStar_iff_begins hbody _ _ _
termination_by text.length
decreasing_by
  rw [List.length_drop]
  omega

end Star

/-- The language of an expression without anchors, which look at what is around a match. -/
def language? : Regex → Option (Language Char)
  | .empty => some 1
  | .anyChar => some (oneOf (· != '\n'))
  | .char set => some (oneOf set.contains)
  | .textStart | .textEnd | .wordBoundary => none
  | .seq first second => do return (← first.language?) * (← second.language?)
  | .alt first second => do return (← first.language?) + (← second.language?)
  | .star body _ => do return (← body.language?)∗

/-- The matcher finds a leading part of the text exactly when it belongs to the language. -/
theorem mem_lengths_iff {regex : Regex} (h : regex.language? = some language)
    (previous : Option Char) (text : List Char) (n : Nat) :
    n ∈ regex.lengths previous text ↔ Begins language text n := by
  induction regex generalizing language previous text n with
  | empty =>
      cases h
      simp [lengths, begins_one]
  | anyChar =>
      cases h
      exact mem_matchChar.trans begins_oneOf.symm
  | char set =>
      cases h
      exact mem_matchChar.trans begins_oneOf.symm
  | textStart => cases h
  | textEnd => cases h
  | wordBoundary => cases h
  | seq first second ihFirst ihSecond =>
      simp only [language?, Option.bind_eq_bind, Option.bind_eq_some_iff] at h
      obtain ⟨_, hfirst, _, hsecond, ⟨⟩⟩ := h
      simp only [lengths, mem_matchSeq, ihFirst hfirst, ihSecond hsecond, begins_mul]
  | alt first second ihFirst ihSecond =>
      simp only [language?, Option.bind_eq_bind, Option.bind_eq_some_iff] at h
      obtain ⟨_, hfirst, _, hsecond, ⟨⟩⟩ := h
      simp only [lengths, List.mem_eraseDups, List.mem_append, ihFirst hfirst,
        ihSecond hsecond, begins_add]
  | star body greedy ih =>
      simp only [language?, Option.bind_eq_bind, Option.bind_eq_some_iff] at h
      obtain ⟨_, hbody, ⟨⟩⟩ := h
      exact mem_matchStar_iff_begins (ih hbody) previous text n

/-! ## Written forms

The classes of characters and the repetitions that written forms are made of. -/

theorem between_self (a c : Char) : (decide (a ≤ c) && decide (c ≤ a)) = (c == a) := by
  rw [Bool.eq_iff_iff]
  simp only [Bool.and_eq_true, decide_eq_true_eq, beq_iff_eq]
  exact ⟨fun h => Std.le_antisymm h.2 h.1, fun h => h ▸ ⟨Std.le_refl _, Std.le_refl _⟩⟩

theorem contains_ranges (ranges : List (Char × Char)) :
    CharSet.contains ⟨false, ranges⟩ =
      fun c => ranges.any fun range => decide (range.1 ≤ c) && decide (c ≤ range.2) := by
  funext c
  exact Bool.bne_false _

theorem contains_one (a : Char) : CharSet.contains ⟨false, [(a, a)]⟩ = (· == a) := by
  simp only [contains_ranges, List.any_cons, List.any_nil, between_self, Bool.or_false]

theorem contains_two (a b : Char) :
    CharSet.contains ⟨false, [(a, a), (b, b)]⟩ = fun c => c == a || c == b := by
  simp only [contains_ranges, List.any_cons, List.any_nil, between_self, Bool.or_false]

theorem language?_any (body : Regex) (greedy : Bool) :
    (body.repeated 0 none greedy).language? = body.language?.map (·∗) := by
  cases h : body.language? <;> simp [repeated, times, language?, h]

theorem language?_some (body : Regex) (greedy : Bool) :
    (body.repeated 1 none greedy).language? =
      body.language?.map fun round => round * round∗ := by
  cases h : body.language? <;> simp [repeated, times, language?, h]

theorem language?_optional (body : Regex) :
    (body.repeated 0 (some 1) true).language? = body.language?.map (· + 1) := by
  cases h : body.language? <;> simp [repeated, times, upTo, optional, language?, h]

end Regex

/-! ## The longest leading part -/

def Longest (language : Language Char) (text : List Char) (n : Nat) : Prop :=
  IsGreatest {n | Begins language text n} n

def LongestMatch (form : String) (text : List Char) (n : Nat) : Prop :=
  ∃ regex, Regex.ofText? form.toList = some regex ∧
    IsGreatest {n | n ∈ regex.lengths none text} n

theorem longestMatch_iff {form : String} {regex : Regex}
    (hform : Regex.ofText? form.toList = some regex) (h : regex.language? = some language) :
    LongestMatch form text n ↔ Longest language text n := by
  simp only [LongestMatch, hform, Option.some.injEq, exists_eq_left', Longest,
    Regex.mem_lengths_iff h]

def Apart (p q : Char → Bool) : Prop := ∀ c, p c = true → q c = false

theorem Apart.symm (h : Apart p q) : Apart q p := by
  intro c hq
  by_contra hp
  rw [h c (by simpa using hp)] at hq
  cases hq

theorem apart_of_chars (chars : List Char) (hp : ∀ c, p c = true → c ∈ chars)
    (hq : chars.any q = false) : Apart p q :=
  fun c hc => Bool.eq_false_iff.mpr (List.any_eq_false.mp hq c (hp c hc))

def Avoids (p : Char → Bool) (language : Language Char) : Prop :=
  ∀ piece ∈ language, ∀ c ∈ piece, p c = false

def StartsIn (p : Char → Bool) (language : Language Char) : Prop :=
  ∀ c rest, c :: rest ∈ language → p c = true

theorem longest_kstar_oneOf (p : Char → Bool) (text : List Char) :
    Longest (oneOf p)∗ text (runLength p text) :=
  ⟨begins_kstar_oneOf.mpr (Nat.le_refl _), fun _ hn => begins_kstar_oneOf.mp hn⟩

theorem longest_manyOf (h : runLength p text ≠ 0) : Longest (manyOf p) text (runLength p text) :=
  ⟨begins_manyOf.mpr ⟨Nat.pos_of_ne_zero h, Nat.le_refl _⟩, fun _ hn => (begins_manyOf.mp hn).2⟩

namespace Longest

theorem add_of_le (h : Longest first text n) (hle : ∀ k, Begins second text k → k ≤ n) :
    Longest (first + second) text n := by
  refine ⟨begins_add.mpr (.inl h.1), fun other hother => ?_⟩
  rcases begins_add.mp hother with hother | hother
  · exact h.2 hother
  · exact hle other hother

theorem of_add (h : Longest (first + second) text n) (hfirst : Begins first text n) :
    Longest first text n :=
  ⟨hfirst, fun _ hother => h.2 (begins_add.mpr (.inl hother))⟩

theorem optional (h : Longest language text n) : Longest (language + 1) text n :=
  h.add_of_le fun _ hempty => begins_one.mp hempty ▸ Nat.zero_le n

theorem of_not_begins (h : ∀ n, ¬ Begins language text n) : Longest (language + 1) text 0 := by
  refine ⟨begins_add.mpr (.inr (begins_one.mpr rfl)), fun other hother => ?_⟩
  rcases begins_add.mp hother with hother | hempty
  · exact absurd hother (h other)
  · exact Nat.le_of_eq (begins_one.mp hempty)

/-- A first part that is not as long as it can be goes on with one of its own characters, and
there the second part cannot begin. -/
theorem exists_begins (h : Longest first text m) (havoids : Avoids p first)
    (hstarts : StartsIn p second) (hn : Begins (first * second) text n) :
    ∃ k, Begins second (text.drop m) k ∧ n ≤ m + k := by
  obtain ⟨j, k, hj, hk, rfl⟩ := begins_mul.mp hn
  rcases Nat.lt_or_eq_of_le (h.2 hj) with hlt | rfl
  · obtain ⟨piece, rest, rfl, hpiece, rfl⟩ := h.1
    obtain ⟨other, following, hdrop, hother, rfl⟩ := hk
    cases other with
    | nil => exact ⟨0, ⟨[], _, rfl, hother, rfl⟩, Nat.le_of_lt hlt⟩
    | cons c other =>
        have hc : c ∈ piece := by
          rw [List.drop_append_of_le_length (Nat.le_of_lt hlt),
            List.drop_eq_getElem_cons hlt] at hdrop
          obtain ⟨rfl, -⟩ := List.cons.inj hdrop
          exact List.getElem_mem hlt
        have hp := havoids piece hpiece c hc
        rw [hstarts c other hother] at hp
        cases hp
  · exact ⟨k, hk, Nat.le_refl _⟩

theorem mul (hfirst : Longest first text m) (hsecond : Longest second (text.drop m) n)
    (havoids : Avoids p first) (hstarts : StartsIn p second) :
    Longest (first * second) text (m + n) := by
  refine ⟨begins_mul.mpr ⟨m, n, hfirst.1, hsecond.1, rfl⟩, fun other hother => ?_⟩
  obtain ⟨k, hk, hle⟩ := hfirst.exists_begins havoids hstarts hother
  exact Nat.le_trans hle (Nat.add_le_add_left (hsecond.2 hk) m)

theorem oneOf_mul {c : Char} (hc : p c = true) (h : Longest second text n) :
    Longest (oneOf p * second) (c :: text) (1 + n) := by
  refine ⟨begins_mul.mpr ⟨1, n, begins_oneOf.mpr ⟨rfl, hc⟩, h.1, rfl⟩, fun other hother => ?_⟩
  obtain ⟨k, m, hfirst, hm, rfl⟩ := begins_mul.mp hother
  obtain rfl := (begins_oneOf.mp hfirst).1
  exact Nat.add_le_add_left (h.2 hm) 1

end Longest

theorem longest_oneIf (p : Char → Bool) (text : List Char) :
    Longest (oneOf p + 1) text (oneIf p text) := by
  cases text with
  | nil => exact .of_not_begins (by simp [begins_oneOf, headIs])
  | cons c text =>
      simp only [oneIf]
      split
      · next hc =>
          refine Longest.optional ⟨begins_oneOf.mpr ⟨rfl, hc⟩, fun n hn => ?_⟩
          exact Nat.le_of_eq (begins_oneOf.mp hn).1
      · next hc => exact .of_not_begins (by simp [begins_oneOf, headIs, hc])

/-! ## Characters of a language -/

theorem avoids_one : Avoids p 1 := by
  rintro _ ⟨⟩ c hc
  cases hc

theorem avoids_oneOf (h : Apart q p) : Avoids p (oneOf q) := by
  rintro _ ⟨d, hd, rfl⟩ c hc
  rw [List.mem_singleton.mp hc]
  exact h d hd

theorem avoids_of_chars (chars : List Char) (hp : ∀ c, p c = true → c ∈ chars)
    (hq : chars.any q = false) : Avoids p (oneOf q) :=
  avoids_oneOf (apart_of_chars chars hp hq).symm

theorem Avoids.add (hfirst : Avoids p first) (hsecond : Avoids p second) :
    Avoids p (first + second) := by
  rintro piece (hpiece | hpiece)
  · exact hfirst piece hpiece
  · exact hsecond piece hpiece

theorem Avoids.mul (hfirst : Avoids p first) (hsecond : Avoids p second) :
    Avoids p (first * second) := by
  rintro _ ⟨a, ha, b, hb, rfl⟩ c hc
  rcases List.mem_append.mp hc with hc | hc
  · exact hfirst a ha c hc
  · exact hsecond b hb c hc

theorem Avoids.kstar (h : Avoids p language) : Avoids p language∗ := by
  rintro _ ⟨pieces, rfl, hpieces⟩ c hc
  obtain ⟨piece, hpiece, hc⟩ := List.mem_flatten.mp hc
  exact h piece (hpieces piece hpiece) c hc

theorem avoids_manyOf (h : Apart q p) : Avoids p (manyOf q) :=
  (avoids_oneOf h).mul (avoids_oneOf h).kstar

theorem startsIn_oneOf (h : ∀ c, q c = true → p c = true) : StartsIn p (oneOf q) := by
  rintro c rest ⟨d, hd, heq⟩
  obtain ⟨rfl, -⟩ := List.cons.inj heq
  exact h c hd

theorem startsIn_oneOf_mul (h : ∀ c, q c = true → p c = true) :
    StartsIn p (oneOf q * language) := by
  rintro c rest ⟨_, ⟨d, hd, rfl⟩, b, -, heq⟩
  obtain ⟨rfl, -⟩ := List.cons.inj heq
  exact h d hd

theorem startsIn_manyOf (p : Char → Bool) : StartsIn p (manyOf p) :=
  startsIn_oneOf_mul fun _ h => h

theorem StartsIn.optional (h : StartsIn p language) : StartsIn p (language + 1) := by
  rintro c rest (hpiece | ⟨⟨⟩⟩)
  exact h c rest hpiece

theorem StartsIn.mul (hfirst : StartsIn p first) (hsecond : StartsIn p second) :
    StartsIn p (first * second) := by
  rintro c rest ⟨a, ha, b, hb, heq⟩
  cases a with
  | nil =>
      obtain rfl : b = c :: rest := heq
      exact hsecond c rest hb
  | cons d a =>
      obtain ⟨rfl, -⟩ := List.cons.inj heq
      exact hfirst d a ha

end CellHighlight
