import CellHighlight.Proofs.Bytes.Position
import CellHighlight.Proofs.Literals.Escapes
import Mathlib.Combinatorics.Enumerative.DyckWord

/-!
# Regular expression or division

A slash in code opens a regular expression when another slash follows on the line and the
round brackets between the two are a Dyck word; otherwise it divides and is a token alone.
-/

namespace CellHighlight.Elixir

/-! ## Balanced brackets -/

def roundBrackets (text : List Char) : List DyckStep :=
  text.filterMap fun c => if c = '(' then some .U else if c = ')' then some .D else none

structure Descends (height : Nat) (steps : List DyckStep) : Prop where
  ends : height + steps.count .U = steps.count .D
  above : ∀ i, (steps.take i).count .D ≤ height + (steps.take i).count .U

theorem descends_nil {height : Nat} : Descends height [] ↔ height = 0 :=
  ⟨fun h => h.ends, fun h => ⟨h, fun _ => by simp⟩⟩

theorem descends_cons {step : DyckStep} {steps : List DyckStep} {height height' : Nat}
    (h : height + [step].count .U = height' + [step].count .D) :
    Descends height (step :: steps) ↔ Descends height' steps := by
  have hcount (rest : List DyckStep) :
      (step :: rest).count .U = [step].count .U + rest.count .U ∧
        (step :: rest).count .D = [step].count .D + rest.count .D := by
    rw [← List.singleton_append, List.count_append, List.count_append]
    exact ⟨rfl, rfl⟩
  have hall := hcount steps
  constructor
  · rintro ⟨hends, habove⟩
    refine ⟨by omega, fun i => ?_⟩
    have hi := habove (i + 1)
    rw [List.take_succ_cons] at hi
    have htake := hcount (steps.take i)
    omega
  · rintro ⟨hends, habove⟩
    refine ⟨by omega, fun i => ?_⟩
    cases i with
    | zero => exact Nat.zero_le _
    | succ i =>
        rw [List.take_succ_cons]
        have htake := hcount (steps.take i)
        have hi := habove i
        omega

theorem not_descends_below {steps : List DyckStep} : ¬ Descends 0 (.D :: steps) := by
  intro h
  have hfirst := h.above 1
  simp at hfirst

theorem roundBalanced_iff {depth : Nat} {text : List Char} :
    roundBalanced depth text = true ↔ Descends depth (roundBrackets text) := by
  induction text generalizing depth with
  | nil => simp [roundBalanced, roundBrackets, descends_nil]
  | cons c text ih =>
      unfold roundBalanced
      split
      · next hopening =>
          simp only [hopening, roundBrackets, if_true, List.filterMap_cons]
          exact ih.trans (descends_cons rfl).symm
      split
      · next hclosing =>
          simp only [hclosing, roundBrackets, if_true, List.filterMap_cons]
          -- The count ends early at a bracket that closes nothing.
          cases depth with
          | zero => simp [not_descends_below]
          | succ depth => exact ih.trans (descends_cons rfl).symm
      · next hopening hclosing =>
          simp only [hopening, hclosing, roundBrackets, if_false, List.filterMap_cons]
          exact ih

theorem exists_dyckWord_iff {steps : List DyckStep} :
    (∃ word : DyckWord, word.toList = steps) ↔ Descends 0 steps := by
  constructor
  · rintro ⟨word, rfl⟩
    exact ⟨by rw [Nat.zero_add, word.count_U_eq_count_D],
      fun i => by rw [Nat.zero_add]; exact word.count_D_le_count_U i⟩
  · rintro ⟨hends, habove⟩
    exact ⟨⟨steps, by rwa [Nat.zero_add] at hends, fun i => by simpa using habove i⟩, rfl⟩

def RegexFollows (text : List Char) : Prop :=
  ∃ body after, text = body ++ '/' :: after ∧ '/' ∉ body ∧
    ∃ word : DyckWord, word.toList = roundBrackets body

theorem takeWhile_ne {c : Char} {body : List Char} (h : c ∉ body) (after : List Char) :
    (body ++ c :: after).takeWhile (· != c) = body := by
  have hbody : ∀ d ∈ body, (d != c) = true := by
    intro d hd
    rw [bne_iff_ne]
    rintro rfl
    exact h hd
  rw [List.takeWhile_append_of_pos hbody]
  simp

theorem opensRegex_iff {text : List Char} : opensRegex text = true ↔ RegexFollows text := by
  simp only [opensRegex, Bool.and_eq_true, List.contains_iff_mem, roundBalanced_iff]
  constructor
  · rintro ⟨hmem, hbalanced⟩
    obtain ⟨body, after, rfl, hbody⟩ := List.eq_append_cons_of_mem hmem
    rw [takeWhile_ne hbody] at hbalanced
    exact ⟨body, after, rfl, hbody, exists_dyckWord_iff.mpr hbalanced⟩
  · rintro ⟨body, after, rfl, hbody, hword⟩
    rw [takeWhile_ne hbody]
    exact ⟨by simp, exists_dyckWord_iff.mp hword⟩

instance (text : List Char) : Decidable (RegexFollows text) :=
  decidable_of_iff (opensRegex text = true) opensRegex_iff

/-! ## Looking ahead -/

/-- Decides at a cursor right after a slash: moves on to the next slash, counts the brackets
passed over, and comes back. -/
def lookForRegex (cursor : Cursor) : Except CursorError (Bool × Cursor) := do
  let (found, ahead) ← cursor.skipToByte 0x2f
  if found then
    let body ← cursor.read cursor.pos ahead.pos
    return (roundBalanced 0 body, ahead.backUp (byteLength body))
  else return (false, ahead)

theorem lookForRegex_cursor (view : View) :
    lookForRegex view.cursor = .ok (opensRegex view.ahead, view.cursor) := by
  have hskip := view.skipToByte_cursor (show '/'.toNat < 128 by decide)
  rw [lookForRegex, show (0x2f : UInt8) = UInt8.ofNat '/'.toNat from rfl, hskip, ok_bind]
  by_cases hmem : '/' ∈ view.ahead
  · have hread := view.read_cursorAfter (view.ahead.takeWhile (· != '/')).length
    have hback := view.backUp_cursorAfter (view.ahead.takeWhile (· != '/')).length
    rw [take_length_takeWhile] at hread hback
    have hfound : view.ahead.contains '/' = true := List.contains_iff_mem.mpr hmem
    simp only [hmem, if_true, hread, ok_bind, hback, opensRegex, hfound, Bool.true_and]
    rfl
  · have hmissing : view.ahead.contains '/' = false := by simpa using hmem
    simp only [hmem, if_false, opensRegex, hmissing, Bool.false_and]
    rfl

/-! ## Slashes in code -/

/-- The stack on which the next token is scanned, if it is a token of code that does not begin
with a brace.  A frame for one token is used up by it, or is gone if it was used up before. -/
def codeStack? : List Frame → Option (List Frame)
  | [] => some []
  | .base :: below => some (.base :: below)
  | .untilBrace depth :: below => some (.untilBrace depth :: below)
  | .once false :: below => some (.once true :: below)
  | .once true :: below => codeStack? below
  | _ => none

theorem scanFrames_of_code {frames stack : List Frame} (hcode : codeStack? frames = some stack)
    {text : List Char} (hopening : headIs (· == '{') text = false)
    (hclosing : headIs (· == '}') text = false) (atLineStart barIsMarker : Bool) :
    scanFrames atLineStart barIsMarker text frames =
      (codeLexeme atLineStart barIsMarker text).onto stack := by
  fun_induction codeStack? frames with
  | case1 =>
      cases hcode
      rfl
  | case2 below =>
      cases hcode
      rfl
  | case3 depth below =>
      cases hcode
      simp [scanFrames, depthAfter, hopening, hclosing]
  | case4 below =>
      cases hcode
      rfl
  | case5 below ih => exact ih hcode
  | case6 => cases hcode

/-- Where code is scanned, a slash opens a literal that goes on with the text after the slash,
or it is an operator alone and the stack stays.  Looking ahead for the other slash, which goes
by bytes, ends where it began. -/
theorem scanFrames_slash (frames stack : List Frame) (hcode : codeStack? frames = some stack)
    (text : List Char) (atLineStart barIsMarker : Bool) :
    let scan := scanFrames atLineStart barIsMarker ('/' :: text) frames
    (scan.kind = .styled .regex ↔ RegexFollows text) ∧
      (RegexFollows text →
        let literal := scanFrames false barIsMarker text (.quoted slashQuoted :: stack)
        scan = { literal with length := 1 + literal.length }) ∧
      (¬ RegexFollows text → scan = ⟨1, .styled .operator, none, stack⟩) ∧
      ∀ view : View, view.ahead = text →
        ∃ opens, lookForRegex view.cursor = .ok (opens, view.cursor) ∧
          (opens = true ↔ RegexFollows text) := by
  intro scan
  have hscan : scan = (codeLexeme atLineStart barIsMarker ('/' :: text)).onto stack :=
    scanFrames_of_code hcode rfl rfl atLineStart barIsMarker
  have hregex (h : RegexFollows text) :
      scan = (quotedLexeme 1 slashQuoted text).onto stack := by
    rw [hscan, codeLexeme_slash (opensRegex_iff.mpr h)]
  have hdivides (h : ¬ RegexFollows text) : scan = ⟨1, .styled .operator, none, stack⟩ := by
    rw [hscan, codeLexeme_of_slash, slashLexeme, if_neg fun hopens => h (opensRegex_iff.mp hopens)]
    rfl
  refine ⟨⟨?_, ?_⟩, ?_, hdivides, ?_⟩
  · intro hkind
    by_contra hopen
    rw [hdivides hopen] at hkind
    cases hkind
  · intro hcloses
    rw [hregex hcloses]
    rfl
  · intro hcloses
    rw [hregex hcloses, scanFrames, scanQuoted_eq rfl]
    rfl
  · rintro view rfl
    exact ⟨opensRegex view.ahead, lookForRegex_cursor view, opensRegex_iff⟩

theorem scanFrames_slash_embedded :
    let frames : List Frame := [.untilBrace 2, .quoted doubleQuoted, .base]
    codeStack? frames = some frames ∧ RegexFollows "é(a)/ b".toList ∧
      scanFrames false false "/é(a)/ b".toList frames = ⟨6, .styled .regex, none, frames⟩ ∧
      ¬ RegexFollows "é(a/ b".toList ∧
      scanFrames false false "/é(a/ b".toList frames = ⟨1, .styled .operator, none, frames⟩ := by
  intro frames
  have hregex : RegexFollows "é(a)/ b".toList := by decide
  have hdivides : ¬ RegexFollows "é(a/ b".toList := by decide
  obtain ⟨-, hopens, -, -⟩ := scanFrames_slash frames frames rfl "é(a)/ b".toList false false
  obtain ⟨-, -, halone, -⟩ := scanFrames_slash frames frames rfl "é(a/ b".toList false false
  exact ⟨rfl, hregex, hopens hregex, hdivides, halone hdivides⟩

end CellHighlight.Elixir
