import CellHighlight.Proofs.Literals.Stack
import Mathlib.Data.List.TakeWhile

/-!
# Styles and texts of lexemes

What the style of a token of code says about its text.  A word is an identifier and nothing
else, an operator is made of operator characters, and so on for each way in which a token can
begin.  The styles of literals say nothing, since a literal may hold any text; what matters
is that no literal has another style, also while it is still open.
-/

namespace CellHighlight.Elixir

/-! ## Texts -/

def IsNameRun (text : List Char) : Prop :=
  ∃ c body, text = c :: body ∧ isNameStart c = true ∧ ∀ d ∈ body, isNameChar d = true

def IsIdentifier (text : List Char) : Prop :=
  ∃ run mark, text = run ++ mark ∧ IsNameRun run ∧ mark ∈ [[], ['?'], ['!']]

/-- Operator characters, or a percent sign with the letter after it when no delimiter follows
the letter. -/
def IsOperator (text after : List Char) : Prop :=
  (∀ c ∈ text, isOperatorChar c = true) ∨
    ∃ letter, isPercentLetter letter = true ∧ text = ['%', letter] ∧
      headIs isPercentDelimiter after = false

def Fits (before text after : List Char) : Style → Prop
  | .plain => (∀ c ∈ text, isBlank c = true) ∨ text.length = 1
  | .identifier => IsIdentifier text ∧ isKeyword text = false ∧ headIs isUpper text = false
  | .keyword => IsIdentifier text ∧ isKeyword text = true
  | .constant => IsIdentifier text ∧ isKeyword text = false ∧ headIs isUpper text = true
  | .definition => IsIdentifier text ∧ isKeyword text = false ∧ headIs isUpper text = false
  | .property => IsIdentifier text
  | .number => headIs isAsciiDigit text = true
  | .comment => headIs (· == '#') text = true ∨ before = [] ∧ after = []
  | .operator => IsOperator text after
  | .punctuation => text = ['.']
  | .moduleAttribute =>
      ∃ signs run, text = signs ++ run ∧ signs ∈ [['@'], ['@', '@']] ∧ IsNameRun run
  | .globalVariable => headIs (· == '$') text = true
  | .arrow => text = ['-', '>']
  | .pipe => text = ['|', '>']
  | .string => True
  | .interpolated => True
  | .regex => True
  | .atom => True
  | .delimiter _ => False

def LexemeKind.Fits (kind : LexemeKind) (before text after : List Char) : Prop :=
  match kind with
  | .word => IsIdentifier text
  | .styled style => Elixir.Fits before text after style

/-! ## Open literals -/

def isLiteralStyle : Style → Bool
  | .string => true
  | .interpolated => true
  | .regex => true
  | .atom => true
  | _ => false

def Frame.hasLiteralStyle : Frame → Bool
  | .quoted literal => isLiteralStyle literal.style
  | _ => true

theorem fits_of_isLiteralStyle {style : Style} (h : isLiteralStyle style = true)
    (before text after : List Char) : Fits before text after style := by
  cases style <;> trivial

/-- A token of code at the beginning of a text: its style fits, a literal that it leaves open
has the style of a literal, and a block comment begins only on a line of its own. -/
structure Lexeme.Sound (before text : List Char) (lexeme : Lexeme) : Prop where
  fits : lexeme.kind.Fits before (text.take lexeme.length) (text.drop lexeme.length)
  styled : ∀ frame ∈ lexeme.pushed, frame.hasLiteralStyle = true
  alone : .blockComment ∈ lexeme.pushed → text.drop lexeme.length = []

variable {before text : List Char} {lexeme : Lexeme} {c : Char}

theorem Lexeme.Sound.of_pushed (h : lexeme.pushed = [])
    (hfits : lexeme.kind.Fits before (text.take lexeme.length) (text.drop lexeme.length)) :
    lexeme.Sound before text := by
  refine ⟨hfits, ?_, ?_⟩
  · rw [h]
    exact fun frame hframe => absurd hframe List.not_mem_nil
  · rw [h]
    exact fun hblock => absurd hblock List.not_mem_nil

theorem Quoted.hasLiteralStyle_framesAfter {quoted : Quoted}
    (h : isLiteralStyle quoted.style = true) (stop : BodyEnd) :
    ∀ frame ∈ quoted.framesAfter stop, frame.hasLiteralStyle = true := by
  cases stop <;> simp [framesAfter, Frame.hasLiteralStyle, h]

theorem Quoted.blockComment_notMem_framesAfter (quoted : Quoted) (stop : BodyEnd) :
    .blockComment ∉ quoted.framesAfter stop := by
  cases stop <;> simp [framesAfter]

theorem sound_quotedLexeme {quoted : Quoted} (h : isLiteralStyle quoted.style = true)
    (before whole : List Char) (opening : Nat) (text : List Char) :
    (quotedLexeme opening quoted text).Sound before whole := by
  refine ⟨fits_of_isLiteralStyle h _ _ _, quoted.hasLiteralStyle_framesAfter h _, ?_⟩
  exact fun hblock => absurd hblock (quoted.blockComment_notMem_framesAfter _)

/-! ## Runs of characters -/

theorem mem_take_runLength {p : Char → Bool} (hc : c ∈ text.take (runLength p text)) :
    p c = true := by
  rw [runLength, ← List.prefix_iff_eq_take.mp (List.takeWhile_prefix p)] at hc
  exact List.mem_takeWhile_imp hc

theorem take_oneIf (p : Char → Bool) (text : List Char) :
    text.take (oneIf p text) = [] ∨ ∃ c, p c = true ∧ text.take (oneIf p text) = [c] := by
  cases text with
  | nil => exact .inl rfl
  | cons c text =>
      by_cases hc : p c = true
      · exact .inr ⟨c, hc, by simp [oneIf, hc]⟩
      · exact .inl (by simp [oneIf, hc])

theorem isNameChar_of_isNameStart (h : isNameStart c = true) : isNameChar c = true := by
  simp only [isNameStart, Bool.or_eq_true] at h
  rcases h with (h | h) | h <;> simp [isNameChar, isWordChar, h]

theorem isOperatorChar_of_isOperatorTail (h : isOperatorTail c = true) :
    isOperatorChar c = true := by
  have hall : "=+-*.^<>~|".toList.all isOperatorChar = true := by decide
  exact List.all_eq_true.mp hall c (List.contains_iff_mem.mp h)

/-! ## Names -/

theorem isNameRun_cons (hc : isNameStart c = true) (text : List Char) :
    IsNameRun (c :: text.take (runLength isNameChar text)) :=
  ⟨c, _, rfl, hc, fun _ => mem_take_runLength⟩

theorem isNameRun_take (h : headIs isNameStart text = true) :
    IsNameRun (text.take (runLength isNameChar text)) := by
  cases text with
  | nil => cases h
  | cons c text =>
      rw [runLength_cons, if_pos (isNameChar_of_isNameStart h), Nat.add_comm 1,
        List.take_succ_cons]
      exact isNameRun_cons h text

theorem sound_nameLexeme (before : List Char) (hc : isNameStart c = true) (text : List Char) :
    (nameLexeme text).Sound before (c :: text) := by
  unfold nameLexeme
  dsimp only
  split
  · exact .of_pushed rfl trivial
  · apply Lexeme.Sound.of_pushed rfl
    generalize hrest : text.drop (runLength isNameChar text) = rest
    have htake (n : Nat) : (c :: text).take (1 + runLength isNameChar text + n) =
        c :: text.take (runLength isNameChar text) ++ rest.take n := by
      rw [Nat.add_assoc, Nat.add_comm 1, List.take_succ_cons, List.take_add, hrest]
      rfl
    refine ⟨_, _, htake _, isNameRun_cons hc text, ?_⟩
    rcases take_oneIf (fun c => c == '?' || c == '!') rest with hnone | ⟨d, hd, hone⟩
    · simp [hnone]
    · rw [hone]
      simpa using hd

theorem sound_attributeLexeme? (before : List Char) (h : attributeLexeme? text = some lexeme) :
    lexeme.Sound before ('@' :: text) := by
  unfold attributeLexeme? at h
  dsimp only at h
  split at h
  · next hstart =>
      cases h
      apply Lexeme.Sound.of_pushed rfl
      refine ⟨'@' :: text.take (oneIf (· == '@') text), _, ?_, ?_,
        isNameRun_take hstart⟩
      · rw [Nat.add_assoc, Nat.add_comm 1, List.take_succ_cons, List.take_add]
        rfl
      · rcases take_oneIf (· == '@') text with hnone | ⟨c, hc, hone⟩
        · simp [hnone]
        · rw [hone]
          simpa using hc
  · cases h

/-! ## Operators -/

theorem isOperator_singleton (h : isOperatorChar c = true) (after : List Char) :
    IsOperator [c] after := by
  refine .inl fun d hd => ?_
  rwa [List.mem_singleton.mp hd]

theorem sound_operatorLexeme (before : List Char) (hc : isOperatorChar c = true)
    (text : List Char) : (operatorLexeme c text).Sound before (c :: text) := by
  unfold operatorLexeme
  dsimp only
  split
  · next hdot =>
      simp only [Bool.and_eq_true, decide_eq_true_eq] at hdot
      rw [hdot.1]
      exact .of_pushed rfl rfl
  · apply Lexeme.Sound.of_pushed rfl
    refine .inl fun d hd => ?_
    rw [Nat.add_comm 1, List.take_succ_cons, List.mem_cons] at hd
    rcases hd with rfl | hd
    · exact hc
    · exact isOperatorChar_of_isOperatorTail (mem_take_runLength hd)

theorem sound_slashLexeme (before text : List Char) :
    (slashLexeme text).Sound before ('/' :: text) := by
  unfold slashLexeme
  split
  · exact sound_quotedLexeme rfl _ _ _ _
  · exact .of_pushed rfl (isOperator_singleton (by decide) _)

theorem isLiteralStyle_percentStyle (letter : Option Char) :
    isLiteralStyle (percentStyle letter).1 = true := by
  unfold percentStyle
  split <;> rfl

theorem sound_percent (before : List Char)
    (h : headIs isPercentDelimiter (text.drop (oneIf isPercentLetter text)) = false) :
    Lexeme.Sound before ('%' :: text)
      ⟨1 + oneIf isPercentLetter text, .styled .operator, none, []⟩ := by
  apply Lexeme.Sound.of_pushed rfl
  show IsOperator (List.take _ _) (List.drop _ _)
  rw [Nat.add_comm 1, List.take_succ_cons, List.drop_succ_cons]
  rcases take_oneIf isPercentLetter text with hnone | ⟨letter, hletter, hone⟩
  · rw [hnone]
    exact isOperator_singleton (by decide) _
  · exact .inr ⟨letter, hletter, by rw [hone], h⟩

theorem sound_percentLexeme (before text : List Char) :
    (percentLexeme text).Sound before ('%' :: text) := by
  unfold percentLexeme
  dsimp only
  split
  · next hnone => exact sound_percent before (by rw [hnone]; rfl)
  · next c body hbody =>
      split
      · exact sound_quotedLexeme (isLiteralStyle_percentStyle _) _ _ _ _
      · next hc => exact sound_percent before (by rw [hbody]; exact Bool.eq_false_iff.mpr hc)

theorem sound_colonLexeme (before text : List Char) :
    (colonLexeme text).Sound before (':' :: text) := by
  have hcolon : IsOperator [':'] text := isOperator_singleton (by decide) text
  unfold colonLexeme
  split
  · exact .of_pushed rfl hcolon
  split
  · exact sound_quotedLexeme rfl _ _ _ _
  split
  · exact sound_quotedLexeme rfl _ _ _ _
  split
  · exact .of_pushed rfl trivial
  split
  · exact .of_pushed rfl trivial
  split
  · exact .of_pushed rfl trivial
  · exact .of_pushed rfl hcolon

/-! ## Tokens that their first character settles -/

def AllSound (before text : List Char) (lexeme : Option Lexeme) : Prop :=
  ∀ found ∈ lexeme, found.Sound before text

theorem AllSound.some (h : lexeme.Sound before text) : AllSound before text (some lexeme) := by
  rintro found ⟨⟩
  exact h

theorem AllSound.none : AllSound before text none := by
  rintro found ⟨⟩

theorem AllSound.ite {p : Prop} [Decidable p] {first second : Option Lexeme}
    (hfirst : p → AllSound before text first) (hsecond : AllSound before text second) :
    AllSound before text (if p then first else second) := by
  split
  · next hp => exact hfirst hp
  · exact hsecond

theorem isLiteralStyle_sigilStyle (letter : Char) : isLiteralStyle (sigilStyle letter) = true := by
  unfold sigilStyle
  split
  · rfl
  split <;> rfl

theorem allSound_sigilLexeme? (before whole text : List Char) :
    AllSound before whole (sigilLexeme? text) := by
  unfold sigilLexeme?
  split
  · next letter _ _ =>
      exact .ite (fun _ => .some (sound_quotedLexeme (isLiteralStyle_sigilStyle letter) _ _ _ _))
        .none
  · exact .none

theorem frame_of_mem_heredocAfter {tag : List Char} {indented : Bool} {frame : Frame}
    (h : frame ∈ heredocAfter tag indented text) : frame = .heredoc tag indented := by
  unfold heredocAfter at h
  split at h
  · exact absurd h List.not_mem_nil
  · exact List.mem_singleton.mp h

theorem allSound_heredocLexeme? (before whole text : List Char) :
    AllSound before whole (heredocLexeme? text) := by
  intro found hfound
  obtain ⟨opening, -, rfl⟩ := Option.map_eq_some_iff.mp hfound
  refine ⟨trivial, ?_, ?_⟩
  · intro frame hframe
    rw [frame_of_mem_heredocAfter hframe]
    rfl
  · intro hblock
    cases frame_of_mem_heredocAfter hblock

theorem headIs_take {p : Char → Bool} (hc : p c = true) (n : Nat) (text : List Char) :
    headIs p ((c :: text).take (1 + n)) = true := by
  rw [Nat.add_comm, List.take_succ_cons]
  exact hc

theorem allSound_literalLexeme? (before : List Char) (c : Char) (text : List Char) :
    AllSound before (c :: text) (literalLexeme? c text) := by
  have hsettled (style : Style) (n : Nat) (hfits : Fits before ((c :: text).take (1 + n))
      ((c :: text).drop (1 + n)) style) :
      AllSound before (c :: text) (some ⟨1 + n, .styled style, none, []⟩) :=
    .some (.of_pushed rfl hfits)
  unfold literalLexeme?
  apply AllSound.ite fun _ => .some (sound_quotedLexeme rfl _ _ _ _)
  apply AllSound.ite fun _ => .some (sound_quotedLexeme rfl _ _ _ _)
  apply AllSound.ite fun hc => .some (hc ▸ sound_slashLexeme before text)
  apply AllSound.ite fun hc => .some (hc ▸ sound_percentLexeme before text)
  apply AllSound.ite fun _ => allSound_sigilLexeme? _ _ text
  apply AllSound.ite fun hc => hsettled .comment _ (.inl (headIs_take (by simp [hc]) _ text))
  apply AllSound.ite fun _ => allSound_heredocLexeme? _ _ text
  apply AllSound.ite fun hc => hsettled .number _ (headIs_take (by rw [hc]; decide) _ text)
  apply AllSound.ite fun hc => hsettled .number _ (headIs_take hc _ text)
  apply AllSound.ite fun _ => hsettled .string _ trivial
  apply AllSound.ite fun hc => .some (hc ▸ sound_colonLexeme before text)
  apply AllSound.ite fun hc => fun found hfound => hc ▸ sound_attributeLexeme? before hfound
  exact AllSound.ite
    (fun hc => hsettled .globalVariable _ (headIs_take (by simp [hc]) _ text)) .none

/-! ## Tokens of code -/

theorem sound_symbolLexeme (before : List Char) (barIsMarker : Bool) (c : Char)
    (text : List Char) : (symbolLexeme barIsMarker c text).Sound before (c :: text) := by
  have hone (marker : Option Marker) :
      Lexeme.Sound before (c :: text) ⟨1, .styled .plain, marker, []⟩ :=
    .of_pushed rfl (.inr rfl)
  have htwo {d : Char} (h : headIs (· == d) text = true) : (c :: text).take 2 = [c, d] := by
    cases text with
    | nil => cases h
    | cons e rest => simpa [headIs] using h
  unfold symbolLexeme
  split
  · next hc => exact sound_nameLexeme before hc text
  split
  · exact hone _
  split
  · exact hone _
  split
  · next harrow =>
      simp only [Bool.and_eq_true, decide_eq_true_eq] at harrow
      refine .of_pushed rfl ?_
      rw [htwo harrow.2, harrow.1]
      rfl
  split
  · next hpipe =>
      simp only [Bool.and_eq_true, decide_eq_true_eq] at hpipe
      refine .of_pushed rfl ?_
      rw [htwo hpipe.2, hpipe.1]
      rfl
  split
  · next hc => exact sound_operatorLexeme before hc text
  · exact hone _

theorem sound_codeLexeme {atLineStart : Bool} (hbefore : atLineStart = true → before = [])
    (barIsMarker : Bool) (text : List Char) (htext : text ≠ []) :
    (codeLexeme atLineStart barIsMarker text).Sound before text := by
  cases text with
  | nil => exact absurd rfl htext
  | cons c rest =>
      unfold codeLexeme
      dsimp only
      split
      · next hquote =>
          simp only [Bool.and_eq_true, beq_iff_eq] at hquote
          rw [hquote.2]
          exact ⟨.inr ⟨hbefore hquote.1, rfl⟩, by simp [Frame.hasLiteralStyle], fun _ => rfl⟩
      split
      · next hblank =>
          apply Lexeme.Sound.of_pushed rfl
          refine .inl fun d hd => ?_
          rw [Nat.add_comm 1, List.take_succ_cons, List.mem_cons] at hd
          rcases hd with rfl | hd
          · exact hblank
          · exact mem_take_runLength hd
      · cases hliteral : literalLexeme? c rest with
        | none => exact sound_symbolLexeme before barIsMarker c rest
        | some lexeme => exact allSound_literalLexeme? before c rest lexeme hliteral

end CellHighlight.Elixir
