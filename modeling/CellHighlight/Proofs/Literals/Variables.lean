import CellHighlight.Proofs.Literals.Stack
import Mathlib.Algebra.Ring.Parity

/-!
# Embedded variables

A variable in a literal is one token of code, which does not know the delimiter around
it.  A dollar sign takes the next character for a name whatever it is, so right before
the closing quote it takes the quote.
-/

namespace CellHighlight.Elixir

/-! ## The end of the body -/

/-- The body ends in `#$`, read as the beginning of a variable whose name is to come. -/
def awaitsName : List Char → Bool
  | ['#', '$'] => true
  | '#' :: '$' :: _ :: body => awaitsName body
  | _ :: body => awaitsName body
  | [] => false

def leadingSigns : List Char → Nat
  | '$' :: '#' :: text => leadingSigns text + 1
  | _ => 0

/-- How many times `#$` stands at the end of the body, one right before the other.  It is
counted from the right, where the dollar sign comes first. -/
def trailingSigns (body : List Char) : Nat := leadingSigns body.reverse

theorem awaitsName_cons {c : Char} {body : List Char}
    (h : c = '#' → headIs (· == '$') body = false) :
    awaitsName (c :: body) = awaitsName body := by
  rw [awaitsName]
  · rintro rfl rfl
    exact absurd (h rfl) (by decide)
  · rintro d rest rfl rfl
    exact absurd (h rfl) (by simp [headIs])

theorem awaitsName_append (body : List Char) :
    awaitsName (body ++ ['#', '$']) = !awaitsName body := by
  fun_induction awaitsName body with
  | case1 => rfl
  | case2 c body ih => exact ih
  | case3 c body hend hsign ih =>
      rw [List.cons_append, awaitsName_cons, ih]
      rintro rfl
      cases body with
      | nil => rfl
      | cons d rest =>
          have hd : d ≠ '$' := by
            rintro rfl
            cases rest with
            | nil => exact hend rfl rfl
            | cons e rest => exact hsign e rest rfl rfl
          simpa [headIs] using hd
  | case4 => rfl

theorem exists_append_of_awaitsName {body : List Char} (h : awaitsName body = true) :
    ∃ front, body = front ++ ['#', '$'] := by
  fun_induction awaitsName body with
  | case1 => exact ⟨[], rfl⟩
  | case2 c body ih =>
      obtain ⟨front, rfl⟩ := ih h
      exact ⟨'#' :: '$' :: c :: front, rfl⟩
  | case3 c body _ _ ih =>
      obtain ⟨front, rfl⟩ := ih h
      exact ⟨c :: front, rfl⟩
  | case4 => cases h

/-- Of the signs at the end, every second one is the name of the one before it. -/
theorem awaitsName_iff_odd (body : List Char) :
    awaitsName body = true ↔ Odd (trailingSigns body) := by
  suffices h : ∀ text : List Char, awaitsName text.reverse = true ↔ Odd (leadingSigns text) by
    simpa [trailingSigns] using h body.reverse
  intro text
  fun_induction leadingSigns text with
  | case1 text ih =>
      have hreverse : ('$' :: '#' :: text).reverse = text.reverse ++ ['#', '$'] := by simp
      rw [hreverse, awaitsName_append, Nat.odd_add_one, ← ih]
      simp
  | case2 text hsigns =>
      refine ⟨fun h => ?_, fun h => absurd h (by decide)⟩
      obtain ⟨front, hfront⟩ := exists_append_of_awaitsName h
      have htext : text = '$' :: '#' :: front.reverse := by
        simpa using congrArg List.reverse hfront
      exact absurd htext (hsigns _)

/-! ## What remains of the literal -/

structure PlainBody (body : List Char) : Prop where
  quote : '"' ∉ body
  backslash : '\\' ∉ body
  code : ¬ ['#', '{'] <:+: body

theorem PlainBody.tail {c : Char} {body : List Char} (h : PlainBody (c :: body)) :
    PlainBody body where
  quote hmem := h.quote (.tail c hmem)
  backslash hmem := h.backslash (.tail c hmem)
  code hwithin := h.code (hwithin.trans (List.suffix_cons c body).isInfix)

/-- The text left of the literal and the stack it is scanned with, above what was open
before.  The flag tells that the closing quote will be taken for a name. -/
inductive Remains (below : List Frame) : Bool → List Char → List Frame → Prop
  | opening {body : List Char} (hbody : PlainBody body) :
      Remains below (awaitsName body) ('"' :: (body ++ ['"'])) below
  | pending {sign : Char} {body : List Char} (hsign : sign = '@' ∨ sign = '$')
      (hbody : PlainBody body) :
      Remains below (awaitsName ('#' :: sign :: body)) (sign :: (body ++ ['"']))
        (.once false :: .quoted doubleQuoted :: below)
  | resumed {body : List Char} (hbody : PlainBody body) :
      Remains below (awaitsName body) (body ++ ['"'])
        (.once true :: .quoted doubleQuoted :: below)
  | closed : Remains below false [] below
  | leaked : Remains below true [] (.once true :: .quoted doubleQuoted :: below)

section

variable {below frames : List Frame} {text body : List Char} {awaits : Bool}

theorem headIs_append_quote {p : Char → Bool} (hp : p '"' = false) (text : List Char) :
    headIs p (text ++ ['"']) = headIs p text := by
  cases text with
  | nil => exact hp
  | cons c text => rfl

theorem PlainBody.headIs_brace (h : PlainBody ('#' :: body)) :
    headIs (· == '{') body = false := by
  cases body with
  | nil => rfl
  | cons c body =>
      have hc : c ≠ '{' := by
        rintro rfl
        exact h.code (List.prefix_append ['#', '{'] body).isInfix
      simpa [headIs] using hc

theorem PlainBody.ne_tripleQuote (h : PlainBody body) :
    '"' :: (body ++ ['"']) ≠ tripleQuote := by
  intro heq
  cases body with
  | nil => cases heq
  | cons c body =>
      have hc : c = '"' := (List.cons.inj (List.cons.inj heq).2).1
      exact h.quote (by simp [hc])

theorem atVariable_of_dollar (h : headIs (· == '$') text = true) : AtVariable text := by
  cases text with
  | nil => cases h
  | cons c text =>
      have hc : c = '$' := by simpa [headIs] using h
      simp [AtVariable, headIs, hc]

theorem PlainBody.remains_scanBody (h : PlainBody body) :
    let scan := doubleQuoted.scanBody false (body ++ ['"'])
    Remains below (awaitsName body) ((body ++ ['"']).drop scan.1)
      (doubleQuoted.framesAfter scan.2 ++ below) := by
  induction body with
  | nil => exact .closed
  | cons c body ih =>
      by_cases hvariable : c = '#' ∧ AtVariable body
      · obtain ⟨rfl, hsign⟩ := hvariable
        cases body with
        | nil => cases hsign
        | cons sign body =>
            have hsign : sign = '@' ∨ sign = '$' := by simpa [AtVariable, headIs] using hsign
            have hscan : doubleQuoted.scanBody false ('#' :: sign :: (body ++ ['"'])) =
                (1, .variable) := by
              rcases hsign with rfl | rfl <;> rfl
            simp only [List.cons_append, hscan]
            exact .pending hsign h.tail.tail
      · have hquote : c ≠ '"' := fun hc => h.quote (by simp [hc])
        have hbackslash : c ≠ '\\' := fun hc => h.backslash (by simp [hc])
        have hembedded : c = '#' →
            headIs (· == '{') (body ++ ['"']) = false ∧ ¬ AtVariable (body ++ ['"']) := by
          rintro rfl
          rw [AtVariable, headIs_append_quote (by decide), headIs_append_quote (by decide)]
          exact ⟨h.headIs_brace, fun hsign => hvariable ⟨rfl, hsign⟩⟩
        have hdollar : c = '#' → headIs (· == '$') body = false := fun hc =>
          Bool.eq_false_iff.mpr fun hsign => hvariable ⟨hc, atVariable_of_dollar hsign⟩
        rw [List.cons_append, Quoted.scanBody_cons _ hquote hbackslash hembedded,
          awaitsName_cons hdollar]
        exact ih h.tail

/-! ## The token of a variable -/

def isInner (c : Char) : Bool := c != '#' && c != '"'

theorem isInner_of {p : Char → Bool} (hp : ['#', '"'].any p = false) {c : Char}
    (hc : p c = true) : isInner c = true := by
  have hne : ∀ d ∈ ['#', '"'], c ≠ d := by
    rintro d hd rfl
    rw [eq_false_of_any hp hd] at hc
    cases hc
  simp [isInner, hne]

theorem runLength_le_inner {p : Char → Bool} (hp : ['#', '"'].any p = false)
    (text : List Char) : runLength p text ≤ runLength isInner text := by
  induction text with
  | nil => rfl
  | cons c text ih =>
      rw [runLength_cons]
      split
      · next hc =>
          rw [runLength_cons, if_pos (isInner_of hp hc)]
          exact Nat.add_le_add_left ih 1
      · exact Nat.zero_le _

theorem PlainBody.remains_drop (h : PlainBody body) {n : Nat}
    (hn : n ≤ runLength isInner (body ++ ['"'])) :
    Remains below (awaitsName body) ((body ++ ['"']).drop n)
      (.once true :: .quoted doubleQuoted :: below) := by
  induction n generalizing body with
  | zero => exact .resumed h
  | succ n ih =>
      cases body with
      | nil => simp [runLength_cons, isInner] at hn
      | cons c body =>
          rw [List.cons_append, runLength_cons] at hn
          split at hn
          · next hc =>
              have hne : c ≠ '#' := by
                rintro rfl
                cases hc
              rw [awaitsName_cons fun heq => absurd heq hne]
              exact ih h.tail (by omega)
          · omega

theorem oneIf_add_runLength_le {p q : Char → Bool} (hp : ['#', '"'].any p = false)
    (hq : ['#', '"'].any q = false) (text : List Char) :
    oneIf p text + runLength q (text.drop (oneIf p text)) ≤ runLength isInner text := by
  cases text with
  | nil => rfl
  | cons c text =>
      rw [oneIf]
      split
      · next hc =>
          have hle := runLength_le_inner hq text
          rw [runLength_cons, if_pos (isInner_of hp hc)]
          exact Nat.add_le_add_left hle 1
      · rw [List.drop_zero, Nat.zero_add]
        exact runLength_le_inner hq (c :: text)

theorem codeLexeme_attribute (atLineStart barIsMarker : Bool) (text : List Char) :
    ∃ n style, n ≤ runLength isInner text ∧
      codeLexeme atLineStart barIsMarker ('@' :: text) = ⟨1 + n, .styled style, none, []⟩ := by
  rw [codeLexeme_cons (by simp [tripleQuote]) (by decide)]
  have hliteral : literalLexeme? '@' text = attributeLexeme? text := rfl
  rw [hliteral, attributeLexeme?]
  split
  · have hle := oneIf_add_runLength_le (show ['#', '"'].any (· == '@') = false by decide)
      (show ['#', '"'].any isNameChar = false by decide) text
    exact ⟨_, .moduleAttribute, hle, by rw [Option.getD_some, Nat.add_assoc]⟩
  · exact ⟨0, .plain, Nat.zero_le _, by cases barIsMarker <;> rfl⟩

theorem codeLexeme_global (atLineStart barIsMarker : Bool) (c : Char) (text : List Char) :
    ∃ n, n ≤ runLength isInner text ∧
      codeLexeme atLineStart barIsMarker ('$' :: c :: text) =
        ⟨2 + n, .styled .globalVariable, none, []⟩ := by
  have hlexeme : codeLexeme atLineStart barIsMarker ('$' :: c :: text) =
      ⟨1 + globalLength (c :: text), .styled .globalVariable, none, []⟩ :=
    codeLexeme_cons (by simp [tripleQuote]) (by decide) atLineStart barIsMarker
  have hword : ['#', '"'].any isWordChar = false := by decide
  have hdigit : ['#', '"'].any isAsciiDigit = false := by decide
  rw [hlexeme, globalLength]
  split
  · exact ⟨_, runLength_le_inner hword text, by rw [← Nat.add_assoc]⟩
  split
  · have hle := oneIf_add_runLength_le hdigit hdigit text
    exact ⟨_, Nat.le_of_add_right_le hle, by rw [← Nat.add_assoc]⟩
  · exact ⟨0, Nat.zero_le _, rfl⟩

theorem Remains.scanFrames (h : Remains below awaits text frames) (hbelow : IsCode below)
    (htext : text ≠ []) (atLineStart barIsMarker : Bool) :
    let scan := scanFrames atLineStart barIsMarker text frames
    Remains below awaits (text.drop scan.length) scan.frames := by
  cases h with
  | @opening body hbody =>
      simp only [hbelow.scanFrames_literal hbody.ne_tripleQuote, Lexeme.onto, quotedLexeme,
        Nat.add_comm 1, List.drop_succ_cons]
      exact hbody.remains_scanBody
  | @pending sign body hsign hbody =>
      simp only [Elixir.scanFrames, Bool.false_eq_true, if_false]
      rcases hsign with rfl | rfl
      · obtain ⟨n, style, hn, hlexeme⟩ :=
          codeLexeme_attribute atLineStart barIsMarker (body ++ ['"'])
        simp only [hlexeme, Lexeme.onto, List.nil_append, Nat.add_comm 1, List.drop_succ_cons]
        exact hbody.remains_drop hn
      · cases body with
        | nil =>
            -- The sign stands right before the closing quote and takes it for a name.
            obtain ⟨n, hn, hlexeme⟩ := codeLexeme_global atLineStart barIsMarker '"' []
            cases Nat.le_zero.mp hn
            simp only [List.nil_append, hlexeme, Lexeme.onto]
            exact .leaked
        | cons c body =>
            obtain ⟨n, hn, hlexeme⟩ :=
              codeLexeme_global atLineStart barIsMarker c (body ++ ['"'])
            simp only [List.cons_append, hlexeme, Lexeme.onto, List.nil_append, Nat.add_comm 2,
              List.drop_succ_cons]
            exact hbody.tail.remains_drop hn
  | @resumed body hbody =>
      have hquoted := scanQuoted_eq (show doubleQuoted.afterBrace = false from rfl) below
        (body ++ ['"'])
      simp only [Elixir.scanFrames, if_true, hquoted]
      exact hbody.remains_scanBody
  | closed => exact absurd rfl htext
  | leaked => exact absurd rfl htext

end

/-! ## A whole line -/

theorem keptByScans_remains {below : List Frame} (hbelow : IsCode below) (awaits : Bool) :
    KeptByScans (Remains below awaits) where
  base h := by
    cases h <;> simp [List.getLast?_cons, hbelow.getLast?]
  scan htext h := h.scanFrames hbelow htext

theorem Remains.frames_eq {below frames : List Frame} {awaits : Bool}
    (h : Remains below awaits [] frames) :
    frames = if awaits then .once true :: .quoted doubleQuoted :: below else below := by
  generalize htext : ([] : List Char) = text at h
  cases h with
  | opening => cases htext
  | pending => cases htext
  | resumed => simp at htext
  | closed => rfl
  | leaked => rfl

end CellHighlight.Elixir

namespace CellHighlight.Grammar

open Elixir

/-- A literal on a line of its own ends at its second quote, unless the last `#$` of the
body takes that quote for a name. -/
theorem scanLine_quoted (options : Options) (state : State) (hreached : state.Reachable options)
    (htop : state.frames.head? = some .base) (body : List Char) (hbody : PlainBody body) :
    ∃ after,
      ((elixir options).scanLine (.elixir state) ('"' :: (body ++ ['"']))).2 = .elixir after ∧
      after.frames =
        if Even (trailingSigns body) then state.frames
        else .once true :: .quoted doubleQuoted :: state.frames := by
  have hcode := hreached.regular.frames.isCode (.inl htop)
  obtain ⟨after, hafter, hend⟩ :=
    (keptByScans_remains hcode (awaitsName body)).scanLine options (.opening hbody)
  refine ⟨after, hafter, hend.frames_eq.trans ?_⟩
  simp only [awaitsName_iff_odd, ← Nat.not_even_iff_odd, ite_not]

theorem scanLine_quoted_two_signs :
    let body := "a#@b #$#$".toList
    (State.start {}).Reachable {} ∧ PlainBody body ∧
      ∃ after, ((elixir {}).scanLine (elixir {}).start ('"' :: (body ++ ['"']))).2 =
          .elixir after ∧ after.frames = [.base] := by
  intro body
  have hreached : (State.start {}).Reachable {} := ⟨[], .elixir {}, by simp, rfl⟩
  have hbody : PlainBody body := ⟨by decide, by decide, by simp [body, List.infix_cons_iff]⟩
  have hsigns : Even (trailingSigns body) := by decide
  obtain ⟨after, hafter, hframes⟩ := scanLine_quoted {} (.start {}) hreached rfl body hbody
  exact ⟨hreached, hbody, after, hafter, hframes.trans (if_pos hsigns)⟩

/-- The body `#$` has none of the characters that could keep a literal open, and yet the
literal does not end. -/
theorem scanLine_quoted_leaks :
    let body := "#$".toList
    (State.start {}).Reachable {} ∧ PlainBody body ∧
      ∃ after, ((elixir {}).scanLine (elixir {}).start ('"' :: (body ++ ['"']))).2 =
          .elixir after ∧ after.frames = [.once true, .quoted doubleQuoted, .base] ∧
        after.frames ≠ (State.start {}).frames := by
  intro body
  let after : State :=
    ⟨[.once true, .quoted doubleQuoted, .base], [⟨.root, -2⟩], 0, some .other, false, false⟩
  have hbody : PlainBody body := ⟨by decide, by decide, by simp [body, List.infix_cons_iff]⟩
  exact ⟨⟨[], .elixir {}, by simp, rfl⟩, hbody, after, by decide, rfl, by decide⟩

end CellHighlight.Grammar
