import CellHighlight.Proofs.Literals.Stack

/-!
# Nested code

Code of words, blanks and pairs of braces, with literals that embed such code, to any
depth.  Whatever a line of it opens it closes again, so the line leaves the stack of
frames as it was, as long as the braces of embedded code can be counted in 32 bits.
-/

namespace CellHighlight.Elixir

/-! ## The texts -/

def isLower (c : Char) : Bool := 'a' ≤ c && c ≤ 'z'

mutual

/-- Lower-case letters, blanks, pairs of braces and literals in double quotes.  The braces
are nested at most `levels` deep, where those within literals do not count. -/
inductive NestedCode : Nat → List Char → Prop
  | nil {levels : Nat} : NestedCode levels []
  | plain {levels : Nat} {c : Char} {text : List Char} (hplain : isLower c = true ∨ c = ' ')
      (htext : NestedCode levels text) : NestedCode levels (c :: text)
  | braces {levels : Nat} {inside text : List Char} (hinside : NestedCode levels inside)
      (htext : NestedCode (levels + 1) text) :
      NestedCode (levels + 1) ('{' :: (inside ++ '}' :: text))
  | literal {levels : Nat} {body text : List Char} (hbody : NestedBody body)
      (htext : NestedCode levels text) : NestedCode levels ('"' :: (body ++ '"' :: text))

/-- What may stand between the quotes: all characters but three, and embedded code whose
braces can be counted together with the one that opens it. -/
inductive NestedBody : List Char → Prop
  | nil : NestedBody []
  | char {c : Char} {text : List Char} (hchar : c ∉ ['"', '\\', '#'])
      (htext : NestedBody text) : NestedBody (c :: text)
  | embedded {levels : Nat} {inside text : List Char} (hlevels : 1 + levels < UInt32.size)
      (hinside : NestedCode levels inside) (htext : NestedBody text) :
      NestedBody ('#' :: '{' :: (inside ++ '}' :: text))

end

/-! ## What remains open -/

def deepen : List Frame → List Frame
  | .untilBrace depth :: below => .untilBrace (depth + 1) :: below
  | frames => frames

/-- So many more braces can be counted, by a count that has not gone past the last number
before.  Braces outside of literals are not counted. -/
def HasRoom (levels : Nat) (frames : List Frame) : Prop :=
  ∀ depth, frames.head? = some (.untilBrace depth) →
    1 ≤ depth.toNat ∧ depth.toNat + levels < UInt32.size

/-- The text that follows a stretch of code when `frames` are open: it closes all that was
opened since the stack was `target`. -/
inductive Closes (target : List Frame) : List Frame → List Char → Prop
  | done : Closes target target []
  | braces {levels : Nat} {frames : List Frame} {code tail : List Char}
      (hroom : HasRoom (levels + 1) frames) (hcode : NestedCode (levels + 1) code)
      (htail : Closes target frames tail) : Closes target (deepen frames) ('}' :: (code ++ tail))
  | embedded {levels : Nat} {frames : List Frame} {body code tail : List Char}
      (hroom : HasRoom levels frames) (hbody : NestedBody body) (hcode : NestedCode levels code)
      (htail : Closes target frames tail) :
      Closes target (.untilBrace 1 :: .quoted doubleQuoted :: frames)
        ('}' :: (body ++ '"' :: (code ++ tail)))

def Returns (target : List Frame) (text : List Char) (frames : List Frame) : Prop :=
  ∃ levels code tail, text = code ++ tail ∧ HasRoom levels frames ∧ NestedCode levels code ∧
    Closes target frames tail

theorem IsCode.deepen {frames : List Frame} (h : IsCode frames) : IsCode (deepen frames) := by
  cases h with
  | base => exact .base
  | embedded hinterpolates hbrace hbelow => exact .embedded hinterpolates hbrace hbelow

theorem toNat_add_one {depth : UInt32} (h : depth.toNat + 1 < UInt32.size) :
    (depth + 1).toNat = depth.toNat + 1 := by
  rw [UInt32.toNat_add]
  exact Nat.mod_eq_of_lt h

theorem HasRoom.deepen {levels : Nat} {frames : List Frame} (h : HasRoom (levels + 1) frames) :
    HasRoom levels (deepen frames) := by
  unfold Elixir.deepen
  split
  · next depth below =>
      obtain ⟨hpos, hroom⟩ := h depth rfl
      rintro _ ⟨⟩
      rw [toNat_add_one (by omega)]
      omega
  · next frames hframes =>
      intro depth hdepth
      obtain ⟨below, rfl⟩ := List.head?_eq_some_iff.mp hdepth
      exact absurd rfl (hframes depth below)

theorem hasRoom_embedded {levels : Nat} (h : 1 + levels < UInt32.size) (below : List Frame) :
    HasRoom levels (.untilBrace 1 :: below) := by
  rintro _ ⟨⟩
  exact ⟨Nat.le_refl 1, h⟩

theorem Closes.isCode {target frames : List Frame} {tail : List Char}
    (h : Closes target frames tail) (htarget : IsCode target) : IsCode frames := by
  induction h with
  | done => exact htarget
  | braces _ _ _ ih => exact ih.deepen
  | embedded _ _ _ _ ih => exact .embedded rfl rfl ih

/-! ## Words and blanks -/

section

variable {target frames : List Frame} {text code tail : List Char} {p : Char → Bool}

theorem Closes.runLength_eq_zero (h : Closes target frames tail) (hp : p '}' = false) :
    runLength p tail = 0 := by
  cases h with
  | done => rfl
  | braces => simp [runLength_cons, hp]
  | embedded => simp [runLength_cons, hp]

theorem NestedCode.runLength_append (hp : ['{', '}', '"'].any p = false)
    (htail : Closes target frames tail) {levels : Nat} {code : List Char}
    (hcode : NestedCode levels code) :
    runLength p (code ++ tail) ≤ code.length ∧
      NestedCode levels (code.drop (runLength p (code ++ tail))) := by
  induction code with
  | nil =>
      rw [List.nil_append, htail.runLength_eq_zero (eq_false_of_any hp (by simp))]
      exact ⟨Nat.le_refl 0, .nil⟩
  | cons c code ih =>
      rw [List.cons_append, runLength_cons, List.length_cons]
      split
      · next hc =>
          cases hcode with
          | plain hplain htext =>
              rw [Nat.add_comm 1, List.drop_succ_cons]
              exact ⟨Nat.succ_le_succ (ih htext).1, (ih htext).2⟩
          | braces => exact absurd hc (by simp [eq_false_of_any hp])
          | literal => exact absurd hc (by simp [eq_false_of_any hp])
      · exact ⟨Nat.zero_le _, hcode⟩

theorem Returns.drop_runLength (h : Returns target text frames)
    (hp : ['{', '}', '"'].any p = false) :
    Returns target (text.drop (runLength p text)) frames := by
  obtain ⟨levels, code, tail, rfl, hroom, hcode, htail⟩ := h
  obtain ⟨hle, hrest⟩ := hcode.runLength_append hp htail
  exact ⟨levels, _, tail, List.drop_append_of_le_length hle, hroom, hrest, htail⟩

theorem Returns.headIs_eq_false (h : Returns target text frames)
    (hlower : ∀ c, isLower c = true → p c = false)
    (hp : [' ', '{', '}', '"'].any p = false) : headIs p text = false := by
  obtain ⟨levels, code, tail, rfl, -, hcode, htail⟩ := h
  cases hcode with
  | plain hplain =>
      rcases hplain with hletter | rfl
      · exact hlower _ hletter
      · exact eq_false_of_any hp (by simp)
  | braces => exact eq_false_of_any hp (by simp)
  | literal => exact eq_false_of_any hp (by simp)
  | nil =>
      cases htail with
      | done => rfl
      | braces => exact eq_false_of_any hp (by simp)
      | embedded => exact eq_false_of_any hp (by simp)

end

/-! ## One scan -/

theorem ne_of_isLower {c d : Char} (hc : isLower c = true) (hd : isLower d = false) : c ≠ d := by
  rintro rfl
  rw [hc] at hd
  cases hd

theorem isAsciiLetter_of_isLower {c : Char} (h : isLower c = true) : isAsciiLetter c = true := by
  unfold isLower at h
  unfold isAsciiLetter
  rw [h, Bool.true_or]

section

variable {target frames : List Frame} {text : List Char}

theorem Returns.length_nameLexeme (h : Returns target text frames) :
    (nameLexeme text).length = 1 + runLength isNameChar text := by
  have hrest := h.drop_runLength (show ['{', '}', '"'].any isNameChar = false by decide)
  have hmark : headIs (fun c => c == '?' || c == '!')
      (text.drop (runLength isNameChar text)) = false := by
    apply hrest.headIs_eq_false
    · intro c hc
      simp [ne_of_isLower hc (show isLower '?' = false by decide),
        ne_of_isLower hc (show isLower '!' = false by decide)]
    · decide
  have hcolon : headIs (· == ':') (text.drop (runLength isNameChar text)) = false := by
    apply hrest.headIs_eq_false
    · intro c hc
      simp [ne_of_isLower hc (show isLower ':' = false by decide)]
    · decide
  simp [nameLexeme, oneIf_eq_zero hmark, hcolon]

/-- After the opening quote, or the brace that ends embedded code, the rest of the body is
taken up to its end or to the next embedded code. -/
theorem NestedBody.returns_scanBody {rest : List Char} (hrest : Returns target rest frames)
    {body : List Char} (hbody : NestedBody body) :
    let scan := doubleQuoted.scanBody false (body ++ '"' :: rest)
    Returns target ((body ++ '"' :: rest).drop scan.1)
      (doubleQuoted.framesAfter scan.2 ++ frames) := by
  cases hbody with
  | nil => exact hrest
  | char hchar hbody =>
      have ih := hbody.returns_scanBody hrest
      simp only [List.mem_cons, List.not_mem_nil, or_false, not_or] at hchar
      rw [List.cons_append, Quoted.scanBody_cons _ hchar.1 hchar.2.1 fun hc => absurd hc hchar.2.2]
      exact ih
  | @embedded levels inside body hlevels hinside hbody =>
      obtain ⟨_, code, tail, rfl, hroom, hcode, htail⟩ := hrest
      refine ⟨levels, inside, '}' :: (body ++ '"' :: (code ++ tail)), ?_,
        hasRoom_embedded hlevels _, hinside, ?_⟩
      · simp [Quoted.scanBody, doubleQuoted, headIs]
      · exact .embedded hroom hbody hcode htail

theorem Returns.exists_literal (h : Returns target ('"' :: text) frames) :
    ∃ body rest, text = body ++ '"' :: rest ∧ NestedBody body ∧ Returns target rest frames := by
  obtain ⟨levels, code, tail, heq, hroom, hcode, htail⟩ := h
  cases hcode with
  | nil => cases htail <;> cases heq
  | plain hplain =>
      cases heq
      exact absurd hplain (by decide)
  | braces => cases heq
  | @literal _ body code hbody hcode =>
      cases heq
      exact ⟨body, code ++ tail, by simp, hbody, levels, code, tail, rfl, hroom, hcode, htail⟩

theorem NestedBody.eq_nil_of_quote {body rest : List Char} (h : NestedBody body)
    (heq : '"' :: text = body ++ '"' :: rest) : body = [] := by
  cases h with
  | nil => rfl
  | char hchar =>
      cases heq
      simp at hchar
  | embedded => cases heq

theorem Returns.ne_tripleQuote (h : Returns target text frames) : text ≠ tripleQuote := by
  rintro rfl
  obtain ⟨body, rest, heq, hbody, hrest⟩ := h.exists_literal
  cases hbody.eq_nil_of_quote heq
  cases heq
  obtain ⟨body, rest, heq, -, -⟩ := hrest.exists_literal
  simp at heq

theorem IsCode.scanFrames_opening (h : IsCode frames) (atLineStart barIsMarker : Bool)
    (text : List Char) :
    scanFrames atLineStart barIsMarker ('{' :: text) frames =
      ⟨1, .styled .plain, some (.opening .curly), Elixir.deepen frames⟩ := by
  cases h with
  | base => simp [scanFrames, codeLexeme_bracket, Lexeme.onto, Elixir.deepen, Marker.ofChar?]
  | embedded =>
      simp [scanFrames, codeLexeme_bracket, Lexeme.onto, Elixir.deepen, Marker.ofChar?, headIs,
        depthAfter]

theorem IsCode.scanFrames_closing (h : IsCode frames) {levels : Nat}
    (hroom : HasRoom (levels + 1) frames) (atLineStart barIsMarker : Bool) (text : List Char) :
    scanFrames atLineStart barIsMarker ('}' :: text) (Elixir.deepen frames) =
      ⟨1, .styled .plain, some (.closing .curly), frames⟩ := by
  cases h with
  | base => simp [scanFrames, codeLexeme_bracket, Lexeme.onto, Elixir.deepen, Marker.ofChar?]
  | @embedded depth =>
      obtain ⟨hpos, hdepth⟩ := hroom depth rfl
      have hdeeper : ¬ depth + 1 ≤ 1 := by
        rw [UInt32.le_iff_toNat_le, toNat_add_one (by omega)]
        exact Nat.not_le.mpr (Nat.lt_add_of_pos_left hpos)
      simp [scanFrames, codeLexeme_bracket, Lexeme.onto, Elixir.deepen, Marker.ofChar?, headIs,
        depthAfter, hdeeper]

theorem scanFrames_resuming (atLineStart barIsMarker : Bool) (text : List Char) :
    scanFrames atLineStart barIsMarker ('}' :: text)
        (.untilBrace 1 :: .quoted doubleQuoted :: frames) =
      let body := doubleQuoted.scanBody false ('}' :: text)
      ⟨body.1, .styled .interpolated, none, doubleQuoted.framesAfter body.2 ++ frames⟩ := by
  have hquoted := scanQuoted_eq (show doubleQuoted.afterBrace = false from rfl) frames
    ('}' :: text)
  rw [scanFrames, if_pos (by simp [headIs])]
  exact hquoted

theorem IsCode.scanFrames_word (h : IsCode frames) {c : Char} (hc : isLower c = true)
    (atLineStart barIsMarker : Bool) (text : List Char) :
    scanFrames atLineStart barIsMarker (c :: text) frames = (nameLexeme text).onto frames := by
  have hopening : c ≠ '{' := ne_of_isLower hc (by decide)
  have hclosing : c ≠ '}' := ne_of_isLower hc (by decide)
  rw [h.scanFrames_eq (by simp [headIs, hopening]) (by simp [headIs, hclosing]),
    codeLexeme_of_isAsciiLetter (isAsciiLetter_of_isLower hc)]

theorem IsCode.scanFrames_blank (h : IsCode frames) (atLineStart barIsMarker : Bool)
    (text : List Char) :
    scanFrames atLineStart barIsMarker (' ' :: text) frames =
      ⟨1 + runLength isBlank text, .styled .plain, none, frames⟩ := by
  rw [h.scanFrames_eq (by simp [headIs]) (by simp [headIs]), codeLexeme_blank (by decide)]
  rfl

theorem Returns.scanFrames (h : Returns target text frames) (htarget : IsCode target)
    (htext : text ≠ []) (atLineStart barIsMarker : Bool) :
    let scan := scanFrames atLineStart barIsMarker text frames
    Returns target (text.drop scan.length) scan.frames := by
  have hquote := h.ne_tripleQuote
  obtain ⟨levels, code, tail, rfl, hroom, hcode, htail⟩ := h
  have hframes := htail.isCode htarget
  cases hcode with
  | nil =>
      -- This stretch of code is over, so the next brace closes what was opened last.
      cases htail with
      | done => exact absurd rfl htext
      | @braces _ frames code tail hbelow hcode htail =>
          simp only [List.nil_append, (htail.isCode htarget).scanFrames_closing hbelow]
          exact ⟨_, code, tail, rfl, hbelow, hcode, htail⟩
      | @embedded _ frames body code tail hbelow hbody hcode htail =>
          -- The literal takes the brace as if it were a character of its body.
          have hbrace : NestedBody ('}' :: body) := .char (by decide) hbody
          simp only [List.nil_append, scanFrames_resuming]
          exact hbrace.returns_scanBody ⟨_, code, tail, rfl, hbelow, hcode, htail⟩
  | @plain _ c rest hplain hrest =>
      have hreturns : Returns target (rest ++ tail) frames :=
        ⟨levels, rest, tail, rfl, hroom, hrest, htail⟩
      rcases hplain with hletter | rfl
      · simp only [List.cons_append, hframes.scanFrames_word hletter, Lexeme.onto,
          pushed_nameLexeme, hreturns.length_nameLexeme, List.nil_append, Nat.add_comm 1,
          List.drop_succ_cons]
        exact hreturns.drop_runLength (by decide)
      · simp only [List.cons_append, hframes.scanFrames_blank, Nat.add_comm 1,
          List.drop_succ_cons]
        exact hreturns.drop_runLength (by decide)
  | @braces levels inside rest hinside hrest =>
      simp only [List.cons_append, hframes.scanFrames_opening]
      refine ⟨levels, inside, '}' :: (rest ++ tail), by simp, hroom.deepen, hinside, ?_⟩
      exact .braces hroom hrest htail
  | @literal _ body rest hbody hrest =>
      have hreturns := hbody.returns_scanBody ⟨levels, rest, tail, rfl, hroom, hrest, htail⟩
      simp only [List.cons_append, List.append_assoc] at hquote ⊢
      simp only [hframes.scanFrames_literal hquote, Lexeme.onto, quotedLexeme, Nat.add_comm 1,
        List.drop_succ_cons]
      exact hreturns

end

/-! ## A whole line -/

theorem keptByScans_returns {target : List Frame} (htarget : IsCode target) :
    KeptByScans (Returns target) where
  base h := by
    obtain ⟨_, _, _, -, -, -, htail⟩ := h
    exact (htail.isCode htarget).getLast?
  scan htext h := h.scanFrames htarget htext

theorem Returns.frames_eq {target frames : List Frame} (h : Returns target [] frames) :
    frames = target := by
  obtain ⟨_, code, tail, heq, -, -, htail⟩ := h
  obtain ⟨-, rfl⟩ := List.append_eq_nil_iff.mp heq.symm
  cases htail
  rfl

end CellHighlight.Elixir

namespace CellHighlight.Grammar

open Elixir

/-- A line of nested code leaves the stack of frames as it found it, if the braces that are
open at its beginning and those that it opens can be counted together. -/
theorem scanLine_nestedCode (options : Options) (state : State)
    (hreached : state.Reachable options)
    (htop : state.frames.head? = some .base ∨
      ∃ depth, state.frames.head? = some (.untilBrace depth))
    (levels : Nat) (hroom : HasRoom levels state.frames)
    (line : List Char) (hline : NestedCode levels line) :
    ∃ after, ((elixir options).scanLine (.elixir state) line).2 = .elixir after ∧
      after.frames = state.frames := by
  have hcode := hreached.regular.frames.isCode htop
  have hreturns : Returns state.frames line state.frames :=
    ⟨levels, line, [], (List.append_nil line).symm, hroom, hline, .done⟩
  obtain ⟨after, hafter, hend⟩ := (keptByScans_returns hcode).scanLine options hreturns
  exact ⟨after, hafter, hend.frames_eq⟩

/-- The line `x {"y #{z}"}`, two braces deep in the code of a literal. -/
theorem scanLine_nestedCode_embedded :
    let line := "x \x7b\"y #\x7bz\x7d\"\x7d".toList
    let frames : List Frame := [.untilBrace 2, .quoted doubleQuoted, .base]
    NestedCode 1 line ∧ HasRoom 1 frames ∧
      ∃ state : State, state.Reachable {} ∧ state.frames = frames ∧
      ∃ after, ((elixir {}).scanLine (.elixir state) line).2 = .elixir after ∧
        after.frames = frames := by
  intro line frames
  let state : State :=
    ⟨frames, [⟨.bracket .curly, 0⟩, ⟨.root, -2⟩], 0, some (.marker (.opening .curly)), false,
      false⟩
  have hreached : state.Reachable {} :=
    ⟨["\"a #\x7b \x7b".toList], .elixir {}, by simp, by decide⟩
  have hbody : NestedBody "y #\x7bz\x7d".toList :=
    .char (by decide) (.char (by decide)
      (.embedded (by decide : 1 + 0 < UInt32.size) (.plain (.inl (by decide)) .nil) .nil))
  have hline : NestedCode 1 line :=
    .plain (.inl (by decide)) (.plain (.inr rfl) (.braces (.literal hbody .nil) .nil))
  have hroom : HasRoom 1 frames := by
    rintro _ ⟨⟩
    decide
  exact ⟨hline, hroom, state, hreached, rfl,
    scanLine_nestedCode {} state hreached (.inr ⟨2, rfl⟩) 1 hroom line hline⟩

/-! ## More braces than can be counted -/

/-- In the code of a literal, after lines that each opened a brace of it and closed a bracket
that was not open. -/
def crowded (depth : UInt32) : State :=
  ⟨[.untilBrace depth, .quoted doubleQuoted, .base], [⟨.root, -2⟩], 0,
    some (.marker (.closing .round)), false, false⟩

theorem scanLine_crowded (depth : UInt32) :
    ((elixir {}).scanLine (.elixir (crowded depth)) "\x7b)".toList).2 =
      .elixir (crowded (depth + 1)) := by
  rfl

theorem scanLines_crowded {n : Nat} (hn : 1 ≤ n) :
    ((elixir {}).scanLines (elixir {}).start
      ("\"#\x7b".toList :: List.replicate n "\x7b)".toList)).2 =
      .elixir (crowded (.ofNat (n + 1))) := by
  induction n with
  | zero => cases hn
  | succ n ih =>
      by_cases hfirst : n = 0
      · subst hfirst
        decide
      · rw [List.replicate_succ', ← List.cons_append, scanLines_append,
          ih (Nat.one_le_iff_ne_zero.mpr hfirst), UInt32.ofNat_add (n + 1)]
        exact scanLine_crowded _

/-- Where the last number is reached, a pair of braces ends the embedded code. -/
theorem scanLine_nestedCode_overflow :
    let lines := "\"#\x7b".toList :: List.replicate (UInt32.size - 2) "\x7b)".toList
    let line := "\x7b\x7d".toList
    NestedCode 1 line ∧ ∃ state : State, state.Reachable {} ∧
      ((elixir {}).scanLines (elixir {}).start lines).2 = .elixir state ∧
      state.frames = [.untilBrace 4294967295, .quoted doubleQuoted, .base] ∧
      ∃ after, ((elixir {}).scanLine (.elixir state) line).2 = .elixir after ∧
        after.frames = [.quoted doubleQuoted, .base] := by
  intro lines line
  have hrun : ((elixir {}).scanLines (elixir {}).start lines).2 =
      .elixir (crowded (.ofNat (UInt32.size - 2 + 1))) := scanLines_crowded (by decide)
  rw [show UInt32.ofNat (UInt32.size - 2 + 1) = 4294967295 by decide] at hrun
  have hreached : (crowded 4294967295).Reachable {} :=
    ⟨lines, .elixir {}, by simp, by rw [hrun]; rfl⟩
  exact ⟨.braces .nil .nil, crowded 4294967295, hreached, hrun, rfl, _, rfl, rfl⟩

end CellHighlight.Grammar
