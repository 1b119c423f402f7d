import CellHighlight.Proofs.Bytes.Literals

/-!
# Tokens of Elixir code in bytes

The other tokens of code, taken off a cursor by looking at characters before they are taken,
and from them the token at any place of a line that is code.
-/

namespace CellHighlight.Elixir

open Reading

/-! ## Numbers, characters and names -/

def takeRadix : Reading Unit := do
  if ← eat 'x' then discard (eatWhile isHexDigit)
  else if ← eat 'b' then discard (eatWhile isBinaryDigit)
  else discard (eatWhile isOctalDigit)

theorem reads_takeRadix (view : View) :
    Reads takeRadix view () (view.take (radixLength view.ahead)) := by
  unfold radixLength
  split
  · next text htext =>
      have hrest : view.ahead.drop 1 = text := by simp [htext]
      exact (reads_eat_cons htext).bind (reads_eatWhile_take hrest isHexDigit).discard
  · next text htext =>
      have hrest : view.ahead.drop 1 = text := by simp [htext]
      refine (reads_eat_of_not (by rw [htext]; rfl)).bind ?_
      exact (reads_eat_cons htext).bind (reads_eatWhile_take hrest isBinaryDigit).discard
  · next hx hb =>
      refine (reads_eat_of_not (headIs_eq_false_of_ne hx)).bind ?_
      refine (reads_eat_of_not (headIs_eq_false_of_ne hb)).bind ?_
      exact (reads_eatWhile view isOctalDigit).discard

def takeFraction : Reading Unit := do
  if (← peek) == some '.' then
    if (← peekNth 1).any isDecimalDigit then
      let _ ← nextChar
      discard (eatWhile isDecimalDigit)
    else return ()
  else return ()

theorem reads_takeFraction (view : View) :
    Reads takeFraction view () (view.take (fractionLength view.ahead)) := by
  refine (reads_peek view).bind ?_
  unfold fractionLength
  split
  · next hdot =>
      obtain ⟨text, htext⟩ := List.head?_eq_some_iff.mp (beq_iff_eq.mp hdot)
      refine (reads_peekNth view 1).bind ?_
      rw [← List.head?_drop, any_head?, htext]
      have hdrop : view.ahead.drop 1 = text := by simp [htext]
      cases hdigit : headIs isDecimalDigit text with
      | false => simpa [hdigit, runLength_eq_zero hdigit] using reads_pure _ _
      | true =>
          have hdigits : runLength isDecimalDigit text ≠ 0 := by
            rw [← bne_iff_ne, runLength_bne_zero, hdigit]
          simp only [List.drop_succ_cons, List.drop_zero, hdigit, if_true, if_neg hdigits]
          exact (reads_nextChar htext).bind (reads_eatWhile_take hdrop isDecimalDigit).discard
  · next hdot =>
      split
      · next text htext =>
          rw [htext] at hdot
          exact absurd rfl hdot
      · rw [View.take_zero]
        exact reads_pure _ _

def takeExponent : Reading Unit := do
  match ← peekExponent isDecimalDigit with
  | none => return ()
  | some sign =>
      let _ ← nextChar
      let _ ← eatWhen (sign == 1) fun _ => true
      discard (eatWhile isDecimalDigit)

theorem reads_takeExponent (view : View) :
    Reads takeExponent view () (view.take (exponentLength isDecimalDigit view.ahead)) := by
  refine (reads_peekExponent isDecimalDigit view).bind ?_
  rw [exponentLength_eq]
  cases hsign : exponentSign? isDecimalDigit view.ahead with
  | none => simpa using reads_pure () view
  | some sign =>
      obtain ⟨c, rest, htext, -, hsigned⟩ := exponentSign?_eq_some hsign
      have hpast : Reads (eatWhen (sign == 1) fun _ => true) (view.take 1) (sign == 1)
          (view.take (1 + sign)) := by
        have heat := reads_eatWhen (view.take 1) (sign == 1) fun _ => true
        rw [View.ahead_take, View.take_take, htext] at heat
        rcases hsigned with rfl | ⟨rfl, d, more, rfl, -⟩
        · exact heat
        · exact heat
      refine (reads_nextChar htext).bind (hpast.bind ?_)
      exact (reads_eatWhile_take rfl isDecimalDigit).discard

def takeDecimal : Reading Unit := do
  let _ ← eatWhile isDecimalDigit
  takeFraction
  takeExponent

theorem reads_takeDecimal (view : View) :
    Reads takeDecimal view () (view.take (decimalLength view.ahead)) := by
  have hfraction := reads_takeFraction (view.take (runLength isDecimalDigit view.ahead))
  rw [View.ahead_take, View.take_take] at hfraction
  refine (reads_eatWhile view isDecimalDigit).bind (hfraction.bind ?_)
  have hexponent := reads_takeExponent (view.take (runLength isDecimalDigit view.ahead +
    fractionLength (view.ahead.drop (runLength isDecimalDigit view.ahead))))
  rwa [View.ahead_take, View.take_take] at hexponent

def takeMark : Reading Bool := do
  if ← eatText ['\\', 'C', '-'] then return true else eatText ['\\', 'M', '-']

theorem left_takeMark_lt {cursor after : Cursor} (h : takeMark cursor = .ok (true, after)) :
    after.left < cursor.left := by
  obtain ⟨control, moved, hcontrol, hmeta⟩ := exists_of_run_bind h
  have hmoved := Cursor.eatText_cases hcontrol
  have hbytes : byteLength ['\\', 'C', '-'] = 3 ∧ byteLength ['\\', 'M', '-'] = 3 := by decide
  cases control with
  | true =>
      cases hmeta
      simp only [hbytes, if_true] at hmoved
      omega
  | false =>
      obtain rfl : moved = cursor := hmoved
      have hafter := Cursor.eatText_cases hmeta
      simp only [hbytes, if_true] at hafter
      omega

def takeEscape : Reading Unit := do
  if ← eat '\\' then discard (eatWhile isWordChar) else discard nextChar

def takeCharacter (cursor : Cursor) : Except CursorError (Unit × Cursor) :=
  match hmark : takeMark cursor with
  | .error error => .error error
  | .ok (true, after) =>
      have := left_takeMark_lt hmark
      takeCharacter after
  | .ok (false, after) => takeEscape after
termination_by cursor.left

theorem takeCharacter_eq :
    takeCharacter = (do if ← takeMark then takeCharacter else takeEscape : Reading Unit) := by
  funext cursor
  rw [takeCharacter, bind_apply]
  split
  · next hmark =>
      rw [hmark]
      rfl
  · next hmark =>
      dsimp only
      rw [hmark]
      rfl
  · next hmark =>
      rw [hmark]
      rfl

theorem reads_takeCharacter_of_mark {view later after : View}
    (hmark : Reads takeMark view true later) (hrest : Reads takeCharacter later () after) :
    Reads takeCharacter view () after := by
  rw [takeCharacter_eq]
  exact hmark.bind hrest

theorem reads_takeCharacter_of_not {view after : View}
    (hcontrol : ¬ ['\\', 'C', '-'] <+: view.ahead) (hmeta : ¬ ['\\', 'M', '-'] <+: view.ahead)
    (hrest : Reads takeEscape view () after) : Reads takeCharacter view () after := by
  rw [← List.isPrefixOf_iff_prefix, Bool.not_eq_true] at hcontrol hmeta
  rw [takeCharacter_eq]
  exact Reads.bind ((reads_eatText_of_not hcontrol).bind (reads_eatText_of_not hmeta)) hrest

theorem reads_takeCharacter {text : List Char} (view : View) (htext : view.ahead = text) :
    Reads takeCharacter view () (view.take (characterLength text)) := by
  fun_induction characterLength text generalizing view with
  | case1 text ih =>
      have hcontrol : Reads (eatText ['\\', 'C', '-']) view true (view.take 3) :=
        reads_eatText_append htext
      have hrest := ih (view.take 3) (by simp [htext])
      rw [View.take_take] at hrest
      exact reads_takeCharacter_of_mark (hcontrol.bind (reads_pure _ _)) hrest
  | case2 text ih =>
      have hcontrol : Reads (eatText ['\\', 'C', '-']) view false view :=
        reads_eatText_of_not (by rw [htext]; rfl)
      have hmeta : Reads (eatText ['\\', 'M', '-']) view true (view.take 3) :=
        reads_eatText_append htext
      have hrest := ih (view.take 3) (by simp [htext])
      rw [View.take_take] at hrest
      exact reads_takeCharacter_of_mark (hcontrol.bind hmeta) hrest
  | case3 text hcontrol hmeta =>
      have hdrop : view.ahead.drop 1 = text := by simp [htext]
      apply reads_takeCharacter_of_not
      · rw [htext]
        rintro ⟨rest, heq⟩
        exact hcontrol rest (List.cons.inj heq).2.symm
      · rw [htext]
        rintro ⟨rest, heq⟩
        exact hmeta rest (List.cons.inj heq).2.symm
      · exact (reads_eat_cons htext).bind (reads_eatWhile_take hdrop isWordChar).discard
  | case4 c text _ _ hc =>
      have hhead : headIs (· == '\\') view.ahead = false := by
        rw [htext, headIs, beq_eq_false_iff_ne]
        exact hc
      apply reads_takeCharacter_of_not
      · rw [htext]
        rintro ⟨rest, heq⟩
        exact hc (List.cons.inj heq).1.symm
      · rw [htext]
        rintro ⟨rest, heq⟩
        exact hc (List.cons.inj heq).1.symm
      · exact (reads_eat_of_not hhead).bind (reads_nextChar htext).discard
  | case5 =>
      rw [View.take_zero]
      apply reads_takeCharacter_of_not
      · simp [htext]
      · simp [htext]
      · exact (reads_eat_of_not (by rw [htext]; rfl)).bind (reads_nextChar_nil htext).discard

def readColon : Reading Found := do
  if ← eat '\'' then readQuoted ⟨'\'', .atom, false, false, false⟩
  else if ← eat '"' then readQuoted ⟨'"', .atom, true, false, false⟩
  else if (← eatIf isAngle).isSome then
    let _ ← eatIf isAngle
    return .styled .atom
  else if (← eatIf "+-*/&|:!".toList.contains).isSome then return .styled .atom
  else if (← eatIf isAtomStart).isSome then
    let _ ← eatWhile fun c => isNameChar c || c == '$'
    let _ ← eatIf fun c => c == '?' || c == '!' || c == '='
    return .styled .atom
  else return .styled .operator

theorem takes_readColon (view : View) :
    Takes readColon view 1 (colonLexeme (view.ahead.drop 1)) := by
  cases htext : view.ahead.drop 1 with
  | nil =>
      have hnot (p : Char → Bool) : headIs p (view.take 1).ahead = false := by
        rw [View.ahead_take, htext]
        rfl
      refine reads_eat_else (hnot _) (reads_eat_else (hnot _) ?_)
      refine reads_eatIf_else (hnot _) (reads_eatIf_else (hnot _) ?_)
      exact reads_eatIf_else (hnot _) (reads_pure _ _)
  | cons c rest =>
      have hrest : view.ahead.drop 2 = rest := by
        rw [show 2 = 1 + 1 from rfl, ← List.drop_drop, htext]
        rfl
      have hquoted (quoted : Quoted) (h : quoted.afterBrace = false) :
          Takes (readQuoted quoted) view 2 (quotedLexeme 2 quoted rest) :=
        hrest ▸ takes_readQuoted h view 2
      refine Takes.eat htext (fun _ => hquoted _ rfl) ?_
      refine Takes.eat htext (fun _ => hquoted _ rfl) ?_
      refine Takes.eatIf htext (fun _ => ?_) ?_
      · exact (reads_eatIf_take hrest isAngle).bind (reads_pure _ _)
      refine Takes.eatIf htext (fun _ => reads_pure _ _) ?_
      refine Takes.eatIf htext (fun _ => ?_) (reads_pure _ _)
      refine (reads_eatWhile_take hrest _).bind ?_
      exact (reads_eatIf_take (by rw [← hrest, List.drop_drop]) _).bind (reads_pure _ _)

def readAttribute? : Reading (Option Found) := do
  let text ← rest
  if headIs isNameStart (text.drop (oneIf (· == '@') text)) then
    let _ ← eat '@'
    let _ ← eatWhile isNameChar
    return some (.styled .moduleAttribute)
  else return none

theorem takes?_readAttribute? (view : View) :
    Takes? readAttribute? view 1 (attributeLexeme? (view.ahead.drop 1)) := by
  refine (reads_rest (view.take 1)).bind ?_
  rw [View.ahead_take, attributeLexeme?]
  split
  · refine (reads_eat (view.take 1) '@').bind ?_
    rw [View.ahead_take, View.take_take]
    exact (reads_eatWhile_take (by rw [List.drop_drop]) isNameChar).bind (reads_pure _ _)
  · exact reads_pure _ _

def takeGlobal : Reading Unit := do
  if (← eatIf fun c => isAsciiLetter c || c == '_').isSome then discard (eatWhile isWordChar)
  else if (← eatIf isAsciiDigit).isSome then discard (eatIf isAsciiDigit)
  else discard nextChar

theorem reads_takeGlobal (view : View) :
    Reads takeGlobal view () (view.take (globalLength view.ahead)) := by
  cases htext : view.ahead with
  | nil =>
      have hnot (p : Char → Bool) : headIs p view.ahead = false := by
        rw [htext]
        rfl
      rw [globalLength, View.take_zero]
      refine reads_eatIf_else (hnot _) (reads_eatIf_else (hnot _) ?_)
      exact (reads_nextChar_nil htext).discard
  | cons c text =>
      have hdrop : view.ahead.drop 1 = text := by simp [htext]
      have hnot {p : Char → Bool} (hc : ¬ p c = true) : headIs p view.ahead = false := by
        rw [htext]
        exact Bool.eq_false_iff.mpr hc
      rw [globalLength]
      split
      · next hc => exact reads_eatIf_then htext hc (reads_eatWhile_take hdrop isWordChar).discard
      next hletter =>
      refine reads_eatIf_else (hnot hletter) ?_
      split
      · next hc => exact reads_eatIf_then htext hc (reads_eatIf_take hdrop isAsciiDigit).discard
      · next hdigit => exact reads_eatIf_else (hnot hdigit) (reads_nextChar htext).discard

def readName : Reading Found := do
  let _ ← eatWhile isNameChar
  let _ ← eatIf fun c => c == '?' || c == '!'
  if ← eat ':' then return .styled .atom else return ⟨.word, none, []⟩

theorem takes_readName (view : View) :
    Takes readName view 1 (nameLexeme (view.ahead.drop 1)) := by
  refine (reads_eatWhile_take rfl isNameChar).bind ?_
  refine (reads_eatIf_take (by rw [← List.drop_drop]) fun c => c == '?' || c == '!').bind ?_
  rw [nameLexeme]
  generalize runLength isNameChar (view.ahead.drop 1) = body
  generalize oneIf (fun c => c == '?' || c == '!') _ = mark
  have heat := reads_eat (view.take (1 + body + mark)) ':'
  rw [View.ahead_take, View.take_take, Nat.add_assoc 1, ← List.drop_drop] at heat
  rw [Nat.add_assoc 1]
  refine heat.bind ?_
  split
  · next hcolon =>
      have hlength : 1 + (body + mark) + 1 = 2 + body + mark := by omega
      rw [oneIf_eq_one hcolon, hlength]
      exact reads_pure _ _
  · next hcolon =>
      rw [oneIf_eq_zero (Bool.eq_false_iff.mpr hcolon), Nat.add_assoc 1]
      exact reads_pure _ _

/-! ## The token at the beginning of a text -/

def readLiteral? (c : Char) : Reading (Option Found) := do
  if c = '\'' then some <$> readQuoted ⟨'\'', .string, false, false, false⟩
  else if c = '"' then some <$> readQuoted ⟨'"', .interpolated, true, false, false⟩
  else if c = '/' then some <$> readSlash
  else if c = '%' then some <$> readPercent
  else if c = '~' then readSigil?
  else if c = '#' then (fun _ => some (.styled .comment)) <$> skipToEnd
  else if c = '<' then readHeredoc?
  else if c = '0' then (fun _ => some (.styled .number)) <$> takeRadix
  else if isAsciiDigit c then (fun _ => some (.styled .number)) <$> takeDecimal
  else if c = '?' then (fun _ => some (.styled .string)) <$> takeCharacter
  else if c = ':' then some <$> readColon
  else if c = '@' then readAttribute?
  else if c = '$' then (fun _ => some (.styled .globalVariable)) <$> takeGlobal
  else return none

theorem takes?_styled {reading : Reading Unit} {length : Nat} {view : View}
    (h : Reads reading (view.take 1) () ((view.take 1).take length)) (style : Style) :
    Takes? ((fun _ => some (.styled style)) <$> reading) view 1
      (some ⟨1 + length, .styled style, none, []⟩) := by
  rw [View.take_take] at h
  exact h.map _

theorem takes?_readLiteral? (view : View) (c : Char) :
    Takes? (readLiteral? c) view 1 (literalLexeme? c (view.ahead.drop 1)) := by
  refine Takes?.ite (fun _ => (takes_readQuoted rfl view 1).some) fun _ => ?_
  refine Takes?.ite (fun _ => (takes_readQuoted rfl view 1).some) fun _ => ?_
  refine Takes?.ite (fun _ => (takes_readSlash view).some) fun _ => ?_
  refine Takes?.ite (fun _ => (takes_readPercent view).some) fun _ => ?_
  refine Takes?.ite (fun _ => takes?_readSigil? view) fun _ => ?_
  refine Takes?.ite (fun _ => takes?_styled (reads_skipToEnd _) _) fun _ => ?_
  refine Takes?.ite (fun _ => takes?_readHeredoc? view) fun _ => ?_
  refine Takes?.ite (fun _ => takes?_styled (reads_takeRadix _) _) fun _ => ?_
  refine Takes?.ite (fun _ => takes?_styled (reads_takeDecimal _) _) fun _ => ?_
  refine Takes?.ite (fun _ => takes?_styled (reads_takeCharacter _ rfl) _) fun _ => ?_
  refine Takes?.ite (fun _ => (takes_readColon view).some) fun _ => ?_
  refine Takes?.ite (fun _ => takes?_readAttribute? view) fun _ => ?_
  exact Takes?.ite (fun _ => takes?_styled (reads_takeGlobal _) _) fun _ => reads_pure _ _

def readOperator (c : Char) : Reading Found := do
  let run ← eatWhile isOperatorTail
  if c = '.' && !run then return ⟨.styled .punctuation, some .dot, []⟩
  else return .styled .operator

theorem takes_readOperator (view : View) (c : Char) :
    Takes (readOperator c) view 1 (operatorLexeme c (view.ahead.drop 1)) := by
  refine (reads_eatWhile_take rfl isOperatorTail).bind ?_
  rw [operatorLexeme, bne, Bool.not_not]
  split
  · next hdot =>
      rw [beq_iff_eq.mp (Bool.and_eq_true_iff.mp hdot).2]
      exact reads_pure _ _
  · exact reads_pure _ _

def readSymbol (barIsMarker : Bool) (c : Char) : Reading Found := do
  if isNameStart c then readName
  else if c = '|' && barIsMarker then return ⟨.styled .plain, some .bar, []⟩
  else
    match Marker.ofChar? c with
    | some marker => return ⟨.styled .plain, some marker, []⟩
    | none =>
        if ← eatWhen (c = '-') (· == '>') then return .styled .arrow
        else if ← eatWhen (c = '|') (· == '>') then return .styled .pipe
        else if isOperatorChar c then readOperator c
        else return .styled .plain

theorem takes_readSymbol (view : View) (barIsMarker : Bool) (c : Char) :
    Takes (readSymbol barIsMarker c) view 1 (symbolLexeme barIsMarker c (view.ahead.drop 1)) := by
  unfold readSymbol symbolLexeme
  split
  · exact takes_readName view
  split
  · exact reads_pure _ _
  cases Marker.ofChar? c with
  | some marker => exact reads_pure _ _
  | none =>
      refine Takes.eatWhen (reads_pure _ _) (Takes.eatWhen (reads_pure _ _) ?_)
      split
      · exact takes_readOperator view c
      · exact reads_pure _ _

def atTripleQuote : Reading Bool := do
  if ← atLineStart then return (← rest) == tripleQuote else return false

theorem reads_atTripleQuote (view : View) :
    Reads atTripleQuote view (view.atLineStart && view.ahead == tripleQuote) view := by
  refine (reads_atLineStart view).bind ?_
  cases view.atLineStart with
  | false => exact reads_pure _ _
  | true => exact (reads_rest view).bind (reads_pure _ _)

def readCode (barIsMarker : Bool) : Reading Found := do
  if ← atTripleQuote then
    skipToEnd
    return ⟨.styled .comment, none, [.blockComment]⟩
  else if ← eatBlanks then return .styled .plain
  else
    match ← nextChar with
    | none => return .styled .plain
    | some c =>
        match ← readLiteral? c with
        | some found => return found
        | none => readSymbol barIsMarker c

theorem takes_readCode (view : View) (barIsMarker : Bool) :
    Takes (readCode barIsMarker) view 0
      (codeLexeme view.atLineStart barIsMarker view.ahead) := by
  rw [Takes, View.take_zero]
  refine (reads_atTripleQuote view).bind ?_
  cases htext : view.ahead with
  | nil =>
      have hquote : (view.atLineStart && [] == tripleQuote) = false := Bool.and_false _
      have hblanks := reads_eatBlanks view
      rw [htext, runLength_nil, View.take_zero] at hblanks
      rw [hquote, codeLexeme, View.take_zero]
      exact hblanks.bind ((reads_nextChar_nil htext).bind (reads_pure _ _))
  | cons c text =>
      rw [codeLexeme]
      split
      · next hquote =>
          refine (reads_skipToEnd view).bind ?_
          rw [htext, beq_iff_eq.mp (Bool.and_eq_true_iff.mp hquote).2]
          exact reads_pure _ _
      refine (reads_eatBlanks view).bind ?_
      rw [runLength_bne_zero, htext, runLength_cons, headIs]
      split
      · exact reads_pure _ _
      have hdrop : view.ahead.drop 1 = text := by simp [htext]
      have hliteral := takes?_readLiteral? view c
      have hsymbol := takes_readSymbol view barIsMarker c
      rw [hdrop] at hliteral hsymbol
      rw [View.take_zero]
      refine (reads_nextChar htext).bind (hliteral.bind ?_)
      cases literalLexeme? c text with
      | none => exact hsymbol
      | some lexeme => exact reads_pure _ _

end CellHighlight.Elixir
