import CellHighlight.Proofs.Bytes.Reading
import CellHighlight.Proofs.StepBounds
import CellHighlight.R.Scanner

/-!
# Steps of the R scanner in bytes

A token of R is taken off a cursor after its first character.  The closing mark of a quoted
name or of a named operator is searched for as a byte, and past an exponent's sign the cursor
is advanced by a number of bytes; both places are between characters.
-/

namespace CellHighlight.R

open Reading

/-! ## Strings -/

def readString (quote : Char) (escaped : Bool) (cursor : Cursor) :
    Except CursorError (Bool × Cursor) :=
  match hnext : cursor.nextChar with
  | .error error => .error error
  | .ok (none, after) => .ok (false, after)
  | .ok (some c, after) =>
      have := Cursor.left_nextChar_lt hnext
      if c = quote && !escaped then .ok (true, after)
      else readString quote (!escaped && c = '\\') after
termination_by cursor.left

theorem readString_eq (quote : Char) (escaped : Bool) :
    readString quote escaped = (do
      match ← nextChar with
      | none => return false
      | some c =>
          if c = quote && !escaped then return true
          else readString quote (!escaped && c = '\\') : Reading Bool) := by
  funext cursor
  rw [readString, bind_apply]
  split
  · next hnext => rw [show nextChar cursor = _ from hnext]; rfl
  · next hnext => rw [show nextChar cursor = _ from hnext]; rfl
  · next c after hnext =>
      rw [show nextChar cursor = _ from hnext, ok_bind]
      dsimp only
      split <;> rfl

theorem reads_readString (quote : Char) (escaped : Bool) (view : View) :
    Reads (readString quote escaped) view (stringLength quote escaped view.ahead).2
      (view.take (stringLength quote escaped view.ahead).1) := by
  induction htext : view.ahead generalizing view escaped with
  | nil =>
      rw [readString_eq, stringLength, View.take_zero]
      exact (reads_nextChar_nil htext).bind (reads_pure _ _)
  | cons c text ih =>
      rw [readString_eq, stringLength]
      refine (reads_nextChar htext).bind ?_
      dsimp only
      split
      · exact reads_pure _ _
      · have hloop := ih (!escaped && c = '\\') (view.take 1) (by simp [htext])
        rwa [View.take_take, Nat.add_comm 1] at hloop

/-! ## Numbers and marks -/

def takeFraction : Reading Unit := do
  if ← eat '.' then discard (eatWhile isAsciiDigit) else return ()

theorem reads_takeFraction (view : View) :
    Reads takeFraction view () (view.take
      (match view.ahead with
        | '.' :: rest => 1 + runLength isAsciiDigit rest
        | _ => 0)) := by
  split
  · next rest htext =>
      exact reads_eat_then htext (reads_eatWhile_take (by simp [htext]) isAsciiDigit).discard
  · next hdot =>
      rw [View.take_zero]
      exact reads_eat_else (headIs_eq_false_of_ne hdot) (reads_pure _ _)

def takeExponent : Reading Unit := do
  match ← peekExponent isAsciiDigit with
  | none => return ()
  | some sign =>
      advance (1 + sign)
      discard (eatWhile isAsciiDigit)

theorem byteLength_take_exponent {digit : Char → Bool} {text : List Char} {sign : Nat}
    (h : exponentSign? digit text = some sign) : byteLength (text.take (1 + sign)) = 1 + sign := by
  obtain ⟨c, rest, rfl, hmark, hsign⟩ := exponentSign?_eq_some h
  rcases hmark with rfl | rfl <;> rcases hsign with rfl | ⟨rfl, d, more, rfl, rfl | rfl⟩ <;> rfl

theorem reads_takeExponent (view : View) :
    Reads takeExponent view () (view.take (exponentLength isAsciiDigit view.ahead)) := by
  refine (reads_peekExponent isAsciiDigit view).bind ?_
  rw [exponentLength_eq]
  cases hsign : exponentSign? isAsciiDigit view.ahead with
  | none => simpa using reads_pure () view
  | some sign =>
      have hadvance := reads_advance view (1 + sign)
      rw [byteLength_take_exponent hsign] at hadvance
      exact hadvance.bind (reads_eatWhile_take rfl isAsciiDigit).discard

def takeNumber : Reading Unit := do
  let _ ← eatWhile isAsciiDigit
  takeFraction
  takeExponent
  discard (eatIf isNumberSuffix)

theorem reads_takeNumber (view : View) :
    Reads takeNumber view () (view.take (numberLength view.ahead)) := by
  refine (reads_eatWhile view isAsciiDigit).bind ?_
  refine (reads_takeFraction _).bind ((reads_takeExponent _).bind ?_)
  simp only [View.ahead_take, View.take_take]
  exact (reads_eatIf_take rfl isNumberSuffix).discard

def takeHex : Reading Unit := do
  let _ ← eatWhile isHexDigit
  discard (eatIf isNumberSuffix)

theorem reads_takeHex (view : View) :
    Reads takeHex view () (view.take (hexLength view.ahead)) :=
  (reads_eatWhile view isHexDigit).bind (reads_eatIf_take rfl isNumberSuffix).discard

def beginsNumber (c : Char) : Reading Bool := do
  if isAsciiDigit c then return true
  else if c = '.' then return (← peek).any isAsciiDigit
  else return false

theorem reads_beginsNumber (c : Char) (view : View) :
    Reads (beginsNumber c) view
      (isAsciiDigit c || (c = '.' && headIs isAsciiDigit view.ahead)) view := by
  unfold beginsNumber
  cases isAsciiDigit c with
  | true => exact reads_pure _ _
  | false =>
      by_cases hdot : c = '.'
      · subst hdot
        refine (reads_peek view).bind ?_
        rw [any_head?]
        exact reads_pure _ _
      · simpa [hdot] using reads_pure false view

def takeThrough (c : Char) : Reading Bool := do
  if ← skipToByte (UInt8.ofNat c.toNat) then
    let _ ← nextChar
    return true
  else return false

theorem reads_takeThrough {c : Char} (hc : c.toNat < 128) (view : View) :
    Reads (takeThrough c) view (lengthThrough? c view.ahead).isSome
      (view.take ((lengthThrough? c view.ahead).getD 0)) := by
  refine (reads_skipToByte view hc).bind ?_
  rw [lengthThrough?]
  split
  · next hmem =>
      obtain ⟨rest, hrest⟩ := drop_runLength_of_mem (List.contains_iff_mem.mp hmem)
      refine (reads_nextChar hrest).bind ?_
      rw [View.take_take]
      exact reads_pure _ _
  · simpa using reads_pure false view

def takeArrow (c : Char) : Reading Bool := do
  if c = '<' then
    if ← eatText ['<', '-'] then return true else eat '-'
  else if c = '-' then
    if ← eat '>' then
      let _ ← eat '>'
      return true
    else return false
  else return false

def arrowLength (c : Char) (text : List Char) : Nat :=
  if c = '<' && ['<', '-'].isPrefixOf text then 2
  else if c = '<' && headIs (· == '-') text then 1
  else if c = '-' && headIs (· == '>') text then 1 + oneIf (· == '>') (text.drop 1)
  else 0

theorem reads_takeArrow (c : Char) (view : View) :
    Reads (takeArrow c) view (arrowLength c view.ahead != 0)
      (view.take (arrowLength c view.ahead)) := by
  unfold takeArrow
  by_cases hless : c = '<'
  · subst hless
    have hboth := reads_eatText view ['<', '-']
    have hdash := reads_eat view '-'
    rw [if_pos rfl]
    refine hboth.bind ?_
    cases hbegins : ['<', '-'].isPrefixOf view.ahead with
    | true => simpa [arrowLength, hbegins] using reads_pure true (view.take 2)
    | false =>
        cases hhead : headIs (· == '-') view.ahead with
        | true => simpa [arrowLength, hbegins, hhead, oneIf_eq_one hhead] using hdash
        | false => simpa [arrowLength, hbegins, hhead, oneIf_eq_zero hhead] using hdash
  rw [if_neg hless]
  by_cases hminus : c = '-'
  · subst hminus
    have hsecond := reads_eat (view.take 1) '>'
    rw [View.ahead_take, View.take_take] at hsecond
    rw [if_pos rfl]
    refine (reads_eat view '>').bind ?_
    cases hhead : headIs (· == '>') view.ahead with
    | true =>
        have hlength : arrowLength '-' view.ahead =
            1 + oneIf (· == '>') (view.ahead.drop 1) := by
          simp [arrowLength, hhead]
        rw [if_pos rfl, oneIf_eq_one hhead, hlength,
          show (1 + oneIf (· == '>') (view.ahead.drop 1) != 0) = true by simp]
        exact hsecond.bind (reads_pure _ _)
    | false => simpa [arrowLength, hhead, oneIf_eq_zero hhead] using reads_pure false view
  · simpa [arrowLength, hless, hminus] using reads_pure false view

/-! ## Tokens -/

section Tokens

variable {view : View} {c : Char} {text : List Char}

/-- Once its first character is taken, the rest of a token is. -/
def Takes (reading : Reading Style) (view : View) (token : Nat × Style) : Prop :=
  Reads reading (view.take 1) token.2 (view.take token.1)

theorem Takes.ite {p : Prop} [Decidable p] {reading other : Reading Style}
    {token second : Nat × Style} (hpos : p → Takes reading view token)
    (hneg : ¬ p → Takes other view second) :
    Takes (if p then reading else other) view (if p then token else second) := by
  by_cases h : p
  · simpa only [if_pos h] using hpos h
  · simpa only [if_neg h] using hneg h

theorem Takes.eatWhen {asked : Bool} {p : Char → Bool} {yes no : Reading Style}
    {token second : Nat × Style} (hrest : (view.take 1).ahead = text)
    (hyes : Reads yes (view.take 2) token.2 (view.take token.1)) (hno : Takes no view second) :
    Takes (do if ← Reading.eatWhen asked p then yes else no) view
      (if asked && headIs p text then token else second) := by
  rw [← hrest]
  split
  · next hhead => exact reads_eatWhen_then hhead (by rwa [View.take_take])
  · next hhead => exact reads_eatWhen_else hhead hno

theorem Takes.arrow {no : Reading Style} {second : Nat × Style}
    (hrest : (view.take 1).ahead = text) (hno : Takes no view second) :
    Takes (do if ← takeArrow c then return .arrow else no) view
      (if c = '<' && ['<', '-'].isPrefixOf text then (3, .arrow)
        else if c = '<' && headIs (· == '-') text then (2, .arrow)
        else if c = '-' && headIs (· == '>') text then
          (2 + oneIf (· == '>') (text.drop 1), .arrow)
        else second) := by
  have harrow := reads_takeArrow c (view.take 1)
  rw [hrest, View.take_take, arrowLength] at harrow
  refine harrow.bind ?_
  split
  · exact reads_pure _ _
  split
  · exact reads_pure _ _
  split
  · rw [← Nat.add_assoc, if_pos (by simp)]
    exact reads_pure _ _
  · exact hno

def readName : Reading Style := do
  let _ ← eatWhile isNameChar
  return wordStyle (← current)

def readCode (c : Char) : Reading Style := do
  if c = '#' then
    skipToEnd
    return .comment
  else if c = '\x60' then
    if ← takeThrough '\x60' then return .identifier
    else
      skipToEnd
      return .identifier
  else if ← eatWhen (c = '0') (fun c => c == 'x' || c == 'X') then
    takeHex
    return .number
  else if ← beginsNumber c then
    takeNumber
    return .number
  else if c = '%' then
    discard (takeThrough '%')
    return .operator
  else if c = '$' || c = '@' then
    if ← eatWhile isNameChar then return .property else return .operator
  else if ← takeArrow c then return .arrow
  else if isLetter c || c = '.' then readName
  else if isOperatorChar c then
    discard (eatWhile isOperatorChar)
    return .operator
  else return .plain

theorem takes_readName (htext : view.ahead = c :: text) :
    let name := runLength isNameChar text
    Takes readName view (1 + name, wordStyle (view.taken ++ c :: text.take name)) := by
  intro name
  have hname : (view.take (1 + name)).taken = view.taken ++ c :: text.take name := by
    simp [htext, Nat.add_comm 1]
  have hrest : view.ahead.drop 1 = text := by simp [htext]
  refine (reads_eatWhile_take hrest isNameChar).bind ((reads_current _).bind ?_)
  rw [hname]
  exact reads_pure _ _

theorem takes_readCode (htext : view.ahead = c :: text) :
    Takes (readCode c) view (codeToken view.taken c text) := by
  have hrest : (view.take 1).ahead = text := by simp [htext]
  have hend : Reads skipToEnd (view.take 1) () (view.take (1 + text.length)) := by
    have hskip := reads_skipToEnd (view.take 1)
    rwa [hrest, View.take_take] at hskip
  have hthrough {d : Char} (hd : d.toNat < 128) :
      Reads (takeThrough d) (view.take 1) (lengthThrough? d text).isSome
        (view.take (1 + (lengthThrough? d text).getD 0)) := by
    have htake := reads_takeThrough hd (view.take 1)
    rwa [hrest, View.take_take] at htake
  have hwhile (p : Char → Bool) : Reads (eatWhile p) (view.take 1) (runLength p text != 0)
      (view.take (1 + runLength p text)) :=
    reads_eatWhile_take hrest p
  unfold readCode codeToken
  refine Takes.ite (fun _ => ?_) fun _ => Takes.ite (fun _ => ?_) fun _ => ?_
  · exact hend.bind (reads_pure _ _)
  · refine (hthrough (by decide)).bind ?_
    cases lengthThrough? '\x60' text with
    | none => exact hend.bind (reads_pure _ _)
    | some length => exact reads_pure _ _
  refine Takes.eatWhen hrest ?_ ?_
  · have htake := reads_takeHex (view.take 2)
    have hdigits : (view.take 2).ahead = text.drop 1 := by simp [htext]
    rw [hdigits, View.take_take] at htake
    exact htake.bind (reads_pure _ _)
  refine (reads_beginsNumber c (view.take 1)).bind ?_
  rw [hrest]
  refine Takes.ite (fun _ => ?_) fun _ => Takes.ite (fun _ => ?_) fun _ =>
    Takes.ite (fun _ => ?_) fun _ => Takes.arrow hrest ?_
  · have htake := reads_takeNumber (view.take 1)
    rw [hrest, View.take_take] at htake
    exact htake.bind (reads_pure _ _)
  · exact (hthrough (by decide)).discard.bind (reads_pure _ _)
  · refine (hwhile isNameChar).bind ?_
    cases runLength isNameChar text <;> exact reads_pure _ _
  refine Takes.ite (fun _ => takes_readName htext) fun _ => Takes.ite (fun _ => ?_) fun _ => ?_
  · exact (hwhile isOperatorChar).discard.bind (reads_pure _ _)
  · exact reads_pure _ _

end Tokens

/-! ## Steps -/

def readStringStep (quote : Char) : Reading (Style × State) := do
  let closed ← readString quote false
  return (.string, ⟨if closed then none else some quote⟩)

theorem reads_readStringStep (quote : Char) (view : View) (opening : Nat) :
    let step := stringStep opening quote (view.ahead.drop opening)
    Reads (readStringStep quote) (view.take opening) (step.style, step.state)
      (view.take step.length) := by
  have hread := reads_readString quote false (view.take opening)
  rw [View.ahead_take, View.take_take] at hread
  exact hread.bind (reads_pure _ _)

def readStep (state : State) : Reading (Style × State) := do
  match state.openQuote with
  | some quote => readStringStep quote
  | none =>
      if ← eatBlanks then return (.plain, state)
      else
        match ← nextChar with
        | none => return (.plain, state)
        | some c =>
            if c = '\'' || c = '"' then readStringStep c
            else return (← readCode c, state)

theorem reads_readStep (view : View) (state : State) :
    let step := step view state
    Reads (readStep state) view (step.style, step.state) (view.take step.length) := by
  intro step
  have hblanks := reads_eatBlanks view
  unfold readStep
  cases hquote : state.openQuote with
  | some quote =>
      have hstep : step = stringStep 0 quote view.ahead := by simp only [step, R.step, hquote]
      simpa [hstep] using reads_readStringStep quote view 0
  | none =>
      refine hblanks.bind ?_
      rw [runLength_bne_zero]
      cases htext : view.ahead with
      | nil =>
          have hstep : step = ⟨0, .plain, state⟩ := by simp only [step, R.step, hquote, htext]
          rw [hstep, runLength_nil, View.take_zero]
          exact (reads_nextChar_nil htext).bind (reads_pure _ _)
      | cons c text =>
          have hstep : step =
              if isBlank c then ⟨1 + runLength isBlank text, .plain, state⟩
              else if c = '\'' || c = '"' then stringStep 1 c text
              else
                let token := codeToken view.taken c text
                ⟨token.1, token.2, state⟩ := by
            simp only [step, R.step, hquote, htext]
          rw [hstep, headIs, runLength_cons]
          split
          · exact reads_pure _ _
          rw [View.take_zero]
          refine (reads_nextChar htext).bind ?_
          dsimp only
          split
          · simpa [htext] using reads_readStringStep c view 1
          · exact (takes_readCode htext).bind (reads_pure _ _)

end CellHighlight.R
