import CellHighlight.Proofs.Bytes.Heredocs
import CellHighlight.Proofs.Literals.Slashes

/-!
# Literals in bytes

Literals as they are taken off a cursor, one move after another: the body character by
character, a regular expression after a look for its closing byte, and a heredoc after an
opening that is skipped by its length in bytes.  At the cursor of a view no move fails, and
as much is taken as the measures in characters tell.
-/

namespace CellHighlight.Elixir

open Reading

/-- A token without its length, which the cursor tells, and the frames that it opens. -/
structure Found where
  kind : LexemeKind
  marker : Option Marker := none
  frames : List Frame := []

def Found.styled (style : Style) : Found := ⟨.styled style, none, []⟩

def Lexeme.found (lexeme : Lexeme) : Found := ⟨lexeme.kind, lexeme.marker, lexeme.pushed⟩

/-- After `taken` characters of a view the reading takes the rest of the token. -/
def Takes (reading : Reading Found) (view : View) (taken : Nat) (lexeme : Lexeme) : Prop :=
  Reads reading (view.take taken) lexeme.found (view.take lexeme.length)

def Takes? (reading : Reading (Option Found)) (view : View) (taken : Nat)
    (lexeme? : Option Lexeme) : Prop :=
  Reads reading (view.take taken) (lexeme?.map Lexeme.found)
    (view.take ((lexeme?.map Lexeme.length).getD taken))

variable {view : View} {taken : Nat}

theorem Takes.some {reading : Reading Found} {lexeme : Lexeme}
    (h : Takes reading view taken lexeme) :
    Takes? (some <$> reading) view taken (some lexeme) :=
  Reads.map _ h

section Choices

variable {c : Char} {text : List Char} {yes no : Reading Found} {first second : Lexeme}
  (htext : view.ahead.drop taken = c :: text)

include htext

theorem Takes.eatIf {p : Char → Bool} (hyes : p c = true → Takes yes view (taken + 1) first)
    (hno : Takes no view taken second) :
    Takes (do if (← Reading.eatIf p).isSome then yes else no) view taken
      (if p c then first else second) := by
  split
  · next hc =>
      refine reads_eatIf_then htext hc ?_
      rw [View.take_take]
      exact hyes hc
  · next hc =>
      refine reads_eatIf_else ?_ hno
      rw [View.ahead_take, htext]
      exact Bool.eq_false_iff.mpr hc

theorem Takes.eat {d : Char} (hyes : c = d → Takes yes view (taken + 1) first)
    (hno : Takes no view taken second) :
    Takes (do if ← Reading.eat d then yes else no) view taken
      (if c = d then first else second) := by
  split
  · next hc =>
      subst hc
      refine reads_eat_then htext ?_
      rw [View.take_take]
      exact hyes rfl
  · next hc =>
      refine reads_eat_else ?_ hno
      rw [View.ahead_take, htext]
      exact beq_eq_false_iff_ne.mpr hc

end Choices

theorem Takes.eatWhen {yes no : Reading Found} {first second : Lexeme} {asked : Bool}
    {p : Char → Bool} (hyes : Takes yes view (taken + 1) first)
    (hno : Takes no view taken second) :
    Takes (do if ← Reading.eatWhen asked p then yes else no) view taken
      (if asked && headIs p (view.ahead.drop taken) then first else second) := by
  split
  · next hhead =>
      refine reads_eatWhen_then hhead ?_
      rw [View.take_take]
      exact hyes
  · next hhead => exact reads_eatWhen_else hhead hno

theorem Takes?.ite {p : Prop} [Decidable p] {reading other : Reading (Option Found)}
    {lexeme? other? : Option Lexeme} (hpos : p → Takes? reading view taken lexeme?)
    (hneg : ¬ p → Takes? other view taken other?) :
    Takes? (if p then reading else other) view taken (if p then lexeme? else other?) := by
  by_cases h : p
  · simpa only [if_pos h] using hpos h
  · simpa only [if_neg h] using hneg h

/-! ## Bodies of literals -/

def embedded : Reading (Option BodyEnd) := do
  if ← eat '{' then return some .code
  else if (← peek).any fun c => c == '@' || c == '$' then return some .variable
  else return none

theorem eq_of_embedded {cursor after : Cursor} (h : embedded cursor = .ok (none, after)) :
    after = cursor := by
  obtain ⟨opened, moved, heat, h⟩ := exists_of_run_bind h
  cases opened with
  | true => cases h
  | false =>
      obtain ⟨next, peeked, hpeek, h⟩ := exists_of_run_bind h
      rw [← Cursor.eq_of_eat heat, ← eq_of_look hpeek]
      split at h
      · cases h
      · cases h
        rfl

def readBody (quoted : Quoted) (escaped : Bool) (cursor : Cursor) :
    Except CursorError (BodyEnd × Cursor) :=
  match hnext : cursor.nextChar with
  | .error error => .error error
  | .ok (none, after) => .ok (.lineEnd, after)
  | .ok (some c, after) =>
      have := Cursor.left_nextChar_lt hnext
      if c = quoted.delimiter && (quoted.raw || !escaped) then .ok (.closed, after)
      else if quoted.interpolates && c = '#' && !escaped then
        match hembedded : embedded after with
        | .error error => .error error
        | .ok (some stop, later) => .ok (stop, later)
        | .ok (none, later) =>
            have : later.left < cursor.left := eq_of_embedded hembedded ▸ this
            readBody quoted (!escaped && c = '\\') later
      else readBody quoted (!escaped && c = '\\') after
termination_by cursor.left

theorem reads_embedded (view : View) :
    Reads embedded view
      (if headIs (· == '{') view.ahead then some .code
        else if headIs (fun c => c == '@' || c == '$') view.ahead then some .variable
        else none)
      (view.take (oneIf (· == '{') view.ahead)) := by
  refine (reads_eat view '{').bind ?_
  cases hbrace : headIs (· == '{') view.ahead with
  | true => exact reads_pure _ _
  | false =>
      simp only [oneIf_eq_zero hbrace, View.take_zero, Bool.false_eq_true, if_false]
      refine (reads_peek view).bind ?_
      rw [any_head?]
      split <;> exact reads_pure _ _

theorem readBody_eq (quoted : Quoted) (escaped : Bool) :
    readBody quoted escaped = (do
      match ← nextChar with
      | none => return .lineEnd
      | some c =>
          if c = quoted.delimiter && (quoted.raw || !escaped) then return .closed
          else if quoted.interpolates && c = '#' && !escaped then
            match ← embedded with
            | some stop => return stop
            | none => readBody quoted (!escaped && c = '\\')
          else readBody quoted (!escaped && c = '\\') : Reading BodyEnd) := by
  funext cursor
  rw [readBody, bind_apply]
  split
  · next hnext => rw [show nextChar cursor = _ from hnext]; rfl
  · next hnext => rw [show nextChar cursor = _ from hnext]; rfl
  · next c after hnext =>
      rw [show nextChar cursor = _ from hnext, ok_bind]
      dsimp only
      split
      · rfl
      split
      · rw [bind_apply]
        split
        · next hembedded => rw [hembedded]; rfl
        · next hembedded => rw [hembedded]; rfl
        · next hembedded => rw [hembedded]; rfl
      · rfl

theorem reads_readBody (quoted : Quoted) (escaped : Bool) (view : View) :
    Reads (readBody quoted escaped) view (quoted.scanBody escaped view.ahead).2
      (view.take (quoted.scanBody escaped view.ahead).1) := by
  induction htext : view.ahead generalizing view escaped with
  | nil =>
      rw [readBody_eq, Quoted.scanBody, View.take_zero]
      exact (reads_nextChar_nil htext).bind (reads_pure _ _)
  | cons c text ih =>
      have hrest : (view.take 1).ahead = text := by simp [htext]
      rw [readBody_eq, Quoted.scanBody]
      refine (reads_nextChar htext).bind ?_
      -- The loop goes on with the text after `c`, one character further.
      have hmore : Reads (readBody quoted (!escaped && c = '\\')) (view.take 1)
          (quoted.scanBody (!escaped && c = '\\') text).2
          (view.take ((quoted.scanBody (!escaped && c = '\\') text).1 + 1)) := by
        have hloop := ih (!escaped && c = '\\') (view.take 1) hrest
        rwa [View.take_take, Nat.add_comm 1] at hloop
      dsimp only
      split
      · exact reads_pure _ _
      split
      · next hhash =>
          refine (reads_embedded (view.take 1)).bind ?_
          rw [hrest]
          simp only [hhash, Bool.true_and]
          cases hbrace : headIs (· == '{') text with
          | true =>
              rw [if_pos rfl, if_pos rfl, oneIf_eq_one hbrace, View.take_take]
              exact reads_pure _ _
          | false =>
              rw [oneIf_eq_zero hbrace, View.take_zero]
              cases headIs (fun c => c == '@' || c == '$') text with
              | true => exact reads_pure _ _
              | false => exact hmore
      · next hhash =>
          simp only [hhash, Bool.false_and]
          exact hmore

def readQuoted (quoted : Quoted) : Reading Found := do
  let _ ← eatWhen quoted.afterBrace (· == '}')
  let quoted := { quoted with afterBrace := false }
  let stop ← readBody quoted false
  return ⟨.styled quoted.style, none, quoted.framesAfter stop⟩

theorem reads_readQuoted (quoted : Quoted) (view : View) :
    let scan := scanQuoted quoted [] view.ahead
    Reads (readQuoted quoted) view ⟨scan.kind, scan.marker, scan.frames⟩
      (view.take scan.length) := by
  refine (reads_eatWhen view quoted.afterBrace (· == '}')).bind ?_
  refine (reads_readBody { quoted with afterBrace := false } false _).bind ?_
  rw [View.ahead_take, View.take_take]
  simp only [scanQuoted, List.append_nil]
  exact reads_pure _ _

theorem takes_readQuoted {quoted : Quoted} (h : quoted.afterBrace = false) (view : View)
    (opening : Nat) :
    Takes (readQuoted quoted) view opening
      (quotedLexeme opening quoted (view.ahead.drop opening)) := by
  have hread := reads_readQuoted quoted (view.take opening)
  rw [scanQuoted_eq h] at hread
  simpa [Takes, Lexeme.found, quotedLexeme] using hread

def readSlash : Reading Found := do
  if ← lookForRegex then readQuoted ⟨'/', .regex, true, false, false⟩
  else return .styled .operator

theorem takes_readSlash (view : View) :
    Takes readSlash view 1 (slashLexeme (view.ahead.drop 1)) := by
  have hlook : Reads lookForRegex (view.take 1) _ _ := lookForRegex_cursor (view.take 1)
  refine hlook.bind ?_
  rw [slashLexeme, View.ahead_take]
  split
  · exact takes_readQuoted rfl view 1
  · exact reads_pure _ _

def readPercent : Reading Found := do
  let style := percentStyle (← eatIf isPercentLetter)
  match ← eatIf isPercentDelimiter with
  | none => return .styled .operator
  | some c => readQuoted ⟨matchingDelimiter c, style.1, style.2, true, false⟩

theorem head?_take_oneIf (p : Char → Bool) (text : List Char) :
    (text.take (oneIf p text)).head? = text.head?.filter p := by
  cases text with
  | nil => rfl
  | cons c text => cases hc : p c <;> simp [oneIf, hc, Option.filter_some]

theorem takes_readPercent (view : View) :
    Takes readPercent view 1 (percentLexeme (view.ahead.drop 1)) := by
  refine (reads_eatIf (view.take 1) isPercentLetter).bind ?_
  simp only [View.ahead_take, View.take_take, percentLexeme, head?_take_oneIf, List.drop_drop]
  generalize percentStyle _ = style
  generalize oneIf isPercentLetter (view.ahead.drop 1) = letters
  cases hbody : view.ahead.drop (1 + letters) with
  | nil =>
      refine (reads_eatIf_of_not ?_).bind (reads_pure _ _)
      rw [View.ahead_take, hbody]
      rfl
  | cons c body =>
      dsimp only
      split
      · next hc =>
          refine (reads_eatIf_cons hbody hc).bind ?_
          have hcount : 1 + letters + 1 = 2 + letters := by omega
          have hrest : view.ahead.drop (2 + letters) = body := by
            rw [← hcount, ← List.drop_drop, hbody]
            rfl
          rw [View.take_take, hcount, ← hrest]
          exact takes_readQuoted rfl view (2 + letters)
      · next hc =>
          refine (reads_eatIf_of_not ?_).bind (reads_pure _ _)
          rw [View.ahead_take, hbody]
          simpa [headIs] using hc

def readSigil? : Reading (Option Found) := do
  match (← peek).filter isAsciiLetter with
  | none => return none
  | some letter =>
      match (← peekNth 1).filter isSigilDelimiter with
      | none => return none
      | some delimiter =>
          let _ ← nextChar
          let _ ← nextChar
          let closing := if delimiter = '<' then '>' else matchingDelimiter delimiter
          some <$> readQuoted
            ⟨closing, sigilStyle letter, 'a' ≤ letter && letter ≤ 'z', false, false⟩

theorem takes?_readSigil? (view : View) :
    Takes? readSigil? view 1 (sigilLexeme? (view.ahead.drop 1)) := by
  refine (reads_peek (view.take 1)).bind ?_
  rw [View.ahead_take]
  match htext : view.ahead.drop 1 with
  | [] => exact reads_pure _ _
  | letter :: text =>
      rw [List.head?_cons, Option.filter_some]
      cases hletter : isAsciiLetter letter with
      | false =>
          have hnone : sigilLexeme? (letter :: text) = none := by
            cases text <;> simp [sigilLexeme?, hletter]
          rw [hnone]
          exact reads_pure _ _
      | true =>
          refine (reads_peekNth (view.take 1) 1).bind ?_
          rw [View.ahead_take, htext]
          cases text with
          | nil => exact reads_pure _ _
          | cons delimiter body =>
              rw [List.getElem?_cons_succ, List.getElem?_cons_zero, Option.filter_some]
              cases hdelimiter : isSigilDelimiter delimiter with
              | false =>
                  simp only [sigilLexeme?, hletter, hdelimiter]
                  exact reads_pure _ _
              | true =>
                  have hnext : ((view.take 1).take 1).ahead = delimiter :: body := by
                    rw [View.ahead_take, View.ahead_take, htext]
                    rfl
                  have hbody : view.ahead.drop 3 = body := by
                    rw [show 3 = 1 + 2 from rfl, ← List.drop_drop, htext]
                    rfl
                  refine (reads_nextChar htext).bind ((reads_nextChar hnext).bind ?_)
                  simp only [sigilLexeme?, hletter, hdelimiter, View.take_take]
                  rw [← hbody]
                  exact (takes_readQuoted rfl view 3).some

/-! ## Heredocs -/

def readHeredoc (tag : List Char) (indented : Bool) : Reading Found := do
  let text ← rest
  skipToEnd
  return ⟨.styled .string, none, heredocAfter tag indented text⟩

theorem reads_readHeredoc (tag : List Char) (indented : Bool) (view : View) :
    Reads (readHeredoc tag indented) view
      ⟨.styled .string, none, heredocAfter tag indented view.ahead⟩
      (view.take view.ahead.length) := by
  refine (reads_rest view).bind ?_
  exact (reads_skipToEnd view).bind (reads_pure _ _)

def readHeredoc? : Reading (Option Found) := do
  let opening? ← look fun cursor => do openingInBytes (← cursor.rest)
  match opening? with
  | none => return none
  | some opening =>
      advance opening.length
      some <$> readHeredoc opening.tag opening.indented

theorem byteLength_take_opening {text : List Char} {opening : HeredocOpening}
    (h : heredocOpening? text = some opening) :
    byteLength (text.take opening.length) = opening.length ∧ opening.length ≤ text.length := by
  obtain ⟨parts, hbegin⟩ := HeredocParts.exists_begin (by rw [h]; exact nofun)
  rw [hbegin.heredocOpening?_eq] at h
  cases h
  obtain ⟨after, rfl, -⟩ := hbegin
  rw [List.take_left]
  exact ⟨parts.byteLength_text, by simp⟩

theorem takes?_readHeredoc? (view : View) :
    Takes? readHeredoc? view 1 (heredocLexeme? (view.ahead.drop 1)) := by
  have hlook : Reads (look fun cursor => do openingInBytes (← cursor.rest)) (view.take 1)
      (heredocOpening? (view.ahead.drop 1)) (view.take 1) := by
    apply reads_look
    rw [(view.take 1).rest_cursor, ok_bind, openingInBytes_eq, View.ahead_take]
  refine hlook.bind ?_
  rw [heredocLexeme?]
  cases hopening : heredocOpening? (view.ahead.drop 1) with
  | none => exact reads_pure _ _
  | some opening =>
      obtain ⟨hbytes, hle⟩ := byteLength_take_opening hopening
      have hadvance := reads_advance (view.take 1) opening.length
      rw [View.ahead_take, hbytes] at hadvance
      have hlength : 1 + opening.length + (view.ahead.drop (1 + opening.length)).length =
          1 + (view.ahead.drop 1).length := by
        simp only [List.length_drop] at hle ⊢
        omega
      have hread := (reads_readHeredoc opening.tag opening.indented
        ((view.take 1).take opening.length)).map some
      rw [View.take_take, View.ahead_take, View.take_take, hlength, ← List.drop_drop] at hread
      refine hadvance.bind ?_
      rw [View.take_take]
      exact hread

end CellHighlight.Elixir
