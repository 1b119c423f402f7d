import CellHighlight.Proofs.Literals.Stack
import Mathlib.Algebra.Ring.Parity
import Mathlib.Data.List.Induction

/-!
# Escaped delimiters

A slash opens a regular expression when some slash follows on the line, but only one that
is not escaped ends it.  Without such a slash the literal is still open after the line.
-/

namespace CellHighlight.Elixir

def StandsUnescaped (c : Char) (text : List Char) : Prop :=
  ∃ i < text.length, text[i]? = some c ∧ Even (runLength (· == '\\') (text.take i).reverse)

instance (c : Char) (text : List Char) : Decidable (StandsUnescaped c text) :=
  inferInstanceAs (Decidable (∃ i < text.length, _))

/-! ## Escapes from left to right -/

def escapesNext (escaped : Bool) (text : List Char) : Bool :=
  text.foldl (fun escaped c => !escaped && c = '\\') escaped

/-- The character stands in the text and is not escaped when the text is read from the left. -/
def EndsBody (c : Char) (escaped : Bool) (text : List Char) : Prop :=
  ∃ i < text.length, text[i]? = some c ∧ escapesNext escaped (text.take i) = false

theorem escapesNext_iff_odd (text : List Char) :
    escapesNext false text = true ↔ Odd (runLength (· == '\\') text.reverse) := by
  induction text using List.reverseRecOn with
  | nil => simp [escapesNext]
  | append_singleton text c ih =>
      have hlast : escapesNext false (text ++ [c]) = (!escapesNext false text && c = '\\') := by
        simp [escapesNext]
      rw [hlast, List.reverse_append, List.reverse_singleton, List.singleton_append,
        runLength_cons]
      by_cases hc : c = '\\'
      · subst hc
        rw [if_pos (by decide), Nat.add_comm, Nat.odd_add_one, ← ih]
        simp
      · simp [hc]

theorem standsUnescaped_iff {c : Char} {text : List Char} :
    StandsUnescaped c text ↔ EndsBody c false text := by
  simp only [StandsUnescaped, EndsBody, ← Bool.not_eq_true, escapesNext_iff_odd,
    Nat.not_odd_iff_even]

theorem endsBody_cons {c d : Char} {escaped : Bool} {text : List Char} :
    EndsBody c escaped (d :: text) ↔
      (d = c ∧ escaped = false) ∨ EndsBody c (!escaped && d = '\\') text := by
  constructor
  · rintro ⟨i, hi, hget, hescaped⟩
    cases i with
    | zero => exact .inl ⟨Option.some.inj hget, hescaped⟩
    | succ i => exact .inr ⟨i, Nat.lt_of_succ_lt_succ hi, hget, hescaped⟩
  · rintro (⟨rfl, rfl⟩ | ⟨i, hi, hget, hescaped⟩)
    · exact ⟨0, Nat.succ_pos _, rfl, rfl⟩
    · exact ⟨i + 1, Nat.succ_lt_succ hi, hget, hescaped⟩

namespace Quoted

variable {quoted : Quoted} {text : List Char}

theorem scanBody_cons_of_not_raw {c : Char} (hraw : quoted.raw = false) (hc : c ≠ '#')
    (escaped : Bool) :
    quoted.scanBody escaped (c :: text) =
      if c = quoted.delimiter ∧ escaped = false then (1, .closed)
      else
        let rest := quoted.scanBody (!escaped && c = '\\') text
        (rest.1 + 1, rest.2) := by
  rw [scanBody]
  simp [hraw, hc]

theorem scanBody_of_endsBody (hraw : quoted.raw = false) (htext : '#' ∉ text) {escaped : Bool}
    (h : EndsBody quoted.delimiter escaped text) :
    (quoted.scanBody escaped text).2 = .closed := by
  induction text generalizing escaped with
  | nil =>
      obtain ⟨i, hi, -⟩ := h
      exact absurd hi (Nat.not_lt_zero i)
  | cons c text ih =>
      rw [List.mem_cons, not_or] at htext
      rw [scanBody_cons_of_not_raw hraw (Ne.symm htext.1)]
      split
      · rfl
      · next hopen => exact ih htext.2 ((endsBody_cons.mp h).resolve_left hopen)

theorem scanBody_of_not_endsBody (hraw : quoted.raw = false) (htext : '#' ∉ text)
    {escaped : Bool} (h : ¬ EndsBody quoted.delimiter escaped text) :
    quoted.scanBody escaped text = (text.length, .lineEnd) := by
  induction text generalizing escaped with
  | nil => rfl
  | cons c text ih =>
      rw [List.mem_cons, not_or] at htext
      rw [endsBody_cons, not_or] at h
      rw [scanBody_cons_of_not_raw hraw (Ne.symm htext.1), if_neg h.1, ih htext.2 h.2]
      rfl

end Quoted

/-! ## Regular expressions between slashes -/

def slashQuoted : Quoted := ⟨'/', .regex, true, false, false⟩

theorem codeLexeme_of_slash (atLineStart barIsMarker : Bool) (text : List Char) :
    codeLexeme atLineStart barIsMarker ('/' :: text) = slashLexeme text :=
  codeLexeme_cons (by simp [tripleQuote]) (by decide) atLineStart barIsMarker

theorem codeLexeme_slash {text : List Char} (h : opensRegex text = true)
    (atLineStart barIsMarker : Bool) :
    codeLexeme atLineStart barIsMarker ('/' :: text) = quotedLexeme 1 slashQuoted text := by
  rw [codeLexeme_of_slash]
  exact if_pos h

theorem scanFrames_of_base {frames : List Frame} (h : frames.head? = some .base)
    (atLineStart barIsMarker : Bool) (text : List Char) :
    scanFrames atLineStart barIsMarker text frames =
      (codeLexeme atLineStart barIsMarker text).onto frames := by
  obtain ⟨below, rfl⟩ := List.head?_eq_some_iff.mp h
  rfl

theorem State.head?_withBase {frames : List Frame} (h : frames.head? = some .base) :
    (State.withBase frames).head? = some .base := by
  obtain ⟨below, rfl⟩ := List.head?_eq_some_iff.mp h
  unfold State.withBase
  split <;> rfl

/-- A regular expression between slashes ends on its line if one of the slashes is not
escaped; otherwise it takes the whole line and is open after it. -/
theorem step_slash (options : Options) (view : View) (state : State)
    (htop : state.frames.head? = some .base) (text : List Char)
    (hahead : view.ahead = '/' :: text) (hopens : opensRegex text = true) (htext : '#' ∉ text) :
    let token := step options view state
    token.style = .regex ∧
      if StandsUnescaped '/' text then token.state.frames = State.withBase state.frames
      else token.length = view.ahead.length ∧
        token.state.frames = .quoted slashQuoted :: State.withBase state.frames := by
  have hscan (barIsMarker : Bool) :
      scanFrames view.atLineStart barIsMarker view.ahead (State.withBase state.frames) =
        (quotedLexeme 1 slashQuoted text).onto (State.withBase state.frames) := by
    rw [scanFrames_of_base (State.head?_withBase htop), hahead, codeLexeme_slash hopens]
  simp only [step, State.frames_noteIndentation_mend, hscan, Lexeme.onto, quotedLexeme]
  refine ⟨rfl, ?_⟩
  split
  · next hends =>
      rw [Quoted.scanBody_of_endsBody rfl htext (standsUnescaped_iff.mp hends)]
      rfl
  · next hends =>
      have hbody : slashQuoted.scanBody false text = (text.length, .lineEnd) :=
        Quoted.scanBody_of_not_endsBody rfl htext fun h => hends (standsUnescaped_iff.mpr h)
      rw [hbody, hahead, List.length_cons, Nat.add_comm 1]
      exact ⟨rfl, rfl⟩

theorem step_slash_after_escape :
    let text := "\\// x".toList
    let token := step {} (View.ofLine ('/' :: text) 4) (State.start {})
    opensRegex text = true ∧ StandsUnescaped '/' text ∧ token.style = .regex ∧
      token.state.frames = [.base] := by
  intro text token
  have hopens : opensRegex text = true := by decide
  have hends : StandsUnescaped '/' text := by decide
  obtain ⟨hstyle, hframes⟩ :=
    step_slash {} (View.ofLine ('/' :: text) 4) (State.start {}) rfl text rfl hopens (by decide)
  rw [if_pos hends] at hframes
  exact ⟨hopens, hends, hstyle, hframes⟩

/-- With an escaped slash only, the literal goes on with the next line. -/
theorem scanLine_slash_leaks :
    opensRegex "\\/".toList = true ∧
      (Grammar.elixir {}).scanLine (Grammar.elixir {}).start "/\\/".toList =
        ([⟨3, .regex⟩], .elixir ⟨[.quoted slashQuoted, .base], [⟨.root, -2⟩], 0, some .other,
          false, false⟩) := by
  decide

end CellHighlight.Elixir
