import CellHighlight.Proofs.Literals.Escapes
import CellHighlight.R.Scanner

/-!
# Where a literal stops

The scan of a body keeps one flag for escapes.  The flag is the parity of the backslashes
right before a place, so the first place where a body stops can be read off the text.
Strings of R are scanned by a loop of their own, which stops at the same places.
-/

namespace CellHighlight.Elixir

def backslashesBefore (text : List Char) (i : Nat) : Nat :=
  runLength (· == '\\') (text.take i).reverse

/-! ## The flag at a place -/

section

variable {text : List Char} {c : Char} {i : Nat}

theorem escapesNext_take_eq_false_iff :
    escapesNext false (text.take i) = false ↔ Even (backslashesBefore text i) := by
  rw [← Bool.not_eq_true, escapesNext_iff_odd, Nat.not_odd_iff_even, backslashesBefore]

theorem escapesNext_take_succ (h : text[i]? = some c) :
    escapesNext false (text.take (i + 1)) =
      (!escapesNext false (text.take i) && c = '\\') := by
  simp [escapesNext, List.take_add_one, h]

theorem drop_eq_cons (h : text[i]? = some c) : text.drop i = c :: text.drop (i + 1) := by
  obtain ⟨hi, rfl⟩ := List.getElem?_eq_some_iff.mp h
  exact List.drop_eq_getElem_cons hi

theorem headIs_drop (p : Char → Bool) : headIs p (text.drop i) = text[i]?.any p := by
  cases h : text[i]? with
  | none => simp [List.drop_eq_nil_of_le (List.getElem?_eq_none_iff.mp h), headIs]
  | some c => simp [drop_eq_cons h, headIs]

end

/-! ## Places where a body stops -/

namespace Quoted

variable {quoted : Quoted} {text : List Char} {c : Char} {i : Nat}

def ClosesAt (quoted : Quoted) (text : List Char) (i : Nat) : Prop :=
  text[i]? = some quoted.delimiter ∧ (quoted.raw = true ∨ Even (backslashesBefore text i))

def EmbedsAt (quoted : Quoted) (text : List Char) (i : Nat) : Prop :=
  quoted.interpolates = true ∧ text[i]? = some '#' ∧ Even (backslashesBefore text i) ∧
    (text[i + 1]? = some '{' ∨ text[i + 1]? = some '@' ∨ text[i + 1]? = some '$')

def StopsAt (quoted : Quoted) (text : List Char) (i : Nat) : Prop :=
  quoted.ClosesAt text i ∨ quoted.EmbedsAt text i

instance : Decidable (quoted.ClosesAt text i) := inferInstanceAs (Decidable (_ ∧ _))

instance : Decidable (quoted.EmbedsAt text i) := inferInstanceAs (Decidable (_ ∧ _))

instance : Decidable (quoted.StopsAt text i) := inferInstanceAs (Decidable (_ ∨ _))

/-! ## The scan of a body -/

theorem scanBody_of_closesAt (h : quoted.ClosesAt text i) :
    quoted.scanBody (escapesNext false (text.take i)) (text.drop i) = (1, .closed) := by
  obtain ⟨hdelimiter, hescape⟩ := h
  rw [← escapesNext_take_eq_false_iff] at hescape
  rw [drop_eq_cons hdelimiter, scanBody]
  rcases hescape with hraw | hfree
  · simp [hraw]
  · simp [hfree]

theorem scanBody_of_embedsAt (hcloses : ¬ quoted.ClosesAt text i) (h : quoted.EmbedsAt text i) :
    quoted.scanBody (escapesNext false (text.take i)) (text.drop i) =
      if text[i + 1]? = some '{' then (2, .code) else (1, .variable) := by
  obtain ⟨hinterpolates, hsign, heven, hnext⟩ := h
  have hfree := escapesNext_take_eq_false_iff.mpr heven
  have hdelimiter : '#' ≠ quoted.delimiter := by
    intro heq
    exact hcloses ⟨hsign.trans (congrArg some heq), .inr heven⟩
  rw [drop_eq_cons hsign, scanBody]
  simp only [hfree, hinterpolates, headIs_drop]
  rcases hnext with hnext | hnext | hnext <;> simp [hnext, hdelimiter]

theorem scanBody_of_not_stops (hget : text[i]? = some c)
    (h : ¬ quoted.StopsAt text i) :
    quoted.scanBody (escapesNext false (text.take i)) (text.drop i) =
      let rest := quoted.scanBody (escapesNext false (text.take (i + 1))) (text.drop (i + 1))
      (rest.1 + 1, rest.2) := by
  simp only [StopsAt, ClosesAt, EmbedsAt, hget, ← escapesNext_take_eq_false_iff,
    Option.some.injEq] at h
  rw [escapesNext_take_succ hget, drop_eq_cons hget, scanBody]
  simp only [headIs_drop]
  grind

theorem scanBody_of_passed {n : Nat} (hn : n ≤ text.length)
    (h : ∀ k < n, ¬ quoted.StopsAt text k) :
    quoted.scanBody false text =
      let rest := quoted.scanBody (escapesNext false (text.take n)) (text.drop n)
      (n + rest.1, rest.2) := by
  induction n with
  | zero => simp [escapesNext]
  | succ n ih =>
      have hget := List.getElem?_eq_getElem hn
      rw [ih (Nat.le_of_succ_le hn) fun k hk => h k (Nat.lt_succ_of_lt hk),
        scanBody_of_not_stops hget (h n (Nat.lt_succ_self n))]
      simp only [Nat.add_assoc, Nat.add_comm 1]

theorem scanBody_of_stopsAt (hstops : quoted.StopsAt text i)
    (hbefore : ∀ k < i, ¬ quoted.StopsAt text k) :
    quoted.scanBody false text =
      if quoted.ClosesAt text i then (i + 1, .closed)
      else if text[i + 1]? = some '{' then (i + 2, .code)
      else (i + 1, .variable) := by
  have hi : i < text.length := by
    rcases hstops with ⟨hget, -⟩ | ⟨-, hget, -⟩
    · exact (List.getElem?_eq_some_iff.mp hget).1
    · exact (List.getElem?_eq_some_iff.mp hget).1
  rw [scanBody_of_passed (Nat.le_of_lt hi) hbefore]
  by_cases hcloses : quoted.ClosesAt text i
  · rw [scanBody_of_closesAt hcloses, if_pos hcloses]
  · rw [scanBody_of_embedsAt hcloses (hstops.resolve_left hcloses), if_neg hcloses]
    split <;> rfl

theorem scanBody_of_never_stops (h : ∀ i, ¬ quoted.StopsAt text i) :
    quoted.scanBody false text = (text.length, .lineEnd) := by
  rw [scanBody_of_passed (Nat.le_refl _) fun k _ => h k]
  simp [scanBody]

/-! ## Strings of R -/

/-- The two loops agree on literals that are neither raw nor embed anything. -/
theorem stringLength_eq_scanBody (hraw : quoted.raw = false)
    (hinterpolates : quoted.interpolates = false) (escaped : Bool) (text : List Char) :
    R.stringLength quoted.delimiter escaped text =
      let body := quoted.scanBody escaped text
      (body.1, body.2 == .closed) := by
  induction text generalizing escaped with
  | nil => rfl
  | cons c text ih =>
      rw [R.stringLength, scanBody, ih]
      simp only [hraw, hinterpolates, Bool.false_and, Bool.false_or, Bool.false_eq_true, if_false]
      split <;> rfl

theorem framesAfter_append_eq_iff (quoted : Quoted) (stop : BodyEnd) (below : List Frame) :
    quoted.framesAfter stop ++ below = below ↔ stop = .closed := by
  rw [List.append_left_eq_self]
  cases stop <;> simp [framesAfter]

end Quoted

theorem step_of_quoted (options : Options) (view : View) {state : State} {quoted : Quoted}
    {below : List Frame} (hframes : state.frames = .quoted quoted :: below)
    (hbase : state.frames.getLast? = some .base) (hbrace : quoted.afterBrace = false) :
    let token := step options view state
    let body := quoted.scanBody false view.ahead
    token.style = quoted.style ∧ token.length = body.1 ∧
      token.state.frames = quoted.framesAfter body.2 ++ below := by
  have hscan (atLineStart barIsMarker : Bool) :
      scanFrames atLineStart barIsMarker view.ahead (State.withBase state.frames) =
        scanQuoted quoted below view.ahead := by
    rw [State.withBase, if_pos hbase, hframes, scanFrames]
  simp only [step, State.frames_noteIndentation_mend, hscan, scanQuoted_eq hbrace]
  exact ⟨trivial, trivial, trivial⟩

/-- A literal is scanned up to the first place where it stops, and what is open afterwards
depends only on what stands there. -/
theorem step_quoted (options : Options) (view : View) (state : State) (quoted : Quoted)
    (below : List Frame) (hframes : state.frames = .quoted quoted :: below)
    (hbase : state.frames.getLast? = some .base) (hbrace : quoted.afterBrace = false) :
    let token := step options view state
    token.style = quoted.style ∧
      (∀ i, quoted.StopsAt view.ahead i → (∀ k < i, ¬ quoted.StopsAt view.ahead k) →
        if quoted.ClosesAt view.ahead i then
          token.length = i + 1 ∧ token.state.frames = below
        else if view.ahead[i + 1]? = some '{' then
          token.length = i + 2 ∧ token.state.frames =
            .untilBrace 1 :: .quoted { quoted with afterBrace := quoted.delimiter = '}' } :: below
        else token.length = i + 1 ∧ token.state.frames = .once false :: state.frames) ∧
      ((∀ i, ¬ quoted.StopsAt view.ahead i) →
        token.length = view.ahead.length ∧ token.state.frames = state.frames) ∧
      (quoted.raw = false → quoted.interpolates = false → ∀ opening,
        let string := R.stringStep opening quoted.delimiter view.ahead
        string.length = opening + token.length ∧
          (string.state.openQuote = none ↔ token.state.frames = below)) := by
  obtain ⟨hstyle, hlength, hafter⟩ := step_of_quoted options view hframes hbase hbrace
  dsimp only
  rw [hlength, hafter, hframes]
  refine ⟨hstyle, fun i hstops hbefore => ?_, fun hnever => ?_, fun hraw hplain opening => ?_⟩
  · rw [Quoted.scanBody_of_stopsAt hstops hbefore]
    split
    · exact ⟨rfl, rfl⟩
    · split <;> exact ⟨rfl, rfl⟩
  · rw [Quoted.scanBody_of_never_stops hnever]
    exact ⟨rfl, rfl⟩
  · rw [Quoted.framesAfter_append_eq_iff]
    simp [R.stringStep, Quoted.stringLength_eq_scanBody hraw hplain]

theorem step_quoted_after_escapes :
    let quoted : Quoted := ⟨'\x7d', .regex, true, false, false⟩
    let text := "\\\x7d \\# \\\\#\x7bx".toList
    let state : State := { State.start {} with frames := [.quoted quoted, .base] }
    let token := step {} (View.ofLine text 4) state
    quoted.StopsAt text 8 ∧ (∀ k < 8, ¬ quoted.StopsAt text k) ∧ token.length = 10 ∧
      token.state.frames = [.untilBrace 1, .quoted { quoted with afterBrace := true }, .base] := by
  intro quoted text state token
  have hstops : quoted.StopsAt text 8 := by decide
  have hbefore : ∀ k < 8, ¬ quoted.StopsAt text k := by decide
  have hopen : ¬ quoted.ClosesAt (View.ofLine text 4).ahead 8 := by decide
  obtain ⟨-, hfirst, -⟩ := step_quoted {} (View.ofLine text 4) state quoted [.base] rfl rfl rfl
  have hcode := hfirst 8 hstops hbefore
  rw [if_neg hopen] at hcode
  exact ⟨hstops, hbefore, hcode⟩

end CellHighlight.Elixir
