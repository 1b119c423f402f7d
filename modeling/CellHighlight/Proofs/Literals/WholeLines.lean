import CellHighlight.Proofs.Mending
import CellHighlight.Proofs.Literals.Stack

/-!
# Literals that take whole lines

A heredoc and a block comment take their lines whole, whatever stands on them, up to the
line that closes them.  Meanwhile the frames below wait, and the scopes and the parameter
list stay as they are.  The line that closes takes exactly one frame off the stack.
-/

namespace CellHighlight

def wholeLine (style : Style) (line : List Char) : List Token :=
  if line.isEmpty then [] else [⟨byteLength line, style⟩]

namespace Elixir

/-- The frame takes whole lines in a style.  A heredoc without a tag is left out: no step
looks at the empty line that would close it. -/
inductive TakesLines : Frame → Style → Prop
  | heredoc {tag : List Char} {indented : Bool} (htag : tag ≠ []) :
      TakesLines (.heredoc tag indented) .string
  | blockComment : TakesLines .blockComment .comment

def Frame.ClosedBy : Frame → List Char → Prop
  | .heredoc tag indented, line => (if indented then line.dropWhile isBlank else line) = tag
  | .blockComment, line => line = ['"', '"', '"']
  | _, _ => False

instance : (frame : Frame) → (line : List Char) → Decidable (frame.ClosedBy line)
  | .heredoc tag indented, line =>
      inferInstanceAs (Decidable ((if indented then line.dropWhile isBlank else line) = tag))
  | .blockComment, line => inferInstanceAs (Decidable (line = ['"', '"', '"']))
  | .base, _ | .quoted _, _ | .untilBrace _, _ | .once _, _ => .isFalse id

/-- What a state keeps over some lines of a literal.  A root scope that is missing is put
back by the first line with text on it. -/
structure State.Keeps (options : Options) (style : Style) (lines : List (List Char))
    (state after : State) : Prop where
  scopes : after.scopes =
    if lines.all List.isEmpty then state.scopes else withRoot options state.scopes
  inParameters : after.inParameters = state.inParameters
  lastToken : style = .comment → after.lastToken = state.lastToken

theorem State.Keeps.append {options : Options} {style : Style} {first second : List (List Char)}
    {state between after : State} (hfirst : state.Keeps options style first between)
    (hsecond : between.Keeps options style second after) :
    state.Keeps options style (first ++ second) after := by
  constructor
  case scopes =>
    rw [hsecond.scopes, hfirst.scopes, List.all_append]
    cases first.all List.isEmpty with
    | true => rfl
    | false => cases second.all List.isEmpty <;> simp [withRoot_withRoot]
  case inParameters => rw [hsecond.inParameters, hfirst.inParameters]
  case lastToken => exact fun hstyle => (hsecond.lastToken hstyle).trans (hfirst.lastToken hstyle)

/-! ## One line -/

section

variable {state : State} {top : Frame} {below : List Frame} {style : Style}

theorem TakesLines.scanFrames_eq (h : TakesLines top style) (barIsMarker : Bool)
    (text : List Char) (below : List Frame) :
    scanFrames true barIsMarker text (top :: below) =
      ⟨text.length, .styled style, none,
        if top.ClosedBy text then below else top :: below⟩ := by
  cases h with
  | @heredoc tag indented htag =>
      have hcloses : closesHeredoc tag indented text =
          decide (Frame.ClosedBy (.heredoc tag indented) text) := by
        rw [Bool.eq_iff_iff, decide_eq_true_iff]
        exact beq_iff_eq
      simp only [scanFrames, heredocAfter, hcloses, decide_eq_true_eq]
      split <;> rfl
  | blockComment =>
      have hcloses : (text == tripleQuote) = decide (Frame.ClosedBy .blockComment text) := by
        rw [Bool.eq_iff_iff, decide_eq_true_iff]
        exact beq_iff_eq
      simp only [scanFrames, Bool.true_and, hcloses, decide_eq_true_eq]

theorem TakesLines.step_eq (h : TakesLines top style) (hframes : state.frames = top :: below)
    (hbase : state.frames.getLast? = some .base) (options : Options) (line : List Char)
    (tabSize : Nat) :
    step options (View.ofLine line tabSize) state =
      ⟨line.length, style,
        { frames := if top.ClosedBy line then below else state.frames
          scopes := State.withRoot options state.scopes
          indentation := (View.ofLine line tabSize).keptIndentation
          lastToken := if style = .comment then state.lastToken else some .other
          inParameters := state.inParameters
          continued := false }⟩ := by
  have hmended : State.withBase state.frames = top :: below := by
    rw [State.withBase, if_pos hbase, hframes]
  have hahead : (View.ofLine line tabSize).ahead = line := rfl
  have hstart : (View.ofLine line tabSize).atLineStart = true := rfl
  have hscan := h.scanFrames_eq
    ((state.mend options).noteIndentation (View.ofLine line tabSize)).barIsMarker line below
  simp only [step, State.frames_noteIndentation_mend, hmended, hahead, hstart, hscan]
  cases h <;>
    simp [State.noteIndentation, State.mend, State.scopesAfter, State.lastTokenAfter, hstart,
      hframes, continuesLine]

theorem TakesLines.not_closedBy_nil (h : TakesLines top style) : ¬ top.ClosedBy [] := by
  cases h with
  | @heredoc tag indented htag =>
      intro hcloses
      cases indented <;> exact htag hcloses.symm
  | blockComment => exact nofun

theorem TakesLines.scanLine (h : TakesLines top style) (hframes : state.frames = top :: below)
    (hbase : state.frames.getLast? = some .base) (options : Options) (line : List Char) :
    ∃ after : State,
      (Grammar.elixir options).scanLine (.elixir state) line =
        (wholeLine style line, .elixir after) ∧
      after.frames = (if top.ClosedBy line then below else state.frames) ∧
      state.Keeps options style [line] after := by
  rw [Grammar.scanLine_elixir]
  by_cases hline : line = []
  · subst hline
    refine ⟨_, rfl, ?_, rfl, rfl, fun _ => rfl⟩
    rw [if_neg h.not_closedBy_nil]
    rfl
  · have hstep := h.step_eq hframes hbase options line options.tabSize
    have hrun := Scanner.scanRest_of_taken_all (scanner options)
      (show (View.ofLine line options.tabSize).ahead ≠ [] from hline) hstep
    have htokens : wholeLine style line = [⟨byteLength line, style⟩] := by
      simp [wholeLine, hline]
    rw [Scanner.scanLine_eq _ _ _ hline, hrun, htokens]
    refine ⟨_, rfl, rfl, ?_, rfl, ?_⟩
    · simp [hline]
    · rintro rfl
      rfl

/-! ## Runs of lines -/

theorem TakesLines.scanLines (h : TakesLines top style) (options : Options)
    {body : List (List Char)} (hbody : ∀ line ∈ body, ¬ top.ClosedBy line)
    (hframes : state.frames = top :: below) (hbase : state.frames.getLast? = some .base) :
    ∃ after : State,
      (Grammar.elixir options).scanLines (.elixir state) body =
        (body.map (wholeLine style), .elixir after) ∧
      after.frames = state.frames ∧ state.Keeps options style body after := by
  induction body generalizing state with
  | nil => exact ⟨state, rfl, rfl, rfl, rfl, fun _ => rfl⟩
  | cons line body ih =>
      obtain ⟨next, hline, hnext, hkeeps⟩ := h.scanLine hframes hbase options line
      -- The frame is still on top for the next line.
      rw [if_neg (hbody line List.mem_cons_self)] at hnext
      obtain ⟨after, hrest, hafter, hkept⟩ :=
        ih (fun other hother => hbody other (List.mem_cons_of_mem line hother))
          (hnext.trans hframes) (hnext ▸ hbase)
      refine ⟨after, ?_, hafter.trans hnext, hkeeps.append hkept⟩
      simp only [Grammar.scanLines, hline, hrest, List.map_cons]

end

end Elixir

namespace Grammar

open Elixir

/-- Up to the line that closes it, a heredoc or a block comment takes each line whole and
the stack stays; the line that closes it is taken as well, and only its frame goes.  Of a
state with its root scope the scopes and the parameter list never change. -/
theorem scanLines_takes_lines (options : Options) (state : State) (top : Frame)
    (below : List Frame) (style : Style) (htop : TakesLines top style)
    (hframes : state.frames = top :: below) (hbase : state.frames.getLast? = some .base)
    (body : List (List Char)) (hbody : ∀ line ∈ body, ¬ top.ClosedBy line) (line : List Char) :
    ∃ before after : State,
      (elixir options).scanLines (.elixir state) body =
        (body.map (wholeLine style), .elixir before) ∧
      before.frames = state.frames ∧ state.Keeps options style body before ∧
      (elixir options).scanLine (.elixir before) line =
        (wholeLine style line, .elixir after) ∧
      after.frames = (if top.ClosedBy line then below else state.frames) ∧
      state.Keeps options style (body ++ [line]) after := by
  obtain ⟨before, hrun, hbefore, hkept⟩ := htop.scanLines options hbody hframes hbase
  obtain ⟨after, hline, hafter, hkeeps⟩ :=
    htop.scanLine (hbefore.trans hframes) (hbefore ▸ hbase) options line
  rw [hbefore] at hafter
  exact ⟨before, after, hrun, hbefore, hkept, hline, hafter, hkept.append hkeeps⟩

theorem scanLines_takes_lines_embedded :
    let top : Frame := .heredoc "EOS".toList true
    let below : List Frame := [.untilBrace 1, .quoted doubleQuoted, .base]
    let state : State := { State.start {} with frames := top :: below }
    let body := ["\"\"\"".toList, [], "end EOS \x7d".toList]
    (∀ line ∈ body, ¬ top.ClosedBy line) ∧ top.ClosedBy "\t EOS".toList ∧
      ∃ before after : State,
        (elixir {}).scanLines (.elixir state) body =
          ([[⟨3, .string⟩], [], [⟨9, .string⟩]], .elixir before) ∧
        before.frames = state.frames ∧
        (elixir {}).scanLine (.elixir before) "\t EOS".toList =
          ([⟨5, .string⟩], .elixir after) ∧
        after.frames = below ∧ after.scopes = state.scopes := by
  intro top below state body
  have hbody : ∀ line ∈ body, ¬ top.ClosedBy line := by decide
  have hcloses : top.ClosedBy "\t EOS".toList := by decide
  obtain ⟨before, after, hrun, hbefore, -, hline, hafter, hkeeps⟩ :=
    scanLines_takes_lines {} state top below .string (.heredoc (by decide)) rfl rfl body hbody
      "\t EOS".toList
  rw [if_pos hcloses] at hafter
  exact ⟨hbody, hcloses, before, after, hrun, hbefore, hline, hafter, hkeeps.scopes⟩

/-- In a state without its root scope the first line of a comment puts it back. -/
theorem scanLine_restores_root :
    let state : State := { State.start {} with frames := [.blockComment, .base], scopes := [] }
    let after : State := { state with scopes := [State.rootScope {}] }
    (elixir {}).scanLine (.elixir state) "x".toList = ([⟨1, .comment⟩], .elixir after) ∧
      after.scopes ≠ state.scopes := by
  decide

end Grammar

end CellHighlight
