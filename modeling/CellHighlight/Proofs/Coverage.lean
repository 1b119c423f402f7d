import CellHighlight.Proofs.Runs

/-!
# Tokens cover their line

The tokens of a line are the lengths of consecutive pieces of it, none of them
empty.  So every token ends between two characters, the lengths add up, and the
texts under the tokens put together are the line again.
-/

namespace CellHighlight

def Covers (tokens : List Token) (text : List Char) : Prop :=
  ∃ pieces : List (List Char), pieces.flatten = text ∧ (∀ piece ∈ pieces, piece ≠ []) ∧
    tokens.map Token.length = pieces.map byteLength

def totalLength : List Token → Nat
  | [] => 0
  | token :: tokens => token.length + totalLength tokens

theorem totalLength_eq {tokens : List Token} {pieces : List (List Char)}
    (h : tokens.map Token.length = pieces.map byteLength) :
    totalLength tokens = byteLength pieces.flatten := by
  induction tokens generalizing pieces with
  | nil =>
      have hpieces : pieces = [] := by simpa using h.symm
      rw [hpieces]
      rfl
  | cons token tokens ih =>
      cases pieces with
      | nil => contradiction
      | cons piece pieces =>
          simp only [List.map_cons, List.cons.injEq] at h
          rw [totalLength, h.1, ih h.2, List.flatten_cons, byteLength_append]

namespace Covers

theorem nil : Covers [] [] := ⟨[], rfl, by simp, rfl⟩

theorem cons {tokens : List Token} {first rest : List Char} (style : Style)
    (hfirst : first ≠ []) (h : Covers tokens rest) :
    Covers (⟨byteLength first, style⟩ :: tokens) (first ++ rest) := by
  obtain ⟨pieces, hflatten, hnonempty, hlengths⟩ := h
  refine ⟨first :: pieces, by simp [hflatten], ?_, by simp [hlengths]⟩
  intro piece hpiece
  rcases List.mem_cons.mp hpiece with rfl | hpiece
  · exact hfirst
  · exact hnonempty piece hpiece

variable {tokens : List Token} {text : List Char}

theorem length_pos (h : Covers tokens text) : ∀ token ∈ tokens, 0 < token.length := by
  obtain ⟨pieces, -, hnonempty, hlengths⟩ := h
  intro token htoken
  have hmem : token.length ∈ pieces.map byteLength := by
    rw [← hlengths]
    exact List.mem_map_of_mem htoken
  obtain ⟨piece, hpiece, hlength⟩ := List.mem_map.mp hmem
  rw [← hlength]
  exact byteLength_pos (hnonempty piece hpiece)

theorem totalLength_eq_byteLength (h : Covers tokens text) :
    totalLength tokens = byteLength text := by
  obtain ⟨pieces, hflatten, -, hlengths⟩ := h
  rw [totalLength_eq hlengths, hflatten]

theorem boundary (h : Covers tokens text) (count : Nat) :
    ∃ first second, first ++ second = text ∧
      byteLength first = totalLength (tokens.take count) := by
  obtain ⟨pieces, hflatten, -, hlengths⟩ := h
  refine ⟨(pieces.take count).flatten, (pieces.drop count).flatten, ?_, ?_⟩
  · rw [← List.flatten_append, List.take_append_drop, hflatten]
  · symm
    apply totalLength_eq
    rw [List.map_take, List.map_take, hlengths]

theorem spans (h : Covers tokens text) :
    ∃ spans, spans? text tokens = some spans ∧ (spans.map Prod.fst).flatten = text ∧
      spans.map Prod.snd = tokens.map Token.style := by
  obtain ⟨pieces, rfl, -, hlengths⟩ := h
  induction tokens generalizing pieces with
  | nil =>
      have hpieces : pieces = [] := by simpa using hlengths.symm
      subst hpieces
      exact ⟨[], rfl, rfl, rfl⟩
  | cons token tokens ih =>
      cases pieces with
      | nil => simp at hlengths
      | cons piece pieces =>
          simp only [List.map_cons, List.cons.injEq] at hlengths
          obtain ⟨hlength, hlengths⟩ := hlengths
          obtain ⟨spans, hspans, htexts, hstyles⟩ := ih pieces hlengths
          refine ⟨(piece, token.style) :: spans, ?_, ?_, ?_⟩
          · have hmin : min token.length (byteLength (piece :: pieces).flatten) =
                byteLength piece := by
              rw [hlength, List.flatten_cons, byteLength_append]
              omega
            rw [spans?, takeBytes?, hmin, List.flatten_cons, splitAtByte?_append]
            simp [hspans]
          · simp [htexts]
          · simp [hstyles]

end Covers

theorem take_ne_nil {text : List Char} {n : Nat} (hn : 0 < n) (htext : text ≠ []) :
    text.take n ≠ [] := by
  rw [Ne, List.take_eq_nil_iff, not_or]
  exact ⟨Nat.ne_of_gt hn, htext⟩

theorem Scanner.InBounds.covers_scanRest {σ : Type} {scanner : Scanner σ}
    (h : scanner.InBounds) (view : View) (state : σ) :
    Covers (scanner.scanRest view state).1 view.ahead := by
  by_cases hahead : view.ahead = []
  · rw [scanRest_nil scanner hahead, hahead]
    exact .nil
  · have hpos := scanner.stepForward_pos view stallLimit state
    have hle := h.stepForward_le hahead stallLimit state
    rw [scanRest_cons scanner hahead]
    generalize hstep : scanner.stepForward view stallLimit state = step at hpos hle
    have hshorter : view.ahead.length - step.length < view.ahead.length := by omega
    have hrest := h.covers_scanRest (view.next step.length) step.state
    have hcover := Covers.cons step.style (take_ne_nil hpos hahead) hrest
    rw [show (view.next step.length).ahead = view.ahead.drop step.length from rfl,
      List.take_append_drop] at hcover
    exact hcover
termination_by view.ahead.length
decreasing_by simpa [View.next] using hshorter

theorem Grammar.covers_scanLine (grammar : Grammar) (state : GrammarState)
    (line : List Char) : Covers (grammar.scanLine state line).1 line := by
  by_cases hline : line = []
  · subst hline
    exact .nil
  · rw [scanLine, Scanner.scanLine_eq _ _ _ hline]
    exact grammar.inBounds_scanner.covers_scanRest (View.ofLine line grammar.tabSize) state

end CellHighlight
