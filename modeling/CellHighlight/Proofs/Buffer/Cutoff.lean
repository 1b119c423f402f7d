import CellHighlight.Proofs.Buffer.Refinement
import Mathlib.Data.List.TakeWhile

/-!
# How far a scan reaches

In a buffer that is up to date every line is reusable.  So after one line is replaced and
scanned again, the lines below it are up to date at once if the line ends in the state it
ended in before, and none of them is otherwise.  Questions only ever extend what is up to
date.
-/

namespace CellHighlight.Buffer

variable {buffer : Buffer} {index : Nat}

/-! ## Questions -/

theorem valid_le_scanNext (buffer : Buffer) : buffer.valid ≤ buffer.scanNext.valid := by
  by_cases hvalid : buffer.valid < buffer.lineCount
  · exact Nat.le_of_lt (valid_lt_scanNext hvalid)
  · exact Nat.le_of_eq (by rw [scanNext_of_all_valid (Nat.le_of_not_lt hvalid)])

theorem valid_le_scanRounds (index rounds : Nat) (buffer : Buffer) :
    buffer.valid ≤ (scanRounds index rounds buffer).valid := by
  induction rounds generalizing buffer with
  | zero => exact Nat.le_refl _
  | succ rounds ih =>
      unfold scanRounds
      split
      · exact Nat.le_trans buffer.valid_le_scanNext (ih buffer.scanNext)
      · exact Nat.le_refl _

theorem valid_checkpointAt (h : index < buffer.lineCount) :
    buffer.valid ≤ (buffer.checkpointAt index).2.valid ∧
      index < (buffer.checkpointAt index).2.valid := by
  rw [checkpointAt, if_pos h]
  exact ⟨valid_le_scanRounds _ _ _, lt_valid_scanRounds h (by omega)⟩

theorem checkpointAt_valid (h : buffer.valid < buffer.lineCount) :
    (buffer.checkpointAt buffer.valid).2 = buffer.scanNext := by
  rw [checkpointAt, if_pos h, scanThrough, Nat.add_sub_cancel_left]
  exact if_pos (Nat.le_refl _)

/-! ## One line scanned again -/

theorem Consistent.stateBefore_valid (h : buffer.Consistent) :
    buffer.stateBefore buffer.valid =
      (buffer.grammar.scanLines buffer.grammar.start (buffer.texts.take buffer.valid)).2 := by
  have hscan := ((h.chained.split buffer.valid).1.eq_scanLines h.reusable).1
  rw [h.exitOf_valid, List.map_take] at hscan
  exact Option.some.inj hscan

/-- When all lines below are reusable, the end state of the line decides between all of
them and none. -/
theorem valid_checkpointAt_of_reusable (grammar : Grammar) (done : List BufferLine)
    (line : BufferLine) {rest : List BufferLine}
    (hrest : ∀ other ∈ rest, other.reusable = true) :
    let buffer : Buffer := ⟨grammar, done ++ line :: rest, done.length⟩
    (buffer.checkpointAt done.length).2.valid =
      if line.exit? = some (grammar.scanLine (buffer.stateBefore done.length) line.text).2 then
        buffer.lineCount
      else done.length + 1 := by
  intro buffer
  have hvalid : buffer.valid < buffer.lineCount := by simp [buffer, lineCount]
  have hall : rest.takeWhile BufferLine.reusable = rest := List.takeWhile_eq_self_iff.mpr hrest
  rw [show buffer.checkpointAt done.length = buffer.checkpointAt buffer.valid from rfl,
    checkpointAt_valid hvalid, scanNext_eq _ _ _ _ _ rfl, hall]
  dsimp only [Grammar.checkpoint]
  split
  · simp only [buffer, lineCount, List.length_append, List.length_cons]
    omega
  · rfl

theorem exists_line (h : index < buffer.lineCount) :
    ∃ done line rest, buffer.lines = done ++ line :: rest ∧ done.length = index := by
  have hindex : index < buffer.lines.length := h
  refine ⟨buffer.lines.take index, buffer.lines[index], buffer.lines.drop (index + 1), ?_,
    List.length_take_of_le (Nat.le_of_lt h)⟩
  rw [← List.drop_eq_getElem_cons hindex, List.take_append_drop]

theorem replaceLine_eq {done rest : List BufferLine} {line : BufferLine}
    (hlines : buffer.lines = done ++ line :: rest) (hvalid : done.length ≤ buffer.valid)
    (text : List Char) :
    buffer.replaceLine done.length text =
      .ok ⟨buffer.grammar, done ++ { line with text, stale := true } :: rest, done.length⟩ := by
  have hindex : done.length < (done ++ line :: rest).length := by simp
  rw [replaceLine, lineCount, hlines, if_pos hindex, invalidateFrom, Nat.min_eq_right hvalid,
    List.modify_eq_take_cons_drop hindex]
  simp

theorem Consistent.valid_after_replaceLine (h : buffer.Consistent)
    (hvalid : buffer.valid = buffer.lineCount) (hindex : index < buffer.lineCount)
    (text : List Char) :
    ∃ edited, buffer.replaceLine index text = .ok edited ∧ edited.valid = index ∧
      (edited.checkpointAt index).2.valid =
        let scan := buffer.grammar.scanLines buffer.grammar.start
        if (buffer.grammar.scanLine (scan (buffer.texts.take index)).2 text).2 =
            (scan (buffer.texts.take (index + 1))).2 then buffer.lineCount
        else index + 1 := by
  obtain ⟨done, line, rest, hlines, rfl⟩ := exists_line hindex
  have hedit := replaceLine_eq hlines (by omega) text
  have hreusable : ∀ other ∈ rest, other.reusable = true := by
    intro other hother
    apply h.reusable
    rw [hvalid, lineCount, List.take_length, hlines]
    exact List.mem_append_right _ (List.mem_cons_of_mem _ hother)
  -- The old result is still there, and it is that of a scan of the lines before the edit.
  obtain ⟨checkpoint, hcheckpoint, -, hformer⟩ := h.checkpoint_eq (hvalid ▸ hindex)
  have hline : line.checkpoint = some checkpoint := by simpa [hlines] using hcheckpoint
  have hbefore := (h.replaceLine hedit).stateBefore_valid
  have hexit : BufferLine.exit? { line with text, stale := true } = some checkpoint.state := by
    rw [BufferLine.exit?, hline, Option.map_some]
  refine ⟨_, hedit, rfl, ?_⟩
  dsimp only at hbefore ⊢
  rw [valid_checkpointAt_of_reusable _ _ _ hreusable, hbefore, hformer, hexit]
  simp [texts, lineCount, hlines, eq_comm]

/-- A buffer that is up to date, after any sequence of actions: once a line is replaced,
exactly the lines above it are up to date, and once the line is asked for again, all lines
are if it ends in the state it ended in before, and otherwise the lines up to it.  On every
run, a question about a line keeps what is up to date and brings that line up to date. -/
theorem run_cuts_off (grammar : Grammar) (actions : List Action) :
    let buffer := ((empty grammar).run actions).2
    (buffer.valid = buffer.lineCount → ∀ index < buffer.lineCount, ∀ text,
      let scan := grammar.scanLines grammar.start
      let former := (scan (buffer.texts.take (index + 1))).2
      let latter := (grammar.scanLine (scan (buffer.texts.take index)).2 text).2
      (buffer.stateAfter index).1 = some former ∧
        ∃ edited, buffer.replaceLine index text = .ok edited ∧ edited.valid = index ∧
          (edited.tokensAt index).2.valid =
            if latter = former then buffer.lineCount else index + 1) ∧
      ∀ index < buffer.lineCount,
        ∀ asked ∈ [(buffer.tokensAt index).2, (buffer.stateAfter index).2],
          buffer.valid ≤ asked.valid ∧ index < asked.valid := by
  intro buffer
  obtain ⟨-, hholds⟩ := (holds_empty grammar).run actions
  have hgrammar : ((empty grammar).run actions).2.grammar = grammar :=
    hholds.grammar.trans (Document.grammar_run ⟨grammar, []⟩ actions)
  constructor
  · intro hvalid index hindex text scan former latter
    constructor
    · have hanswer := (hholds.checkpointAt_eq index).2
      rw [Document.stateAfter, ← hholds.lineCount, if_pos hindex, Document.scanTo,
        ← hholds.grammar, ← hholds.texts, hgrammar] at hanswer
      exact hanswer
    · have hcut := hholds.consistent.valid_after_replaceLine hvalid hindex text
      rw [hgrammar] at hcut
      exact hcut
  · intro index hindex asked hasked
    simp only [List.mem_cons, List.not_mem_nil, or_false] at hasked
    rcases hasked with rfl | rfl
    · exact valid_checkpointAt hindex
    · exact valid_checkpointAt hindex

theorem run_cuts_off_after_first_line :
    let buffer := ((empty (.elixir {})).run [.setText "a\nb\nc".toList, .tokensAt 2]).2
    buffer.valid = 3 ∧ buffer.lineCount = 3 ∧
      (∃ edited, buffer.replaceLine 0 "x".toList = .ok edited ∧ edited.valid = 0 ∧
        (edited.tokensAt 0).2.valid = 3) ∧
      ∃ edited, buffer.replaceLine 0 "\"x".toList = .ok edited ∧ edited.valid = 0 ∧
        (edited.tokensAt 0).2.valid = 1 := by
  intro buffer
  have hvalid : buffer.valid = 3 := by decide
  have hcount : buffer.lineCount = 3 := by decide
  have hcut := (run_cuts_off (.elixir {}) [.setText "a\nb\nc".toList, .tokensAt 2]).1
    (by decide) 0 (by decide)
  obtain ⟨-, same, hsame, hsameValid, hsameAsked⟩ := hcut "x".toList
  obtain ⟨-, other, hother, hotherValid, hotherAsked⟩ := hcut "\"x".toList
  refine ⟨hvalid, hcount, ⟨same, hsame, hsameValid, ?_⟩, other, hother, hotherValid, ?_⟩
  · rw [hsameAsked]
    decide
  · rw [hotherAsked]
    decide

end CellHighlight.Buffer
