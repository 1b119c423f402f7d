import CellHighlight.Proofs.Buffer.Consistency

/-!
# A buffer is a list of lines

Seen from outside, a buffer is a plain list of lines that is scanned from its
beginning for every question.  What it remembers between questions, and how little
it scans again after an edit, never shows in an answer.
-/

namespace CellHighlight

inductive Action
  | setText (text : List Char)
  | replaceLine (index : Nat) (text : List Char)
  | insertLines (index : Nat) (texts : List (List Char))
  | removeLines (first last : Nat)
  | tokensAt (index : Nat)
  | stateAfter (index : Nat)

inductive Answer
  | edited (result : Except EditError Unit)
  | tokens (result : Option (List Token))
  | state (result : Option GrammarState)

namespace Buffer

def finishEdit (buffer : Buffer) : Except EditError Buffer → Answer × Buffer
  | .ok edited => (.edited (.ok ()), edited)
  | .error error => (.edited (.error error), buffer)

def perform (buffer : Buffer) : Action → Answer × Buffer
  | .setText text => (.edited (.ok ()), buffer.setText text)
  | .replaceLine index text => buffer.finishEdit (buffer.replaceLine index text)
  | .insertLines index texts => buffer.finishEdit (buffer.insertLines index texts)
  | .removeLines first last => buffer.finishEdit (buffer.removeLines first last)
  | .tokensAt index => (.tokens (buffer.tokensAt index).1, (buffer.tokensAt index).2)
  | .stateAfter index => (.state (buffer.stateAfter index).1, (buffer.stateAfter index).2)

def run (buffer : Buffer) : List Action → List Answer × Buffer
  | [] => ([], buffer)
  | action :: actions =>
      let (answer, buffer) := buffer.perform action
      let (answers, buffer) := buffer.run actions
      (answer :: answers, buffer)

end Buffer

/-! ## Documents -/

structure Document where
  grammar : Grammar
  lines : List (List Char)

namespace Document

def refusal? (document : Document) : Action → Option EditError
  | .replaceLine index _ =>
      if document.lines.length ≤ index then
        some (.lineOutOfRange index document.lines.length)
      else none
  | .insertLines index _ =>
      if document.lines.length < index then
        some (.lineOutOfRange index document.lines.length)
      else none
  | .removeLines first last =>
      if last < first ∨ document.lines.length < last then
        some (.lineOutOfRange last document.lines.length)
      else none
  | _ => none

def linesAfter (document : Document) : Action → List (List Char)
  | .setText text => (text.splitOn '\n').map dropReturn
  | .replaceLine index text => document.lines.set index text
  | .insertLines index texts => document.lines.take index ++ texts ++ document.lines.drop index
  | .removeLines first last => document.lines.take first ++ document.lines.drop last
  | .tokensAt _ => document.lines
  | .stateAfter _ => document.lines

def scanTo (document : Document) (index : Nat) : List (List Token) × GrammarState :=
  document.grammar.scanLines document.grammar.start (document.lines.take (index + 1))

def tokensAt (document : Document) (index : Nat) : Option (List Token) :=
  if index < document.lines.length then (document.scanTo index).1[index]? else none

def stateAfter (document : Document) (index : Nat) : Option GrammarState :=
  if index < document.lines.length then some (document.scanTo index).2 else none

def answer (document : Document) : Action → Answer
  | .tokensAt index => .tokens (document.tokensAt index)
  | .stateAfter index => .state (document.stateAfter index)
  | _ => .edited (.ok ())

def perform (document : Document) (action : Action) : Answer × Document :=
  match document.refusal? action with
  | some error => (.edited (.error error), document)
  | none => (document.answer action, { document with lines := document.linesAfter action })

def run (document : Document) : List Action → List Answer × Document
  | [] => ([], document)
  | action :: actions =>
      let (answer, document) := document.perform action
      let (answers, document) := document.run actions
      (answer :: answers, document)

end Document

/-! ## One action -/

theorem splitLines_eq_splitOn (text : List Char) : splitLines text = text.splitOn '\n' := by
  induction text with
  | nil => rfl
  | cons c text ih =>
      rw [splitLines, List.splitOn_cons_eq_if_modifyHead, ih]
      by_cases hc : c = '\n'
      · simp [hc]
      · cases hlines : text.splitOn '\n' with
        | nil => exact absurd hlines (List.splitOn_ne_nil _ _)
        | cons line lines => simp [hc]

structure Buffer.Holds (buffer : Buffer) (document : Document) : Prop where
  consistent : buffer.Consistent
  grammar : buffer.grammar = document.grammar
  texts : buffer.texts = document.lines

namespace Buffer

variable {buffer : Buffer} {document : Document}

theorem Holds.lineCount (h : buffer.Holds document) :
    buffer.lineCount = document.lines.length := by
  rw [← length_texts, h.texts]

theorem Holds.scanThrough (h : buffer.Holds document) (index : Nat) :
    (buffer.scanThrough index).Holds document := by
  obtain ⟨hgrammar, htexts⟩ := scanRounds_keeps index (index + 1 - buffer.valid) buffer
  exact ⟨h.consistent.scanRounds _ _, hgrammar.trans h.grammar, htexts.trans h.texts⟩

theorem Holds.checkpointAt (h : buffer.Holds document) (index : Nat) :
    (buffer.checkpointAt index).2.Holds document := by
  unfold Buffer.checkpointAt
  split
  · exact h.scanThrough index
  · exact h

theorem Holds.checkpointAt_eq (h : buffer.Holds document) (index : Nat) :
    (buffer.checkpointAt index).1.map Checkpoint.tokens = document.tokensAt index ∧
      (buffer.checkpointAt index).1.map Checkpoint.state = document.stateAfter index := by
  unfold Buffer.checkpointAt Document.tokensAt Document.stateAfter
  rw [← h.lineCount]
  split
  · next hindex =>
      have hscan := h.scanThrough index
      have hvalid : index < (buffer.scanThrough index).valid :=
        lt_valid_scanRounds hindex (by omega)
      obtain ⟨checkpoint, hcheckpoint, htokens, hstate⟩ :=
        hscan.consistent.checkpoint_eq hvalid
      rw [hscan.grammar, hscan.texts] at htokens hstate
      simp [hcheckpoint, Document.scanTo, htokens, hstate]
  · exact ⟨rfl, rfl⟩

theorem Holds.setText (h : buffer.Holds document) (text : List Char) :
    (buffer.setText text).Holds
      { document with lines := (text.splitOn '\n').map dropReturn } := by
  refine ⟨consistent_setText buffer text, h.grammar, ?_⟩
  simp [Buffer.texts, Buffer.setText, BufferLine.fresh, splitLines_eq_splitOn]

/-- An edit of a buffer does what it does to a document: both refuse it with the
same error, or both carry it out. -/
def Follows (result : Except EditError Buffer) (document : Document) (action : Action) :
    Prop :=
  match document.refusal? action with
  | some error => result = .error error
  | none => ∃ edited, result = .ok edited ∧
      edited.Holds { document with lines := document.linesAfter action }

theorem Holds.replaceLine (h : buffer.Holds document) (index : Nat) (text : List Char) :
    Follows (buffer.replaceLine index text) document (.replaceLine index text) := by
  simp only [Follows, Document.refusal?, Document.linesAfter, ← h.lineCount]
  by_cases hindex : index < buffer.lineCount
  · rw [if_neg (Nat.not_le_of_lt hindex)]
    refine ⟨_, if_pos hindex, h.consistent.replaceLine (if_pos hindex), h.grammar, ?_⟩
    have hdocument : index < document.lines.length := by
      rw [← h.lineCount]
      exact hindex
    simp only [Buffer.texts, Buffer.invalidateFrom]
    rw [List.modify_eq_take_cons_drop hindex, List.set_eq_take_append_cons_drop,
      if_pos hdocument, ← h.texts]
    simp [Buffer.texts, List.map_take, List.map_drop]
  · rw [if_pos (Nat.le_of_not_lt hindex)]
    exact if_neg hindex

theorem Holds.insertLines (h : buffer.Holds document) (index : Nat)
    (texts : List (List Char)) :
    Follows (buffer.insertLines index texts) document (.insertLines index texts) := by
  simp only [Follows, Document.refusal?, Document.linesAfter, ← h.lineCount]
  by_cases hindex : index ≤ buffer.lineCount
  · rw [if_neg (Nat.not_lt_of_le hindex)]
    refine ⟨_, if_pos hindex, h.consistent.insertLines (if_pos hindex), h.grammar, ?_⟩
    rw [← h.texts]
    simp [Buffer.texts, Buffer.invalidateFrom, BufferLine.fresh, List.map_take,
      List.map_drop, Function.comp_def]
  · rw [if_pos (Nat.lt_of_not_le hindex)]
    exact if_neg hindex

theorem Holds.removeLines (h : buffer.Holds document) (first last : Nat) :
    Follows (buffer.removeLines first last) document (.removeLines first last) := by
  simp only [Follows, Document.refusal?, Document.linesAfter, ← h.lineCount]
  by_cases hrange : first ≤ last ∧ last ≤ buffer.lineCount
  · rw [if_neg (by omega)]
    refine ⟨_, if_pos hrange, h.consistent.removeLines (if_pos hrange), h.grammar, ?_⟩
    rw [← h.texts]
    simp only [Buffer.texts, Buffer.invalidateFrom]
    rw [BufferLine.map_text_modify_markStale]
    simp [List.map_take, List.map_drop]
  · rw [if_pos (by omega)]
    exact if_neg hrange

theorem Holds.perform (h : buffer.Holds document) (action : Action) :
    (buffer.perform action).1 = (document.perform action).1 ∧
      (buffer.perform action).2.Holds (document.perform action).2 := by
  have hedit {result : Except EditError Buffer} (hfollows : Follows result document action)
      (hanswer : document.answer action = .edited (.ok ())) :
      (buffer.finishEdit result).1 = (document.perform action).1 ∧
        (buffer.finishEdit result).2.Holds (document.perform action).2 := by
    unfold Follows at hfollows
    unfold Document.perform
    cases hrefusal : document.refusal? action with
    | some error =>
        rw [hrefusal] at hfollows
        rw [hfollows]
        exact ⟨rfl, h⟩
    | none =>
        rw [hrefusal] at hfollows
        obtain ⟨edited, hresult, hholds⟩ := hfollows
        rw [hresult, hanswer]
        exact ⟨rfl, hholds⟩
  cases action with
  | setText text => exact ⟨rfl, h.setText text⟩
  | replaceLine index text => exact hedit (h.replaceLine index text) rfl
  | insertLines index texts => exact hedit (h.insertLines index texts) rfl
  | removeLines first last => exact hedit (h.removeLines first last) rfl
  | tokensAt index =>
      exact ⟨congrArg Answer.tokens (h.checkpointAt_eq index).1, h.checkpointAt index⟩
  | stateAfter index =>
      exact ⟨congrArg Answer.state (h.checkpointAt_eq index).2, h.checkpointAt index⟩

/-! ## Sequences of actions -/

theorem holds_empty (grammar : Grammar) : (empty grammar).Holds ⟨grammar, []⟩ :=
  ⟨consistent_empty grammar, rfl, rfl⟩

theorem Holds.run (h : buffer.Holds document) (actions : List Action) :
    (buffer.run actions).1 = (document.run actions).1 ∧
      (buffer.run actions).2.Holds (document.run actions).2 := by
  induction actions generalizing buffer document with
  | nil => exact ⟨rfl, h⟩
  | cons action actions ih =>
      obtain ⟨hanswer, hholds⟩ := h.perform action
      obtain ⟨hanswers, hrun⟩ := ih hholds
      refine ⟨?_, hrun⟩
      simp only [Buffer.run, Document.run]
      rw [hanswer, hanswers]

end Buffer

def Action.isEdit : Action → Bool
  | .tokensAt _ => false
  | .stateAfter _ => false
  | _ => true

theorem Grammar.length_scanLines (grammar : Grammar) (state : GrammarState)
    (lines : List (List Char)) : (grammar.scanLines state lines).1.length = lines.length := by
  induction lines generalizing state with
  | nil => rfl
  | cons line lines ih => simp [scanLines, ih]

namespace Document

theorem grammar_perform (document : Document) (action : Action) :
    (document.perform action).2.grammar = document.grammar := by
  unfold perform
  split <;> rfl

theorem grammar_run (document : Document) (actions : List Action) :
    (document.run actions).2.grammar = document.grammar := by
  induction actions generalizing document with
  | nil => rfl
  | cons action actions ih => exact (ih _).trans (document.grammar_perform action)

theorem perform_of_question (document : Document) {action : Action}
    (h : action.isEdit = false) : (document.perform action).2 = document := by
  cases action <;> simp [Action.isEdit] at h <;> rfl

/-- Questions leave no trace. -/
theorem run_filter_isEdit (document : Document) (actions : List Action) :
    (document.run (actions.filter Action.isEdit)).2 = (document.run actions).2 := by
  induction actions generalizing document with
  | nil => rfl
  | cons action actions ih =>
      cases hedit : action.isEdit with
      | false =>
          rw [List.filter_cons_of_neg (by simp [hedit]), ih]
          simp only [run]
          rw [perform_of_question document hedit]
      | true =>
          rw [List.filter_cons_of_pos hedit]
          exact ih (document.perform action).2

theorem tokensAt_eq_none_iff (document : Document) (index : Nat) :
    document.tokensAt index = none ↔ document.lines.length ≤ index := by
  unfold tokensAt
  split
  · rw [List.getElem?_eq_none_iff, scanTo, Grammar.length_scanLines, List.length_take]
    omega
  · simp
    omega

theorem stateAfter_eq_none_iff (document : Document) (index : Nat) :
    document.stateAfter index = none ↔ document.lines.length ≤ index := by
  unfold stateAfter
  split
  · simp
    omega
  · simp
    omega

end Document

namespace Buffer

theorem Follows.eq_error_iff {result : Except EditError Buffer} {document : Document}
    {action : Action} (h : Follows result document action) (error : EditError) :
    result = .error error ↔ document.refusal? action = some error := by
  unfold Follows at h
  cases hrefusal : document.refusal? action with
  | some refused =>
      rw [hrefusal] at h
      rw [h]
      simp
  | none =>
      rw [hrefusal] at h
      obtain ⟨edited, hresult, -⟩ := h
      rw [hresult]
      simp

theorem perform_of_refused (buffer : Buffer) {action : Action} {error : EditError}
    (h : (buffer.perform action).1 = .edited (.error error)) :
    (buffer.perform action).2 = buffer := by
  have hfinish {result : Except EditError Buffer}
      (hresult : (buffer.finishEdit result).1 = .edited (.error error)) :
      (buffer.finishEdit result).2 = buffer := by
    cases result with
    | ok edited => simp [finishEdit] at hresult
    | error error => rfl
  cases action with
  | setText text => simp [perform] at h
  | replaceLine index text => exact hfinish h
  | insertLines index texts => exact hfinish h
  | removeLines first last => exact hfinish h
  | tokensAt index => simp [perform] at h
  | stateAfter index => simp [perform] at h

/-- After any sequence of edits and questions a buffer has given the answers of the
plain document, holds its lines, refuses exactly the edits that reach past the end
and is then unchanged, and answers every question by the scan of the lines from the
first one on, as if no question had been asked before. -/
theorem run_refines_document (grammar : Grammar) (actions : List Action) :
    let buffer := ((empty grammar).run actions).2
    let document := (Document.run ⟨grammar, []⟩ actions).2
    ((empty grammar).run actions).1 = (Document.run ⟨grammar, []⟩ actions).1 ∧
      (buffer.lineCount = document.lines.length ∧
        ∀ index, buffer.line? index = document.lines[index]?) ∧
      (∀ index text error, buffer.replaceLine index text = .error error ↔
        buffer.lineCount ≤ index ∧ error = .lineOutOfRange index buffer.lineCount) ∧
      (∀ index texts error, buffer.insertLines index texts = .error error ↔
        buffer.lineCount < index ∧ error = .lineOutOfRange index buffer.lineCount) ∧
      (∀ first last error, buffer.removeLines first last = .error error ↔
        (last < first ∨ buffer.lineCount < last) ∧
          error = .lineOutOfRange last buffer.lineCount) ∧
      (∀ action error, (buffer.perform action).1 = .edited (.error error) →
        (buffer.perform action).2 = buffer) ∧
      (∀ index,
        let scan := grammar.scanLines grammar.start (document.lines.take (index + 1))
        (buffer.tokensAt index).1 =
            (if index < buffer.lineCount then scan.1[index]? else none) ∧
          (buffer.stateAfter index).1 =
            (if index < buffer.lineCount then some scan.2 else none) ∧
          ((buffer.tokensAt index).1 = none ↔ buffer.lineCount ≤ index) ∧
          ((buffer.stateAfter index).1 = none ↔ buffer.lineCount ≤ index)) ∧
      ∀ index,
        let unasked := ((empty grammar).run (actions.filter Action.isEdit)).2
        (buffer.tokensAt index).1 = (unasked.tokensAt index).1 ∧
          (buffer.stateAfter index).1 = (unasked.stateAfter index).1 := by
  intro buffer document
  obtain ⟨hanswers, hholds⟩ := (holds_empty grammar).run actions
  have hunasked := ((holds_empty grammar).run (actions.filter Action.isEdit)).2
  rw [Document.run_filter_isEdit] at hunasked
  have hgrammar : document.grammar = grammar := Document.grammar_run ⟨grammar, []⟩ actions
  refine ⟨hanswers, ⟨hholds.lineCount, ?_⟩, ?_, ?_, ?_, ?_, ?_, ?_⟩
  · intro index
    rw [line?_eq_texts, hholds.texts]
  · intro index text error
    rw [(hholds.replaceLine index text).eq_error_iff, hholds.lineCount]
    simp [Document.refusal?, eq_comm]
  · intro index texts error
    rw [(hholds.insertLines index texts).eq_error_iff, hholds.lineCount]
    simp [Document.refusal?, eq_comm]
  · intro first last error
    rw [(hholds.removeLines first last).eq_error_iff, hholds.lineCount]
    simp [Document.refusal?, eq_comm]
  · intro action error
    exact buffer.perform_of_refused
  · intro index scan
    have htokens : (buffer.tokensAt index).1 = document.tokensAt index :=
      (hholds.checkpointAt_eq index).1
    have hstate : (buffer.stateAfter index).1 = document.stateAfter index :=
      (hholds.checkpointAt_eq index).2
    have hscan : document.scanTo index = scan := by
      simp only [Document.scanTo, hgrammar, scan]
    rw [htokens, hstate, document.tokensAt_eq_none_iff, document.stateAfter_eq_none_iff,
      hholds.lineCount, Document.tokensAt, Document.stateAfter, hscan]
    exact ⟨rfl, rfl, Iff.rfl, Iff.rfl⟩
  · intro index unasked
    exact ⟨(hholds.checkpointAt_eq index).1.trans (hunasked.checkpointAt_eq index).1.symm,
      (hholds.checkpointAt_eq index).2.trans (hunasked.checkpointAt_eq index).2.symm⟩

end Buffer

end CellHighlight
