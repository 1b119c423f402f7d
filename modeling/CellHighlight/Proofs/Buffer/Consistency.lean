import CellHighlight.Buffer

/-!
# Consistent buffers

An edit leaves old results in place, so most of what a buffer remembers may be out
of date.  What can be relied on is local: a line that is not stale was scanned from
the state its upper neighbour ended in when that neighbour was last scanned.  Lines
that were just inserted have no such state, and then nothing is promised for the
line below them.
-/

namespace CellHighlight

def Grammar.checkpoint (grammar : Grammar) (state : GrammarState) (text : List Char) :
    Checkpoint :=
  ⟨(grammar.scanLine state text).1, (grammar.scanLine state text).2⟩

namespace BufferLine

def exit? (line : BufferLine) : Option GrammarState := line.checkpoint.map Checkpoint.state

/-- If the line is reusable and the state above it is known, its result is the one
that a scan from that state would give. -/
def Resumes (grammar : Grammar) (above : Option GrammarState) (line : BufferLine) : Prop :=
  line.reusable = true → ∀ state, above = some state →
    line.checkpoint = some (grammar.checkpoint state line.text)

@[simp] theorem text_markStale (line : BufferLine) : line.markStale.text = line.text := rfl

theorem map_text_modify_markStale (lines : List BufferLine) (index : Nat) :
    (lines.modify index markStale).map text = lines.map text := by
  induction lines generalizing index with
  | nil => simp
  | cons line lines ih => cases index <;> simp [ih]

theorem exists_checkpoint {line : BufferLine} (h : line.reusable = true) :
    ∃ checkpoint, line.checkpoint = some checkpoint := by
  rw [← Option.isSome_iff_exists]
  simp only [reusable, Bool.and_eq_true] at h
  exact h.2

theorem Resumes.of_stale {grammar : Grammar} {line : BufferLine} (h : line.stale = true)
    (above : Option GrammarState) : line.Resumes grammar above := by
  intro hreusable
  simp [reusable, h] at hreusable

theorem Resumes.of_unknown (grammar : Grammar) (line : BufferLine) :
    line.Resumes grammar none := by
  intro _ state hstate
  contradiction

end BufferLine

/-! ## Chains of lines -/

def Chained (grammar : Grammar) : Option GrammarState → List BufferLine → Prop
  | _, [] => True
  | above, line :: lines => line.Resumes grammar above ∧ Chained grammar line.exit? lines

def exitOf : Option GrammarState → List BufferLine → Option GrammarState
  | above, [] => above
  | _, line :: lines => exitOf line.exit? lines

theorem exitOf_append (above : Option GrammarState) (first second : List BufferLine) :
    exitOf above (first ++ second) = exitOf (exitOf above first) second := by
  induction first generalizing above with
  | nil => rfl
  | cons line first ih => exact ih line.exit?

namespace Chained

variable {grammar : Grammar}

theorem append_iff {above : Option GrammarState} {first second : List BufferLine} :
    Chained grammar above (first ++ second) ↔
      Chained grammar above first ∧ Chained grammar (exitOf above first) second := by
  induction first generalizing above with
  | nil => simp [Chained, exitOf]
  | cons line first ih => simp [Chained, exitOf, ih, and_assoc]

theorem split {above : Option GrammarState} {lines : List BufferLine}
    (h : Chained grammar above lines) (index : Nat) :
    Chained grammar above (lines.take index) ∧
      Chained grammar (exitOf above (lines.take index)) (lines.drop index) := by
  rw [← append_iff, List.take_append_drop]
  exact h

theorem stale_cons {above below : Option GrammarState} {line changed : BufferLine}
    {lines : List BufferLine} (h : Chained grammar above (line :: lines))
    (hexit : changed.exit? = line.exit?) (hstale : changed.stale = true) :
    Chained grammar below (changed :: lines) := by
  refine ⟨.of_stale hstale below, ?_⟩
  rw [hexit]
  exact h.2

theorem markStale_head {above : Option GrammarState} {lines : List BufferLine}
    (h : Chained grammar above lines) (below : Option GrammarState) :
    Chained grammar below (lines.modifyHead BufferLine.markStale) := by
  cases lines with
  | nil => trivial
  | cons line lines =>
      rw [List.modifyHead_cons]
      exact h.stale_cons rfl rfl

theorem of_unknown {above : Option GrammarState} {lines : List BufferLine}
    (h : Chained grammar above lines) : Chained grammar none lines := by
  cases lines with
  | nil => trivial
  | cons line lines => exact ⟨.of_unknown grammar line, h.2⟩

theorem fresh (above : Option GrammarState) (texts : List (List Char)) :
    Chained grammar above (texts.map .fresh) := by
  induction texts generalizing above with
  | nil => trivial
  | cons text texts ih => exact ⟨.of_stale rfl above, ih _⟩

theorem exitOf_fresh (above : Option GrammarState) {texts : List (List Char)}
    (h : texts ≠ []) : exitOf above (texts.map .fresh) = none := by
  induction texts generalizing above with
  | nil => contradiction
  | cons text texts ih =>
      by_cases htexts : texts = []
      · simp [htexts, exitOf, BufferLine.exit?, BufferLine.fresh]
      · exact ih _ htexts

end Chained

namespace Buffer

/-- The lines up to `valid` are known to be up to date, and every line that is not
stale can be relied on once the line above it is. -/
structure Consistent (buffer : Buffer) : Prop where
  valid_le : buffer.valid ≤ buffer.lineCount
  reusable : ∀ line ∈ buffer.lines.take buffer.valid, line.reusable = true
  chained : Chained buffer.grammar (some buffer.grammar.start) buffer.lines

def texts (buffer : Buffer) : List (List Char) := buffer.lines.map BufferLine.text

@[simp] theorem length_texts (buffer : Buffer) : buffer.texts.length = buffer.lineCount := by
  simp [texts, lineCount]

theorem line?_eq_texts (buffer : Buffer) (index : Nat) :
    buffer.line? index = buffer.texts[index]? := by
  simp [line?, texts]

theorem consistent_empty (grammar : Grammar) : (empty grammar).Consistent :=
  ⟨Nat.le_refl 0, by simp [empty], trivial⟩

/-! ## Edits -/

theorem consistent_setText (buffer : Buffer) (text : List Char) :
    (buffer.setText text).Consistent := by
  have hlines : (buffer.setText text).lines =
      ((splitLines text).map dropReturn).map .fresh := by
    simp [setText, Function.comp_def]
  refine ⟨Nat.zero_le _, by simp [setText], ?_⟩
  rw [hlines]
  exact .fresh _ _

theorem Consistent.invalidateFrom {buffer : Buffer} (h : buffer.Consistent)
    {edited : List BufferLine} {index : Nat} (hindex : index ≤ edited.length)
    (htake : edited.take index = buffer.lines.take index)
    (hchained : Chained buffer.grammar (some buffer.grammar.start) edited) :
    (Buffer.invalidateFrom { buffer with lines := edited } index).Consistent := by
  refine ⟨?_, ?_, hchained⟩
  · simp only [Buffer.invalidateFrom, lineCount]
    omega
  · intro line hline
    simp only [Buffer.invalidateFrom] at hline
    rw [← List.take_take, htake, List.take_take] at hline
    exact h.reusable line (List.take_subset_take_left _ (Nat.min_le_left _ _) hline)

theorem Consistent.replaceLine {buffer edited : Buffer} (h : buffer.Consistent)
    {index : Nat} {text : List Char} (hedit : buffer.replaceLine index text = .ok edited) :
    edited.Consistent := by
  unfold Buffer.replaceLine at hedit
  split at hedit
  · next hindex =>
      cases hedit
      have hlength : (buffer.lines.take index).length = index :=
        List.length_take_of_le (Nat.le_of_lt hindex)
      obtain ⟨hbefore, hafter⟩ := h.chained.split index
      rw [List.drop_eq_getElem_cons hindex] at hafter
      rw [List.modify_eq_take_cons_drop hindex]
      apply h.invalidateFrom
      · simp only [List.length_append, hlength]
        omega
      · rw [List.take_left' hlength]
      · exact Chained.append_iff.mpr ⟨hbefore, hafter.stale_cons rfl rfl⟩
  · contradiction

theorem Consistent.insertLines {buffer edited : Buffer} (h : buffer.Consistent)
    {index : Nat} {texts : List (List Char)}
    (hedit : buffer.insertLines index texts = .ok edited) : edited.Consistent := by
  unfold Buffer.insertLines at hedit
  split at hedit
  · next hindex =>
      cases hedit
      have hlength : (buffer.lines.take index).length = index :=
        List.length_take_of_le hindex
      obtain ⟨hbefore, hafter⟩ := h.chained.split index
      apply h.invalidateFrom
      · simp only [List.length_append, hlength]
        omega
      · rw [List.append_assoc, List.take_left' hlength]
      · rw [List.append_assoc]
        refine Chained.append_iff.mpr ⟨hbefore, Chained.append_iff.mpr ⟨.fresh _ _, ?_⟩⟩
        -- Below new lines nothing is known; without any, nothing has changed.
        by_cases htexts : texts = []
        · rw [htexts]
          exact hafter
        · rw [Chained.exitOf_fresh _ htexts]
          exact hafter.of_unknown
  · contradiction

theorem Consistent.removeLines {buffer edited : Buffer} (h : buffer.Consistent)
    {first last : Nat} (hedit : buffer.removeLines first last = .ok edited) :
    edited.Consistent := by
  unfold Buffer.removeLines at hedit
  split at hedit
  · next hrange =>
      cases hedit
      have hlength : (buffer.lines.take first).length = first :=
        List.length_take_of_le (Nat.le_trans hrange.1 hrange.2)
      have hlines : (buffer.lines.take first ++ buffer.lines.drop last).modify first
          BufferLine.markStale =
          buffer.lines.take first ++
            (buffer.lines.drop last).modifyHead BufferLine.markStale := by
        rw [List.modify_eq_take_drop, List.take_left' hlength, List.drop_left' hlength]
      rw [hlines]
      apply h.invalidateFrom
      · simp only [List.length_append, hlength]
        omega
      · rw [List.take_left' hlength]
      · exact Chained.append_iff.mpr
          ⟨(h.chained.split first).1, (h.chained.split last).2.markStale_head _⟩
  · contradiction

/-! ## Scanning -/

theorem Consistent.exitOf_valid {buffer : Buffer} (h : buffer.Consistent) :
    exitOf (some buffer.grammar.start) (buffer.lines.take buffer.valid) =
      some (buffer.stateBefore buffer.valid) := by
  cases hvalid : buffer.valid with
  | zero => rfl
  | succ index =>
      have hindex : index < buffer.lines.length := by
        have := h.valid_le
        rw [hvalid] at this
        exact this
      have htake : buffer.lines.take (index + 1) =
          buffer.lines.take index ++ [buffer.lines[index]] :=
        List.take_succ_eq_append_getElem hindex
      have hreusable : buffer.lines[index].reusable = true := by
        apply h.reusable
        rw [hvalid, htake]
        exact List.mem_append_right _ (List.mem_singleton_self _)
      obtain ⟨checkpoint, hcheckpoint⟩ := BufferLine.exists_checkpoint hreusable
      rw [htake, exitOf_append]
      simp [exitOf, BufferLine.exit?, stateBefore, List.getElem?_eq_getElem hindex,
        hcheckpoint]

theorem scanNext_eq (grammar : Grammar) (done : List BufferLine) (line : BufferLine)
    (rest : List BufferLine) (state : GrammarState)
    (hstate : stateBefore ⟨grammar, done ++ line :: rest, done.length⟩ done.length = state) :
    scanNext ⟨grammar, done ++ line :: rest, done.length⟩ =
      let result := grammar.checkpoint state line.text
      let scanned : BufferLine := ⟨line.text, some result, false⟩
      if line.exit? = some result.state then
        ⟨grammar, done ++ scanned :: rest,
          done.length + 1 + (rest.takeWhile BufferLine.reusable).length⟩
      else
        ⟨grammar, done ++ scanned :: rest.modifyHead BufferLine.markStale,
          done.length + 1⟩ := by
  subst hstate
  have hdrop (scanned : BufferLine) :
      (done ++ scanned :: rest).drop (done.length + 1) = rest := by
    simp [List.drop_append]
  have hmodify (scanned : BufferLine) :
      (done ++ scanned :: rest).modify (done.length + 1) BufferLine.markStale =
        done ++ scanned :: rest.modifyHead BufferLine.markStale := by
    rw [List.modify_eq_take_drop, hdrop, List.append_cons, List.take_left' (by simp)]
    simp
  simp [scanNext, hdrop, hmodify, Grammar.checkpoint, BufferLine.exit?]

theorem exists_next (buffer : Buffer) (h : buffer.valid < buffer.lineCount) :
    ∃ done line rest, buffer = ⟨buffer.grammar, done ++ line :: rest, done.length⟩ := by
  obtain ⟨grammar, lines, valid⟩ := buffer
  refine ⟨lines.take valid, lines[valid], lines.drop (valid + 1), ?_⟩
  rw [← List.drop_eq_getElem_cons h, List.take_append_drop,
    List.length_take_of_le (Nat.le_of_lt h)]

theorem scanNext_of_all_valid {buffer : Buffer} (h : buffer.lineCount ≤ buffer.valid) :
    buffer.scanNext = buffer := by
  unfold scanNext
  rw [List.getElem?_eq_none h]

theorem Consistent.of_append {grammar : Grammar} {lines : List BufferLine} {valid : Nat}
    (known others : List BufferLine) (hlines : lines = known ++ others)
    (hvalid : valid = known.length)
    (hreusable : ∀ line ∈ known, line.reusable = true)
    (hchained : Chained grammar (some grammar.start) lines) :
    Consistent ⟨grammar, lines, valid⟩ := by
  subst hlines hvalid
  refine ⟨?_, ?_, hchained⟩
  · simp [lineCount]
  · rw [List.take_left]
    exact hreusable

theorem Consistent.scanNext {buffer : Buffer} (h : buffer.Consistent) :
    buffer.scanNext.Consistent := by
  by_cases hvalid : buffer.valid < buffer.lineCount
  · have hexit := h.exitOf_valid
    have hreusable := h.reusable
    have hchained := h.chained
    obtain ⟨done, line, rest, hbuffer⟩ := buffer.exists_next hvalid
    generalize buffer.grammar = grammar at hbuffer
    subst hbuffer
    dsimp only at hexit hreusable hchained
    rw [List.take_left] at hexit hreusable
    rw [Chained.append_iff, hexit] at hchained
    obtain ⟨hdone, -, hrest⟩ := hchained
    rw [scanNext_eq _ _ _ _ _ rfl]
    generalize stateBefore _ _ = state at hexit
    have hscanned : BufferLine.Resumes grammar (some state)
        ⟨line.text, some (grammar.checkpoint state line.text), false⟩ := by
      rintro - state' ⟨⟩
      rfl
    dsimp only
    split
    · next hsame =>
        apply Consistent.of_append
          (done ++ ⟨line.text, some (grammar.checkpoint state line.text), false⟩ ::
            rest.takeWhile BufferLine.reusable)
          (rest.dropWhile BufferLine.reusable)
        · simp
        · simp only [List.length_append, List.length_cons]
          omega
        · intro other hother
          rcases List.mem_append.mp hother with hother | hother
          · exact hreusable other hother
          · rcases List.mem_cons.mp hother with rfl | hother
            · rfl
            · exact List.all_eq_true.mp List.all_takeWhile other hother
        · -- The end state is what it was, so the lines below still follow from it.
          refine Chained.append_iff.mpr ⟨hdone, ?_⟩
          rw [hexit]
          rw [hsame] at hrest
          exact ⟨hscanned, hrest⟩
    · apply Consistent.of_append
        (done ++ [⟨line.text, some (grammar.checkpoint state line.text), false⟩])
        (rest.modifyHead BufferLine.markStale)
      · simp
      · simp
      · intro other hother
        rcases List.mem_append.mp hother with hother | hother
        · exact hreusable other hother
        · rw [List.mem_singleton.mp hother]
          rfl
      · refine Chained.append_iff.mpr ⟨hdone, ?_⟩
        rw [hexit]
        exact ⟨hscanned, hrest.markStale_head _⟩
  · rw [scanNext_of_all_valid (Nat.le_of_not_lt hvalid)]
    exact h

theorem scanNext_keeps (buffer : Buffer) :
    buffer.scanNext.grammar = buffer.grammar ∧ buffer.scanNext.texts = buffer.texts := by
  by_cases hvalid : buffer.valid < buffer.lineCount
  · obtain ⟨done, line, rest, hbuffer⟩ := buffer.exists_next hvalid
    rw [hbuffer, scanNext_eq _ _ _ _ _ rfl]
    dsimp only
    split
    · simp [texts]
    · simp [texts, List.modifyHead_eq_modify_zero, BufferLine.map_text_modify_markStale]
  · rw [scanNext_of_all_valid (Nat.le_of_not_lt hvalid)]
    exact ⟨rfl, rfl⟩

theorem valid_lt_scanNext {buffer : Buffer} (h : buffer.valid < buffer.lineCount) :
    buffer.valid < buffer.scanNext.valid := by
  obtain ⟨done, line, rest, hbuffer⟩ := buffer.exists_next h
  rw [hbuffer, scanNext_eq _ _ _ _ _ rfl]
  dsimp only
  split
  · dsimp only
    omega
  · exact Nat.lt_succ_self _

theorem Consistent.scanRounds {buffer : Buffer} (h : buffer.Consistent)
    (index rounds : Nat) : (Buffer.scanRounds index rounds buffer).Consistent := by
  induction rounds generalizing buffer with
  | zero => exact h
  | succ rounds ih =>
      unfold Buffer.scanRounds
      split
      · exact ih h.scanNext
      · exact h

theorem scanRounds_keeps (index rounds : Nat) (buffer : Buffer) :
    (scanRounds index rounds buffer).grammar = buffer.grammar ∧
      (scanRounds index rounds buffer).texts = buffer.texts := by
  induction rounds generalizing buffer with
  | zero => exact ⟨rfl, rfl⟩
  | succ rounds ih =>
      unfold scanRounds
      split
      · rw [(ih buffer.scanNext).1, (ih buffer.scanNext).2]
        exact buffer.scanNext_keeps
      · exact ⟨rfl, rfl⟩

/-- Every round brings at least one more line up to date, so there are rounds enough. -/
theorem lt_valid_scanRounds {index rounds : Nat} {buffer : Buffer}
    (hindex : index < buffer.lineCount) (hrounds : index + 1 ≤ buffer.valid + rounds) :
    index < (scanRounds index rounds buffer).valid := by
  induction rounds generalizing buffer with
  | zero => exact hrounds
  | succ rounds ih =>
      unfold scanRounds
      split
      · next hle =>
          have hlt := valid_lt_scanNext (Nat.lt_of_le_of_lt hle hindex)
          apply ih
          · rw [← length_texts, buffer.scanNext_keeps.2, length_texts]
            exact hindex
          · omega
      · next hle => exact Nat.lt_of_not_le hle

/-! ## What a buffer that is up to date knows -/

end Buffer

/-- Reusable lines in a chain hold the results of scanning their texts in one go. -/
theorem Chained.eq_scanLines {grammar : Grammar} {state : GrammarState}
    {lines : List BufferLine} (h : Chained grammar (some state) lines)
    (hreusable : ∀ line ∈ lines, line.reusable = true) :
    exitOf (some state) lines =
        some (grammar.scanLines state (lines.map BufferLine.text)).2 ∧
      lines.map (fun line => line.checkpoint.map Checkpoint.tokens) =
        (grammar.scanLines state (lines.map BufferLine.text)).1.map some := by
  induction lines generalizing state with
  | nil => exact ⟨rfl, rfl⟩
  | cons line lines ih =>
      have hline := h.1 (hreusable line List.mem_cons_self) state rfl
      have hexit : line.exit? = some (grammar.scanLine state line.text).2 := by
        simp [BufferLine.exit?, hline, Grammar.checkpoint]
      have hlines := h.2
      rw [hexit] at hlines
      obtain ⟨hstate, htokens⟩ :=
        ih hlines fun other hother => hreusable other (List.mem_cons_of_mem _ hother)
      constructor
      · rw [exitOf, hexit, hstate]
        rfl
      · rw [List.map_cons, htokens, hline]
        rfl

namespace Buffer

theorem Consistent.checkpoint_eq {buffer : Buffer} (h : buffer.Consistent) {index : Nat}
    (hindex : index < buffer.valid) :
    let scan := buffer.grammar.scanLines buffer.grammar.start
      (buffer.texts.take (index + 1))
    ∃ checkpoint, buffer.lines[index]?.bind BufferLine.checkpoint = some checkpoint ∧
      scan.1[index]? = some checkpoint.tokens ∧ scan.2 = checkpoint.state := by
  intro scan
  have hlength : index < buffer.lines.length := Nat.lt_of_lt_of_le hindex h.valid_le
  have htake : buffer.lines.take (index + 1) =
      buffer.lines.take index ++ [buffer.lines[index]] :=
    List.take_succ_eq_append_getElem hlength
  have hreusable : ∀ line ∈ buffer.lines.take (index + 1), line.reusable = true :=
    fun line hline => h.reusable line (List.take_subset_take_left _ hindex hline)
  have hmem : buffer.lines[index] ∈ buffer.lines.take (index + 1) := by
    rw [htake]
    exact List.mem_append_right _ (List.mem_singleton_self _)
  obtain ⟨checkpoint, hcheckpoint⟩ := BufferLine.exists_checkpoint (hreusable _ hmem)
  have hscan : scan = buffer.grammar.scanLines buffer.grammar.start
      ((buffer.lines.take (index + 1)).map BufferLine.text) := by
    simp [scan, texts, List.map_take]
  obtain ⟨hstate, htokens⟩ := (h.chained.split (index + 1)).1.eq_scanLines hreusable
  rw [← hscan] at hstate htokens
  refine ⟨checkpoint, ?_, ?_, ?_⟩
  · simp [List.getElem?_eq_getElem hlength, hcheckpoint]
  · have hget := congrArg (fun tokens => tokens[index]?) htokens
    simp only [List.getElem?_map, List.getElem?_take_of_lt (Nat.lt_succ_self index),
      List.getElem?_eq_getElem hlength, Option.map_some, hcheckpoint] at hget
    obtain ⟨tokens, htokens, heq⟩ := Option.map_eq_some_iff.mp hget.symm
    rw [htokens, heq]
  · rw [htake, exitOf_append] at hstate
    simpa [exitOf, BufferLine.exit?, hcheckpoint, eq_comm] using hstate

end Buffer

end CellHighlight
