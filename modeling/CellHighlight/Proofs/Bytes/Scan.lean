import CellHighlight.Proofs.Bytes.Frames
import CellHighlight.Proofs.Bytes.RTokens
import CellHighlight.Proofs.Bytes.Seeking
import CellHighlight.Proofs.Coverage

/-!
# Scanning in bytes

Scanners are defined on views, where no text can be torn.  Here a grammar is run on a
cursor: delimiters are sought in the bytes of the line, the limit of the cursor is pulled
in and set back, the languages read their tokens move by move, and every text is read
between byte offsets, which fails inside a character.  It never does: the run in bytes is
the run on views.
-/

namespace CellHighlight

/-! ## Scanners on cursors -/

structure CursorScanner (σ : Type) where
  start : σ
  step : Cursor → σ → Except CursorError (Style × Cursor × σ)

def CursorScanner.ofReading {σ : Type} (start : σ) (read : σ → Reading (Style × σ)) :
    CursorScanner σ where
  start := start
  step cursor state := do
    let ((style, state), cursor) ← read state cursor
    return (style, cursor, state)

def readPlain (state : Unit) : Reading (Style × Unit) := do
  Reading.skipToEnd
  return (.plain, state)

def Cursor.limited {σ : Type} (cursor : Cursor) (stop : Option Nat)
    (step : Cursor → Except CursorError (Style × Cursor × σ)) :
    Except CursorError (Style × Cursor × σ) :=
  match stop with
  | none => step cursor
  | some stop =>
      (step (cursor.limitTo stop)).map fun (style, after, state) =>
        (style, after.restoreLimit cursor.stop, state)

namespace Region

variable {γ τ : Type}

def openedInBytes (text : List Char) (pos : Nat) :
    List (Region γ) → Except CursorError (Option (Nat × Region γ × Nat))
  | [] => return none
  | region :: regions => do
      match ← region.opener.seekAt text pos with
      | some length => return some (0, region, length)
      | none =>
          return (← openedInBytes text pos regions).map fun found => (found.1 + 1, found.2)

def nextOpeningInBytes (text : List Char) (pos : Nat) :
    List (Region γ) → Except CursorError (Option Nat)
  | [] => return none
  | region :: regions => do
      let found ← region.opener.seek text pos
      return (found.map Prod.fst).merge min (← nextOpeningInBytes text pos regions)

def nextClosingInBytes (closer : Pattern) (text : List Char) (pos : Nat) (opening : Bool) :
    Except CursorError (Option (Nat × Nat)) :=
  if opening then return none else closer.seek text pos

def outerStepAt (outer : CursorScanner τ) (regions : List (Region (CursorScanner τ)))
    (cursor : Cursor) (state : MixedState τ) :
    Except CursorError (Style × Cursor × MixedState τ) := do
  let text ← cursor.visible
  match ← openedInBytes text cursor.pos regions with
  | some (index, region, length) =>
      return (region.delimiterStyle .opening,
        if region.scansDelimiters then cursor else cursor.advance length,
        { state with
          region := some index
          inner := some region.content.start
          opening := region.scansDelimiters })
  | none =>
      let stop ← nextOpeningInBytes text cursor.pos regions
      let (style, cursor, moved) ← cursor.limited stop fun cursor =>
        outer.step cursor state.outer
      return (style, cursor, { state with outer := moved })

def contentStepAt (region : Region (CursorScanner τ)) (stop : Option Nat) (cursor : Cursor)
    (state : MixedState τ) : Except CursorError (Style × Cursor × MixedState τ) := do
  let (style, cursor, inner) ← cursor.limited stop fun cursor =>
    region.content.step cursor (state.inner.getD region.content.start)
  let state :=
    { state with
      inner := some inner
      opening := state.opening && (stop.isSome || cursor.pos ≤ cursor.start) }
  return (style, cursor,
    if region.scansDelimiters && stop == some cursor.pos then state.leave else state)

def innerStepAt (region : Region (CursorScanner τ)) (found : Option (Nat × Nat))
    (cursor : Cursor) (state : MixedState τ) :
    Except CursorError (Style × Cursor × MixedState τ) :=
  match found with
  | none => region.contentStepAt none cursor state
  | some (start, length) =>
      if region.scansDelimiters then region.contentStepAt (some (start + length)) cursor state
      else if start = cursor.pos then
        return (region.delimiterStyle .closing, cursor.advance length, state.leave)
      else region.contentStepAt (some start) cursor state

def mixedStepAt (outer : CursorScanner τ) (regions : List (Region (CursorScanner τ)))
    (cursor : Cursor) (state : MixedState τ) :
    Except CursorError (Style × Cursor × MixedState τ) :=
  match state.region with
  | none => outerStepAt outer regions cursor state
  | some index =>
      match regions[index]? with
      | none => outerStepAt outer regions cursor state.leave
      | some region =>
          match region.closer with
          | none =>
              if cursor.atLineStart then outerStepAt outer regions cursor state.leave
              else region.contentStepAt none cursor state
          | some closer => do
              let text ← cursor.visible
              let found ← nextClosingInBytes closer text cursor.pos state.opening
              region.innerStepAt found cursor state

def mixedOnCursor (outer : CursorScanner τ) (regions : List (Region (CursorScanner τ))) :
    CursorScanner (MixedState τ) where
  start := ⟨outer.start, none, none, false⟩
  step := mixedStepAt outer regions

end Region

def CursorScanner.within {σ τ : Type} (scanner : CursorScanner σ) (wrap : σ → τ)
    (unwrap : τ → Option σ) : CursorScanner τ where
  start := wrap scanner.start
  step cursor state :=
    (scanner.step cursor ((unwrap state).getD scanner.start)).map fun (style, cursor, state) =>
      (style, cursor, wrap state)

mutual

def Grammar.onCursor : Grammar → CursorScanner GrammarState
  | .elixir options =>
      (CursorScanner.ofReading (.start options) (Elixir.readStep options)).within
        .elixir GrammarState.elixir?
  | .plainText =>
      (CursorScanner.ofReading () readPlain).within (fun _ => .plainText) GrammarState.plainText?
  | .r => (CursorScanner.ofReading ⟨none⟩ R.readStep).within .r GrammarState.r?
  | .mixed outer regions =>
      (Region.mixedOnCursor outer.onCursor (regionsOnCursor regions)).within
        .mixed GrammarState.mixed?

def Region.onCursor : Region Grammar → Region (CursorScanner GrammarState)
  | ⟨opener, closer, content, delimited, scansDelimiters⟩ =>
      ⟨opener, closer, content.onCursor, delimited, scansDelimiters⟩

def regionsOnCursor : List (Region Grammar) → List (Region (CursorScanner GrammarState))
  | [] => []
  | region :: regions => region.onCursor :: regionsOnCursor regions

end

/-! ## Steps in bytes and steps on views -/

def Step.moved {σ : Type} (step : Step σ) (view : View) : Style × Cursor × σ :=
  (step.style, view.cursorAfter step.length, step.state)

/-- A scanner on cursors that takes the steps of a scanner on views, and so does not
fail at the cursor of a view. -/
structure CursorScanner.Follows {σ : Type} (bytes : CursorScanner σ) (scanner : Scanner σ) :
    Prop where
  start : bytes.start = scanner.start
  inBounds : scanner.InBounds
  step : ∀ view state, bytes.step view.cursor state = .ok ((scanner.step view state).moved view)

theorem CursorScanner.ofReading_follows {σ : Type} {scanner : Scanner σ}
    (hbounds : scanner.InBounds) {read : σ → Reading (Style × σ)}
    (hread : ∀ view state, (read state).Reads view
      ((scanner.step view state).style, (scanner.step view state).state)
      (view.take (scanner.step view state).length)) :
    (ofReading scanner.start read).Follows scanner := by
  refine ⟨rfl, hbounds, fun view state => ?_⟩
  rw [Step.moved, ← View.cursor_take]
  simp only [ofReading, (hread view state).run_eq, ok_bind]
  rfl

theorem readPlain_follows : (CursorScanner.ofReading () readPlain).Follows plainScanner :=
  CursorScanner.ofReading_follows (fun _ _ => Nat.le_refl _) fun view _ =>
    (Reading.reads_skipToEnd view).bind (Reading.reads_pure _ _)

theorem View.restoreLimit_cursorAfter {view : View} {n k : Nat} (hk : k ≤ n) :
    ((view.limit n).cursorAfter k).restoreLimit view.cursor.stop = view.cursorAfter k := by
  have hoffset : (view.limit n).offset k = view.offset k := by
    simp only [offset, limit, List.take_take, Nat.min_eq_left hk]
    rfl
  have hline : (view.limit n).cursor.line = view.cursor.line := view.line_limit n
  rw [Cursor.restoreLimit, cursorAfter, hoffset, hline]
  rfl

namespace CursorScanner.Follows

variable {σ τ : Type} {bytes : CursorScanner σ} {scanner : Scanner σ}

theorem limited (h : bytes.Follows scanner) (view : View) (place : Option Nat) (state : σ) :
    view.cursor.limited (place.map view.offset) (fun cursor => bytes.step cursor state) =
      .ok ((scanner.step (view.limit? place) state).moved view) := by
  cases place with
  | none => exact h.step view state
  | some n =>
      have hle : (scanner.step (view.limit n) state).length ≤ n :=
        Nat.le_trans (h.inBounds _ _) (List.length_take_le _ _)
      simp only [Option.map_some, Cursor.limited, view.limitTo_cursor, h.step, Except.map,
        Step.moved, View.restoreLimit_cursorAfter hle]
      rfl

theorem within (h : bytes.Follows scanner) (wrap : σ → τ) (unwrap : τ → Option σ) :
    (bytes.within wrap unwrap).Follows (scanner.within wrap unwrap) := by
  refine ⟨congrArg wrap h.start, h.inBounds.within wrap unwrap, fun view state => ?_⟩
  simp only [CursorScanner.within, h.step, h.start]
  rfl

end CursorScanner.Follows

/-! ## Regions in bytes -/

namespace Region

variable {τ : Type}

structure Follows (bytes : Region (CursorScanner τ)) (region : Region (Scanner τ)) : Prop where
  opener : bytes.opener = region.opener
  closer : bytes.closer = region.closer
  delimited : bytes.delimited = region.delimited
  scansDelimiters : bytes.scansDelimiters = region.scansDelimiters
  content : bytes.content.Follows region.content

theorem Follows.delimiterStyle {bytes : Region (CursorScanner τ)} {region : Region (Scanner τ)}
    (h : bytes.Follows region) (side : Side) :
    bytes.delimiterStyle side = region.delimiterStyle side := by
  rw [Region.delimiterStyle, Region.delimiterStyle, h.delimited]

inductive AllFollow : List (Region (CursorScanner τ)) → List (Region (Scanner τ)) → Prop
  | nil : AllFollow [] []
  | cons {bytes : Region (CursorScanner τ)} {region : Region (Scanner τ)}
      {others : List (Region (CursorScanner τ))} {regions : List (Region (Scanner τ))}
      (hfirst : bytes.Follows region) (hothers : AllFollow others regions) :
      AllFollow (bytes :: others) (region :: regions)

namespace AllFollow

variable {bytes : List (Region (CursorScanner τ))} {regions : List (Region (Scanner τ))}

theorem get_none (h : AllFollow bytes regions) {index : Nat} (hindex : regions[index]? = none) :
    bytes[index]? = none := by
  induction h generalizing index with
  | nil => rfl
  | cons hfirst hothers ih =>
      cases index with
      | zero => contradiction
      | succ index => exact ih hindex

theorem get_some (h : AllFollow bytes regions) {index : Nat} {region : Region (Scanner τ)}
    (hindex : regions[index]? = some region) :
    ∃ found, bytes[index]? = some found ∧ found.Follows region := by
  induction h generalizing index with
  | nil => contradiction
  | cons hfirst hothers ih =>
      cases index with
      | zero =>
          cases hindex
          exact ⟨_, rfl, hfirst⟩
      | succ index => exact ih hindex

theorem opened_none (h : AllFollow bytes regions) {view : View}
    (hopened : openedAt view.atLineStart view.ahead regions = none) :
    openedInBytes (view.before ++ view.taken ++ view.ahead) view.cursor.pos bytes =
      .ok none := by
  induction h with
  | nil => rfl
  | cons hfirst hothers ih =>
      unfold openedAt at hopened
      split at hopened
      · contradiction
      · next hnot =>
          rw [openedInBytes, hfirst.opener, Pattern.seekAt_eq,
            Pattern.matchInBytes_of_not_here hnot, ih (Option.map_eq_none_iff.mp hopened)]
          rfl

theorem opened_some (h : AllFollow bytes regions) {view : View} {index length : Nat}
    {region : Region (Scanner τ)}
    (hopened : openedAt view.atLineStart view.ahead regions = some (index, region, length)) :
    ∃ found, found.Follows region ∧
      openedInBytes (view.before ++ view.taken ++ view.ahead) view.cursor.pos bytes =
        .ok (some (index, found, byteLength (view.ahead.take length))) := by
  induction h generalizing index with
  | nil => contradiction
  | cons hfirst hothers ih =>
      unfold openedAt at hopened
      split at hopened
      · next hhere =>
          cases hopened
          refine ⟨_, hfirst, ?_⟩
          rw [openedInBytes, hfirst.opener, Pattern.seekAt_eq, Pattern.matchInBytes_of_here hhere]
          rfl
      · next hnot =>
          obtain ⟨⟨index, region, length⟩, hlater, heq⟩ := Option.map_eq_some_iff.mp hopened
          cases heq
          obtain ⟨found, hfollows, hbytes⟩ := ih hlater
          refine ⟨found, hfollows, ?_⟩
          rw [openedInBytes, hfirst.opener, Pattern.seekAt_eq,
            Pattern.matchInBytes_of_not_here hnot, hbytes]
          rfl

theorem nextOpening (h : AllFollow bytes regions) (view : View) :
    nextOpeningInBytes (view.before ++ view.taken ++ view.ahead) view.cursor.pos bytes =
      .ok ((Region.nextOpening view.atLineStart view.ahead regions).map view.offset) := by
  induction h with
  | nil => rfl
  | @cons bytes region others regions hfirst hothers ih =>
      rw [nextOpeningInBytes, Region.nextOpening, hfirst.opener, Pattern.seek_eq,
        Pattern.findInBytes_cursor, ih, ok_bind, ok_bind]
      congr 1
      cases region.opener.find view.atLineStart view.ahead <;>
        cases Region.nextOpening view.atLineStart view.ahead regions <;>
        simp [view.min_offset]

theorem inBounds (h : AllFollow bytes regions) :
    ∀ region ∈ regions, region.content.InBounds := by
  intro region hregion
  obtain ⟨index, hindex⟩ := List.mem_iff_getElem?.mp hregion
  obtain ⟨found, -, hfollows⟩ := h.get_some hindex
  exact hfollows.content.inBounds

end AllFollow

section Mixed

variable {outerBytes : CursorScanner τ} {outer : Scanner τ}
  {bytes : List (Region (CursorScanner τ))} {regions : List (Region (Scanner τ))}

theorem outerStepAt_eq (houter : outerBytes.Follows outer) (hregions : AllFollow bytes regions)
    (view : View) (state : MixedState τ) :
    outerStepAt outerBytes bytes view.cursor state =
      .ok ((outerStep outer regions view state).moved view) := by
  unfold outerStepAt outerStep
  rw [view.visible_cursor, ok_bind]
  cases hopened : openedAt view.atLineStart view.ahead regions with
  | none =>
      have hstep := houter.limited view (nextOpening view.atLineStart view.ahead regions)
        state.outer
      simp only [hregions.opened_none hopened, hregions.nextOpening, hstep, ok_bind]
      rfl
  | some found =>
      obtain ⟨index, region, length⟩ := found
      obtain ⟨found, hfollows, hbytes⟩ := hregions.opened_some hopened
      simp only [hbytes, ok_bind, hfollows.delimiterStyle, hfollows.scansDelimiters,
        hfollows.content.start, view.advance_cursor, Step.moved]
      cases region.scansDelimiters with
      | false => rfl
      | true =>
          rw [if_pos rfl, if_pos rfl, view.cursorAfter_zero]
          rfl

theorem contentStepAt_eq {found : Region (CursorScanner τ)} {region : Region (Scanner τ)}
    (h : found.Follows region) (view : View) (bound : Option Nat)
    (hbound : ∀ n, bound = some n → n ≤ view.ahead.length) (state : MixedState τ) :
    found.contentStepAt (bound.map view.offset) view.cursor state =
      .ok ((region.contentStep bound view state).moved view) := by
  have hstep := h.content.limited view bound (state.inner.getD region.content.start)
  have hlength : (region.content.step (view.limit? bound)
      (state.inner.getD region.content.start)).length ≤ view.ahead.length :=
    Nat.le_trans (h.content.inBounds _ _) (length_ahead_limit?_le view bound)
  simp only [contentStepAt, contentStep, h.content.start, hstep, h.scansDelimiters, ok_bind,
    Step.moved]
  generalize region.content.step (view.limit? bound)
    (state.inner.getD region.content.start) = step at hlength
  have hunmoved : decide ((view.cursorAfter step.length).pos ≤
      (view.cursorAfter step.length).start) = !(!view.taken.isEmpty || step.length != 0) := by
    rw [Bool.eq_iff_iff, decide_eq_true_iff, View.cursorAfter_pos_le_start hlength]
    simp
  have hreached : (bound.map view.offset == some (view.cursorAfter step.length).pos) =
      (bound == some step.length) := by
    cases bound with
    | none => rfl
    | some n =>
        rw [Bool.eq_iff_iff]
        simpa [View.cursorAfter] using View.offset_inj (hbound n rfl) hlength
  rw [hunmoved, hreached, Option.isSome_map]
  rfl

theorem innerStepAt_eq {found : Region (CursorScanner τ)} {region : Region (Scanner τ)}
    (h : found.Follows region) (view : View) (closing : Option (Nat × Nat))
    (hclosing : ∀ start length, closing = some (start, length) →
      start + length ≤ view.ahead.length) (state : MixedState τ) :
    found.innerStepAt
        (closing.map fun place =>
          (view.offset place.1, byteLength ((view.ahead.drop place.1).take place.2)))
        view.cursor state =
      .ok ((region.innerStep closing view state).moved view) := by
  cases closing with
  | none => exact contentStepAt_eq h view none (by simp) state
  | some place =>
      obtain ⟨start, length⟩ := place
      have hle := hclosing start length rfl
      have hend : view.offset start + byteLength ((view.ahead.drop start).take length) =
          view.offset (start + length) := by
        rw [View.offset, View.offset, List.take_add, byteLength_append, Nat.add_assoc]
      have hhere : view.offset start = view.cursor.pos ↔ start = 0 := by
        rw [← view.offset_zero, View.offset_inj (by omega) (Nat.zero_le _)]
      have hcontent (n : Nat) (hn : n ≤ view.ahead.length) :
          found.contentStepAt (some (view.offset n)) view.cursor state =
            .ok ((region.contentStep (some n) view state).moved view) := by
        refine contentStepAt_eq h view (some n) ?_ state
        rintro n ⟨⟩
        exact hn
      simp only [innerStepAt, innerStep, Option.map_some, h.scansDelimiters, hend, hhere,
        h.delimiterStyle]
      split
      · exact hcontent _ hle
      · split
        · next hzero =>
            subst hzero
            rw [List.drop_zero, view.advance_cursor]
            rfl
        · exact hcontent _ (by omega)

theorem nextClosingInBytes_eq (closer : Pattern) (view : View) (opening : Bool) :
    nextClosingInBytes closer (view.before ++ view.taken ++ view.ahead) view.cursor.pos opening =
      .ok ((nextClosing closer view opening).map fun place =>
        (view.offset place.1, byteLength ((view.ahead.drop place.1).take place.2))) := by
  rw [nextClosingInBytes, nextClosing]
  split
  · rfl
  · rw [closer.seek_eq, closer.findInBytes_cursor]

theorem mixedStepAt_eq (houter : outerBytes.Follows outer) (hregions : AllFollow bytes regions)
    (view : View) (state : MixedState τ) :
    mixedStepAt outerBytes bytes view.cursor state =
      .ok ((mixedStep outer regions view state).moved view) := by
  unfold mixedStepAt mixedStep
  cases state.region with
  | none => exact outerStepAt_eq houter hregions view state
  | some index =>
      cases hindex : regions[index]? with
      | none =>
          simp only [hindex, hregions.get_none hindex]
          exact outerStepAt_eq houter hregions view state.leave
      | some region =>
          obtain ⟨found, hfound, hfollows⟩ := hregions.get_some hindex
          simp only [hindex, hfound, hfollows.closer]
          cases hcloser : region.closer with
          | none =>
              simp only [view.atLineStart_cursor]
              split
              · exact outerStepAt_eq houter hregions view state.leave
              · exact contentStepAt_eq hfollows view none (by simp) state
          | some closer =>
              have hclosing := nextClosingInBytes_eq closer view state.opening
              simp only [view.visible_cursor, ok_bind, hclosing]
              refine innerStepAt_eq hfollows view _ ?_ state
              intro start length hplace
              rw [nextClosing] at hplace
              split at hplace
              · contradiction
              · exact Pattern.find_le hplace

theorem mixedOnCursor_follows (houter : outerBytes.Follows outer)
    (hregions : AllFollow bytes regions) :
    (mixedOnCursor outerBytes bytes).Follows (mixedScanner outer regions) where
  start := by rw [mixedOnCursor, mixedScanner, houter.start]
  inBounds := inBounds_mixedScanner houter.inBounds hregions.inBounds
  step := mixedStepAt_eq houter hregions

end Mixed

end Region

mutual

theorem Grammar.onCursor_follows : (grammar : Grammar) → grammar.onCursor.Follows grammar.scanner
  | .elixir options =>
      (CursorScanner.ofReading_follows (Elixir.inBounds_scanner options)
        (Elixir.reads_readStep options)).within _ _
  | .plainText => readPlain_follows.within _ _
  | .r => (CursorScanner.ofReading_follows R.inBounds_scanner R.reads_readStep).within _ _
  | .mixed outer regions =>
      (Region.mixedOnCursor_follows outer.onCursor_follows
        (regionsOnCursor_follow regions)).within _ _

theorem regionsOnCursor_follow : (regions : List (Region Grammar)) →
    Region.AllFollow (regionsOnCursor regions) (regionScanners regions)
  | [] => .nil
  | ⟨_, _, content, _, _⟩ :: regions =>
      .cons ⟨rfl, rfl, rfl, rfl, content.onCursor_follows⟩ (regionsOnCursor_follow regions)

end

/-! ## Rounds -/

/-- How far a line is scanned: where the cursor is, the state of the scanner, how many
steps in a row took nothing, and the tokens so far. -/
structure Progress (σ : Type) where
  cursor : Cursor
  state : σ
  stalled : Nat
  tokens : List Token

namespace CursorScanner

variable {σ : Type}

def round (scanner : CursorScanner σ) (progress : Progress σ) :
    Except CursorError (Progress σ) := do
  let (style, cursor, state) ← scanner.step progress.cursor.beginToken progress.state
  if cursor.start < cursor.pos then
    return ⟨cursor, state, 0, progress.tokens ++ [⟨cursor.pos - cursor.start, style⟩]⟩
  else if progress.stalled + 1 < Scanner.stallLimit then
    return ⟨cursor, state, progress.stalled + 1, progress.tokens⟩
  else
    let (_, cursor) ← cursor.nextChar
    return ⟨cursor, state, 0, progress.tokens ++ [⟨cursor.pos - cursor.start, .plain⟩]⟩

/-- Rounds up to the end of the line; nothing if it takes more of them than allowed. -/
def run (scanner : CursorScanner σ) :
    Nat → Progress σ → Except CursorError (Option (List Token × σ))
  | 0, progress =>
      return if progress.cursor.atEnd then some (progress.tokens, progress.state) else none
  | rounds + 1, progress =>
      if progress.cursor.atEnd then return some (progress.tokens, progress.state)
      else do scanner.run rounds (← scanner.round progress)

theorem run_of_atEnd (scanner : CursorScanner σ) {progress : Progress σ}
    (h : progress.cursor.atEnd = true) (rounds : Nat) :
    scanner.run rounds progress = .ok (some (progress.tokens, progress.state)) := by
  cases rounds <;> simp only [run, h] <;> rfl

theorem run_of_round (scanner : CursorScanner σ) {progress after : Progress σ}
    (h : progress.cursor.atEnd = false) (hround : scanner.round progress = .ok after)
    (rounds : Nat) : scanner.run (rounds + 1) progress = scanner.run rounds after := by
  simp only [run, h, hround, ok_bind]
  rfl

namespace Follows

variable {bytes : CursorScanner σ} {scanner : Scanner σ} {progress : Progress σ} {view : View}

theorem round_of_taken (h : bytes.Follows scanner)
    (hcursor : progress.cursor.beginToken = view.cursor) (htaken : view.taken = [])
    (hlength : (scanner.step view progress.state).length ≠ 0) :
    bytes.round progress =
      let step := scanner.step view progress.state
      .ok ⟨view.cursorAfter step.length, step.state, 0,
        progress.tokens ++ [⟨byteLength (view.ahead.take step.length), step.style⟩]⟩ := by
  have hmoved : (view.cursorAfter (scanner.step view progress.state).length).start <
      (view.cursorAfter (scanner.step view progress.state).length).pos := by
    rw [← Nat.not_le, View.cursorAfter_pos_le_start (h.inBounds _ _)]
    exact fun hstay => hlength hstay.2
  simp only [round, hcursor, h.step, ok_bind, Step.moved, if_pos hmoved,
    View.cursorAfter_pos_sub_start htaken]
  rfl

theorem round_of_stalled (h : bytes.Follows scanner)
    (hcursor : progress.cursor.beginToken = view.cursor) (htaken : view.taken = [])
    (hlength : (scanner.step view progress.state).length = 0)
    (hpatience : progress.stalled + 1 < Scanner.stallLimit) :
    bytes.round progress = .ok ⟨view.cursor, (scanner.step view progress.state).state,
      progress.stalled + 1, progress.tokens⟩ := by
  simp only [round, hcursor, h.step, ok_bind, Step.moved, hlength, view.cursorAfter_zero,
    if_neg (View.not_start_lt_pos htaken), if_pos hpatience]
  rfl

theorem round_of_skipped (h : bytes.Follows scanner)
    (hcursor : progress.cursor.beginToken = view.cursor) (htaken : view.taken = [])
    (hahead : view.ahead ≠ []) (hlength : (scanner.step view progress.state).length = 0)
    (hpatience : ¬ progress.stalled + 1 < Scanner.stallLimit) :
    bytes.round progress = .ok ⟨view.cursorAfter 1, (scanner.step view progress.state).state, 0,
      progress.tokens ++ [⟨byteLength (view.ahead.take 1), .plain⟩]⟩ := by
  obtain ⟨c, hnext⟩ := View.nextChar_cursor hahead
  simp only [round, hcursor, h.step, ok_bind, Step.moved, hlength, view.cursorAfter_zero,
    if_neg (View.not_start_lt_pos htaken), if_neg hpatience, hnext,
    View.cursorAfter_pos_sub_start htaken]
  rfl

theorem atEnd_eq (hcursor : progress.cursor.beginToken = view.cursor) :
    progress.cursor.atEnd = view.ahead.isEmpty := by
  rw [← view.atEnd_cursor, ← hcursor]
  rfl

/-- A run from a view gives the tokens of the rest of the line and ends in time: a
character takes at most `stallLimit` rounds. -/
theorem run_eq (h : bytes.Follows scanner) {rounds : Nat}
    (hcursor : progress.cursor.beginToken = view.cursor) (htaken : view.taken = [])
    (hstalled : progress.stalled < Scanner.stallLimit)
    (hrounds : Scanner.stallLimit * view.ahead.length ≤ rounds + progress.stalled) :
    bytes.run rounds progress =
      let rest := scanner.resume view (Scanner.stallLimit - progress.stalled) progress.state
      .ok (some (progress.tokens ++ rest.1, rest.2)) := by
  induction rounds generalizing progress view with
  | zero =>
      have hahead : view.ahead = [] := by
        apply List.eq_nil_of_length_eq_zero
        simp only [Scanner.stallLimit] at *
        omega
      rw [run_of_atEnd bytes (by simp [atEnd_eq hcursor, hahead])]
      simp [Scanner.resume, hahead]
  | succ rounds ih =>
      by_cases hahead : view.ahead = []
      · rw [run_of_atEnd bytes (by simp [atEnd_eq hcursor, hahead])]
        simp [Scanner.resume, hahead]
      have hlength := List.length_pos_iff.mpr hahead
      have hmore : progress.cursor.atEnd = false := by simp [atEnd_eq hcursor, hahead]
      -- Once something is taken, the rest of the line begins with full patience.
      have hnext {n : Nat} (hn : 0 < n) (style : Style) (state : σ) :
          bytes.run rounds ⟨view.cursorAfter n, state, 0,
              progress.tokens ++ [⟨byteLength (view.ahead.take n), style⟩]⟩ =
            let following := scanner.scanRest (view.next n) state
            .ok (some (progress.tokens ++
              ⟨byteLength (view.ahead.take n), style⟩ :: following.1, following.2)) := by
        rw [ih (view.beginToken_cursorAfter n) rfl (Nat.zero_lt_succ 9)]
        · simp [Scanner.resume_stallLimit]
        · simp only [View.next, List.length_drop, Scanner.stallLimit] at *
          omega
      obtain ⟨patience, hpatience⟩ : ∃ n, Scanner.stallLimit - progress.stalled = n + 1 :=
        ⟨Scanner.stallLimit - progress.stalled - 1, by omega⟩
      simp only [Scanner.resume, List.isEmpty_iff, hahead, if_false, hpatience]
      by_cases hstep : (scanner.step view progress.state).length = 0
      · rw [scanner.stepForward_of_stalled hstep]
        by_cases hleft : progress.stalled + 1 < Scanner.stallLimit
        · rw [run_of_round bytes hmore (h.round_of_stalled hcursor htaken hstep hleft)]
          have hsame : view.cursor.beginToken = view.cursor := by
            rw [← view.cursorAfter_zero, view.beginToken_cursorAfter, View.next_zero htaken,
              view.cursorAfter_zero]
          rw [ih hsame htaken hleft (by dsimp only; omega)]
          have hone : Scanner.stallLimit - (progress.stalled + 1) = patience := by omega
          simp only [Scanner.resume, List.isEmpty_iff, hahead, if_false, hone]
        · have hnone : patience = 0 := by omega
          rw [run_of_round bytes hmore (h.round_of_skipped hcursor htaken hahead hstep hleft),
            hnone]
          exact hnext Nat.one_pos _ _
      · rw [run_of_round bytes hmore (h.round_of_taken hcursor htaken hstep),
          scanner.stepForward_of_taken hstep]
        exact hnext (Nat.pos_of_ne_zero hstep) _ _

end Follows

end CursorScanner

/-! ## Lines -/

namespace Grammar

def scanInBytes (grammar : Grammar) (rounds : Nat) (state : GrammarState) (line : List Char) :
    Except CursorError (Option (List Token × GrammarState)) :=
  if line.isEmpty then return some ([], grammar.scanner.blank state)
  else grammar.onCursor.run rounds ⟨Cursor.ofLine line grammar.tabSize, state, 0, []⟩

theorem scanInBytes_eq (grammar : Grammar) {rounds : Nat} (state : GrammarState)
    {line : List Char} (hrounds : Scanner.stallLimit * line.length ≤ rounds) :
    grammar.scanInBytes rounds state line = .ok (some (grammar.scanLine state line)) := by
  by_cases hline : line = []
  · subst hline
    rfl
  have hcursor : (Cursor.ofLine line grammar.tabSize).beginToken =
      (View.ofLine line grammar.tabSize).cursor := by
    rw [View.cursor_ofLine]
    rfl
  rw [scanInBytes, if_neg (by simpa using hline),
    grammar.onCursor_follows.run_eq hcursor rfl (Nat.zero_lt_succ 9) hrounds]
  simp only [Nat.sub_zero, Scanner.resume_stallLimit, List.nil_append]
  rw [scanLine, Scanner.scanLine_eq _ _ _ hline]

/-- Whatever the grammar, its patterns and the state, scanning a line in bytes never
reads inside a character or past the line, and ends.  No token is empty, each ends
between two characters, together they are as long as the line, and the texts under
them are the line. -/
theorem scanLine_covers_line (grammar : Grammar) (state : GrammarState) (line : List Char) :
    let tokens := (grammar.scanLine state line).1
    (∀ extra, grammar.scanInBytes (Scanner.stallLimit * line.length + extra) state line =
        .ok (some (grammar.scanLine state line))) ∧
      (∀ token ∈ tokens, 0 < token.length) ∧
      (∀ count, ∃ first second, first ++ second = line ∧
        byteLength first = totalLength (tokens.take count)) ∧
      totalLength tokens = byteLength line ∧
      ∃ spans, spans? line tokens = some spans ∧ (spans.map Prod.fst).flatten = line ∧
        spans.map Prod.snd = tokens.map Token.style := by
  have hcovers := grammar.covers_scanLine state line
  refine ⟨?_, hcovers.length_pos, hcovers.boundary, hcovers.totalLength_eq_byteLength,
    hcovers.spans⟩
  intro extra
  exact grammar.scanInBytes_eq state (Nat.le_add_right _ _)

end Grammar

end CellHighlight
