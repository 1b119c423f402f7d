import CellHighlight.Proofs.Bytes.Position
import CellHighlight.Text.Run

/-!
# Walks along a line

A walk moves a cursor along a line, by characters and by bytes, and pulls the limit in and
sets it back on the way.  As long as the offsets it names lie between characters and limits
are set back in the reverse order, no move fails, and the start of the token, the position
and the limit stay in order and between characters.
-/

namespace CellHighlight

inductive Move
  | nextChar
  | eat (c : Char)
  | eatIf (p : Char → Bool)
  | eatWhile (p : Char → Bool)
  | eatBlanks
  | skipToEnd
  | skipToByte (byte : UInt8)
  | eatText (text : List Char)
  | beginToken
  | backUp (n : Nat)
  | advance (n : Nat)
  | limitTo (stop : Nat)
  | restoreLimit (stop : Nat)

def Cursor.perform (cursor : Cursor) : Move → Except CursorError Cursor
  | .nextChar => cursor.nextChar.map Prod.snd
  | .eat c => (cursor.eat c).map Prod.snd
  | .eatIf p => (cursor.eatIf p).map Prod.snd
  | .eatWhile p => (cursor.eatWhile p).map Prod.snd
  | .eatBlanks => cursor.eatBlanks.map Prod.snd
  | .skipToEnd => .ok cursor.skipToEnd
  | .skipToByte byte => (cursor.skipToByte byte).map Prod.snd
  | .eatText text => (cursor.eatText text).map Prod.snd
  | .beginToken => .ok cursor.beginToken
  | .backUp n => .ok (cursor.backUp n)
  | .advance n => .ok (cursor.advance n)
  | .limitTo stop => .ok (cursor.limitTo stop)
  | .restoreLimit stop => .ok (cursor.restoreLimit stop)

/-- A cursor with the limits that are still to be set back, the latest first. -/
structure Walk where
  cursor : Cursor
  saved : List Nat

namespace Walk

def ofLine (line : List Char) (tabSize : Nat) : Walk := ⟨.ofLine line tabSize, []⟩

def savedAfter (walk : Walk) : Move → List Nat
  | .limitTo _ => walk.cursor.stop :: walk.saved
  | .restoreLimit _ => walk.saved.tail
  | _ => walk.saved

def step (walk : Walk) (move : Move) : Except CursorError Walk :=
  (walk.cursor.perform move).map fun cursor => ⟨cursor, walk.savedAfter move⟩

def run (walk : Walk) : List Move → Except CursorError Walk
  | [] => .ok walk
  | move :: moves => do (← walk.step move).run moves

/-- A byte to look for is that of a whole character, what is given back is the end of the
token so far, an offset lies between characters, and the limit that is set back is the one
that was in force before the latest limit that still holds. -/
def Allows (walk : Walk) : Move → Prop
  | .skipToByte byte => byte < 128
  | .backUp n => ∃ first last, walk.cursor.current = .ok (first ++ last) ∧ byteLength last = n
  | .advance n => IsBoundary walk.cursor.line (walk.cursor.pos + n)
  | .limitTo stop => IsBoundary walk.cursor.line stop
  | .restoreLimit stop => walk.saved.head? = some stop
  | _ => True

def AllowsAll (walk : Walk) : List Move → Prop
  | [] => True
  | move :: moves => walk.Allows move ∧ ∀ next, walk.step move = .ok next → next.AllowsAll moves

theorem AllowsAll.cons {walk : Walk} {move : Move} {moves : List Move} (after : Walk)
    (hmove : walk.Allows move) (hstep : walk.step move = .ok after)
    (hmoves : after.AllowsAll moves) : walk.AllowsAll (move :: moves) := by
  refine ⟨hmove, fun next hnext => ?_⟩
  rw [hstep] at hnext
  cases hnext
  exact hmoves

end Walk

/-! ## Moves at a view -/

namespace View

def take (view : View) (n : Nat) : View :=
  { view with taken := view.taken ++ view.ahead.take n, ahead := view.ahead.drop n }

theorem cursor_take (view : View) (n : Nat) : (view.take n).cursor = view.cursorAfter n := by
  have hstop := congrArg byteLength (List.take_append_drop n view.ahead)
  rw [byteLength_append] at hstop
  rw [cursor, cursorAfter, cursor, Cursor.mk.injEq]
  refine ⟨?_, rfl, ?_, ?_, rfl⟩
  · simp [take, line]
  · simp [take, offset, cursor, Nat.add_assoc]
  · simp only [take, byteLength_append]
    omega

theorem inPlace_cursor (view : View) : view.cursor.InPlace where
  start_le_pos := by simp [cursor]
  pos_le_stop := by simp [cursor]
  start := ⟨view.before, by simp [cursor, line], rfl⟩
  pos := ⟨view.before ++ view.taken, by simp [cursor, line], rfl⟩
  stop := ⟨view.before ++ view.taken ++ view.ahead, List.prefix_append _ _, rfl⟩

theorem eatIf_cursor (view : View) (p : Char → Bool) :
    view.cursor.eatIf p =
      .ok (view.ahead.head?.filter p, view.cursorAfter (oneIf p view.ahead)) := by
  rw [Cursor.eatIf, rest_cursor, ok_bind]
  cases hahead : view.ahead with
  | nil =>
      rw [oneIf, cursorAfter_zero]
      rfl
  | cons c text =>
      simp only [List.head?_cons, Option.filter_some, oneIf]
      cases p c with
      | false =>
          simp only [Bool.false_eq_true, if_false, cursorAfter_zero]
          rfl
      | true =>
          simp only [if_true, cursorAfter, offset, hahead, List.take_succ_cons, List.take_zero,
            byteLength_cons, byteLength_nil]
          rfl

theorem eatWhile_cursor (view : View) (p : Char → Bool) :
    view.cursor.eatWhile p =
      .ok (!(view.ahead.takeWhile p).isEmpty, view.cursorAfter (runLength p view.ahead)) := by
  rw [Cursor.eatWhile, rest_cursor, ok_bind, cursorAfter, offset, runLength,
    take_length_takeWhile]
  rfl

theorem eatText_cursor (view : View) (text : List Char) :
    view.cursor.eatText text =
      .ok (if text <+: view.ahead then (true, view.cursorAfter text.length)
        else (false, view.cursor)) := by
  rw [Cursor.eatText, rest_cursor, ok_bind]
  by_cases htext : text <+: view.ahead
  · rw [if_pos (List.isPrefixOf_iff_prefix.mpr htext), if_pos htext, cursorAfter, offset,
      ← List.prefix_iff_eq_take.mp htext]
    rfl
  · rw [if_neg (by rwa [List.isPrefixOf_iff_prefix]), if_neg htext]
    rfl

end View

/-! ## One move -/

namespace Walk

/-- What an allowed move does: it goes on up to the limit, goes back up to the start of the
token, begins a token, or changes the limit. -/
inductive Shift (walk : Walk) : Move → Walk → Prop
  | forward {pos : Nat} (move : Move) (hpos : IsBoundary walk.cursor.line pos)
      (hle : walk.cursor.pos ≤ pos) (hstop : pos ≤ walk.cursor.stop) :
      Shift walk move ⟨{ walk.cursor with pos }, walk.saved⟩
  | back {pos : Nat} (n : Nat) (hpos : IsBoundary walk.cursor.line pos)
      (hstart : walk.cursor.start ≤ pos) (hle : pos ≤ walk.cursor.pos) :
      Shift walk (.backUp n) ⟨{ walk.cursor with pos }, walk.saved⟩
  | begin : Shift walk .beginToken ⟨{ walk.cursor with start := walk.cursor.pos }, walk.saved⟩
  | limit {limit : Nat} (stop : Nat) (hlimit : IsBoundary walk.cursor.line limit)
      (hpos : walk.cursor.pos ≤ limit) (hle : limit ≤ walk.cursor.stop) :
      Shift walk (.limitTo stop)
        ⟨{ walk.cursor with stop := limit }, walk.cursor.stop :: walk.saved⟩
  | restore {stop : Nat} {saved : List Nat} (hsaved : walk.saved = stop :: saved) :
      Shift walk (.restoreLimit stop) ⟨{ walk.cursor with stop }, saved⟩

theorem exists_shift_of_perform {view : View} {move : Move} (n : Nat)
    (hperform : view.cursor.perform move = .ok (view.cursorAfter n)) {saved : List Nat}
    (hsaved : savedAfter ⟨view.cursor, saved⟩ move = saved) :
    ∃ after, step ⟨view.cursor, saved⟩ move = .ok after ∧
      Shift ⟨view.cursor, saved⟩ move after := by
  have hafter := (view.take n).inPlace_cursor
  rw [view.cursor_take] at hafter
  refine ⟨⟨view.cursorAfter n, saved⟩, ?_, ?_⟩
  · rw [step, hperform, hsaved]
    rfl
  · exact .forward move hafter.pos (Nat.le_add_right _ _) hafter.pos_le_stop

theorem exists_char_of_lt {byte : UInt8} (h : byte < 128) :
    ∃ c : Char, c.toNat < 128 ∧ UInt8.ofNat c.toNat = byte := by
  have hvalue : (Char.ofUInt8 byte).toNat = byte.toNat := UInt8.toNat_toUInt32 byte
  refine ⟨Char.ofUInt8 byte, ?_, ?_⟩
  · rw [hvalue]
    exact UInt8.lt_iff_toNat_lt.mp h
  · rw [hvalue, UInt8.ofNat_toNat]

theorem exists_shift {walk : Walk} {move : Move} (h : walk.cursor.InPlace)
    (hallows : walk.Allows move) : ∃ after, walk.step move = .ok after ∧ walk.Shift move after := by
  obtain ⟨cursor, saved⟩ := walk
  obtain ⟨view, rfl⟩ := h.exists_view
  cases move with
  | nextChar =>
      refine exists_shift_of_perform (oneIf (fun _ => true) view.ahead) ?_ rfl
      rw [Cursor.perform, Cursor.nextChar, view.eatIf_cursor]
      rfl
  | eat c =>
      refine exists_shift_of_perform (oneIf (· == c) view.ahead) ?_ rfl
      rw [Cursor.perform, Cursor.eat, view.eatIf_cursor]
      rfl
  | eatIf p =>
      refine exists_shift_of_perform (oneIf p view.ahead) ?_ rfl
      rw [Cursor.perform, view.eatIf_cursor]
      rfl
  | eatWhile p =>
      refine exists_shift_of_perform (runLength p view.ahead) ?_ rfl
      rw [Cursor.perform, view.eatWhile_cursor]
      rfl
  | eatBlanks =>
      refine exists_shift_of_perform (runLength isBlank view.ahead) ?_ rfl
      rw [Cursor.perform, Cursor.eatBlanks, view.eatWhile_cursor]
      rfl
  | skipToEnd => exact ⟨_, rfl, .forward _ h.stop h.pos_le_stop (Nat.le_refl _)⟩
  | skipToByte byte =>
      -- Below 128 a byte is a whole character, so the search stops between characters.
      obtain ⟨c, hc, rfl⟩ := exists_char_of_lt hallows
      by_cases hmem : c ∈ view.ahead
      · refine exists_shift_of_perform (view.ahead.takeWhile (· != c)).length ?_ rfl
        rw [Cursor.perform, view.skipToByte_cursor hc, if_pos hmem]
        rfl
      · refine exists_shift_of_perform 0 ?_ rfl
        rw [Cursor.perform, view.skipToByte_cursor hc, if_neg hmem, view.cursorAfter_zero]
        rfl
  | eatText text =>
      by_cases htext : text <+: view.ahead
      · refine exists_shift_of_perform text.length ?_ rfl
        rw [Cursor.perform, view.eatText_cursor, if_pos htext]
        rfl
      · refine exists_shift_of_perform 0 ?_ rfl
        rw [Cursor.perform, view.eatText_cursor, if_neg htext, view.cursorAfter_zero]
        rfl
  | beginToken => exact ⟨_, rfl, .begin⟩
  | backUp n =>
      obtain ⟨first, last, hcurrent, rfl⟩ := hallows
      have htaken : view.taken = first ++ last :=
        Except.ok.inj (view.current_cursor.symm.trans hcurrent)
      have hback : view.cursor.pos - byteLength last = byteLength (view.before ++ first) := by
        simp only [View.cursor, htaken, byteLength_append]
        omega
      have hpos : IsBoundary view.cursor.line (view.cursor.pos - byteLength last) :=
        ⟨view.before ++ first, by simp [View.cursor, View.line, htaken], hback.symm⟩
      exact ⟨_, rfl, .back _ (hpos.max h.start) (Nat.le_max_right _ _)
        (Nat.max_le.mpr ⟨Nat.sub_le _ _, h.start_le_pos⟩)⟩
  | advance n =>
      -- The minimum is one of two offsets that both lie between characters.
      have hpos := h.pos_le_stop
      exact ⟨_, rfl, .forward _ (hallows.min h.stop) (by omega) (Nat.min_le_right _ _)⟩
  | limitTo stop =>
      have hpos := h.pos_le_stop
      exact ⟨_, rfl, .limit _ ((hallows.max h.pos).min h.stop) (by omega) (Nat.min_le_right _ _)⟩
  | restoreLimit stop =>
      obtain ⟨saved, rfl⟩ := List.head?_eq_some_iff.mp hallows
      exact ⟨_, rfl, .restore rfl⟩

variable {line : List Char} {walk after : Walk} {move : Move}

theorem Shift.pos_le (h : walk.Shift move after) :
    walk.cursor.pos ≤ after.cursor.pos ∨ ∃ n, move = .backUp n := by
  cases h with
  | forward _ _ hle _ => exact .inl hle
  | back n _ _ _ => exact .inr ⟨n, rfl⟩
  | begin => exact .inl (Nat.le_refl _)
  | limit _ _ _ _ => exact .inl (Nat.le_refl _)
  | restore _ => exact .inl (Nat.le_refl _)

theorem Shift.start_eq (h : walk.Shift move after) :
    after.cursor.start = walk.cursor.start ∨ move = .beginToken := by
  cases h with
  | forward _ _ _ _ => exact .inl rfl
  | back _ _ _ _ => exact .inl rfl
  | begin => exact .inr rfl
  | limit _ _ _ _ => exact .inl rfl
  | restore _ => exact .inl rfl

theorem Shift.start_le (h : walk.Shift move after) (hplace : walk.cursor.InPlace) :
    walk.cursor.start ≤ after.cursor.pos := by
  cases h with
  | forward _ _ hle _ => exact Nat.le_trans hplace.start_le_pos hle
  | back _ _ hstart _ => exact hstart
  | begin => exact hplace.start_le_pos
  | limit _ _ _ _ => exact hplace.start_le_pos
  | restore _ => exact hplace.start_le_pos

/-! ## All moves -/

def Nested (line : List Char) : Nat → List Nat → Prop
  | stop, [] => stop = byteLength line
  | stop, outer :: saved => stop ≤ outer ∧ IsBoundary line outer ∧ Nested line outer saved

structure Sound (line : List Char) (walk : Walk) : Prop where
  line_eq : walk.cursor.line = line
  place : walk.cursor.InPlace
  nested : Nested line walk.cursor.stop walk.saved

theorem sound_ofLine (line : List Char) (tabSize : Nat) : (ofLine line tabSize).Sound line where
  line_eq := rfl
  place := by
    rw [ofLine, ← View.cursor_ofLine]
    exact View.inPlace_cursor _
  nested := rfl

theorem Shift.sound (hshift : walk.Shift move after) (h : walk.Sound line) : after.Sound line := by
  obtain ⟨rfl, hplace, hnested⟩ := h
  cases hshift with
  | forward _ hpos hle hstop =>
      have hstart := Nat.le_trans hplace.start_le_pos hle
      exact ⟨rfl, ⟨hstart, hstop, hplace.start, hpos, hplace.stop⟩, hnested⟩
  | back _ hpos hstart hle =>
      have hstop := Nat.le_trans hle hplace.pos_le_stop
      exact ⟨rfl, ⟨hstart, hstop, hplace.start, hpos, hplace.stop⟩, hnested⟩
  | begin =>
      have hpos := hplace.pos
      exact ⟨rfl, ⟨Nat.le_refl _, hplace.pos_le_stop, hpos, hpos, hplace.stop⟩, hnested⟩
  | limit _ hlimit hpos hle =>
      exact ⟨rfl, ⟨hplace.start_le_pos, hpos, hplace.start, hplace.pos, hlimit⟩,
        hle, hplace.stop, hnested⟩
  | restore hsaved =>
      -- The position did not pass the inner limit, which lies within the outer one.
      rw [hsaved] at hnested
      obtain ⟨hle, houter, hnested⟩ := hnested
      have hstop := Nat.le_trans hplace.pos_le_stop hle
      exact ⟨rfl, ⟨hplace.start_le_pos, hstop, hplace.start, hplace.pos, houter⟩, hnested⟩

theorem Sound.exists_run (h : walk.Sound line) {moves : List Move}
    (hallows : walk.AllowsAll moves) : ∃ after, walk.run moves = .ok after ∧ after.Sound line := by
  induction moves generalizing walk with
  | nil => exact ⟨walk, rfl, h⟩
  | cons move moves ih =>
      obtain ⟨hmove, hmoves⟩ := hallows
      obtain ⟨next, hstep, hshift⟩ := exists_shift h.place hmove
      obtain ⟨after, hrun, hafter⟩ := ih (hshift.sound h) (hmoves next hstep)
      refine ⟨after, ?_, hafter⟩
      rw [run, hstep]
      exact hrun

end Walk

/-! ## Runs of characters -/

def IsLongestRun (p : Char → Bool) (text run : List Char) : Prop :=
  run <+: text ∧ (∀ c ∈ run, p c = true) ∧
    ∀ other, other <+: text → (∀ c ∈ other, p c = true) → other <+: run

theorem isLongestRun_takeWhile (p : Char → Bool) (text : List Char) :
    IsLongestRun p text (text.takeWhile p) := by
  refine ⟨List.takeWhile_prefix p, ?_, ?_⟩
  · exact List.all_eq_true.mp List.all_takeWhile
  · rintro other ⟨more, rfl⟩ hother
    rw [List.takeWhile_append_of_pos hother]
    exact List.prefix_append other _

inductive Cursor.EatsEach (p : Char → Bool) : Cursor → Cursor → Prop
  | done {cursor : Cursor} (heat : cursor.eatIf p = .ok (none, cursor)) : EatsEach p cursor cursor
  | more {cursor next after : Cursor} {c : Char} (heat : cursor.eatIf p = .ok (some c, next))
      (hrest : EatsEach p next after) : EatsEach p cursor after

namespace View

theorem cursorAfter_take (view : View) (m n : Nat) :
    (view.take m).cursorAfter n = view.cursorAfter (m + n) := by
  rw [← cursor_take, ← cursor_take]
  simp [take, List.take_add]

theorem eatsEach_cursor (view : View) (p : Char → Bool) :
    view.cursor.EatsEach p (view.cursorAfter (runLength p view.ahead)) := by
  induction hahead : view.ahead generalizing view with
  | nil =>
      have heat := view.eatIf_cursor p
      rw [hahead, oneIf, cursorAfter_zero] at heat
      rw [runLength_nil, cursorAfter_zero]
      exact .done heat
  | cons c text ih =>
      have heat := view.eatIf_cursor p
      rw [hahead, List.head?_cons, Option.filter_some, oneIf] at heat
      rw [runLength_cons]
      cases hc : p c with
      | false =>
          simp only [hc, Bool.false_eq_true, if_false, cursorAfter_zero] at heat ⊢
          exact .done heat
      | true =>
          simp only [hc, if_true] at heat ⊢
          have hnext : (view.take 1).ahead = text := by simp [take, hahead]
          have hrest := ih (view.take 1) hnext
          rw [cursor_take, cursorAfter_take] at hrest
          exact .more heat hrest

end View

namespace Walk

/-- Whatever allowed moves are made from the beginning of a line, none of them fails.  The
start of the token, the position and the limit stay in order and between characters, so that
the texts between them can be read; only giving back lowers the position, not below the
start, and only the beginning of a token changes the start.  When all limits are set back the
limit is the end of the line.  Eating while a test holds takes the longest run of characters
that satisfy it, as eating them one by one does. -/
theorem run_stays_in_place (line : List Char) (tabSize : Nat) (moves : List Move)
    (h : (ofLine line tabSize).AllowsAll moves) :
    ∃ walk, (ofLine line tabSize).run moves = .ok walk ∧
      let cursor := walk.cursor
      (cursor.line = line ∧ cursor.start ≤ cursor.pos ∧ cursor.pos ≤ cursor.stop ∧
        cursor.stop ≤ byteLength line) ∧
      (IsBoundary line cursor.start ∧ IsBoundary line cursor.pos ∧
        IsBoundary line cursor.stop) ∧
      (∃ before taken ahead hidden, line = before ++ taken ++ ahead ++ hidden ∧
        cursor.current = .ok taken ∧ cursor.rest = .ok ahead ∧
        cursor.visible = .ok (before ++ taken ++ ahead)) ∧
      (walk.saved = [] → cursor.stop = byteLength line) ∧
      (∀ move, walk.Allows move → ∃ after, walk.step move = .ok after ∧
        (cursor.pos ≤ after.cursor.pos ∨ ∃ n, move = .backUp n) ∧
        cursor.start ≤ after.cursor.pos ∧
        (after.cursor.start = cursor.start ∨ move = .beginToken)) ∧
      ∀ p, ∃ ahead run, cursor.rest = .ok ahead ∧ IsLongestRun p ahead run ∧
        let after := { cursor with pos := cursor.pos + byteLength run }
        cursor.eatWhile p = .ok (!run.isEmpty, after) ∧ cursor.EatsEach p after := by
  obtain ⟨walk, hrun, hsound⟩ := (sound_ofLine line tabSize).exists_run h
  have hplace := hsound.place
  obtain rfl := hsound.line_eq
  obtain ⟨view, hview⟩ := hplace.exists_view
  refine ⟨walk, hrun, ⟨rfl, hplace.start_le_pos, hplace.pos_le_stop, hplace.stop.le⟩,
    ⟨hplace.start, hplace.pos, hplace.stop⟩, ?_, ?_, ?_, ?_⟩
  · rw [← hview]
    exact ⟨view.before, view.taken, view.ahead, view.hidden, rfl, view.current_cursor,
      view.rest_cursor, view.visible_cursor⟩
  · intro hsaved
    have hnested := hsound.nested
    rwa [hsaved] at hnested
  · intro move hallows
    obtain ⟨after, hstep, hshift⟩ := exists_shift hplace hallows
    exact ⟨after, hstep, hshift.pos_le, hshift.start_le hplace, hshift.start_eq⟩
  · intro p
    have hafter : view.cursorAfter (runLength p view.ahead) = { view.cursor with
        pos := view.cursor.pos + byteLength (view.ahead.takeWhile p) } := by
      rw [View.cursorAfter, View.offset, runLength, take_length_takeWhile]
    rw [← hview]
    refine ⟨view.ahead, view.ahead.takeWhile p, view.rest_cursor,
      isLongestRun_takeWhile p view.ahead, ?_, ?_⟩
    · rw [view.eatWhile_cursor, hafter]
    · rw [← hafter]
      exact view.eatsEach_cursor p

theorem run_stays_in_place_nested :
    let line := ['é', '(', 'a', 'ñ', ')', ' ', 'x']
    let moves := [.eat 'é', .beginToken, .limitTo 7, .skipToByte 0x29, .limitTo 2, .backUp 3,
      .skipToEnd, .restoreLimit 7, .advance 3, .restoreLimit 9, .eatBlanks]
    (ofLine line 4).AllowsAll moves ∧
      (ofLine line 4).run moves = .ok ⟨⟨line, 2, 8, 9, 4⟩, []⟩ ∧
      IsBoundary line 8 ∧ byteLength line = 9 := by
  intro line moves
  have hallows : (ofLine line 4).AllowsAll moves :=
    .cons ⟨⟨line, 0, 2, 9, 4⟩, []⟩ trivial rfl <|
    .cons ⟨⟨line, 2, 2, 9, 4⟩, []⟩ trivial rfl <|
    .cons ⟨⟨line, 2, 2, 7, 4⟩, [9]⟩ (by decide : IsBoundary line 7) rfl <|
    .cons ⟨⟨line, 2, 6, 7, 4⟩, [9]⟩ (by decide : (0x29 : UInt8) < 128) rfl <|
    .cons ⟨⟨line, 2, 6, 6, 4⟩, [7, 9]⟩ (by decide : IsBoundary line 2) rfl <|
    .cons ⟨⟨line, 2, 3, 6, 4⟩, [7, 9]⟩ ⟨['('], ['a', 'ñ'], rfl, rfl⟩ rfl <|
    .cons ⟨⟨line, 2, 6, 6, 4⟩, [7, 9]⟩ trivial rfl <|
    .cons ⟨⟨line, 2, 6, 7, 4⟩, [9]⟩ rfl rfl <|
    .cons ⟨⟨line, 2, 7, 7, 4⟩, [9]⟩ (by decide : IsBoundary line 9) rfl <|
    .cons ⟨⟨line, 2, 7, 9, 4⟩, []⟩ rfl rfl <|
    .cons ⟨⟨line, 2, 8, 9, 4⟩, []⟩ trivial rfl trivial
  have hwalk : (ofLine line 4).run moves = .ok ⟨⟨line, 2, 8, 9, 4⟩, []⟩ := rfl
  obtain ⟨walk, hrun, -, ⟨-, hpos, -⟩, -, hstop, -⟩ := run_stays_in_place line 4 moves hallows
  obtain rfl := Except.ok.inj (hwalk.symm.trans hrun)
  exact ⟨hallows, hwalk, hpos, (hstop rfl).symm⟩

end Walk

end CellHighlight
