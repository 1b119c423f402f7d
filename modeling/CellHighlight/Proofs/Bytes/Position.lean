import CellHighlight.Line.Cursor
import CellHighlight.Proofs.Search

/-!
# Views as positions in bytes

A view is a cursor whose start, position and limit lie between characters.  Reading
at such a cursor never fails, and a search in bytes finds what a search in characters
finds, at an offset that again lies between characters.
-/

namespace CellHighlight

/-! ## Leading parts -/

theorem byteLength_take_of_le {m n : Nat} (h : m ≤ n) (text : List Char) :
    byteLength (text.take n) =
      byteLength (text.take m) + byteLength ((text.drop m).take (n - m)) := by
  rw [← byteLength_append, ← List.take_add, Nat.add_sub_cancel' h]

theorem byteLength_take_mono {m n : Nat} (h : m ≤ n) (text : List Char) :
    byteLength (text.take m) ≤ byteLength (text.take n) := by
  rw [byteLength_take_of_le h]
  exact Nat.le_add_right _ _

theorem byteLength_take_le (n : Nat) (text : List Char) :
    byteLength (text.take n) ≤ byteLength text := by
  have hsplit := congrArg byteLength (List.take_append_drop n text)
  rw [byteLength_append] at hsplit
  omega

theorem byteLength_take_lt {m n : Nat} {text : List Char} (h : m < n) (hn : n ≤ text.length) :
    byteLength (text.take m) < byteLength (text.take n) := by
  have hmore : (text.drop m).take (n - m) ≠ [] := by
    apply List.ne_nil_of_length_pos
    rw [List.length_take, List.length_drop]
    omega
  have hpos := byteLength_pos hmore
  rw [byteLength_take_of_le (Nat.le_of_lt h)]
  omega

theorem byteLength_take_inj {m n : Nat} {text : List Char} (hm : m ≤ text.length)
    (hn : n ≤ text.length) : byteLength (text.take m) = byteLength (text.take n) ↔ m = n := by
  constructor
  · intro heq
    rcases Nat.lt_trichotomy m n with hlt | rfl | hlt
    · have := byteLength_take_lt hlt hn
      omega
    · rfl
    · have := byteLength_take_lt hlt hm
      omega
  · rintro rfl
    rfl

theorem min_byteLength_take (m n : Nat) (text : List Char) :
    min (byteLength (text.take m)) (byteLength (text.take n)) =
      byteLength (text.take (min m n)) := by
  rcases Nat.le_total m n with h | h
  · rw [Nat.min_eq_left h, Nat.min_eq_left (byteLength_take_mono h text)]
  · rw [Nat.min_eq_right h, Nat.min_eq_right (byteLength_take_mono h text)]

theorem byteLength_eq_zero_iff {text : List Char} : byteLength text = 0 ↔ text = [] := by
  constructor
  · intro h
    apply Decidable.byContradiction
    intro hne
    have := byteLength_pos hne
    omega
  · rintro rfl
    rfl

/-! ## Offsets between characters -/

theorem splitAtByte?_eq_some_iff {text first second : List Char} {n : Nat} :
    splitAtByte? text n = some (first, second) ↔ text = first ++ second ∧ byteLength first = n := by
  constructor
  · intro h
    induction text generalizing n first with
    | nil =>
        cases n with
        | zero =>
            cases h
            exact ⟨rfl, rfl⟩
        | succ n => cases h
    | cons c text ih =>
        cases n with
        | zero =>
            cases h
            exact ⟨rfl, rfl⟩
        | succ n =>
            unfold splitAtByte? at h
            split at h
            · next hfits =>
                obtain ⟨⟨rest, following⟩, hcut, heq⟩ := Option.map_eq_some_iff.mp h
                cases heq
                obtain ⟨rfl, hrest⟩ := ih hcut
                refine ⟨rfl, ?_⟩
                rw [byteLength_cons, hrest]
                omega
            · cases h
  · rintro ⟨rfl, rfl⟩
    exact splitAtByte?_append first second

def IsBoundary (text : List Char) (offset : Nat) : Prop :=
  ∃ first, first <+: text ∧ byteLength first = offset

theorem isPrefix_of_byteLength_le {first second text : List Char} (hfirst : first <+: text)
    (hsecond : second <+: text) (hle : byteLength first ≤ byteLength second) :
    first <+: second := by
  rcases List.prefix_or_prefix_of_prefix hfirst hsecond with h | ⟨more, rfl⟩
  · exact h
  · rw [byteLength_append] at hle
    have hmore : more = [] := byteLength_eq_zero_iff.mp (by omega)
    exact ⟨[], by simp [hmore]⟩

section

variable {text : List Char} {offset m n : Nat}

instance : Decidable (IsBoundary text offset) :=
  decidable_of_iff (splitAtByte? text offset).isSome <| by
    rw [Option.isSome_iff_exists]
    constructor
    · rintro ⟨⟨first, second⟩, hsplit⟩
      obtain ⟨rfl, rfl⟩ := splitAtByte?_eq_some_iff.mp hsplit
      exact ⟨first, List.prefix_append first second, rfl⟩
    · rintro ⟨first, ⟨second, rfl⟩, rfl⟩
      exact ⟨(first, second), splitAtByte?_append first second⟩

theorem IsBoundary.le (h : IsBoundary text offset) : offset ≤ byteLength text := by
  obtain ⟨first, ⟨second, rfl⟩, rfl⟩ := h
  rw [byteLength_append]
  exact Nat.le_add_right _ _

theorem IsBoundary.max (hm : IsBoundary text m) (hn : IsBoundary text n) :
    IsBoundary text (max m n) := by
  rcases Nat.le_total m n with h | h
  · rwa [Nat.max_eq_right h]
  · rwa [Nat.max_eq_left h]

theorem IsBoundary.min (hm : IsBoundary text m) (hn : IsBoundary text n) :
    IsBoundary text (min m n) := by
  rcases Nat.le_total m n with h | h
  · rwa [Nat.min_eq_left h]
  · rwa [Nat.min_eq_right h]

end

/-! ## The cursor of a view -/

theorem ok_bind {α β : Type} (value : α) (next : α → Except CursorError β) :
    (Except.ok value >>= next) = next value := rfl

namespace View

def cursor (view : View) : Cursor where
  line := view.line
  start := byteLength view.before
  pos := byteLength (view.before ++ view.taken)
  stop := byteLength (view.before ++ view.taken ++ view.ahead)
  tabSize := view.tabSize

def offset (view : View) (n : Nat) : Nat := view.cursor.pos + byteLength (view.ahead.take n)

theorem cursor_ofLine (line : List Char) (tabSize : Nat) :
    (ofLine line tabSize).cursor = Cursor.ofLine line tabSize := by
  simp [cursor, ofLine, Cursor.ofLine, View.line]

theorem read_cursor {view : View} (first middle last : List Char)
    (h : view.line = first ++ middle ++ last) :
    view.cursor.read (byteLength first) (byteLength (first ++ middle)) = .ok middle := by
  rw [Cursor.read, byteLength_append, show view.cursor.line = _ from h, slice?_append]

theorem visible_cursor (view : View) :
    view.cursor.visible = .ok (view.before ++ view.taken ++ view.ahead) :=
  read_cursor [] _ view.hidden rfl

theorem rest_cursor (view : View) : view.cursor.rest = .ok view.ahead :=
  read_cursor _ _ view.hidden rfl

theorem current_cursor (view : View) : view.cursor.current = .ok view.taken := by
  refine read_cursor _ _ (view.ahead ++ view.hidden) ?_
  simp [View.line]

theorem before_cursor (view : View) :
    view.cursor.read 0 view.cursor.start = .ok view.before := by
  refine read_cursor [] _ (view.taken ++ view.ahead ++ view.hidden) ?_
  simp [View.line]

theorem view_cursor (view : View) : view.cursor.view = .ok view := by
  have hhidden : view.cursor.read view.cursor.stop (byteLength view.cursor.line) =
      .ok view.hidden := by
    refine read_cursor _ _ [] ?_
    simp [View.line]
  rw [Cursor.view, before_cursor, current_cursor, rest_cursor, hhidden]
  rfl

theorem atLineStart_cursor (view : View) : view.cursor.atLineStart = view.atLineStart := by
  rw [Bool.eq_iff_iff]
  simp [Cursor.atLineStart, cursor, View.atLineStart, byteLength_eq_zero_iff]

theorem atEnd_cursor (view : View) : view.cursor.atEnd = view.ahead.isEmpty := by
  rw [Bool.eq_iff_iff, List.isEmpty_iff, ← byteLength_eq_zero_iff]
  simp only [Cursor.atEnd, cursor, byteLength_append, decide_eq_true_eq]
  omega

theorem offset_le_stop (view : View) (n : Nat) : view.offset n ≤ view.cursor.stop := by
  have := byteLength_take_le n view.ahead
  simp only [offset, cursor, byteLength_append]
  omega

theorem offset_inj {view : View} {m n : Nat} (hm : m ≤ view.ahead.length)
    (hn : n ≤ view.ahead.length) : view.offset m = view.offset n ↔ m = n := by
  rw [offset, offset, Nat.add_left_cancel_iff, byteLength_take_inj hm hn]

@[simp] theorem offset_zero (view : View) : view.offset 0 = view.cursor.pos := by
  simp [offset]

theorem min_offset (view : View) (m n : Nat) :
    min (view.offset m) (view.offset n) = view.offset (min m n) := by
  rw [offset, offset, offset, Nat.add_min_add_left, min_byteLength_take]

def cursorAfter (view : View) (n : Nat) : Cursor := { view.cursor with pos := view.offset n }

@[simp] theorem cursorAfter_zero (view : View) : view.cursorAfter 0 = view.cursor := by
  rw [cursorAfter, offset_zero]

theorem advance_cursor (view : View) (n : Nat) :
    view.cursor.advance (byteLength (view.ahead.take n)) = view.cursorAfter n := by
  have hpos : min (view.cursor.pos + byteLength (view.ahead.take n)) view.cursor.stop =
      view.offset n :=
    Nat.min_eq_left (view.offset_le_stop n)
  rw [Cursor.advance, hpos, cursorAfter]

theorem not_start_lt_pos {view : View} (htaken : view.taken = []) :
    ¬ view.cursor.start < view.cursor.pos := by
  simp [cursor, htaken]

theorem cursorAfter_pos_le_start {view : View} {n : Nat} (hn : n ≤ view.ahead.length) :
    (view.cursorAfter n).pos ≤ (view.cursorAfter n).start ↔ view.taken = [] ∧ n = 0 := by
  have hzero : byteLength (view.ahead.take n) = 0 ↔ n = 0 :=
    byteLength_take_inj hn (Nat.zero_le _)
  rw [← byteLength_eq_zero_iff, ← hzero]
  simp only [cursorAfter, cursor, offset, byteLength_append]
  omega

theorem cursorAfter_pos_sub_start {view : View} (htaken : view.taken = []) (n : Nat) :
    (view.cursorAfter n).pos - (view.cursorAfter n).start = byteLength (view.ahead.take n) := by
  simp only [cursorAfter, cursor, offset, htaken, byteLength_append, byteLength_nil]
  omega

theorem nextChar_cursor {view : View} (hahead : view.ahead ≠ []) :
    ∃ c, view.cursor.nextChar = .ok (some c, view.cursorAfter 1) := by
  obtain ⟨c, text, hcons⟩ := List.exists_cons_of_ne_nil hahead
  refine ⟨c, ?_⟩
  rw [Cursor.nextChar, Cursor.eatIf, view.rest_cursor, hcons, ok_bind]
  simp only [cursorAfter, offset, hcons, List.take_succ_cons, List.take_zero, byteLength_cons,
    byteLength_nil]
  rfl

theorem beginToken_cursorAfter (view : View) (n : Nat) :
    (view.cursorAfter n).beginToken = (view.next n).cursor := by
  have hstop := congrArg byteLength (List.take_append_drop n view.ahead)
  rw [byteLength_append] at hstop
  rw [Cursor.beginToken, cursorAfter, cursor, Cursor.mk.injEq]
  refine ⟨(view.line_next n).symm, ?_, ?_, ?_, rfl⟩ <;>
    simp only [cursor, next, offset, byteLength_append, byteLength_nil] <;> omega

theorem limitTo_cursor (view : View) (n : Nat) :
    view.cursor.limitTo (view.offset n) = (view.limit n).cursor := by
  have hle := byteLength_take_le n view.ahead
  rw [Cursor.limitTo, cursor, Cursor.mk.injEq]
  refine ⟨(view.line_limit n).symm, rfl, rfl, ?_, rfl⟩
  simp only [cursor, limit, offset, byteLength_append]
  omega

end View

/-- The start of the token, the position and the limit follow each other, and none of
them is inside a character. -/
structure Cursor.InPlace (cursor : Cursor) : Prop where
  start_le_pos : cursor.start ≤ cursor.pos
  pos_le_stop : cursor.pos ≤ cursor.stop
  start : IsBoundary cursor.line cursor.start
  pos : IsBoundary cursor.line cursor.pos
  stop : IsBoundary cursor.line cursor.stop

theorem Cursor.InPlace.exists_view {cursor : Cursor} (h : cursor.InPlace) :
    ∃ view : View, view.cursor = cursor := by
  obtain ⟨line, start, pos, stop, tabSize⟩ := cursor
  obtain ⟨first, hfirst, rfl⟩ := h.start
  obtain ⟨second, hsecond, rfl⟩ := h.pos
  obtain ⟨third, hthird, rfl⟩ := h.stop
  obtain ⟨taken, rfl⟩ := isPrefix_of_byteLength_le hfirst hsecond h.start_le_pos
  obtain ⟨ahead, rfl⟩ := isPrefix_of_byteLength_le hsecond hthird h.pos_le_stop
  obtain ⟨hidden, rfl⟩ := hthird
  exact ⟨⟨first, taken, ahead, hidden, tabSize⟩, rfl⟩

/-! ## Searching in bytes -/

theorem Pattern.findInBytes_append (pattern : Pattern) (before rest : List Char) :
    pattern.findInBytes (before ++ rest) (byteLength before) =
      (pattern.find (byteLength before == 0) rest).map fun found =>
        (byteLength before + byteLength (rest.take found.1),
          byteLength ((rest.drop found.1).take found.2)) := by
  simp only [findInBytes, splitAtByte?_append, Option.bind_eq_bind, Option.bind_some]
  cases pattern.find (byteLength before == 0) rest <;> rfl

theorem Pattern.findInBytes_cursor (pattern : Pattern) (view : View) :
    pattern.findInBytes (view.before ++ view.taken ++ view.ahead) view.cursor.pos =
      (pattern.find view.atLineStart view.ahead).map fun found =>
        (view.offset found.1, byteLength ((view.ahead.drop found.1).take found.2)) := by
  rw [← view.atLineStart_cursor]
  exact pattern.findInBytes_append (view.before ++ view.taken) view.ahead

theorem Pattern.matchInBytes_of_here {pattern : Pattern} {view : View} {length : Nat}
    (h : pattern.find view.atLineStart view.ahead = some (0, length)) :
    pattern.matchInBytes (view.before ++ view.taken ++ view.ahead) view.cursor.pos =
      some (byteLength (view.ahead.take length)) := by
  rw [matchInBytes, findInBytes_cursor, h]
  simp

theorem Pattern.matchInBytes_of_not_here {pattern : Pattern} {view : View}
    (h : ∀ length, pattern.find view.atLineStart view.ahead ≠ some (0, length)) :
    pattern.matchInBytes (view.before ++ view.taken ++ view.ahead) view.cursor.pos = none := by
  rw [matchInBytes, findInBytes_cursor]
  cases hfound : pattern.find view.atLineStart view.ahead with
  | none => rfl
  | some found =>
      obtain ⟨start, length⟩ := found
      have hle := find_le hfound
      have hstart : start ≠ 0 := by
        rintro rfl
        exact h length hfound
      have hoffset : view.offset start ≠ view.cursor.pos := by
        rw [← view.offset_zero, Ne, View.offset_inj (by omega) (Nat.zero_le _)]
        exact hstart
      simp [hoffset]

/-! ## Searching for a byte -/

theorem utf8EncodeChar_of_lt {c : Char} (hc : c.toNat < 128) :
    String.utf8EncodeChar c = [UInt8.ofNat c.toNat] :=
  if_pos (Nat.le_of_lt_succ hc)

/-- A character of several bytes has none below 128. -/
theorem toNat_of_mem_utf8EncodeChar {c : Char} {byte : UInt8}
    (h : byte ∈ String.utf8EncodeChar c) : byte.toNat = c.toNat ∨ 128 ≤ byte.toNat := by
  have hvalue : c.val.toNat = c.toNat := rfl
  simp only [String.utf8EncodeChar, hvalue] at h
  split at h
  · rw [List.mem_singleton.mp h, UInt8.toNat_ofNat']
    omega
  · right
    split at h
    · simp only [List.mem_cons, List.not_mem_nil, or_false] at h
      rcases h with rfl | rfl <;> rw [UInt8.toNat_ofNat'] <;> omega
    split at h <;> simp only [List.mem_cons, List.not_mem_nil, or_false] at h
    · rcases h with rfl | rfl | rfl <;> rw [UInt8.toNat_ofNat'] <;> omega
    · rcases h with rfl | rfl | rfl | rfl <;> rw [UInt8.toNat_ofNat'] <;> omega

theorem eq_of_mem_utf8EncodeChar {c d : Char} (hc : c.toNat < 128)
    (h : UInt8.ofNat c.toNat ∈ String.utf8EncodeChar d) : d = c := by
  have hvalue := toNat_of_mem_utf8EncodeChar h
  rw [UInt8.toNat_ofNat'] at hvalue
  exact Char.toNat_inj.mp (by omega)

theorem idxOf?_utf8Bytes {c : Char} (hc : c.toNat < 128) (text : List Char) :
    (utf8Bytes text).idxOf? (UInt8.ofNat c.toNat) =
      if c ∈ text then some (byteLength (text.takeWhile (· != c))) else none := by
  induction text with
  | nil => rfl
  | cons d text ih =>
      have hcons : utf8Bytes (d :: text) = String.utf8EncodeChar d ++ utf8Bytes text := rfl
      rw [List.idxOf?] at ih ⊢
      rw [hcons, List.findIdx?_append, ih]
      by_cases hd : d = c
      · subst hd
        simp [utf8EncodeChar_of_lt hc]
      · -- The bytes of a longer character are all 128 or more.
        have hnone : (String.utf8EncodeChar d).findIdx? (· == UInt8.ofNat c.toNat) = none := by
          rw [List.findIdx?_eq_none_iff]
          intro byte hbyte
          rw [beq_eq_false_iff_ne]
          rintro rfl
          exact hd (eq_of_mem_utf8EncodeChar hc hbyte)
        simp [hnone, hd, Ne.symm hd, Nat.add_comm]

theorem take_length_takeWhile (p : Char → Bool) (text : List Char) :
    text.take (text.takeWhile p).length = text.takeWhile p :=
  (List.prefix_iff_eq_take.mp (List.takeWhile_prefix p)).symm

theorem View.skipToByte_cursor (view : View) {c : Char} (hc : c.toNat < 128) :
    view.cursor.skipToByte (UInt8.ofNat c.toNat) =
      .ok (if c ∈ view.ahead then
          (true, view.cursorAfter (view.ahead.takeWhile (· != c)).length)
        else (false, view.cursor)) := by
  rw [Cursor.skipToByte, view.rest_cursor, ok_bind, idxOf?_utf8Bytes hc]
  by_cases hmem : c ∈ view.ahead
  · simp only [hmem, if_true, cursorAfter, offset, take_length_takeWhile]
    rfl
  · simp only [hmem, if_false]
    rfl

theorem View.read_cursorAfter (view : View) (n : Nat) :
    view.cursor.read view.cursor.pos (view.cursorAfter n).pos = .ok (view.ahead.take n) := by
  have hline : view.line =
      view.before ++ view.taken ++ view.ahead.take n ++ (view.ahead.drop n ++ view.hidden) := by
    rw [List.append_assoc _ (view.ahead.take n), ← List.append_assoc (view.ahead.take n),
      List.take_append_drop, View.line, List.append_assoc _ view.ahead]
  have hpos : (view.cursorAfter n).pos =
      byteLength (view.before ++ view.taken ++ view.ahead.take n) :=
    (byteLength_append _ _).symm
  rw [hpos]
  exact read_cursor _ _ _ hline

theorem View.backUp_cursorAfter (view : View) (n : Nat) :
    (view.cursorAfter n).backUp (byteLength (view.ahead.take n)) = view.cursor := by
  have hstart : view.cursor.start ≤ view.cursor.pos := by
    simp [cursor]
  simp only [Cursor.backUp, cursorAfter, offset, Nat.add_sub_cancel, Nat.max_eq_left hstart]

end CellHighlight
