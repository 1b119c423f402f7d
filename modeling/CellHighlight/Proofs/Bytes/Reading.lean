import CellHighlight.Proofs.Bytes.Walks

/-!
# Reading from a cursor

A reading takes text off a cursor move by move.  Each move reads the line between byte
offsets, and that fails inside a character.  At the cursor of a view a move succeeds and
leaves the cursor of a later view, so a reading that is made of moves does the same.
-/

namespace CellHighlight

theorem byteLength_of_slice? {text middle : List Char} {first last : Nat}
    (h : slice? text first last = some middle) : byteLength middle = last - first := by
  simp only [slice?, Option.bind_eq_bind, Option.bind_eq_some_iff] at h
  obtain ⟨⟨_, rest⟩, -, ⟨cut, _⟩, hcut, hmiddle⟩ := h
  split at hmiddle
  · cases hmiddle
    exact (splitAtByte?_eq_some_iff.mp hcut).2
  · cases hmiddle

theorem exists_of_bind_eq_ok {α β : Type} {value : Except CursorError α}
    {next : α → Except CursorError β} {result : β} (h : (value >>= next) = .ok result) :
    ∃ a, value = .ok a ∧ next a = .ok result := by
  cases value with
  | error error => cases h
  | ok a => exact ⟨a, rfl, h⟩

/-! ## Bytes that are left -/

namespace Cursor

variable {cursor after : Cursor}

def left (cursor : Cursor) : Nat := cursor.stop - cursor.pos

theorem byteLength_of_rest {text : List Char} (h : cursor.rest = .ok text) :
    byteLength text = cursor.left := by
  unfold Cursor.rest Cursor.read at h
  split at h
  · next hslice =>
      cases h
      exact byteLength_of_slice? hslice
  · cases h

theorem left_nextChar_lt {c : Char} (h : cursor.nextChar = .ok (some c, after)) :
    after.left < cursor.left := by
  obtain ⟨text, hrest, h⟩ := exists_of_bind_eq_ok h
  have hleft := byteLength_of_rest hrest
  cases text with
  | nil => cases h
  | cons c text =>
      cases h
      have hsize := c.utf8Size_pos
      simp only [left, byteLength_cons] at *
      omega

theorem eq_of_eat {c : Char} (h : cursor.eat c = .ok (false, after)) : after = cursor := by
  obtain ⟨⟨found, moved⟩, heat, h⟩ := exists_of_bind_eq_ok h
  obtain ⟨text, -, heat⟩ := exists_of_bind_eq_ok heat
  cases text with
  | nil =>
      cases heat
      cases h
      rfl
  | cons d text =>
      dsimp only at heat
      split at heat
      · cases heat
        cases h
      · cases heat
        cases h
        rfl

theorem eatText_cases {text : List Char} {found : Bool}
    (h : cursor.eatText text = .ok (found, after)) :
    if found then after.left + byteLength text = cursor.left else after = cursor := by
  obtain ⟨rest, hrest, h⟩ := exists_of_bind_eq_ok h
  have hleft := byteLength_of_rest hrest
  split at h
  · next hbegins =>
      cases h
      obtain ⟨more, rfl⟩ := List.isPrefixOf_iff_prefix.mp hbegins
      simp only [byteLength_append, left, if_true] at *
      omega
  · cases h
    rfl

end Cursor

/-! ## Views on the way -/

namespace View

variable (view : View)

@[simp] theorem ahead_take (n : Nat) : (view.take n).ahead = view.ahead.drop n := rfl

@[simp] theorem taken_take (n : Nat) : (view.take n).taken = view.taken ++ view.ahead.take n := rfl

@[simp] theorem tabSize_take (n : Nat) : (view.take n).tabSize = view.tabSize := rfl

@[simp] theorem take_zero : view.take 0 = view := by
  simp [take]

@[simp] theorem take_take (m n : Nat) : (view.take m).take n = view.take (m + n) := by
  simp [take, List.take_add]

@[simp] theorem line_take (n : Nat) : (view.take n).line = view.line := by
  simp [take, line]

@[simp] theorem column_take (n : Nat) : (view.take n).column = view.column := rfl

@[simp] theorem indentation_take (n : Nat) : (view.take n).indentation = view.indentation := by
  rw [indentation, indentation, line_take, tabSize_take]

end View

/-! ## Readings -/

abbrev Reading := StateT Cursor (Except CursorError)

namespace Reading

variable {α β : Type}

def look (find : Cursor → Except CursorError α) : Reading α := fun cursor => do
  return (← find cursor, cursor)

def rest : Reading (List Char) := look Cursor.rest

def current : Reading (List Char) := look Cursor.current

def peek : Reading (Option Char) := look Cursor.peek

def peekNth (n : Nat) : Reading (Option Char) := look (Cursor.peekNth · n)

def atLineStart : Reading Bool := return (← get).atLineStart

def atEnd : Reading Bool := return (← get).atEnd

def column : Reading Nat := look Cursor.column

def leadingBlanks : Reading (List Char) :=
  look fun cursor => cursor.read 0 (byteLength (cursor.line.takeWhile isBlank))

def indentation : Reading Nat := do
  let blanks ← leadingBlanks
  return columnAfter (← get).tabSize blanks

def keptIndentation : Reading Nat := do
  let blanks ← leadingBlanks
  return min (columnAfter (← get).tabSize blanks) (max lastKept blanks.length)

def nextChar : Reading (Option Char) := Cursor.nextChar

def eatIf (p : Char → Bool) : Reading (Option Char) := (Cursor.eatIf · p)

def eat (c : Char) : Reading Bool := (Cursor.eat · c)

def eatWhile (p : Char → Bool) : Reading Bool := (Cursor.eatWhile · p)

def eatBlanks : Reading Bool := Cursor.eatBlanks

def eatText (text : List Char) : Reading Bool := (Cursor.eatText · text)

def skipToByte (byte : UInt8) : Reading Bool := (Cursor.skipToByte · byte)

def skipToEnd : Reading Unit := modify Cursor.skipToEnd

def advance (n : Nat) : Reading Unit := modify (Cursor.advance · n)

/-- Takes the next character if it satisfies `p`, but looks at it only when asked to. -/
def eatWhen (asked : Bool) (p : Char → Bool) : Reading Bool := do
  if asked then return (← eatIf p).isSome else return false

/-- The reading does not fail at the cursor of a view and goes on to that of a later one. -/
def Reads (reading : Reading α) (view : View) (value : α) (after : View) : Prop :=
  reading.run view.cursor = .ok (value, after.cursor)

variable {view later after : View} {reading : Reading α} {value : α}

theorem Reads.run_eq (h : Reads reading view value after) :
    reading view.cursor = .ok (value, after.cursor) := h

theorem bind_apply (reading : Reading α) (next : α → Reading β) (cursor : Cursor) :
    (reading >>= next) cursor = (reading cursor >>= fun moved => next moved.1 moved.2) := rfl

theorem exists_of_run_bind {next : α → Reading β} {cursor moved : Cursor} {result : β}
    (h : (reading >>= next) cursor = .ok (result, moved)) :
    ∃ value later, reading cursor = .ok (value, later) ∧
      next value later = .ok (result, moved) := by
  obtain ⟨⟨value, later⟩, hfirst, hnext⟩ := exists_of_bind_eq_ok h
  exact ⟨value, later, hfirst, hnext⟩

theorem Reads.bind_iff {next : α → Reading β} {result : β} (h : Reads reading view value later) :
    Reads (reading >>= next) view result after ↔ Reads (next value) later result after := by
  rw [Reads, StateT.run_bind, h, ok_bind]
  rfl

theorem Reads.bind {next : α → Reading β} {result : β} (h : Reads reading view value later)
    (hnext : Reads (next value) later result after) :
    Reads (reading >>= next) view result after :=
  h.bind_iff.mpr hnext

theorem reads_pure (value : α) (view : View) : Reads (pure value) view value view := rfl

theorem Reads.map (f : α → β) (h : Reads reading view value after) :
    Reads (f <$> reading) view (f value) after := by
  rw [Reads, StateT.run_map, h]
  rfl

theorem Reads.discard (h : Reads reading view value after) :
    Reads (Functor.discard reading) view () after :=
  h.map fun _ => ()

/-! ## Looking -/

theorem eq_of_look {find : Cursor → Except CursorError α} {cursor moved : Cursor}
    (h : look find cursor = .ok (value, moved)) : moved = cursor := by
  obtain ⟨_, -, h⟩ := exists_of_bind_eq_ok h
  cases h
  rfl

theorem reads_look {find : Cursor → Except CursorError α} (h : find view.cursor = .ok value) :
    Reads (look find) view value view := by
  rw [Reads, StateT.run, look, h]
  rfl

variable (view)

theorem reads_rest : Reads rest view view.ahead view := reads_look view.rest_cursor

theorem reads_current : Reads current view view.taken view := reads_look view.current_cursor

theorem reads_peek : Reads peek view view.ahead.head? view := by
  apply reads_look
  rw [Cursor.peek, view.rest_cursor]
  rfl

theorem reads_peekNth (n : Nat) : Reads (peekNth n) view view.ahead[n]? view := by
  apply reads_look
  rw [Cursor.peekNth, view.rest_cursor]
  rfl

theorem reads_atLineStart : Reads atLineStart view view.atLineStart view := by
  rw [← view.atLineStart_cursor]
  rfl

theorem reads_atEnd : Reads atEnd view view.ahead.isEmpty view := by
  rw [← view.atEnd_cursor]
  rfl

theorem reads_column : Reads column view view.column view := by
  apply reads_look
  rw [Cursor.column, view.before_cursor]
  rfl

theorem reads_leadingBlanks :
    Reads leadingBlanks view (view.line.takeWhile isBlank) view := by
  apply reads_look
  exact View.read_cursor [] _ _ (List.takeWhile_append_dropWhile).symm

theorem reads_indentation : Reads indentation view view.indentation view := by
  refine (reads_leadingBlanks view).bind ?_
  rfl

theorem reads_keptIndentation : Reads keptIndentation view view.keptIndentation view := by
  refine (reads_leadingBlanks view).bind ?_
  rfl

/-! ## Moving -/

theorem reads_eatIf (p : Char → Bool) :
    Reads (eatIf p) view (view.ahead.head?.filter p) (view.take (oneIf p view.ahead)) := by
  rw [Reads, View.cursor_take]
  exact view.eatIf_cursor p

theorem any_head? (p : Char → Bool) (text : List Char) : text.head?.any p = headIs p text := by
  cases text <;> rfl

theorem isSome_filter_head? (p : Char → Bool) (text : List Char) :
    (text.head?.filter p).isSome = headIs p text := by
  cases text with
  | nil => rfl
  | cons c text => cases hc : p c <;> simp [headIs, hc]

theorem reads_eat (c : Char) :
    Reads (eat c) view (headIs (· == c) view.ahead)
      (view.take (oneIf (· == c) view.ahead)) := by
  rw [← isSome_filter_head?]
  exact (reads_eatIf view (· == c)).map Option.isSome

theorem reads_eatWhile (p : Char → Bool) :
    Reads (eatWhile p) view (runLength p view.ahead != 0)
      (view.take (runLength p view.ahead)) := by
  have hfound : (!(view.ahead.takeWhile p).isEmpty) = (runLength p view.ahead != 0) := by
    rw [runLength]
    cases view.ahead.takeWhile p <;> rfl
  rw [Reads, View.cursor_take, ← hfound]
  exact view.eatWhile_cursor p

theorem reads_eatBlanks :
    Reads eatBlanks view (runLength isBlank view.ahead != 0)
      (view.take (runLength isBlank view.ahead)) :=
  reads_eatWhile view isBlank

theorem reads_eatText (text : List Char) :
    Reads (eatText text) view (text.isPrefixOf view.ahead)
      (view.take (if text.isPrefixOf view.ahead then text.length else 0)) := by
  rw [Reads, View.cursor_take]
  refine (view.eatText_cursor text).trans ?_
  simp only [← List.isPrefixOf_iff_prefix]
  cases text.isPrefixOf view.ahead <;> simp

theorem reads_skipToByte {c : Char} (hc : c.toNat < 128) :
    Reads (skipToByte (UInt8.ofNat c.toNat)) view (view.ahead.contains c)
      (view.take (if view.ahead.contains c then runLength (· != c) view.ahead else 0)) := by
  rw [Reads, View.cursor_take]
  refine (view.skipToByte_cursor hc).trans ?_
  by_cases hmem : c ∈ view.ahead
  · simp [hmem, runLength]
  · simp [hmem]

theorem reads_skipToEnd : Reads skipToEnd view () (view.take view.ahead.length) := by
  have hend : view.offset view.ahead.length = view.cursor.stop := by
    rw [View.offset, List.take_length, View.cursor, byteLength_append (_ ++ _)]
  rw [Reads, View.cursor_take, View.cursorAfter, hend]
  rfl

theorem reads_advance (n : Nat) :
    Reads (advance (byteLength (view.ahead.take n))) view () (view.take n) := by
  rw [Reads, View.cursor_take, ← view.advance_cursor]
  rfl

theorem reads_eatWhen (asked : Bool) (p : Char → Bool) :
    Reads (eatWhen asked p) view (asked && headIs p view.ahead)
      (view.take (if asked then oneIf p view.ahead else 0)) := by
  cases asked with
  | false =>
      simp only [Bool.false_and, Bool.false_eq_true, if_false, View.take_zero]
      exact reads_pure false view
  | true =>
      rw [Bool.true_and, ← isSome_filter_head?]
      exact (reads_eatIf view p).bind (reads_pure _ _)

variable {view}

theorem reads_eatWhile_take {n : Nat} {text : List Char} (h : view.ahead.drop n = text)
    (p : Char → Bool) :
    Reads (eatWhile p) (view.take n) (runLength p text != 0)
      (view.take (n + runLength p text)) := by
  have heat := reads_eatWhile (view.take n) p
  rwa [View.ahead_take, View.take_take, h] at heat

theorem reads_eatIf_take {n : Nat} {text : List Char} (h : view.ahead.drop n = text)
    (p : Char → Bool) :
    Reads (eatIf p) (view.take n) (text.head?.filter p) (view.take (n + oneIf p text)) := by
  have heat := reads_eatIf (view.take n) p
  rwa [View.ahead_take, View.take_take, h] at heat

theorem reads_eatText_append {text rest : List Char} (h : view.ahead = text ++ rest) :
    Reads (eatText text) view true (view.take text.length) := by
  have heat := reads_eatText view text
  rwa [h, List.isPrefixOf_iff_prefix.mpr (List.prefix_append text rest), if_pos rfl] at heat

theorem reads_eatText_of_not {text : List Char} (h : text.isPrefixOf view.ahead = false) :
    Reads (eatText text) view false view := by
  have heat := reads_eatText view text
  rwa [h, if_neg Bool.false_ne_true, View.take_zero] at heat

theorem headIs_eq_false_of_ne {c : Char} {text : List Char}
    (h : ∀ rest, text = c :: rest → False) : headIs (· == c) text = false := by
  cases text with
  | nil => rfl
  | cons d rest =>
      rw [headIs, beq_eq_false_iff_ne]
      rintro rfl
      exact h rest rfl

theorem reads_eatIf_cons {p : Char → Bool} {c : Char} {text : List Char}
    (h : view.ahead = c :: text) (hc : p c = true) :
    Reads (eatIf p) view (some c) (view.take 1) := by
  have heat := reads_eatIf view p
  rwa [h, List.head?_cons, Option.filter_some, oneIf, if_pos hc, if_pos hc] at heat

theorem reads_eatIf_of_not {p : Char → Bool} (h : headIs p view.ahead = false) :
    Reads (eatIf p) view none view := by
  have heat := reads_eatIf view p
  cases hahead : view.ahead with
  | nil => rwa [hahead, oneIf, View.take_zero] at heat
  | cons c text =>
      have hc : ¬ p c = true := by
        rw [hahead] at h
        exact Bool.eq_false_iff.mp h
      rwa [hahead, List.head?_cons, Option.filter_some, oneIf, if_neg hc, if_neg hc,
        View.take_zero] at heat

theorem reads_eat_cons {c : Char} {text : List Char} (h : view.ahead = c :: text) :
    Reads (eat c) view true (view.take 1) :=
  (reads_eatIf_cons (p := (· == c)) h (beq_self_eq_true c)).map Option.isSome

theorem reads_eat_of_not {c : Char} (h : headIs (· == c) view.ahead = false) :
    Reads (eat c) view false view :=
  (reads_eatIf_of_not h).map Option.isSome

/-! ## Choices by the next character -/

section Choices

variable {c : Char} {text : List Char} {p : Char → Bool} {yes no : Reading α}

theorem reads_eat_then (h : view.ahead = c :: text) (hyes : Reads yes (view.take 1) value after) :
    Reads (do if ← eat c then yes else no) view value after :=
  (reads_eat_cons h).bind hyes

theorem reads_eat_else (h : headIs (· == c) view.ahead = false)
    (hno : Reads no view value after) : Reads (do if ← eat c then yes else no) view value after :=
  (reads_eat_of_not h).bind hno

theorem reads_eatIf_then (h : view.ahead = c :: text) (hc : p c = true)
    (hyes : Reads yes (view.take 1) value after) :
    Reads (do if (← eatIf p).isSome then yes else no) view value after :=
  (reads_eatIf_cons h hc).bind hyes

theorem reads_eatIf_else (h : headIs p view.ahead = false) (hno : Reads no view value after) :
    Reads (do if (← eatIf p).isSome then yes else no) view value after :=
  (reads_eatIf_of_not h).bind hno

theorem reads_eatWhen_then {asked : Bool} (h : (asked && headIs p view.ahead) = true)
    (hyes : Reads yes (view.take 1) value after) :
    Reads (do if ← eatWhen asked p then yes else no) view value after := by
  have heat := reads_eatWhen view asked p
  obtain ⟨hasked, hhead⟩ := Bool.and_eq_true_iff.mp h
  rw [h, if_pos hasked, oneIf_eq_one hhead] at heat
  exact heat.bind hyes

theorem reads_eatWhen_else {asked : Bool} (h : ¬ (asked && headIs p view.ahead) = true)
    (hno : Reads no view value after) :
    Reads (do if ← eatWhen asked p then yes else no) view value after := by
  have heat := reads_eatWhen view asked p
  rw [Bool.eq_false_iff.mpr h] at heat
  have hstay : (if asked then oneIf p view.ahead else 0) = 0 := by
    cases asked with
    | false => rfl
    | true => exact oneIf_eq_zero (by simpa using h)
  rw [hstay, View.take_zero] at heat
  exact heat.bind hno

end Choices

theorem reads_nextChar {c : Char} {text : List Char} (h : view.ahead = c :: text) :
    Reads nextChar view (some c) (view.take 1) :=
  reads_eatIf_cons h rfl

theorem reads_nextChar_nil (h : view.ahead = []) : Reads nextChar view none view :=
  reads_eatIf_of_not (by rw [h]; rfl)

/-! ## Exponents -/

def peekExponent (digit : Char → Bool) : Reading (Option Nat) := do
  if (← peek).any fun c => c == 'e' || c == 'E' then
    let sign := if (← peekNth 1).any fun c => c == '+' || c == '-' then 1 else 0
    if (← peekNth (1 + sign)).any digit then return some sign else return none
  else return none

def exponentSign? (digit : Char → Bool) : List Char → Option Nat
  | [] => none
  | c :: text =>
      let sign := oneIf (fun c => c == '+' || c == '-') text
      if (c == 'e' || c == 'E') && headIs digit (text.drop sign) then some sign else none

/-- An exponent begins with its mark, of one byte, and with a sign, if it has one. -/
theorem exponentSign?_eq_some {digit : Char → Bool} {text : List Char} {sign : Nat}
    (h : exponentSign? digit text = some sign) :
    ∃ c rest, text = c :: rest ∧ (c = 'e' ∨ c = 'E') ∧
      (sign = 0 ∨ sign = 1 ∧ ∃ d more, rest = d :: more ∧ (d = '+' ∨ d = '-')) := by
  cases text with
  | nil => cases h
  | cons c rest =>
      simp only [exponentSign?, Option.ite_none_right_eq_some, Bool.and_eq_true, Bool.or_eq_true,
        beq_iff_eq] at h
      obtain ⟨⟨hmark, -⟩, hsign⟩ := h
      refine ⟨c, rest, rfl, hmark, ?_⟩
      cases rest with
      | nil =>
          cases hsign
          exact .inl rfl
      | cons d more =>
          cases hsign
          cases hd : d == '+' || d == '-' with
          | false => exact .inl (by simp [oneIf, hd])
          | true => exact .inr ⟨by simp [oneIf, hd], d, more, rfl, by simpa using hd⟩

theorem reads_peekExponent (digit : Char → Bool) (view : View) :
    Reads (peekExponent digit) view (exponentSign? digit view.ahead) view := by
  refine (reads_peek view).bind ?_
  cases htext : view.ahead with
  | nil => exact reads_pure _ _
  | cons c text =>
      have hsign : (if (view.ahead[1]?).any fun c => c == '+' || c == '-' then 1 else 0) =
          oneIf (fun c => c == '+' || c == '-') text := by
        rw [htext]
        cases text <;> rfl
      have hdigit (sign : Nat) :
          view.ahead[1 + sign]?.any digit = headIs digit (text.drop sign) := by
        rw [htext, Nat.add_comm, List.getElem?_cons_succ, ← List.head?_drop, any_head?]
      cases hmark : c == 'e' || c == 'E' with
      | false => simpa [exponentSign?, hmark] using reads_pure none view
      | true =>
          rw [List.head?_cons, Option.any_some, if_pos hmark]
          refine (reads_peekNth view 1).bind ((reads_peekNth view _).bind ?_)
          rw [hdigit, hsign]
          simp only [exponentSign?, hmark, Bool.true_and]
          split <;> exact reads_pure _ _

theorem exponentLength_eq (digit : Char → Bool) (text : List Char) :
    exponentLength digit text =
      match exponentSign? digit text with
      | none => 0
      | some sign => 1 + sign + runLength digit (text.drop (1 + sign)) := by
  cases text with
  | nil => rfl
  | cons c text =>
      have hdrop (sign : Nat) : (c :: text).drop (1 + sign) = text.drop sign := by
        rw [Nat.add_comm, List.drop_succ_cons]
      simp only [exponentLength, exponentSign?, runLength_bne_zero]
      generalize oneIf (fun c => c == '+' || c == '-') text = sign
      cases (c == 'e' || c == 'E') && headIs digit (text.drop sign) with
      | false => rfl
      | true => simp only [if_true, hdrop]

end Reading

end CellHighlight
