import CellHighlight.Pattern

/-!
# Where a search finds a match

A match lies inside the text that is searched.  Texts are found at the leftmost
place where one of them stands, and whether one stands at a place depends only on
the text from that place on; so a search that begins later, but not after the
match, finds the same match.
-/

namespace CellHighlight

/-! ## The leftmost place -/

section FirstPlace

variable {α : Type} {here : List Char → Option α} {text : List Char}

def firstPlace (here : List Char → Option α) (text : List Char) : Option (Nat × α) :=
  (List.range text.length).findSome? fun place =>
    (here (text.drop place)).map fun found => (place, found)

@[simp] theorem firstPlace_nil (here : List Char → Option α) : firstPlace here [] = none := rfl

theorem firstPlace_cons (here : List Char → Option α) (c : Char) (text : List Char) :
    firstPlace here (c :: text) =
      match here (c :: text) with
      | some found => some (0, found)
      | none => (firstPlace here text).map fun found => (found.1 + 1, found.2) := by
  rw [firstPlace, List.length_cons, List.range_succ_eq_map, List.findSome?_cons,
    List.findSome?_map, firstPlace, List.map_findSome?, List.drop_zero]
  cases here (c :: text) with
  | some found => rfl
  | none =>
      simp only [Option.map_none]
      congr 1
      funext place
      simp [Function.comp_def]

theorem firstPlace_eq_none_iff :
    firstPlace here text = none ↔ ∀ place < text.length, here (text.drop place) = none := by
  simp [firstPlace, List.findSome?_eq_none_iff]

theorem firstPlace_eq_some_iff {place : Nat} {found : α} :
    firstPlace here text = some (place, found) ↔
      place < text.length ∧ here (text.drop place) = some found ∧
        ∀ earlier < place, here (text.drop earlier) = none := by
  induction text generalizing place with
  | nil => simp
  | cons c text ih =>
      rw [firstPlace_cons]
      cases hhere : here (c :: text) with
      | some first =>
          constructor
          · intro h
            simp only [Option.some.injEq, Prod.mk.injEq] at h
            obtain ⟨rfl, rfl⟩ := h
            exact ⟨by simp, hhere, by simp⟩
          · rintro ⟨-, hfound, hearlier⟩
            cases place with
            | zero =>
                rw [List.drop_zero, hhere] at hfound
                cases hfound
                rfl
            | succ place =>
                have := hearlier 0 (Nat.succ_pos place)
                rw [List.drop_zero, hhere] at this
                contradiction
      | none =>
          cases place with
          | zero => simp [hhere]
          | succ place =>
              simp only [Option.map_eq_some_iff, Prod.exists, Prod.mk.injEq,
                Nat.add_right_cancel_iff, exists_eq_right_right, exists_eq_right, ih,
                List.length_cons, List.drop_succ_cons, Nat.add_lt_add_iff_right]
              refine and_congr_right fun _ => and_congr_right fun _ => ?_
              constructor
              · intro hearlier k hk
                cases k with
                | zero => exact hhere
                | succ k => exact hearlier k (Nat.lt_of_succ_lt_succ hk)
              · intro hearlier k hk
                exact hearlier (k + 1) (Nat.succ_lt_succ hk)

theorem firstPlace_zero_iff {found : α} :
    firstPlace here text = some (0, found) ↔ text ≠ [] ∧ here text = some found := by
  rw [firstPlace_eq_some_iff, List.drop_zero, List.length_pos_iff]
  simp

theorem firstPlace_map {β : Type} (f : α → β) (text : List Char) :
    firstPlace (fun text => (here text).map f) text =
      (firstPlace here text).map fun found => (found.1, f found.2) := by
  simp [firstPlace, List.map_findSome?, Function.comp_def]

theorem firstPlace_drop {place n : Nat} {found : α}
    (h : firstPlace here text = some (place, found)) (hn : n ≤ place) :
    firstPlace here (text.drop n) = some (place - n, found) := by
  obtain ⟨hplace, hfound, hearlier⟩ := firstPlace_eq_some_iff.mp h
  rw [firstPlace_eq_some_iff]
  refine ⟨?_, ?_, ?_⟩
  · rw [List.length_drop]
    omega
  · rw [List.drop_drop, Nat.add_sub_cancel' hn]
    exact hfound
  · intro earlier hlt
    rw [List.drop_drop]
    exact hearlier _ (by omega)

theorem firstPlace_drop_eq_none (h : firstPlace here text = none) (n : Nat) :
    firstPlace here (text.drop n) = none := by
  rw [firstPlace_eq_none_iff] at h ⊢
  intro place hplace
  rw [List.length_drop] at hplace
  rw [List.drop_drop]
  exact h _ (by omega)

theorem firstPlace_append {part following : List Char}
    (h : ∀ place < part.length, here ((part ++ following).drop place) = none) :
    firstPlace here (part ++ following) =
      (firstPlace here following).map fun found => (part.length + found.1, found.2) := by
  induction part with
  | nil => simp
  | cons c part ih =>
      have hhere : here (c :: (part ++ following)) = none := h 0 (by simp)
      have hlater := ih fun place hplace => h (place + 1) (by simpa using hplace)
      rw [List.cons_append, firstPlace_cons, hhere, hlater]
      simp [Function.comp_def, Nat.add_right_comm]

end FirstPlace

/-! ## Texts -/

namespace Pattern

theorem textAt_eq_some {alternatives : List (List Char)} {lookahead : Option Lookahead}
    {text found : List Char} (h : textAt alternatives lookahead text = some found) :
    found ∈ alternatives ∧ found <+: text := by
  refine ⟨List.mem_of_find?_eq_some h, ?_⟩
  have hfound := List.find?_some h
  simp only [Bool.and_eq_true, List.isPrefixOf_iff_prefix] at hfound
  exact hfound.1

theorem findText_le {alternatives : List (List Char)} {lookahead : Option Lookahead}
    {text : List Char} {start length : Nat}
    (h : findText alternatives lookahead text = some (start, length)) :
    start + length ≤ text.length := by
  induction text generalizing start with
  | nil =>
      simp only [findText, Option.map_eq_some_iff, Prod.mk.injEq] at h
      obtain ⟨found, hfound, rfl, rfl⟩ := h
      simpa using (textAt_eq_some hfound).2.length_le
  | cons c text ih =>
      unfold findText at h
      split at h
      · next found hfound =>
          simp only [Option.some.injEq, Prod.mk.injEq] at h
          obtain ⟨rfl, rfl⟩ := h
          simpa using (textAt_eq_some hfound).2.length_le
      · simp only [Option.map_eq_some_iff, Prod.mk.injEq] at h
        obtain ⟨⟨skipped, length⟩, hfound, rfl, rfl⟩ := h
        have := ih hfound
        rw [List.length_cons]
        omega

theorem findRegex_le {finder : Finder} {lookahead : Option Lookahead} {text : List Char}
    {fuel place start length : Nat}
    (h : findRegex finder lookahead text fuel place = some (start, length)) :
    start + length ≤ text.length := by
  induction fuel generalizing place with
  | zero => simp [findRegex] at h
  | succ fuel ih =>
      unfold findRegex at h
      split at h
      · contradiction
      · next found length' hfound =>
          split at h
          · simp only [Option.some.injEq, Prod.mk.injEq] at h
            obtain ⟨rfl, rfl⟩ := h
            exact (finder.bounds hfound).2
          · exact ih h

def IsText (pattern : Pattern) : Prop :=
  ∃ alternatives, pattern.kind = .texts alternatives ∧ [] ∉ alternatives

def standing? (pattern : Pattern) (text : List Char) : Option Nat :=
  match pattern.kind with
  | .texts alternatives => (textAt alternatives pattern.lookahead text).map List.length
  | _ => none

theorem IsText.standing?_bounds {pattern : Pattern} (h : pattern.IsText) {text : List Char}
    {length : Nat} (hlength : pattern.standing? text = some length) :
    0 < length ∧ length ≤ text.length := by
  obtain ⟨alternatives, hkind, hnonempty⟩ := h
  simp only [standing?, hkind, Option.map_eq_some_iff] at hlength
  obtain ⟨found, hfound, rfl⟩ := hlength
  obtain ⟨hmem, hprefix⟩ := textAt_eq_some hfound
  refine ⟨List.length_pos_iff.mpr ?_, hprefix.length_le⟩
  rintro rfl
  exact hnonempty hmem

theorem IsText.firstPlace_standing? {pattern : Pattern} (h : pattern.IsText) {text : List Char}
    {length : Nat} (hlength : pattern.standing? text = some length) :
    firstPlace pattern.standing? text = some (0, length) := by
  refine firstPlace_zero_iff.mpr ⟨?_, hlength⟩
  rintro rfl
  have := h.standing?_bounds hlength
  rw [List.length_nil] at this
  omega

theorem IsText.find_eq {pattern : Pattern} (h : pattern.IsText) (atLineStart : Bool)
    (text : List Char) : pattern.find atLineStart text = firstPlace pattern.standing? text := by
  obtain ⟨alternatives, hkind, hnonempty⟩ := h
  have hstanding (text : List Char) : pattern.standing? text =
      (textAt alternatives pattern.lookahead text).map List.length := by
    simp [standing?, hkind]
  simp only [find, hkind]
  induction text with
  | nil =>
      cases hfound : textAt alternatives pattern.lookahead [] with
      | none => simp [findText, hfound]
      | some found =>
          obtain ⟨hmem, hprefix⟩ := textAt_eq_some hfound
          rw [List.prefix_nil.mp hprefix] at hmem
          exact absurd hmem hnonempty
  | cons c text ih =>
      rw [firstPlace_cons, hstanding, findText, ← ih]
      cases textAt alternatives pattern.lookahead (c :: text) <;> rfl

theorem find_le {pattern : Pattern} {atLineStart : Bool} {text : List Char}
    {start length : Nat} (h : pattern.find atLineStart text = some (start, length)) :
    start + length ≤ text.length := by
  unfold find at h
  split at h
  · split at h
    · simp only [Option.some.injEq, Prod.mk.injEq] at h
      omega
    · contradiction
  · exact findText_le h
  · exact findRegex_le h

end Pattern

/-! ## Searching for one text -/

/-- The text does not begin within `part`, also if it would end in what follows. -/
def FreeOf (text part following : List Char) : Prop :=
  ∀ place < part.length, ¬ text <+: (part ++ following).drop place

theorem FreeOf.drop {text part following : List Char} (h : FreeOf text part following)
    (n : Nat) : FreeOf text (part.drop n) following := by
  intro place hplace
  rw [List.length_drop] at hplace
  have hlater := h (n + place) (by omega)
  rwa [← List.drop_drop, List.drop_append_of_le_length (by omega)] at hlater

namespace Pattern

variable {text : List Char}

theorem isText_literal (htext : text ≠ []) : (literal text).IsText :=
  ⟨[text], rfl, by simpa using htext.symm⟩

theorem standing?_literal (text all : List Char) :
    (literal text).standing? all = if text <+: all then some text.length else none := by
  by_cases h : text <+: all
  · simp [standing?, literal, textAt, accepts, h]
  · simp [standing?, literal, textAt, accepts, h]

theorem find_literal_append (htext : text ≠ []) {part following : List Char}
    (hfree : FreeOf text part following) (atLineStart : Bool) :
    (literal text).find atLineStart (part ++ following) =
      ((literal text).find atLineStart following).map fun found =>
        (part.length + found.1, found.2) := by
  rw [(isText_literal htext).find_eq, (isText_literal htext).find_eq]
  apply firstPlace_append
  intro place hplace
  rw [standing?_literal, if_neg (hfree place hplace)]

theorem find_literal_here (htext : text ≠ []) (atLineStart : Bool) (rest : List Char) :
    (literal text).find atLineStart (text ++ rest) = some (0, text.length) := by
  rw [(isText_literal htext).find_eq]
  apply (isText_literal htext).firstPlace_standing?
  rw [standing?_literal, if_pos (List.prefix_append _ _)]

theorem find_literal_nil (htext : text ≠ []) (atLineStart : Bool) :
    (literal text).find atLineStart [] = none := by
  rw [(isText_literal htext).find_eq, firstPlace_nil]

end Pattern

end CellHighlight
