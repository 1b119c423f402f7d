import CellHighlight.Proofs.Search
import CellHighlight.Region

/-!
# Segments of a line

A line with embedded regions can be cut into segments by looking for delimiters
alone: outside any region at the first place where a region opens, inside a region
at the first place where it closes.  The scanners of the languages have no say in
it.
-/

namespace CellHighlight

/-! ## Cutting by delimiters -/

structure Delimiters where
  opener : Pattern
  closer : Option Pattern

structure Delimiters.AreTexts (delimiters : Delimiters) : Prop where
  opener : delimiters.opener.IsText
  closer : ∀ closer, delimiters.closer = some closer → closer.IsText

inductive Part
  | body (region : Option Nat)
  | opening (index : Nat)
  | closing (index : Nat)
deriving DecidableEq, Repr

structure Segment where
  part : Part
  text : List Char
deriving DecidableEq, Repr

structure Cut where
  part : Part
  length : Nat
  region : Option Nat
deriving DecidableEq, Repr

def openingHere (text : List Char) : List Delimiters → Option (Nat × Nat)
  | [] => none
  | first :: others =>
      match first.opener.standing? text with
      | some length => some (0, length)
      | none => (openingHere text others).map fun found => (found.1 + 1, found.2)

/-- The delimiter at the beginning of a text that ends the region the text is in, or
that opens one when it is in none. -/
def cutHere (all : List Delimiters) : Option Nat → List Char → Option Cut
  | none, text =>
      (openingHere text all).map fun found =>
        ⟨.opening found.1, found.2, some found.1⟩
  | some index, text => do
      let delimiters ← all[index]?
      let closer ← delimiters.closer
      let length ← closer.standing? text
      some ⟨.closing index, length, none⟩

def segmentOf (part : Part) (text : List Char) : List Segment :=
  if text.isEmpty then [] else [⟨part, text⟩]

/-- The segments of a text that begins in a region or in none, and the region at its
end.  Delimiters are not empty, so the length of the text is fuel enough. -/
def splitText (all : List Delimiters) :
    Nat → Option Nat → List Char → List Segment × Option Nat
  | 0, region, _ => ([], region)
  | fuel + 1, region, text =>
      match firstPlace (cutHere all region) text with
      | none => (segmentOf (.body region) text, region)
      | some (place, cut) =>
          let (segments, region') :=
            splitText all fuel cut.region (text.drop (place + cut.length))
          (segmentOf (.body region) (text.take place) ++
            ⟨cut.part, (text.drop place).take cut.length⟩ :: segments, region')

/-- A region goes on in the next line only if it has a closing delimiter. -/
def regionAtLineStart (all : List Delimiters) (region : Option Nat) : Option Nat :=
  region.filter fun index => all[index]?.any fun delimiters => delimiters.closer.isSome

def splitLine (all : List Delimiters) (region : Option Nat) (line : List Char) :
    List Segment × Option Nat :=
  splitText all line.length (regionAtLineStart all region) line

example :
    splitLine [⟨.literal ['<'], some (.literal ['>'])⟩] none "a<bc>".toList =
      ([⟨.body none, ['a']⟩, ⟨.opening 0, ['<']⟩, ⟨.body (some 0), ['b', 'c']⟩,
        ⟨.closing 0, ['>']⟩], none) := by
  decide

/-! ## Searching for delimiters -/

namespace Region

variable {γ τ : Type}

def delimiters (region : Region γ) : Delimiters := ⟨region.opener, region.closer⟩

structure HasTextDelimiters (region : Region γ) : Prop where
  texts : region.delimiters.AreTexts
  separate : region.scansDelimiters = false

theorem areTexts_of_mem {regions : List (Region γ)}
    (h : ∀ region ∈ regions, region.HasTextDelimiters) :
    ∀ found ∈ regions.map delimiters, found.AreTexts := by
  intro found hfound
  obtain ⟨region, hregion, rfl⟩ := List.mem_map.mp hfound
  exact (h region hregion).texts

theorem openedAt_eq (atLineStart : Bool) (text : List Char) {regions : List (Region γ)}
    (h : ∀ region ∈ regions, region.opener.IsText) :
    openedAt atLineStart text regions =
      (openingHere text (regions.map delimiters)).bind fun found =>
        regions[found.1]?.map fun region => (found.1, region, found.2) := by
  induction regions with
  | nil => rfl
  | cons region regions ih =>
      have hopener := h region List.mem_cons_self
      have hothers := ih fun other hother => h other (List.mem_cons_of_mem _ hother)
      have hfind := hopener.find_eq atLineStart text
      simp only [openedAt, List.map_cons, openingHere]
      cases hstanding : region.opener.standing? text with
      | some length =>
          rw [hfind.trans (hopener.firstPlace_standing? hstanding)]
          simp [delimiters, hstanding]
      | none =>
          have hnot (length : Nat) :
              region.opener.find atLineStart text ≠ some (0, length) := by
            rw [hfind]
            intro hplace
            have hhere := (firstPlace_zero_iff.mp hplace).2
            rw [hstanding] at hhere
            contradiction
          split
          · next length hfound => exact absurd hfound (hnot length)
          · rw [hothers]
            simp only [delimiters, hstanding]
            cases openingHere text (regions.map delimiters) with
            | none => rfl
            | some found => simp [Option.map_map, Function.comp_def]

end Region

theorem isSome_openingHere_cons (first : Delimiters) (others : List Delimiters)
    (text : List Char) :
    (openingHere text (first :: others)).isSome =
      ((first.opener.standing? text).isSome || (openingHere text others).isSome) := by
  rw [openingHere]
  cases first.opener.standing? text <;> simp

theorem firstPlace_merge {α β δ : Type} {first : List Char → Option α}
    {second : List Char → Option β} {either : List Char → Option δ}
    (h : ∀ text, (either text).isSome = ((first text).isSome || (second text).isSome))
    (text : List Char) :
    (firstPlace either text).map Prod.fst =
      ((firstPlace first text).map Prod.fst).merge min
        ((firstPlace second text).map Prod.fst) := by
  induction text with
  | nil => rfl
  | cons c text ih =>
      have hhere := h (c :: text)
      simp only [firstPlace_cons]
      cases hfirst : first (c :: text) with
      | some place =>
          obtain ⟨found, hfound⟩ : ∃ found, either (c :: text) = some found := by
            rw [← Option.isSome_iff_exists, hhere, hfirst]
            rfl
          rw [hfound]
          cases (second (c :: text)) <;> cases (firstPlace second text) <;> simp
      | none =>
          cases hsecond : second (c :: text) with
          | some other =>
              obtain ⟨found, hfound⟩ : ∃ found, either (c :: text) = some found := by
                rw [← Option.isSome_iff_exists, hhere, hsecond, Bool.or_comm]
                rfl
              rw [hfound]
              cases (firstPlace first text) <;> simp
          | none =>
              have hnone : either (c :: text) = none := by
                simpa [hfirst, hsecond] using hhere
              have hshift (a b : Option Nat) : (a.merge min b).map (· + 1) =
                  (a.map (· + 1)).merge min (b.map (· + 1)) := by
                cases a <;> cases b <;> simp [Nat.add_min_add_right]
              have hshifted := congrArg (Option.map (· + 1)) ih
              rw [hshift] at hshifted
              simpa [hnone, Function.comp_def] using hshifted

namespace Region

variable {γ τ : Type}

theorem nextOpening_eq (atLineStart : Bool) (text : List Char) {regions : List (Region γ)}
    (h : ∀ region ∈ regions, region.opener.IsText) :
    nextOpening atLineStart text regions =
      (firstPlace (fun text => openingHere text (regions.map delimiters)) text).map
        Prod.fst := by
  induction regions with
  | nil =>
      have hnone : firstPlace (fun _ : List Char => (none : Option (Nat × Nat))) text = none :=
        firstPlace_eq_none_iff.mpr fun _ _ => rfl
      simp [nextOpening, openingHere, hnone]
  | cons region regions ih =>
      have hopener := h region List.mem_cons_self
      have hothers := ih fun other hother => h other (List.mem_cons_of_mem _ hother)
      rw [List.map_cons, firstPlace_merge (isSome_openingHere_cons _ _), nextOpening, hothers,
        hopener.find_eq atLineStart text, delimiters]
      cases (firstPlace region.opener.standing? text) <;>
        cases (firstPlace (fun text => openingHere text (regions.map _)) text) <;> rfl

end Region

theorem openingHere_eq_some {text : List Char} {all : List Delimiters} {index length : Nat}
    (h : openingHere text all = some (index, length)) :
    ∃ delimiters, all[index]? = some delimiters ∧
      delimiters.opener.standing? text = some length := by
  induction all generalizing index with
  | nil => contradiction
  | cons first others ih =>
      unfold openingHere at h
      cases hstanding : first.opener.standing? text with
      | some found =>
          simp only [hstanding, Option.some.injEq, Prod.mk.injEq] at h
          obtain ⟨rfl, rfl⟩ := h
          exact ⟨first, rfl, hstanding⟩
      | none =>
          simp only [hstanding, Option.map_eq_some_iff, Prod.mk.injEq] at h
          obtain ⟨⟨index', length'⟩, hfound, rfl, rfl⟩ := h
          exact ih hfound

theorem firstPlace_opening (all : List Delimiters) (text : List Char) :
    (firstPlace (cutHere all none) text).map Prod.fst =
      (firstPlace (fun text => openingHere text all) text).map Prod.fst := by
  have hcut : cutHere all none = fun text => (openingHere text all).map fun found =>
      ⟨.opening found.1, found.2, some found.1⟩ := rfl
  rw [hcut, firstPlace_map, Option.map_map]
  rfl

theorem firstPlace_closing {all : List Delimiters} {index : Nat} {delimiters : Delimiters}
    {closer : Pattern} (hindex : all[index]? = some delimiters)
    (hcloser : delimiters.closer = some closer) (text : List Char) :
    firstPlace (cutHere all (some index)) text =
      (firstPlace closer.standing? text).map fun found =>
        (found.1, ⟨.closing index, found.2, none⟩) := by
  have hcut : cutHere all (some index) = fun text => (closer.standing? text).map fun length =>
      ⟨.closing index, length, none⟩ := by
    funext text
    simp only [cutHere, hindex, hcloser, Option.bind_eq_bind, Option.bind_some]
    cases closer.standing? text <;> rfl
  rw [hcut, firstPlace_map]

theorem firstPlace_never_closing {all : List Delimiters} {index : Nat}
    {delimiters : Delimiters} (hindex : all[index]? = some delimiters)
    (hcloser : delimiters.closer = none) (text : List Char) :
    firstPlace (cutHere all (some index)) text = none := by
  apply firstPlace_eq_none_iff.mpr
  intro place _
  simp [cutHere, hindex, hcloser]

def bodyLength (all : List Delimiters) (region : Option Nat) (text : List Char) : Nat :=
  ((firstPlace (cutHere all region) text).map Prod.fst).getD text.length

theorem cutHere_bounds {all : List Delimiters} (hall : ∀ delimiters ∈ all, delimiters.AreTexts)
    {region : Option Nat} {text : List Char} {cut : Cut}
    (hcut : cutHere all region text = some cut) :
    0 < cut.length ∧ cut.length ≤ text.length := by
  cases region with
  | none =>
      simp only [cutHere, Option.map_eq_some_iff] at hcut
      obtain ⟨⟨index, length⟩, hopening, rfl⟩ := hcut
      obtain ⟨delimiters, hindex, hstanding⟩ := openingHere_eq_some hopening
      exact (hall _ (List.mem_of_getElem? hindex)).opener.standing?_bounds hstanding
  | some index =>
      simp only [cutHere, Option.bind_eq_bind, Option.bind_eq_some_iff,
        Option.some.injEq] at hcut
      obtain ⟨delimiters, hindex, closer, hcloser, length, hstanding, rfl⟩ := hcut
      have htexts := hall _ (List.mem_of_getElem? hindex)
      exact (htexts.closer closer hcloser).standing?_bounds hstanding

theorem segmentOf_text (part : Part) (text : List Char) :
    ((segmentOf part text).map Segment.text).flatten = text := by
  cases text <;> simp [segmentOf]

theorem segmentOf_ne_nil {part : Part} {text : List Char} :
    ∀ segment ∈ segmentOf part text, segment.text ≠ [] := by
  cases text <;> simp [segmentOf]

theorem splitText_text {all : List Delimiters}
    (hall : ∀ delimiters ∈ all, delimiters.AreTexts) {fuel : Nat} {text : List Char}
    (hfuel : text.length ≤ fuel) (region : Option Nat) :
    let segments := (splitText all fuel region text).1
    (segments.map Segment.text).flatten = text ∧ ∀ segment ∈ segments, segment.text ≠ [] := by
  induction fuel generalizing text region with
  | zero =>
      have htext : text = [] := List.eq_nil_of_length_eq_zero (Nat.le_zero.mp hfuel)
      simp [splitText, htext]
  | succ fuel ih =>
      cases hplace : firstPlace (cutHere all region) text with
      | none =>
          simp only [splitText, hplace]
          exact ⟨segmentOf_text _ _, segmentOf_ne_nil⟩
      | some found =>
          obtain ⟨place, cut⟩ := found
          obtain ⟨hlt, hcut, -⟩ := firstPlace_eq_some_iff.mp hplace
          obtain ⟨hpos, hle⟩ := cutHere_bounds hall hcut
          have hshorter : (text.drop (place + cut.length)).length ≤ fuel := by
            rw [List.length_drop]
            omega
          obtain ⟨hflatten, hnonempty⟩ := ih hshorter cut.region
          simp only [splitText, hplace]
          constructor
          · rw [List.map_append, List.flatten_append, segmentOf_text, List.map_cons,
              List.flatten_cons, hflatten, ← List.drop_drop, List.take_append_drop,
              List.take_append_drop]
          · intro segment hsegment
            rcases List.mem_append.mp hsegment with hbody | hsegment
            · exact segmentOf_ne_nil segment hbody
            · rcases List.mem_cons.mp hsegment with rfl | hsegment
              · apply List.ne_nil_of_length_pos
                rw [List.length_take]
                omega
              · exact hnonempty segment hsegment

theorem bodyLength_pos {all : List Delimiters} {region : Option Nat} {text : List Char}
    (hcut : cutHere all region text = none) (htext : text ≠ []) :
    0 < bodyLength all region text := by
  unfold bodyLength
  cases hplace : firstPlace (cutHere all region) text with
  | none => exact List.length_pos_iff.mpr htext
  | some found =>
      obtain ⟨place, cut⟩ := found
      cases place with
      | zero =>
          rw [(firstPlace_zero_iff.mp hplace).2] at hcut
          contradiction
      | succ place => exact Nat.succ_pos place

/-- Text taken before the next delimiter shortens the first segment and changes
nothing else. -/
theorem splitText_drop (all : List Delimiters) (fuel : Nat) (region : Option Nat)
    {text : List Char} {n : Nat} (hn : n ≤ bodyLength all region text) :
    ∃ second segments final,
      splitText all (fuel + 1) region text =
        (segmentOf (.body region) (text.take n ++ second) ++ segments, final) ∧
      splitText all (fuel + 1) region (text.drop n) =
        (segmentOf (.body region) second ++ segments, final) := by
  unfold bodyLength at hn
  cases hplace : firstPlace (cutHere all region) text with
  | none =>
      refine ⟨text.drop n, [], region, ?_, ?_⟩
      · simp [splitText, hplace]
      · simp [splitText, firstPlace_drop_eq_none hplace]
  | some found =>
      obtain ⟨place, cut⟩ := found
      rw [hplace] at hn
      have hle : n ≤ place := hn
      have htake : text.take n ++ (text.drop n).take (place - n) = text.take place := by
        rw [← List.take_add, Nat.add_sub_cancel' hle]
      have hdrop (more : Nat) : (text.drop n).drop (place - n + more) =
          text.drop (place + more) := by
        rw [List.drop_drop]
        congr 1
        omega
      refine ⟨(text.drop n).take (place - n),
        ⟨cut.part, (text.drop place).take cut.length⟩ ::
          (splitText all fuel cut.region (text.drop (place + cut.length))).1,
        (splitText all fuel cut.region (text.drop (place + cut.length))).2, ?_, ?_⟩
      · simp only [splitText, hplace, htake]
      · have hfirst := hdrop 0
        rw [Nat.add_zero, Nat.add_zero] at hfirst
        simp only [splitText, firstPlace_drop hplace hle, hdrop, hfirst]

end CellHighlight
