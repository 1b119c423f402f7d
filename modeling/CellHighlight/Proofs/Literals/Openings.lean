import CellHighlight.Proofs.Bytes.Position
import CellHighlight.Proofs.Scopes.Lines
import CellHighlight.Proofs.Styles.Lexemes

/-!
# Openings of heredocs

The opening of a heredoc is read from left to right, each part as far as it goes.  No part can
begin with a character that the part before it could still take, so what is read is the only
way to divide the text, and nothing that has such a division is missed.
-/

namespace CellHighlight.Elixir

variable {p q : Char → Bool} {rest : List Char}

/-! ## Parts of a text -/

structure AtMostOne (p : Char → Bool) (part : List Char) : Prop where
  length_le : part.length ≤ 1
  chars : ∀ c ∈ part, p c = true

structure IsTag (tag : List Char) : Prop where
  start : headIs isTagStart tag = true
  chars : ∀ c ∈ tag.drop 1, isWordChar c = true

theorem AtMostOne.oneIf_append {part : List Char} (h : AtMostOne p part)
    (hrest : headIs p rest = false) : oneIf p (part ++ rest) = part.length := by
  obtain ⟨hlength, hchars⟩ := h
  match part with
  | [] => exact oneIf_eq_zero hrest
  | [c] => exact if_pos (hchars c List.mem_cons_self)
  | _ :: _ :: _ => simp at hlength

theorem AtMostOne.append_inj {part part' rest' : List Char} (h : AtMostOne p part)
    (h' : AtMostOne p part') (hrest : headIs p rest = false) (hrest' : headIs p rest' = false)
    (heq : part ++ rest = part' ++ rest') : part = part' ∧ rest = rest' := by
  have hlength := h.oneIf_append hrest
  rw [heq, h'.oneIf_append hrest'] at hlength
  exact List.append_inj heq hlength.symm

theorem AtMostOne.headIs_eq_false {part : List Char} (h : AtMostOne q part)
    (hclass : ∀ c, q c = true → p c = false) : headIs p part = false := by
  cases part with
  | nil => rfl
  | cons c part => exact hclass c (h.chars c List.mem_cons_self)

theorem atMostOne_iff {c : Char} {part : List Char} :
    AtMostOne (· == c) part ↔ ∃ present : Bool, part = if present then [c] else [] := by
  constructor
  · rintro ⟨hlength, hchars⟩
    match part with
    | [] => exact ⟨false, rfl⟩
    | [d] => exact ⟨true, by simpa using hchars d List.mem_cons_self⟩
    | _ :: _ :: _ => simp at hlength
  · rintro ⟨present, rfl⟩
    cases present with
    | false => exact ⟨Nat.zero_le 1, nofun⟩
    | true => exact ⟨Nat.le_refl 1, by simp⟩

theorem exists_atMostOne (p : Char → Bool) (text : List Char) :
    ∃ part rest, text = part ++ rest ∧ AtMostOne p part ∧ oneIf p text = part.length := by
  have hlength : oneIf p text = (text.take (oneIf p text)).length := by
    rw [List.length_take, Nat.min_eq_left (oneIf_le p text)]
  refine ⟨_, _, (List.take_append_drop (oneIf p text) text).symm, ?_, hlength⟩
  rcases take_oneIf p text with hnone | ⟨c, hc, hone⟩
  · rw [hnone]
    exact ⟨Nat.zero_le 1, nofun⟩
  · rw [hone]
    exact ⟨Nat.le_refl 1, by simpa using hc⟩

theorem IsTag.length_eq {tag : List Char} (h : IsTag tag)
    (hrest : headIs isWordChar rest = false) :
    1 + runLength isWordChar ((tag ++ rest).drop 1) = tag.length := by
  obtain ⟨hstart, hchars⟩ := h
  cases tag with
  | nil => cases hstart
  | cons c name =>
      have hname : runLength isWordChar (name ++ rest) = name.length :=
        runLength_append hchars hrest
      simp [hname, Nat.add_comm]

theorem IsTag.append_inj {tag tag' rest' : List Char} (h : IsTag tag) (h' : IsTag tag')
    (hrest : headIs isWordChar rest = false) (hrest' : headIs isWordChar rest' = false)
    (heq : tag ++ rest = tag' ++ rest') : tag = tag' ∧ rest = rest' := by
  have hlength := h.length_eq hrest
  rw [heq, h'.length_eq hrest'] at hlength
  exact List.append_inj heq hlength.symm

theorem IsTag.headIs_append {tag : List Char} (h : IsTag tag) (rest : List Char) :
    headIs isTagStart (tag ++ rest) = true := by
  obtain ⟨hstart, -⟩ := h
  cases tag with
  | nil => cases hstart
  | cons c name => exact hstart

theorem IsTag.headIs_eq_false {tag : List Char} (h : IsTag tag)
    (hclass : ∀ c, isTagStart c = true → p c = false) (rest : List Char) :
    headIs p (tag ++ rest) = false := by
  obtain ⟨hstart, -⟩ := h
  cases tag with
  | nil => cases hstart
  | cons c name => exact hclass c hstart

theorem exists_isTag {text : List Char} (h : headIs isTagStart text = true) :
    ∃ tag rest, text = tag ++ rest ∧ IsTag tag ∧
      1 + runLength isWordChar (text.drop 1) = tag.length := by
  cases text with
  | nil => cases h
  | cons c name =>
      refine ⟨c :: name.take (runLength isWordChar name), name.drop (runLength isWordChar name),
        ?_, ⟨h, fun d hd => mem_take_runLength hd⟩, ?_⟩
      · rw [List.cons_append, List.take_append_drop]
      · simp [Nat.min_eq_left (runLength_le isWordChar name), Nat.add_comm]

theorem not_of_isHeredocQuote {c : Char} (h : isHeredocQuote c = true) :
    isWordChar c = false ∧ isTagStart c = false ∧ (c == '-') = false := by
  simp only [isHeredocQuote, Bool.or_eq_true, beq_iff_eq] at h
  rcases h with (rfl | rfl) | rfl <;> decide

/-! ## The parts of an opening -/

structure HeredocParts where
  indented : Bool
  opening : List Char
  tag : List Char
  closing : List Char
  ended : Bool
  isOpening : AtMostOne isHeredocQuote opening
  isTag : IsTag tag
  isClosing : AtMostOne isHeredocQuote closing

namespace HeredocParts

variable (parts : HeredocParts)

def hyphen : List Char := if parts.indented then ['-'] else []

def semicolon : List Char := if parts.ended then [';'] else []

def text : List Char :=
  '<' :: (parts.hyphen ++ (parts.opening ++ (parts.tag ++ (parts.closing ++ parts.semicolon))))

/-- The rest of a line begins with the parts; without a semicolon there is nothing else. -/
def Begin (line : List Char) : Prop :=
  ∃ after, line = parts.text ++ after ∧ (parts.ended = false → after = [])

theorem atMostOne_hyphen : AtMostOne (· == '-') parts.hyphen :=
  atMostOne_iff.mpr ⟨parts.indented, rfl⟩

theorem atMostOne_semicolon : AtMostOne (· == ';') parts.semicolon :=
  atMostOne_iff.mpr ⟨parts.ended, rfl⟩

/-! No part begins with a character of the class before it. -/

section Heads

variable {parts} {after : List Char} (hafter : parts.ended = false → after = [])

include hafter

theorem headIs_semicolon (hclass : p ';' = false) :
    headIs p (parts.semicolon ++ after) = false := by
  unfold semicolon
  split
  · exact hclass
  · next hended => simp [hafter (Bool.eq_false_iff.mpr hended), headIs]

theorem headIs_closing :
    headIs isWordChar (parts.closing ++ (parts.semicolon ++ after)) = false :=
  headIs_append (parts.isClosing.headIs_eq_false fun _ hc => (not_of_isHeredocQuote hc).1)
    (headIs_semicolon hafter (by decide))

end Heads

theorem headIs_tag (rest : List Char) : headIs isHeredocQuote (parts.tag ++ rest) = false := by
  refine parts.isTag.headIs_eq_false (fun c hc => ?_) rest
  by_contra hquote
  rw [Bool.not_eq_false] at hquote
  rw [(not_of_isHeredocQuote hquote).2.1] at hc
  cases hc

theorem headIs_opening (rest : List Char) :
    headIs (· == '-') (parts.opening ++ (parts.tag ++ rest)) = false := by
  apply headIs_append
  · exact parts.isOpening.headIs_eq_false fun _ hc => (not_of_isHeredocQuote hc).2.2
  · refine parts.isTag.headIs_eq_false (fun c hc => ?_) rest
    simp only [beq_eq_false_iff_ne]
    rintro rfl
    revert hc
    decide

variable {parts}

theorem Begin.heredocOpening?_eq {line : List Char} (h : parts.Begin line) :
    heredocOpening? line = some ⟨parts.text.length, parts.tag, parts.indented⟩ := by
  obtain ⟨after, rfl, hafter⟩ := h
  -- What comes after a part begins with no character of its class, so reading stops there.
  have hhyphen := parts.atMostOne_hyphen.oneIf_append
    (parts.headIs_opening (parts.closing ++ (parts.semicolon ++ after)))
  have hopening := parts.isOpening.oneIf_append
    (parts.headIs_tag (parts.closing ++ (parts.semicolon ++ after)))
  have htag := parts.isTag.length_eq (headIs_closing hafter)
  have hclosing := parts.isClosing.oneIf_append
    (headIs_semicolon (p := isHeredocQuote) hafter (by decide))
  simp only [text, List.cons_append, List.append_assoc, heredocOpening?, hhyphen, hopening, htag,
    hclosing, List.drop_left, List.take_left]
  have hindented : (parts.hyphen.length == 1) = parts.indented := by
    unfold hyphen
    cases parts.indented <;> rfl
  rw [if_pos (parts.isTag.headIs_append _), hindented]
  cases hended : parts.ended with
  | false =>
      simp [semicolon, hended, hafter hended]
      omega
  | true =>
      simp [semicolon, hended]
      omega

theorem exists_begin {line : List Char} (h : heredocOpening? line ≠ none) :
    ∃ parts : HeredocParts, parts.Begin line := by
  unfold heredocOpening? at h
  split at h
  · next text =>
      obtain ⟨mark, text, rfl, hmark, hmarks⟩ := exists_atMostOne (· == '-') text
      simp only [hmarks, List.drop_left] at h
      obtain ⟨opening, text, rfl, hopening, hquotes⟩ := exists_atMostOne isHeredocQuote text
      simp only [hquotes, List.drop_left] at h
      split at h
      · next hstart =>
          obtain ⟨tag, text, rfl, htag, hname⟩ := exists_isTag hstart
          simp only [hname, List.take_left, List.drop_left] at h
          obtain ⟨closing, text, rfl, hclosing, hquotes'⟩ := exists_atMostOne isHeredocQuote text
          simp only [hquotes', List.drop_left] at h
          obtain ⟨indented, rfl⟩ := atMostOne_iff.mp hmark
          split at h
          · refine ⟨⟨indented, opening, tag, closing, false, hopening, htag, hclosing⟩, [], ?_,
              fun _ => rfl⟩
            simp [text, hyphen, semicolon]
          · next following =>
              refine ⟨⟨indented, opening, tag, closing, true, hopening, htag, hclosing⟩,
                following, ?_, nofun⟩
              simp [text, hyphen, semicolon]
          · exact absurd rfl h
      · exact absurd rfl h
  · exact absurd rfl h

theorem Begin.unique {parts' : HeredocParts} {line : List Char} (h : parts.Begin line)
    (h' : parts'.Begin line) : parts = parts' := by
  obtain ⟨after, rfl, hafter⟩ := h
  obtain ⟨after', heq, hafter'⟩ := h'
  simp only [text, List.cons_append, List.append_assoc, List.cons.injEq, true_and] at heq
  obtain ⟨hhyphen, heq⟩ := parts.atMostOne_hyphen.append_inj parts'.atMostOne_hyphen
    (parts.headIs_opening _) (parts'.headIs_opening _) heq
  obtain ⟨hopening, heq⟩ := parts.isOpening.append_inj parts'.isOpening
    (parts.headIs_tag _) (parts'.headIs_tag _) heq
  obtain ⟨htag, heq⟩ := parts.isTag.append_inj parts'.isTag
    (headIs_closing hafter) (headIs_closing hafter') heq
  obtain ⟨hclosing, heq⟩ := parts.isClosing.append_inj parts'.isClosing
    (headIs_semicolon hafter (by decide)) (headIs_semicolon hafter' (by decide)) heq
  have hindented : parts.indented = parts'.indented := by
    unfold hyphen at hhyphen
    cases hparts : parts.indented <;> cases hparts' : parts'.indented <;> simp_all
  -- What follows may begin with a semicolon too, but without one in the opening nothing follows.
  have hended : parts.ended = parts'.ended := by
    unfold semicolon at heq
    cases hparts : parts.ended <;> cases hparts' : parts'.ended <;> simp_all
  cases parts
  cases parts'
  simp_all

end HeredocParts

/-! ## Openings in bytes -/

theorem byteLength_of_isAscii {text : List Char} (h : ∀ c ∈ text, c.toNat ≤ 127) :
    byteLength text = text.length := by
  induction text with
  | nil => rfl
  | cons c text ih =>
      have hvalue : c.val ≤ 0x7f := UInt32.le_iff_toNat_le.mpr (h c List.mem_cons_self)
      have hsize : c.utf8Size = 1 := if_pos hvalue
      rw [byteLength_cons, hsize, ih fun d hd => h d (List.mem_cons_of_mem c hd),
        List.length_cons, Nat.add_comm]

theorem isAscii_of_isWordChar {c : Char} (h : isWordChar c = true) : c.toNat ≤ 127 := by
  simp only [isWordChar, isAsciiDigit, Bool.or_eq_true, Bool.and_eq_true, decide_eq_true_eq,
    beq_iff_eq] at h
  rcases h with (hletter | ⟨-, hdigit⟩) | rfl
  · have hbounds := toNat_of_isAsciiLetter hletter
    omega
  · have hle : c.toNat ≤ 57 := hdigit
    omega
  · decide

theorem isAscii_of_isTagStart {c : Char} (h : isTagStart c = true) : c.toNat ≤ 127 := by
  simp only [isTagStart, Bool.or_eq_true, beq_iff_eq] at h
  rcases h with (hletter | rfl) | rfl
  · have hbounds := toNat_of_isAsciiLetter hletter
    omega
  · decide
  · decide

theorem isAscii_of_isHeredocQuote {c : Char} (h : isHeredocQuote c = true) : c.toNat ≤ 127 := by
  simp only [isHeredocQuote, Bool.or_eq_true, beq_iff_eq] at h
  rcases h with (rfl | rfl) | rfl <;> decide

theorem IsTag.isAscii {tag : List Char} (h : IsTag tag) : ∀ c ∈ tag, c.toNat ≤ 127 := by
  obtain ⟨hstart, hchars⟩ := h
  cases tag with
  | nil => exact nofun
  | cons c name =>
      intro d hd
      rcases List.mem_cons.mp hd with rfl | hname
      · exact isAscii_of_isTagStart hstart
      · exact isAscii_of_isWordChar (hchars d hname)

theorem HeredocParts.byteLength_text (parts : HeredocParts) :
    byteLength parts.text = parts.text.length := by
  apply byteLength_of_isAscii
  intro c hc
  simp only [text, List.mem_cons, List.mem_append] at hc
  rcases hc with rfl | hc | hc | hc | hc | hc
  · decide
  · rw [beq_iff_eq.mp (parts.atMostOne_hyphen.chars c hc)]
    decide
  · exact isAscii_of_isHeredocQuote (parts.isOpening.chars c hc)
  · exact parts.isTag.isAscii c hc
  · exact isAscii_of_isHeredocQuote (parts.isClosing.chars c hc)
  · rw [beq_iff_eq.mp (parts.atMostOne_semicolon.chars c hc)]
    decide

/-- An opening is read exactly where the line begins with the parts of one, in the only way in
which it does, and ends between two characters. -/
theorem heredocOpening?_reads_parts (line : List Char) :
    (∀ n tag indented, heredocOpening? line = some ⟨n, tag, indented⟩ ↔
      ∃ parts : HeredocParts, parts.Begin line ∧ byteLength parts.text = n ∧
        parts.tag = tag ∧ parts.indented = indented) ∧
    (∀ parts parts' : HeredocParts, parts.Begin line → parts'.Begin line → parts = parts') ∧
    (heredocOpening? line = none ↔ ∀ parts : HeredocParts, ¬ parts.Begin line) ∧
    ∀ opening, heredocOpening? line = some opening → IsBoundary line opening.length := by
  have hread (n : Nat) (tag : List Char) (indented : Bool) :
      heredocOpening? line = some ⟨n, tag, indented⟩ ↔
        ∃ parts : HeredocParts, parts.Begin line ∧ byteLength parts.text = n ∧
          parts.tag = tag ∧ parts.indented = indented := by
    constructor
    · intro hopening
      obtain ⟨parts, hbegin⟩ := HeredocParts.exists_begin (by rw [hopening]; exact nofun)
      rw [hbegin.heredocOpening?_eq] at hopening
      cases hopening
      exact ⟨parts, hbegin, parts.byteLength_text, rfl, rfl⟩
    · rintro ⟨parts, hbegin, rfl, rfl, rfl⟩
      rw [hbegin.heredocOpening?_eq, parts.byteLength_text]
  refine ⟨hread, fun _ _ h h' => h.unique h', ?_, ?_⟩
  · constructor
    · intro hnone parts hbegin
      rw [hbegin.heredocOpening?_eq] at hnone
      cases hnone
    · intro hnever
      by_contra hopening
      obtain ⟨parts, hbegin⟩ := HeredocParts.exists_begin hopening
      exact hnever parts hbegin
  · rintro ⟨n, tag, indented⟩ hopening
    obtain ⟨parts, ⟨after, rfl, -⟩, hlength, -, -⟩ := (hread n tag indented).mp hopening
    exact ⟨parts.text, List.prefix_append _ _, hlength⟩

theorem heredocOpening?_reads_parts_in_full :
    let line := "<-'EOS'; é".toList
    heredocOpening? line = some ⟨8, "EOS".toList, true⟩ ∧ IsBoundary line 8 := by
  intro line
  obtain ⟨hread, -, -, hboundary⟩ := heredocOpening?_reads_parts line
  have hopening : heredocOpening? line = some ⟨8, "EOS".toList, true⟩ := by
    refine (hread 8 "EOS".toList true).mpr
      ⟨⟨true, ['\''], "EOS".toList, ['\''], true, ?_, ?_, ?_⟩, ⟨" é".toList, rfl, nofun⟩, ?_⟩
    · exact ⟨by decide, List.all_eq_true.mp rfl⟩
    · exact ⟨by decide, List.all_eq_true.mp rfl⟩
    · exact ⟨by decide, List.all_eq_true.mp rfl⟩
    · decide
  exact ⟨hopening, hboundary _ hopening⟩

end CellHighlight.Elixir
