import CellHighlight.Proofs.Bytes.Reading
import CellHighlight.Proofs.Literals.Openings

/-!
# Openings of heredocs in bytes

The opening of a heredoc is looked for byte by byte, and its tag is cut out of the text
between two byte offsets.  Every byte that is passed over is a whole character, so the
offsets lie between characters and the opening is the one read in characters.
-/

namespace CellHighlight.Elixir

def isByteOf (p : Char → Bool) (byte : UInt8) : Bool := byte < 128 && p (Char.ofUInt8 byte)

def byteIs (p : Char → Bool) (bytes : List UInt8) (i : Nat) : Bool := bytes[i]?.any (isByteOf p)

def pastByte (p : Char → Bool) (bytes : List UInt8) (i : Nat) : Nat :=
  if byteIs p bytes i then i + 1 else i

def pastBytes (p : Char → Bool) (bytes : List UInt8) (i : Nat) : Nat :=
  i + ((bytes.drop i).takeWhile (isByteOf p)).length

def endInBytes? (bytes : List UInt8) (i : Nat) : Option Nat :=
  match bytes[i]? with
  | none => some i
  | some byte => if isByteOf (· == ';') byte then some (i + 1) else none

def cut (text : List Char) (first last : Nat) : Except CursorError (List Char) :=
  match slice? text first last with
  | some middle => .ok middle
  | none => .error .insideCharacter

def openingInBytes (text : List Char) : Except CursorError (Option HeredocOpening) := do
  let bytes := utf8Bytes text
  if byteIs (· == '<') bytes 0 then
    let indented := byteIs (· == '-') bytes 1
    let tagStart := pastByte isHeredocQuote bytes (pastByte (· == '-') bytes 1)
    if byteIs isTagStart bytes tagStart then
      let tagEnd := pastBytes isWordChar bytes (tagStart + 1)
      let tag ← cut text tagStart tagEnd
      let stop := pastByte isHeredocQuote bytes tagEnd
      return (endInBytes? bytes stop).map fun length => ⟨length, tag, indented⟩
    else return none
  else return none

/-! ## Bytes of characters -/

theorem isAscii_of_beq {d : Char} (hd : d.toNat ≤ 127) (c : Char) (h : (c == d) = true) :
    c.toNat ≤ 127 := by
  rw [beq_iff_eq.mp h]
  exact hd

theorem utf8Bytes_append (first second : List Char) :
    utf8Bytes (first ++ second) = utf8Bytes first ++ utf8Bytes second :=
  List.flatMap_append

theorem length_utf8Bytes (text : List Char) : (utf8Bytes text).length = byteLength text := by
  induction text with
  | nil => rfl
  | cons c text ih =>
      show (String.utf8EncodeChar c ++ utf8Bytes text).length = _
      rw [List.length_append, String.length_utf8EncodeChar, ih, byteLength_cons]

theorem exists_head?_utf8Bytes (c : Char) (text : List Char) :
    ∃ byte ∈ String.utf8EncodeChar c, (utf8Bytes (c :: text)).head? = some byte := by
  have hcons : utf8Bytes (c :: text) = String.utf8EncodeChar c ++ utf8Bytes text := rfl
  cases hbytes : String.utf8EncodeChar c with
  | nil =>
      have hsize := String.length_utf8EncodeChar c
      rw [hbytes] at hsize
      exact absurd hsize.symm (Nat.ne_of_gt c.utf8Size_pos)
  | cons byte bytes =>
      rw [hcons, hbytes]
      exact ⟨byte, List.mem_cons_self, rfl⟩

section Classes

variable {p : Char → Bool} (hp : ∀ c, p c = true → c.toNat ≤ 127)

theorem isByteOf_of_lt {c : Char} (hc : c.toNat < 128) (p : Char → Bool) :
    isByteOf p (UInt8.ofNat c.toNat) = p c := by
  have hvalue : (UInt8.ofNat c.toNat).toNat = c.toNat := by
    rw [UInt8.toNat_ofNat']
    omega
  have hchar : Char.ofUInt8 (UInt8.ofNat c.toNat) = c :=
    Char.toNat_inj.mp ((UInt8.toNat_toUInt32 _).trans hvalue)
  have hsmall : UInt8.ofNat c.toNat < 128 := by
    rw [UInt8.lt_iff_toNat_lt, hvalue]
    exact hc
  simp [isByteOf, hchar, hsmall]

theorem isByteOf_of_ge {byte : UInt8} (h : 128 ≤ byte.toNat) (p : Char → Bool) :
    isByteOf p byte = false := by
  have hlarge : ¬ byte < 128 := by
    rw [UInt8.lt_iff_toNat_lt]
    exact Nat.not_lt_of_le h
  simp [isByteOf, hlarge]

include hp

theorem any_head?_utf8Bytes (text : List Char) :
    (utf8Bytes text).head?.any (isByteOf p) = headIs p text := by
  cases text with
  | nil => rfl
  | cons c text =>
      obtain ⟨byte, hbyte, hhead⟩ := exists_head?_utf8Bytes c text
      rw [hhead, Option.any_some, headIs]
      by_cases hc : c.toNat < 128
      · rw [utf8EncodeChar_of_lt hc, List.mem_singleton] at hbyte
        rw [hbyte, isByteOf_of_lt hc]
      · -- A character of several bytes begins with one that is no character.
        have hlarge := toNat_of_mem_utf8EncodeChar hbyte
        have hnot : p c = false := by
          by_contra hpc
          have := hp c (by simpa using hpc)
          omega
        rw [hnot, isByteOf_of_ge (by omega)]

theorem length_takeWhile_utf8Bytes (text : List Char) :
    ((utf8Bytes text).takeWhile (isByteOf p)).length = runLength p text := by
  induction text with
  | nil => rfl
  | cons c text ih =>
      have hhead := any_head?_utf8Bytes hp (c :: text)
      rw [runLength_cons]
      cases hpc : p c with
      | false =>
          rw [headIs, hpc] at hhead
          cases hbytes : utf8Bytes (c :: text) with
          | nil => rfl
          | cons byte bytes =>
              rw [hbytes] at hhead
              simp [show isByteOf p byte = false from hhead]
      | true =>
          have hc : c.toNat < 128 := Nat.lt_succ_of_le (hp c hpc)
          have hcons : utf8Bytes (c :: text) = UInt8.ofNat c.toNat :: utf8Bytes text := by
            show String.utf8EncodeChar c ++ utf8Bytes text = _
            rw [utf8EncodeChar_of_lt hc]
            rfl
          rw [hcons, List.takeWhile_cons, isByteOf_of_lt hc, hpc]
          simp [ih, Nat.add_comm]

end Classes

/-! ## Offsets after characters of one byte -/

/-- The first `i` characters have one byte each, and `rest` comes after them. -/
structure Reaches (text : List Char) (i : Nat) (rest : List Char) : Prop where
  split : text = text.take i ++ rest
  isAscii : ∀ c ∈ text.take i, c.toNat ≤ 127
  le : i ≤ text.length

namespace Reaches

variable {text rest : List Char} {i : Nat} {p : Char → Bool}

theorem zero (text : List Char) : Reaches text 0 text := ⟨rfl, nofun, Nat.zero_le _⟩

theorem drop_eq (h : Reaches text i rest) : text.drop i = rest := by
  have hsplit := h.split
  rw [← List.append_cancel_left_eq (text.take i), List.take_append_drop]
  exact hsplit

theorem add_length (h : Reaches text i rest) : i + rest.length = text.length := by
  rw [← h.drop_eq, List.length_drop, Nat.add_sub_cancel' h.le]

theorem add (h : Reaches text i rest) {n : Nat} (hn : n ≤ rest.length)
    (hchars : ∀ c ∈ rest.take n, c.toNat ≤ 127) : Reaches text (i + n) (rest.drop n) := by
  have hdrop := h.drop_eq
  have hlength := h.add_length
  refine ⟨?_, ?_, by omega⟩
  · rw [← hdrop, List.drop_drop, List.take_append_drop]
  · intro c hc
    rw [List.take_add, hdrop, List.mem_append] at hc
    rcases hc with hc | hc
    · exact h.isAscii c hc
    · exact hchars c hc

theorem byteLength_take (h : Reaches text i rest) : byteLength (text.take i) = i := by
  rw [byteLength_of_isAscii h.isAscii, List.length_take_of_le h.le]

theorem drop_utf8Bytes (h : Reaches text i rest) : (utf8Bytes text).drop i = utf8Bytes rest := by
  have hlength : (utf8Bytes (text.take i)).length = i := by
    rw [length_utf8Bytes, h.byteLength_take]
  have hsplit := utf8Bytes_append (text.take i) rest
  rw [← h.split] at hsplit
  rw [hsplit, List.drop_left' hlength]

theorem getElem?_utf8Bytes (h : Reaches text i rest) :
    (utf8Bytes text)[i]? = (utf8Bytes rest).head? := by
  rw [← h.drop_utf8Bytes, List.head?_drop]

theorem byteIs_eq (h : Reaches text i rest) (hp : ∀ c, p c = true → c.toNat ≤ 127) :
    byteIs p (utf8Bytes text) i = headIs p rest := by
  rw [byteIs, h.getElem?_utf8Bytes, any_head?_utf8Bytes hp]

theorem pastByte_eq (h : Reaches text i rest) (hp : ∀ c, p c = true → c.toNat ≤ 127) :
    pastByte p (utf8Bytes text) i = i + oneIf p rest ∧
      Reaches text (i + oneIf p rest) (rest.drop (oneIf p rest)) := by
  constructor
  · rw [pastByte, h.byteIs_eq hp]
    cases rest with
    | nil => rfl
    | cons c rest => cases hc : p c <;> simp [headIs, oneIf, hc]
  · refine h.add (oneIf_le p rest) ?_
    cases rest with
    | nil => simp
    | cons c rest => cases hc : p c <;> simp [oneIf, hc, hp c]

theorem pastBytes_eq (h : Reaches text i rest) (hp : ∀ c, p c = true → c.toNat ≤ 127) :
    pastBytes p (utf8Bytes text) i = i + runLength p rest ∧
      Reaches text (i + runLength p rest) (rest.drop (runLength p rest)) := by
  constructor
  · rw [pastBytes, h.drop_utf8Bytes, length_takeWhile_utf8Bytes hp]
  · exact h.add (runLength_le p rest) fun c hc => hp c (mem_take_runLength hc)

theorem pastTag_eq (h : Reaches text i rest) (hstart : headIs isTagStart rest = true) :
    pastBytes isWordChar (utf8Bytes text) (i + 1) =
        i + (1 + runLength isWordChar (rest.drop 1)) ∧
      Reaches text (i + (1 + runLength isWordChar (rest.drop 1)))
        (rest.drop (1 + runLength isWordChar (rest.drop 1))) := by
  cases rest with
  | nil => cases hstart
  | cons c name =>
      have hname : Reaches text (i + 1) name :=
        h.add (n := 1) (by simp) (by simpa using isAscii_of_isTagStart hstart)
      obtain ⟨hpast, hend⟩ := hname.pastBytes_eq fun _ => isAscii_of_isWordChar
      rw [Nat.add_assoc] at hpast hend
      rw [← List.drop_drop]
      exact ⟨hpast, hend⟩

theorem cut_eq (h : Reaches text i rest) {n : Nat} (hlater : Reaches text (i + n) (rest.drop n)) :
    cut text i (i + n) = .ok (rest.take n) := by
  have htake : text.take (i + n) = text.take i ++ rest.take n := by
    rw [List.take_add, h.drop_eq]
  have hbytes := hlater.byteLength_take
  rw [htake, byteLength_append, h.byteLength_take] at hbytes
  have hslice := slice?_append (text.take i) (rest.take n) (rest.drop n)
  rw [← htake, ← hlater.split, h.byteLength_take, hbytes] at hslice
  rw [cut, hslice]

theorem endInBytes?_eq (h : Reaches text i rest) :
    endInBytes? (utf8Bytes text) i =
      if rest = [] then some i else if headIs (· == ';') rest then some (i + 1) else none := by
  rw [endInBytes?, h.getElem?_utf8Bytes]
  cases rest with
  | nil => rfl
  | cons c rest =>
      obtain ⟨byte, -, hbyte⟩ := exists_head?_utf8Bytes c rest
      have hsemicolon := any_head?_utf8Bytes (isAscii_of_beq (show ';'.toNat ≤ 127 by decide))
        (c :: rest)
      rw [hbyte, Option.any_some] at hsemicolon
      simp only [hbyte, hsemicolon, List.cons_ne_nil, if_false]

end Reaches

/-- The opening read in bytes is the one read in characters, and its tag is not cut inside a
character. -/
theorem openingInBytes_eq (text : List Char) :
    openingInBytes text = .ok (heredocOpening? text) := by
  have hangle := (Reaches.zero text).byteIs_eq (isAscii_of_beq (show '<'.toNat ≤ 127 by decide))
  unfold openingInBytes heredocOpening?
  split
  · next text =>
      have hone : Reaches ('<' :: text) 1 text := (Reaches.zero _).add (n := 1) (by simp) (by simp)
      have hindented := hone.byteIs_eq (isAscii_of_beq (show '-'.toNat ≤ 127 by decide))
      obtain ⟨hmark, hmarked⟩ :=
        hone.pastByte_eq (isAscii_of_beq (show '-'.toNat ≤ 127 by decide))
      obtain ⟨hquote, hquoted⟩ := hmarked.pastByte_eq fun _ => isAscii_of_isHeredocQuote
      have hstart := hquoted.byteIs_eq fun _ => isAscii_of_isTagStart
      have hhyphens : (oneIf (· == '-') text == 1) = headIs (· == '-') text := by
        cases text with
        | nil => rfl
        | cons c text => cases hc : c == '-' <;> simp [oneIf, headIs, hc]
      simp only [hangle, hindented, hmark, hquote, hstart, hhyphens]
      generalize (text.drop (oneIf (· == '-') text)) = marked at *
      generalize 1 + oneIf (· == '-') text + oneIf isHeredocQuote marked = i at *
      generalize marked.drop (oneIf isHeredocQuote marked) = rest at *
      rw [headIs, if_pos (beq_self_eq_true '<')]
      split
      · next htag =>
          obtain ⟨hpast, hend⟩ := hquoted.pastTag_eq htag
          obtain ⟨hclose, hclosed⟩ := hend.pastByte_eq fun _ => isAscii_of_isHeredocQuote
          have hlength : (rest.take (1 + runLength isWordChar (rest.drop 1))).length =
              1 + runLength isWordChar (rest.drop 1) := by
            have htotal := hquoted.add_length
            have hle := hend.le
            exact List.length_take_of_le (by omega)
          rw [hpast, hquoted.cut_eq hend, ok_bind, hclose, hclosed.endInBytes?_eq, hlength]
          generalize (rest.drop (1 + runLength isWordChar (rest.drop 1))).drop _ = following
          cases following with
          | nil => rfl
          | cons c following =>
              by_cases hc : c = ';'
              · subst hc
                rfl
              · simp [headIs, hc]
                rfl
      · rfl
  · next hne =>
      simp only [hangle, Reading.headIs_eq_false_of_ne hne]
      rfl

end CellHighlight.Elixir
