import CellHighlight.Pattern
import CellHighlight.Scanner

/-!
# Embedded regions

A line may change hands: an outer scanner works up to the text that opens a
region, and the scanner of that region works up to the text that closes it.
Neither sees text that belongs to the other.
-/

namespace CellHighlight

/-- A stretch of another language.  `content` is its language: a grammar, or the
scanner made from it.  Without a closing pattern the region ends with its line.
A region that scans its delimiters gets them as part of its text. -/
structure Region (γ : Type) where
  opener : Pattern
  closer : Option Pattern
  content : γ
  delimited : Bool := false
  scansDelimiters : Bool := false

namespace Region

def delimiterStyle {γ : Type} (region : Region γ) (side : Side) : Style :=
  if region.delimited then .delimiter side else .plain

end Region

/-- The state of an outer scanner with regions: the state of the outer scanner,
the index of the region the line is in, the state of its scanner, and whether the
region has still to scan its own opening text. -/
structure MixedState (τ : Type) where
  outer : τ
  region : Option Nat
  inner : Option τ
  opening : Bool
deriving DecidableEq, Repr

def MixedState.leave {τ : Type} (state : MixedState τ) : MixedState τ :=
  ⟨state.outer, none, none, false⟩

namespace Region

variable {γ τ : Type}

def openedAt (atLineStart : Bool) (text : List Char) :
    List (Region γ) → Option (Nat × Region γ × Nat)
  | [] => none
  | region :: regions =>
      match region.opener.find atLineStart text with
      | some (0, length) => some (0, region, length)
      | _ =>
          (openedAt atLineStart text regions).map fun found => (found.1 + 1, found.2)

def nextOpening (atLineStart : Bool) (text : List Char) : List (Region γ) → Option Nat
  | [] => none
  | region :: regions =>
      match region.opener.find atLineStart text, nextOpening atLineStart text regions with
      | some (start, _), some other => some (min start other)
      | some (start, _), none => some start
      | none, other => other

def outerStep (outer : Scanner τ) (regions : List (Region (Scanner τ))) (view : View)
    (state : MixedState τ) : Step (MixedState τ) :=
  match openedAt view.atLineStart view.ahead regions with
  | some (index, region, length) =>
      { length := if region.scansDelimiters then 0 else length
        style := region.delimiterStyle .opening
        state :=
          { state with
            region := some index
            inner := some region.content.start
            opening := region.scansDelimiters } }
  | none =>
      let step := outer.step
        (view.limit? (nextOpening view.atLineStart view.ahead regions)) state.outer
      ⟨step.length, step.style, { state with outer := step.state }⟩

/-- A step of the scanner of a region, on the text before `bound`.  The region is
over once it has scanned its own closing text. -/
def contentStep (region : Region (Scanner τ)) (bound : Option Nat) (view : View)
    (state : MixedState τ) : Step (MixedState τ) :=
  let step := region.content.step (view.limit? bound)
    (state.inner.getD region.content.start)
  let moved := !view.taken.isEmpty || step.length != 0
  let state :=
    { state with
      inner := some step.state
      opening := state.opening && (bound.isSome || !moved) }
  ⟨step.length, step.style,
    if region.scansDelimiters && bound == some step.length then state.leave else state⟩

def innerStep (region : Region (Scanner τ)) (found : Option (Nat × Nat)) (view : View)
    (state : MixedState τ) : Step (MixedState τ) :=
  match found with
  | none => region.contentStep none view state
  | some (start, length) =>
      if region.scansDelimiters then
        region.contentStep (some (start + length)) view state
      else if start = 0 then
        ⟨length, region.delimiterStyle .closing, state.leave⟩
      else region.contentStep (some start) view state

/-- The closing text counts only once the region has scanned its opening text. -/
def nextClosing (closer : Pattern) (view : View) (opening : Bool) : Option (Nat × Nat) :=
  if opening then none else closer.find view.atLineStart view.ahead

def mixedStep (outer : Scanner τ) (regions : List (Region (Scanner τ))) (view : View)
    (state : MixedState τ) : Step (MixedState τ) :=
  match state.region with
  | none => outerStep outer regions view state
  | some index =>
      match regions[index]? with
      | none => outerStep outer regions view state.leave
      | some region =>
          match region.closer with
          | none =>
              if view.atLineStart then outerStep outer regions view state.leave
              else region.contentStep none view state
          | some closer =>
              region.innerStep (nextClosing closer view state.opening) view state

def active (regions : List (Region γ)) (state : MixedState τ) : Option (Region γ) :=
  state.region.bind fun index => regions[index]?

def mixedBlank (outer : Scanner τ) (regions : List (Region (Scanner τ)))
    (state : MixedState τ) : MixedState τ :=
  match active regions state with
  | none => { state with outer := outer.blank state.outer }
  | some region =>
      let state := { state with inner := state.inner.map region.content.blank }
      if region.closer.isNone then state.leave else state

def mixedTornStep (outer : Scanner τ) (regions : List (Region (Scanner τ)))
    (state : MixedState τ) : Option Style × MixedState τ :=
  match active regions state with
  | none =>
      let state := if state.region.isSome then state.leave else state
      let (style, outerState) := outer.tornStep state.outer
      (style, { state with outer := outerState })
  | some region =>
      let (style, inner) := region.content.tornStep
        (state.inner.getD region.content.start)
      (style, { state with
        inner := some inner
        opening := state.opening && style.isNone })

def mixedScanner (outer : Scanner τ) (regions : List (Region (Scanner τ))) :
    Scanner (MixedState τ) where
  start := ⟨outer.start, none, none, false⟩
  step := mixedStep outer regions
  blank := mixedBlank outer regions
  tornStep := mixedTornStep outer regions

end Region

end CellHighlight
