import CellHighlight.Proofs.Invariants
import CellHighlight.Proofs.Progress

/-!
# The stacks of a state

The frames and scopes that the Elixir scanner can leave open.  Embedded code is the
only thing that nests; on top of it there is at most one literal, and above a literal
at most the one token of an embedded variable.
-/

namespace CellHighlight.Elixir

/-! ## Stacks of frames -/

/-- The top frame scans code: the base frame, or code embedded in a literal that scans
code below.  Only a literal that ends with a brace waits for the brace of its code. -/
inductive IsCode : List Frame → Prop
  | base : IsCode [.base]
  | embedded {depth : UInt32} {quoted : Quoted} {below : List Frame}
      (hinterpolates : quoted.interpolates = true)
      (hbrace : quoted.afterBrace = decide (quoted.delimiter = '}')) (hbelow : IsCode below) :
      IsCode (.untilBrace depth :: .quoted quoted :: below)

inductive Shaped : List Frame → Prop
  | code {frames : List Frame} (hcode : IsCode frames) : Shaped frames
  | quoted {quoted : Quoted} {below : List Frame} (hbrace : quoted.afterBrace = false)
      (hbelow : IsCode below) : Shaped (.quoted quoted :: below)
  | once {quoted : Quoted} {below : List Frame} (hinterpolates : quoted.interpolates = true)
      (hbrace : quoted.afterBrace = false) (hbelow : IsCode below) :
      Shaped (.once true :: .quoted quoted :: below)
  | heredoc {tag : List Char} {indented : Bool} {below : List Frame} (hbelow : IsCode below) :
      Shaped (.heredoc tag indented :: below)
  | blockComment {below : List Frame} (hbelow : IsCode below) :
      Shaped (.blockComment :: below)

def AtVariable (text : List Char) : Prop := headIs (fun c => c == '@' || c == '$') text = true

theorem AtVariable.take {text : List Char} {n : Nat} (hn : 0 < n) (h : AtVariable text) :
    AtVariable (text.take n) := by
  cases n with
  | zero => exact absurd hn (Nat.lt_irrefl 0)
  | succ n =>
      cases text with
      | nil => exact h
      | cons c text => exact h

theorem headIs_of_take {p : Char → Bool} {text : List Char} {n : Nat}
    (h : headIs p (text.take n) = true) : headIs p text = true := by
  cases n with
  | zero => exact absurd h Bool.false_ne_true
  | succ n =>
      cases text with
      | nil => exact h
      | cons c text => exact h

theorem AtVariable.of_take {text : List Char} {n : Nat} (h : AtVariable (text.take n)) :
    AtVariable text :=
  headIs_of_take h

/-- The stacks at a place in a line.  Right before an embedded variable the one token
that it will be has not been used yet. -/
inductive ShapedAt (text : List Char) : List Frame → Prop
  | shaped {frames : List Frame} (hshaped : Shaped frames) : ShapedAt text frames
  | pending {quoted : Quoted} {below : List Frame} (hvariable : AtVariable text)
      (hinterpolates : quoted.interpolates = true) (hbrace : quoted.afterBrace = false)
      (hbelow : IsCode below) : ShapedAt text (.once false :: .quoted quoted :: below)

theorem IsCode.getLast? {frames : List Frame} (h : IsCode frames) :
    frames.getLast? = some .base := by
  induction h with
  | base => rfl
  | embedded _ _ _ ih => simp [List.getLast?_cons, ih]

theorem ShapedAt.getLast? {text : List Char} {frames : List Frame} (h : ShapedAt text frames) :
    frames.getLast? = some .base := by
  cases h with
  | pending _ _ _ hbelow => simp [List.getLast?_cons, hbelow.getLast?]
  | shaped hshaped =>
      cases hshaped with
      | code hcode => exact hcode.getLast?
      | quoted _ hbelow => simp [List.getLast?_cons, hbelow.getLast?]
      | once _ _ hbelow => simp [List.getLast?_cons, hbelow.getLast?]
      | heredoc hbelow => simp [List.getLast?_cons, hbelow.getLast?]
      | blockComment hbelow => simp [List.getLast?_cons, hbelow.getLast?]

theorem ShapedAt.of_not_atVariable {text : List Char} {frames : List Frame}
    (h : ShapedAt text frames) (htext : ¬ AtVariable text) : Shaped frames := by
  cases h with
  | shaped hshaped => exact hshaped
  | pending hvariable => exact absurd hvariable htext

theorem ShapedAt.imp {text text' : List Char} {frames : List Frame} (h : ShapedAt text frames)
    (htext : AtVariable text → AtVariable text') : ShapedAt text' frames := by
  cases h with
  | shaped hshaped => exact .shaped hshaped
  | pending hvariable hinterpolates hbrace hbelow =>
      exact .pending (htext hvariable) hinterpolates hbrace hbelow

/-! ## What a token of code leaves open -/

inductive Opens (rest : List Char) : List Frame → Prop
  | nothing : Opens rest []
  | quoted {quoted : Quoted} (hbrace : quoted.afterBrace = false) :
      Opens rest [.quoted quoted]
  | code {quoted : Quoted} (hinterpolates : quoted.interpolates = true)
      (hbrace : quoted.afterBrace = decide (quoted.delimiter = '}')) :
      Opens rest [.untilBrace 1, .quoted quoted]
  | pending {quoted : Quoted} (hvariable : AtVariable rest)
      (hinterpolates : quoted.interpolates = true) (hbrace : quoted.afterBrace = false) :
      Opens rest [.once false, .quoted quoted]
  | heredoc {tag : List Char} {indented : Bool} : Opens rest [.heredoc tag indented]
  | blockComment : Opens rest [.blockComment]

theorem Opens.onto {rest : List Char} {pushed below : List Frame} (h : Opens rest pushed)
    (hbelow : IsCode below) : ShapedAt rest (pushed ++ below) := by
  cases h with
  | nothing => exact .shaped (.code hbelow)
  | quoted hbrace => exact .shaped (.quoted hbrace hbelow)
  | code hinterpolates hbrace =>
      exact .shaped (.code (.embedded hinterpolates hbrace hbelow))
  | pending hvariable hinterpolates hbrace =>
      exact .pending hvariable hinterpolates hbrace hbelow
  | heredoc => exact .shaped (.heredoc hbelow)
  | blockComment => exact .shaped (.blockComment hbelow)

theorem Quoted.opens_framesAfter {quoted : Quoted} (hbrace : quoted.afterBrace = false)
    (escaped : Bool) (text : List Char) :
    Opens (text.drop (quoted.scanBody escaped text).1)
      (quoted.framesAfter (quoted.scanBody escaped text).2) := by
  induction text generalizing escaped with
  | nil => exact .quoted hbrace
  | cons c text ih =>
      unfold scanBody
      split
      · exact .nothing
      split
      · next hcode =>
          simp only [Bool.and_eq_true] at hcode
          exact .code hcode.1.1.1 rfl
      split
      · next hvariable =>
          simp only [Bool.and_eq_true] at hvariable
          exact .pending hvariable.2 hvariable.1.1.1 hbrace
      · exact ih _

def Lexeme.OpensIn (lexeme : Lexeme) (text : List Char) : Prop :=
  Opens (text.drop lexeme.length) lexeme.pushed

theorem Lexeme.OpensIn.of_pushed {lexeme : Lexeme} (h : lexeme.pushed = [])
    {text : List Char} : lexeme.OpensIn text := by
  rw [OpensIn, h]
  exact .nothing

theorem opensIn_quotedLexeme {opening : Nat} {quoted : Quoted} {whole text : List Char}
    (hbrace : quoted.afterBrace = false) (htext : whole.drop opening = text) :
    (quotedLexeme opening quoted text).OpensIn whole := by
  subst htext
  have hopens := Quoted.opens_framesAfter hbrace false (whole.drop opening)
  rwa [List.drop_drop] at hopens

theorem opensIn_slashLexeme (c : Char) (text : List Char) :
    (slashLexeme text).OpensIn (c :: text) := by
  unfold slashLexeme
  split
  · exact opensIn_quotedLexeme rfl rfl
  · exact .nothing

theorem opensIn_percentLexeme (c : Char) (text : List Char) :
    (percentLexeme text).OpensIn (c :: text) := by
  unfold percentLexeme
  dsimp only
  split
  · exact .nothing
  · next delimiter body hbody =>
      split
      · apply opensIn_quotedLexeme rfl
        have hdrop := congrArg (List.drop 1) hbody
        rw [List.drop_drop] at hdrop
        rw [show 2 + oneIf isPercentLetter text = oneIf isPercentLetter text + 1 + 1 by omega]
        exact hdrop
      · exact .nothing

theorem opensIn_colonLexeme (c : Char) (text : List Char) :
    (colonLexeme text).OpensIn (c :: text) := by
  cases text with
  | nil => exact .nothing
  | cons d rest =>
      unfold colonLexeme
      dsimp only
      split
      · exact opensIn_quotedLexeme rfl rfl
      split
      · exact opensIn_quotedLexeme rfl rfl
      split
      · exact .nothing
      split
      · exact .nothing
      split
      · exact .nothing
      · exact .nothing

theorem pushed_nameLexeme (text : List Char) : (nameLexeme text).pushed = [] := by
  unfold nameLexeme
  dsimp only
  split <;> rfl

theorem pushed_operatorLexeme (c : Char) (text : List Char) :
    (operatorLexeme c text).pushed = [] := by
  unfold operatorLexeme
  dsimp only
  split <;> rfl

theorem pushed_symbolLexeme (barIsMarker : Bool) (c : Char) (text : List Char) :
    (symbolLexeme barIsMarker c text).pushed = [] := by
  unfold symbolLexeme
  split
  · exact pushed_nameLexeme text
  split
  · rfl
  split
  · rfl
  split
  · rfl
  split
  · rfl
  split
  · exact pushed_operatorLexeme c text
  · rfl

theorem pushed_attributeLexeme? {text : List Char} {lexeme : Lexeme}
    (h : attributeLexeme? text = some lexeme) : lexeme.pushed = [] := by
  unfold attributeLexeme? at h
  dsimp only at h
  split at h
  · cases h
    rfl
  · cases h

def AllOpenIn (text : List Char) (lexeme : Option Lexeme) : Prop :=
  ∀ found ∈ lexeme, found.OpensIn text

theorem AllOpenIn.none {text : List Char} : AllOpenIn text none := by
  rintro found ⟨⟩

theorem AllOpenIn.some {text : List Char} {lexeme : Lexeme} (h : lexeme.OpensIn text) :
    AllOpenIn text (some lexeme) := by
  rintro found ⟨⟩
  exact h

theorem AllOpenIn.ite {p : Prop} [Decidable p] {text : List Char} {first second : Option Lexeme}
    (hfirst : AllOpenIn text first) (hsecond : AllOpenIn text second) :
    AllOpenIn text (if p then first else second) := by
  split
  · exact hfirst
  · exact hsecond

theorem allOpenIn_sigilLexeme? (c : Char) (text : List Char) :
    AllOpenIn (c :: text) (sigilLexeme? text) := by
  unfold sigilLexeme?
  split
  · exact .ite (.some (opensIn_quotedLexeme rfl rfl)) .none
  · exact .none

theorem opens_heredocAfter (rest tag : List Char) (indented : Bool) (text : List Char) :
    Opens rest (heredocAfter tag indented text) := by
  unfold heredocAfter
  split
  · exact .nothing
  · exact .heredoc

theorem allOpenIn_heredocLexeme? (whole text : List Char) :
    AllOpenIn whole (heredocLexeme? text) := by
  intro found hfound
  obtain ⟨opening, -, rfl⟩ := Option.map_eq_some_iff.mp hfound
  exact opens_heredocAfter _ _ _ _

theorem allOpenIn_attributeLexeme? (whole text : List Char) :
    AllOpenIn whole (attributeLexeme? text) := by
  intro found hfound
  exact .of_pushed (pushed_attributeLexeme? hfound)

theorem allOpenIn_literalLexeme? (c : Char) (text : List Char) :
    AllOpenIn (c :: text) (literalLexeme? c text) := by
  unfold literalLexeme?
  apply AllOpenIn.ite (.some (opensIn_quotedLexeme rfl rfl))
  apply AllOpenIn.ite (.some (opensIn_quotedLexeme rfl rfl))
  apply AllOpenIn.ite (.some (opensIn_slashLexeme c text))
  apply AllOpenIn.ite (.some (opensIn_percentLexeme c text))
  apply AllOpenIn.ite (allOpenIn_sigilLexeme? c text)
  apply AllOpenIn.ite (.some (.of_pushed rfl))
  apply AllOpenIn.ite (allOpenIn_heredocLexeme? (c :: text) text)
  apply AllOpenIn.ite (.some (.of_pushed rfl))
  apply AllOpenIn.ite (.some (.of_pushed rfl))
  apply AllOpenIn.ite (.some (.of_pushed rfl))
  apply AllOpenIn.ite (.some (opensIn_colonLexeme c text))
  apply AllOpenIn.ite (allOpenIn_attributeLexeme? (c :: text) text)
  exact AllOpenIn.ite (.some (.of_pushed rfl)) .none

theorem opensIn_codeLexeme (atLineStart barIsMarker : Bool) (text : List Char) :
    (codeLexeme atLineStart barIsMarker text).OpensIn text := by
  cases text with
  | nil => exact .nothing
  | cons c rest =>
      unfold codeLexeme
      dsimp only
      split
      · exact .blockComment
      split
      · exact .nothing
      · cases hliteral : literalLexeme? c rest with
        | none => exact .of_pushed (pushed_symbolLexeme barIsMarker c rest)
        | some lexeme => exact allOpenIn_literalLexeme? c rest lexeme hliteral

theorem pushed_codeLexeme_of_atVariable {text : List Char} (h : AtVariable text)
    (atLineStart barIsMarker : Bool) :
    (codeLexeme atLineStart barIsMarker text).pushed = [] := by
  cases text with
  | nil => exact absurd h Bool.false_ne_true
  | cons c rest =>
      have hc : c = '@' ∨ c = '$' := by simpa [AtVariable, headIs] using h
      have hquote : ((c :: rest) == tripleQuote) = false := by
        rcases hc with rfl | rfl <;> rfl
      have hblank : isBlank c = false := by
        rcases hc with rfl | rfl <;> decide
      simp only [codeLexeme, hquote, hblank, Bool.and_false, Bool.false_eq_true, if_false]
      rcases hc with rfl | rfl
      · show ((attributeLexeme? rest).getD _).pushed = []
        cases hattribute : attributeLexeme? rest with
        | none => exact pushed_symbolLexeme barIsMarker '@' rest
        | some lexeme => exact pushed_attributeLexeme? hattribute
      · rfl

/-! ## One scan -/

theorem shapedAt_scanQuoted (quoted : Quoted) {below : List Frame} (hbelow : IsCode below)
    (text : List Char) :
    ShapedAt (text.drop (scanQuoted quoted below text).length)
      (scanQuoted quoted below text).frames := by
  unfold scanQuoted
  dsimp only
  generalize (if quoted.afterBrace = true then oneIf (· == '}') text else 0) = brace
  rw [← List.drop_drop]
  exact (Quoted.opens_framesAfter rfl false (text.drop brace)).onto hbelow

theorem ShapedAt.scanFrames {text : List Char} {frames : List Frame} (h : ShapedAt text frames)
    (atLineStart barIsMarker : Bool) :
    ShapedAt (text.drop (scanFrames atLineStart barIsMarker text frames).length)
      (scanFrames atLineStart barIsMarker text frames).frames := by
  have hopens := opensIn_codeLexeme atLineStart barIsMarker text
  cases h with
  | pending hvariable hinterpolates hbrace hbelow =>
      -- The variable opens nothing, so its one token is used up and nothing else changes.
      have hpushed := pushed_codeLexeme_of_atVariable hvariable atLineStart barIsMarker
      simp only [Elixir.scanFrames, Bool.false_eq_true, if_false, Lexeme.onto, hpushed,
        List.nil_append]
      exact .shaped (.once hinterpolates hbrace hbelow)
  | shaped hshaped =>
      cases hshaped with
      | quoted _ hbelow => exact shapedAt_scanQuoted _ hbelow text
      | once _ _ hbelow => exact shapedAt_scanQuoted _ hbelow text
      | heredoc hbelow => exact (opens_heredocAfter _ _ _ _).onto hbelow
      | blockComment hbelow =>
          simp only [Elixir.scanFrames]
          split
          · exact .shaped (.code hbelow)
          · exact .shaped (.blockComment hbelow)
      | code hcode =>
          cases hcode with
          | base => exact hopens.onto .base
          | embedded hinterpolates hbrace hbelow =>
              simp only [Elixir.scanFrames]
              split
              · exact shapedAt_scanQuoted _ hbelow text
              · exact hopens.onto (.embedded hinterpolates hbrace hbelow)

/-! ## Counts of braces -/

/-- The brace that opened embedded code is counted as long as the code lasts. -/
def CountsBraces (frames : List Frame) : Prop := ∀ depth, .untilBrace depth ∈ frames → 1 ≤ depth

def Overflows (text : List Char) (frames : List Frame) : Prop :=
  headIs (· == '{') text = true ∧ .untilBrace 4294967295 ∈ frames

theorem CountsBraces.append {pushed below : List Frame} (hpushed : CountsBraces pushed)
    (hbelow : CountsBraces below) : CountsBraces (pushed ++ below) := by
  intro depth hdepth
  rcases List.mem_append.mp hdepth with hdepth | hdepth
  · exact hpushed depth hdepth
  · exact hbelow depth hdepth

theorem CountsBraces.cons {frame : Frame} {below : List Frame}
    (hframe : ∀ depth, frame = .untilBrace depth → 1 ≤ depth) (hbelow : CountsBraces below) :
    CountsBraces (frame :: below) := by
  intro depth hdepth
  rcases List.mem_cons.mp hdepth with heq | hdepth
  · exact hframe depth heq.symm
  · exact hbelow depth hdepth

theorem CountsBraces.of_cons {frame : Frame} {below : List Frame}
    (h : CountsBraces (frame :: below)) : CountsBraces below :=
  fun depth hdepth => h depth (List.mem_cons_of_mem _ hdepth)

theorem Opens.countsBraces {rest : List Char} {pushed : List Frame} (h : Opens rest pushed) :
    CountsBraces pushed := by
  intro depth hdepth
  cases h <;> simp_all

theorem one_le_depthAfter {depth : UInt32} (hdepth : 1 ≤ depth) {text : List Char}
    (hopen : ¬ (headIs (· == '}') text && decide (depth ≤ 1)) = true)
    (hroom : headIs (· == '{') text = true → depth ≠ 4294967295) :
    1 ≤ depthAfter depth text := by
  unfold depthAfter
  split
  · next hbrace =>
      simp only [hbrace, Bool.true_and, decide_eq_true_eq] at hopen
      grind
  split
  · next hbrace =>
      have hroom := hroom hbrace
      grind
  · exact hdepth

theorem countsBraces_scanQuoted (quoted : Quoted) {below : List Frame}
    (hbelow : CountsBraces below) (text : List Char) :
    CountsBraces (scanQuoted quoted below text).frames := by
  unfold scanQuoted
  dsimp only
  exact (Quoted.opens_framesAfter rfl false _).countsBraces.append hbelow

theorem CountsBraces.scanFrames {text : List Char} {frames : List Frame}
    (h : CountsBraces frames) (hroom : ¬ Overflows text frames) (atLineStart barIsMarker : Bool) :
    CountsBraces (scanFrames atLineStart barIsMarker text frames).frames := by
  have hpushed := (opensIn_codeLexeme atLineStart barIsMarker text).countsBraces
  induction frames with
  | nil => exact hpushed.append h
  | cons frame below ih =>
      have ih := ih h.of_cons fun hover => hroom ⟨hover.1, List.mem_cons_of_mem _ hover.2⟩
      cases frame with
      | base => exact hpushed.append h
      | quoted quoted => exact countsBraces_scanQuoted quoted h.of_cons text
      | heredoc tag indented =>
          exact (opens_heredocAfter [] tag indented text).countsBraces.append h.of_cons
      | blockComment =>
          simp only [Elixir.scanFrames]
          split
          · exact h.of_cons
          · exact h
      | untilBrace depth =>
          simp only [Elixir.scanFrames]
          split
          · exact ih
          · next hopen =>
              refine hpushed.append (.cons ?_ h.of_cons)
              rintro _ ⟨⟩
              apply one_le_depthAfter (h depth List.mem_cons_self) hopen
              rintro hbrace rfl
              exact hroom ⟨hbrace, List.mem_cons_self⟩
      | once used =>
          simp only [Elixir.scanFrames]
          split
          · exact ih
          · exact hpushed.append (.cons nofun h.of_cons)

/-! ## Frames that are taken off -/

def afterPop (below : List Frame) (scan : Option Scan) : Option Scan :=
  if below.isEmpty then none else scan

/-- `scanFrames` with no result when the only frame of a stack would be taken off.  A
literal that ends within the token that opens it is never put on the stack. -/
def scanFrames? (atLineStart barIsMarker : Bool) (text : List Char) : List Frame → Option Scan
  | [] => none
  | .base :: below => some ((codeLexeme atLineStart barIsMarker text).onto (.base :: below))
  | .quoted quoted :: below =>
      let scan := scanQuoted quoted below text
      -- Nothing of a closed literal is left.
      if scan.frames = below then afterPop below (some scan) else some scan
  | .heredoc tag indented :: below =>
      let scan : Scan :=
        ⟨text.length, .styled .string, none, heredocAfter tag indented text ++ below⟩
      if closesHeredoc tag indented text then afterPop below (some scan) else some scan
  | .blockComment :: below =>
      if atLineStart && text == tripleQuote then
        afterPop below (some ⟨text.length, .styled .comment, none, below⟩)
      else some ⟨text.length, .styled .comment, none, .blockComment :: below⟩
  | .untilBrace depth :: below =>
      if headIs (· == '}') text && depth ≤ 1 then
        afterPop below (scanFrames? atLineStart barIsMarker text below)
      else
        some ((codeLexeme atLineStart barIsMarker text).onto
          (.untilBrace (depthAfter depth text) :: below))
  | .once used :: below =>
      if used then afterPop below (scanFrames? atLineStart barIsMarker text below)
      else some ((codeLexeme atLineStart barIsMarker text).onto (.once true :: below))

theorem afterPop_of_getLast? {below : List Frame} (h : below.getLast? = some .base)
    (scan : Option Scan) : afterPop below scan = scan := by
  cases below with
  | nil => cases h
  | cons frame below => rfl

/-- Over a base frame, the frames that are taken off never include the last one. -/
theorem scanFrames?_eq {frames : List Frame} (h : frames.getLast? = some .base)
    (atLineStart barIsMarker : Bool) (text : List Char) :
    scanFrames? atLineStart barIsMarker text frames =
      some (scanFrames atLineStart barIsMarker text frames) := by
  induction frames with
  | nil => cases h
  | cons frame below ih =>
      by_cases hframe : frame = .base
      · subst hframe
        rfl
      · have hbelow : below.getLast? = some .base := by
          cases below with
          | nil => exact absurd (Option.some.inj h) hframe
          | cons next below => rwa [List.getLast?_cons_cons] at h
        have hpop := afterPop_of_getLast? hbelow
        cases frame with
        | base => exact absurd rfl hframe
        | quoted quoted => simp [scanFrames?, scanFrames, hpop]
        | heredoc tag indented => simp [scanFrames?, scanFrames, hpop]
        | blockComment => simp only [scanFrames?, scanFrames, hpop]; split <;> rfl
        | untilBrace depth => simp only [scanFrames?, scanFrames, hpop, ih hbelow]; split <;> rfl
        | once used => simp only [scanFrames?, scanFrames, hpop, ih hbelow]; split <;> rfl

end CellHighlight.Elixir
