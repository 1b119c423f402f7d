import CellHighlight.Elixir.Scanner
import CellHighlight.R.Scanner
import CellHighlight.Region

/-!
# Grammars

A grammar is a language or an outer grammar with embedded regions, to any depth.
It is run by the scanner made from it, on states that tell which kind of grammar
they belong to; a state of the wrong kind is replaced by the start state.
-/

namespace CellHighlight

inductive Grammar
  | elixir (options : Elixir.Options)
  /-- Takes every line whole, without a style. -/
  | plainText
  | r
  | mixed (outer : Grammar) (regions : List (Region Grammar))

inductive GrammarState
  | elixir (state : Elixir.State)
  | plainText
  | r (state : R.State)
  | mixed (state : MixedState GrammarState)
deriving Repr

namespace GrammarState

def decEq : (first second : GrammarState) → Decidable (first = second)
  | .elixir s, .elixir t => decidable_of_iff (s = t) (by simp)
  | .plainText, .plainText => isTrue rfl
  | .r s, .r t => decidable_of_iff (s = t) (by simp)
  | .mixed ⟨outer, region, none, opening⟩, .mixed ⟨outer', region', none, opening'⟩ =>
      have := decEq outer outer'
      decidable_of_iff (outer = outer' ∧ region = region' ∧ opening = opening') (by simp)
  | .mixed ⟨outer, region, some inner, opening⟩,
      .mixed ⟨outer', region', some inner', opening'⟩ =>
      have := decEq outer outer'
      have := decEq inner inner'
      decidable_of_iff
        (outer = outer' ∧ region = region' ∧ inner = inner' ∧ opening = opening') (by simp)
  | .mixed ⟨_, _, none, _⟩, .mixed ⟨_, _, some _, _⟩ => isFalse (by simp)
  | .mixed ⟨_, _, some _, _⟩, .mixed ⟨_, _, none, _⟩ => isFalse (by simp)
  | .elixir _, .plainText | .elixir _, .r _ | .elixir _, .mixed _ => isFalse (by simp)
  | .plainText, .elixir _ | .plainText, .r _ | .plainText, .mixed _ => isFalse (by simp)
  | .r _, .elixir _ | .r _, .plainText | .r _, .mixed _ => isFalse (by simp)
  | .mixed _, .elixir _ | .mixed _, .plainText | .mixed _, .r _ => isFalse (by simp)

instance : DecidableEq GrammarState := decEq

def elixir? : GrammarState → Option Elixir.State
  | .elixir state => some state
  | _ => none

def plainText? : GrammarState → Option Unit
  | .plainText => some ()
  | _ => none

def r? : GrammarState → Option R.State
  | .r state => some state
  | _ => none

def mixed? : GrammarState → Option (MixedState GrammarState)
  | .mixed state => some state
  | _ => none

end GrammarState

def plainScanner : Scanner Unit where
  start := ()
  step view _ := ⟨view.ahead.length, .plain, ()⟩
  blank _ := ()
  tornStep _ := (some .plain, ())

mutual

def Grammar.scanner : Grammar → Scanner GrammarState
  | .elixir options => (Elixir.scanner options).within .elixir GrammarState.elixir?
  | .plainText => plainScanner.within (fun _ => .plainText) GrammarState.plainText?
  | .r => R.scanner.within .r GrammarState.r?
  | .mixed outer regions =>
      (Region.mixedScanner outer.scanner (regionScanners regions)).within
        .mixed GrammarState.mixed?

def Region.scanner : Region Grammar → Region (Scanner GrammarState)
  | ⟨opener, closer, content, delimited, scansDelimiters⟩ =>
      ⟨opener, closer, content.scanner, delimited, scansDelimiters⟩

def regionScanners : List (Region Grammar) → List (Region (Scanner GrammarState))
  | [] => []
  | region :: regions => region.scanner :: regionScanners regions

end

namespace Grammar

def start (grammar : Grammar) : GrammarState := grammar.scanner.start

def name : Grammar → String
  | .elixir _ => "elixir"
  | .plainText => "text/plain"
  | .r => "r"
  | .mixed _ _ => "multiplex"

def lineComment? : Grammar → Option String
  | .elixir _ => some "#"
  | .plainText => none
  | .r => some "#"
  | .mixed outer _ => outer.lineComment?

/-- The tab size by which columns are counted; the outermost grammar decides. -/
def tabSize : Grammar → Nat
  | .elixir options => options.tabSize
  | .plainText => ({} : Elixir.Options).tabSize
  | .r => ({} : Elixir.Options).tabSize
  | .mixed outer _ => outer.tabSize

def scanLine (grammar : Grammar) (state : GrammarState) (line : List Char) :
    List Token × GrammarState :=
  grammar.scanner.scanLine grammar.tabSize state line

def scanLines (grammar : Grammar) (state : GrammarState) :
    List (List Char) → List (List Token) × GrammarState
  | [] => ([], state)
  | line :: lines =>
      let (tokens, state) := grammar.scanLine state line
      let (following, state) := grammar.scanLines state lines
      (tokens :: following, state)

/-! ## Notebook cells -/

/-- A colon before an exclamation mark opens a directive.  It takes the rest of its
line and goes on over lines that begin with an exclamation mark. -/
def directiveRegion : Region Grammar where
  opener := (Pattern.literal [':']).followedBy '!'
  closer := some (Pattern.lineStart.notFollowedBy '!')
  content := .plainText
  delimited := true

def rRegion : Region Grammar where
  opener := ⟨.texts ["[r|".toList, "[rprint|".toList, "[rgraph|".toList], none⟩
  closer := some (Pattern.literal "|]".toList)
  content := .r
  delimited := true

def cell (options : Elixir.Options) : Grammar :=
  .mixed (.elixir options) [directiveRegion, rRegion]

end Grammar

end CellHighlight
