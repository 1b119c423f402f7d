import CellHighlight.Grammar
import CellHighlight.Json

/-!
# Snapshots of states

A host may keep a state and go on from it later.  The written form names every
variant: one without content is a string, one with content an object with a single
field.  Stacks are written from the bottom up.
-/

namespace CellHighlight

/-! ## Styles -/

def Side.toJson : Side → Json
  | .opening => .str "Open"
  | .closing => .str "Close"

def Side.ofJson? : Json → Option Side
  | .str "Open" => some .opening
  | .str "Close" => some .closing
  | _ => none

def plainStyleNames : List (String × Style) :=
  [("None", .plain), ("Identifier", .identifier), ("Keyword", .keyword),
   ("ConstantTag", .constant), ("Definition", .definition), ("Property", .property),
   ("String", .string), ("InterpolatedString", .interpolated), ("RegexLiteral", .regex),
   ("Atom", .atom), ("Number", .number), ("Comment", .comment), ("Operator", .operator),
   ("Punctuation", .punctuation), ("ModuleAttribute", .moduleAttribute),
   ("GlobalVariable", .globalVariable), ("Arrow", .arrow), ("Pipe", .pipe)]

def Style.toJson : Style → Json
  | .plain => .str "None"
  | .identifier => .str "Identifier"
  | .keyword => .str "Keyword"
  | .constant => .str "ConstantTag"
  | .definition => .str "Definition"
  | .property => .str "Property"
  | .string => .str "String"
  | .interpolated => .str "InterpolatedString"
  | .regex => .str "RegexLiteral"
  | .atom => .str "Atom"
  | .number => .str "Number"
  | .comment => .str "Comment"
  | .operator => .str "Operator"
  | .punctuation => .str "Punctuation"
  | .moduleAttribute => .str "ModuleAttribute"
  | .globalVariable => .str "GlobalVariable"
  | .arrow => .str "Arrow"
  | .pipe => .str "Pipe"
  | .delimiter side => .tagged "Delimiter" side.toJson

def Style.ofJson? : Json → Option Style
  | .str name => plainStyleNames.lookup name
  | .obj [("Delimiter", json)] => (Side.ofJson? json).map .delimiter
  | _ => none

/-! ## Elixir -/

namespace Elixir

def Bracket.toJson : Bracket → Json
  | .round => .str "Paren"
  | .square => .str "Square"
  | .curly => .str "Curly"

def Bracket.ofJson? : Json → Option Bracket
  | .str "Paren" => some .round
  | .str "Square" => some .square
  | .str "Curly" => some .curly
  | _ => none

def Marker.toJson : Marker → Json
  | .opening bracket => .tagged "Open" bracket.toJson
  | .closing bracket => .tagged "Close" bracket.toJson
  | .backslash => .str "Backslash"
  | .semicolon => .str "Semicolon"
  | .bar => .str "Pipe"
  | .dot => .str "Dot"

def Marker.ofJson? : Json → Option Marker
  | .obj [("Open", json)] => (Bracket.ofJson? json).map .opening
  | .obj [("Close", json)] => (Bracket.ofJson? json).map .closing
  | .str "Backslash" => some .backslash
  | .str "Semicolon" => some .semicolon
  | .str "Pipe" => some .bar
  | .str "Dot" => some .dot
  | _ => none

def LastToken.toJson : LastToken → Json
  | .marker m => .tagged "Marker" m.toJson
  | .keyword word => .tagged "Keyword" (.ofText word)
  | .other => .str "Other"

def LastToken.ofJson? : Json → Option LastToken
  | .obj [("Marker", json)] => (Marker.ofJson? json).map .marker
  | .obj [("Keyword", json)] => json.toText?.map .keyword
  | .str "Other" => some .other
  | _ => none

def ScopeKind.toJson : ScopeKind → Json
  | .root => .str "Top"
  | .bracket b => .tagged "Bracket" b.toJson
  | .keyword => .str "Keyword"

def ScopeKind.ofJson? : Json → Option ScopeKind
  | .str "Top" => some .root
  | .obj [("Bracket", json)] => (Bracket.ofJson? json).map .bracket
  | .str "Keyword" => some .keyword
  | _ => none

def Scope.toJson (scope : Scope) : Json :=
  .obj [("kind", scope.kind.toJson), ("indented", .num scope.indentation)]

def Scope.ofJson? (json : Json) : Option Scope := do
  let fields ← json.toFields?
  let kind ← ScopeKind.ofJson? (← Json.field? fields "kind")
  let indentation ← (← Json.field? fields "indented").toInt?
  some ⟨kind, indentation⟩

def Quoted.toJson (quoted : Quoted) : Json :=
  .obj [("delim", .ofChar quoted.delimiter), ("style", quoted.style.toJson),
    ("interpolates", .bool quoted.interpolates), ("raw", .bool quoted.raw),
    ("resume_after_brace", .bool quoted.afterBrace)]

def Quoted.ofJson? (json : Json) : Option Quoted := do
  let fields ← json.toFields?
  let delimiter ← (← Json.field? fields "delim").toChar?
  let style ← Style.ofJson? (← Json.field? fields "style")
  let interpolates ← (← Json.field? fields "interpolates").toBool?
  let raw ← (← Json.field? fields "raw").toBool?
  let afterBrace ← (← Json.field? fields "resume_after_brace").toBool?
  some ⟨delimiter, style, interpolates, raw, afterBrace⟩

def Frame.toJson : Frame → Json
  | .base => .str "Base"
  | .quoted q => .tagged "Quoted" q.toJson
  | .heredoc tag indented =>
      .tagged "Heredoc" (.obj [("tag", .ofText tag), ("indented", .bool indented)])
  | .blockComment => .str "BlockComment"
  | .untilBrace depth => .tagged "UntilBrace" (.obj [("depth", .num depth.toNat)])
  | .once used => .tagged "Once" (.obj [("called", .bool used)])

def Frame.ofJson? : Json → Option Frame
  | .str "Base" => some .base
  | .str "BlockComment" => some .blockComment
  | .obj [("Quoted", json)] => (Quoted.ofJson? json).map .quoted
  | .obj [("Heredoc", .obj fields)] => do
      let tag ← (← Json.field? fields "tag").toText?
      let indented ← (← Json.field? fields "indented").toBool?
      some (.heredoc tag indented)
  | .obj [("UntilBrace", .obj fields)] => do
      some (.untilBrace (← (← Json.field? fields "depth").toUInt32?))
  | .obj [("Once", .obj fields)] => do
      some (.once (← (← Json.field? fields "called").toBool?))
  | _ => none

def State.toJson (state : State) : Json :=
  .obj [("tokenize", .arr (state.frames.reverse.map Frame.toJson)),
    ("context", .arr (state.scopes.reverse.map Scope.toJson)),
    ("indented", .num state.indentation),
    ("last_token", .ofOption LastToken.toJson state.lastToken),
    ("var_list", .bool state.inParameters), ("continued_line", .bool state.continued)]

def State.ofJson? (json : Json) : Option State := do
  let fields ← json.toFields?
  let frames ← (← (← Json.field? fields "tokenize").toItems?).mapM Frame.ofJson?
  let scopes ← (← (← Json.field? fields "context").toItems?).mapM Scope.ofJson?
  let indentation ← (← Json.field? fields "indented").toInt?
  let lastToken ← (← Json.field? fields "last_token").toOption? LastToken.ofJson?
  let inParameters ← (← Json.field? fields "var_list").toBool?
  let continued ← (← Json.field? fields "continued_line").toBool?
  some ⟨frames.reverse, scopes.reverse, indentation, lastToken, inParameters, continued⟩

end Elixir

/-! ## R -/

def R.State.toJson (state : R.State) : Json :=
  .obj [("open_quote", .ofOption .ofChar state.openQuote)]

def R.State.ofJson? (json : Json) : Option R.State := do
  let fields ← json.toFields?
  some ⟨← (← Json.field? fields "open_quote").toOption? Json.toChar?⟩

/-! ## All grammars -/

namespace GrammarState

def toJson : GrammarState → Json
  | .elixir state => .tagged "Elixir" state.toJson
  | .plainText => .str "PlainText"
  | .r state => .tagged "R" state.toJson
  | .mixed ⟨outer, region, inner, opening⟩ =>
      .tagged "Multiplex" <| .obj
        [("outer", outer.toJson),
         ("active", .ofOption (fun index => .num index) region),
         ("inner",
          match inner with
          | none => .null
          | some inner => inner.toJson),
         ("starting_inner", .bool opening)]

mutual

def ofJson? : Json → Option GrammarState
  | .str "PlainText" => some .plainText
  | .obj [("Elixir", state)] => (Elixir.State.ofJson? state).map .elixir
  | .obj [("R", state)] => (R.State.ofJson? state).map .r
  | .obj [("Multiplex", .obj fields)] => do
      let states := statesOfFields fields
      let outer ← (← states.lookup "outer")
      let region ← (← Json.field? fields "active").toOption? Json.toNat?
      let inner ← (← Json.field? fields "inner").toOption? fun _ =>
        (states.lookup "inner").join
      let opening ← (← Json.field? fields "starting_inner").toBool?
      some (.mixed ⟨outer, region, inner, opening⟩)
  | _ => none

def statesOfFields : List (String × Json) → List (String × Option GrammarState)
  | [] => []
  | (key, json) :: fields => (key, ofJson? json) :: statesOfFields fields

end

end GrammarState

end CellHighlight
