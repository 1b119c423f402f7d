/-!
# JSON values

The values that states are written as.  Numbers are integers.
-/

namespace CellHighlight

inductive Json
  | null
  | bool (value : Bool)
  | num (value : Int)
  | str (value : String)
  | arr (items : List Json)
  | obj (fields : List (String × Json))
deriving Inhabited, Repr

namespace Json

/-- A variant with content: an object whose only field is the name of the variant. -/
def tagged (tag : String) (content : Json) : Json := .obj [(tag, content)]

def ofOption {α : Type} (encode : α → Json) : Option α → Json
  | none => .null
  | some value => encode value

def ofChar (c : Char) : Json := .str (String.ofList [c])

def ofText (text : List Char) : Json := .str (String.ofList text)

def field? (fields : List (String × Json)) (key : String) : Option Json := fields.lookup key

def toFields? : Json → Option (List (String × Json))
  | .obj fields => some fields
  | _ => none

def toBool? : Json → Option Bool
  | .bool value => some value
  | _ => none

def toInt? : Json → Option Int
  | .num value => some value
  | _ => none

def toNat? : Json → Option Nat
  | .num (.ofNat value) => some value
  | _ => none

def toUInt32? (json : Json) : Option UInt32 := do
  let value ← json.toNat?
  if h : value < UInt32.size then some (.ofNatLT value h) else none

def toText? : Json → Option (List Char)
  | .str value => some value.toList
  | _ => none

def toChar? : Json → Option Char
  | .str value =>
      match value.toList with
      | [c] => some c
      | _ => none
  | _ => none

def toItems? : Json → Option (List Json)
  | .arr items => some items
  | _ => none

def toOption? {α : Type} (decode : Json → Option α) : Json → Option (Option α)
  | .null => some none
  | json => (decode json).map some

end Json

end CellHighlight
