import CellHighlight.Grammar
import CellHighlight.Text.LowerCase

/-!
# Modes

Grammars by name, by MIME type and by file extension.  A later registration of a
name replaces the earlier one.
-/

namespace CellHighlight

structure ModeInfo where
  name : String
  mime : String
  mode : String
  extensions : List String
deriving DecidableEq, Repr

/-- A registered grammar.  The serial number tells registrations apart, also those
of one name. -/
structure Registration where
  name : String
  serial : Nat
  grammar : Grammar

/-- Registrations and MIME types are kept latest first, descriptions in the order
they were added. -/
structure Modes where
  registrations : List Registration := []
  mimes : List (String × String) := []
  infos : List ModeInfo := []

inductive LookupError
  | unknownMode (name : String)
  | unknownExtension (extension : String)
deriving DecidableEq, Repr

def LookupError.message : LookupError → String
  | .unknownMode name => "unknown mode or MIME type '" ++ name ++ "'"
  | .unknownExtension extension =>
      "no mode registered for extension '" ++ extension ++ "'"

namespace Modes

def define (modes : Modes) (name : String) (grammar : Grammar) : Modes :=
  { modes with
    registrations := ⟨name, modes.registrations.length, grammar⟩ :: modes.registrations }

def defineMime (modes : Modes) (mime mode : String) : Modes :=
  { modes with mimes := (mime, mode) :: modes.mimes }

def addInfo (modes : Modes) (info : ModeInfo) : Modes :=
  { modes with infos := modes.infos ++ [info] }

/-- The mode that a name stands for: MIME types come first. -/
def resolve (modes : Modes) (name : String) : String :=
  (modes.mimes.lookup name).getD name

def find (modes : Modes) (name : String) : Except LookupError Registration :=
  match modes.registrations.find? fun registration =>
      registration.name == modes.resolve name with
  | some registration => .ok registration
  | none => .error (.unknownMode name)

/-- The first description that lists an extension, with dots before it and
differences of case ignored. -/
def findByExtension (modes : Modes) (extension : String) : Except LookupError ModeInfo :=
  let wanted := lowerCase (extension.toList.dropWhile (· == '.'))
  match modes.infos.find? fun info =>
      info.extensions.any fun listed => lowerCase listed.toList == wanted with
  | some info => .ok info
  | none => .error (.unknownExtension extension)

def findByMime (modes : Modes) (mime : String) : Option ModeInfo :=
  modes.infos.find? (·.mime == mime)

def standard (options : Elixir.Options) : Modes :=
  ({} : Modes)
    |>.define "elixir" (.elixir options)
    |>.defineMime "text/x-elixir" "elixir"
    |>.define "text/plain" .plainText
    |>.define "r" .r
    |>.defineMime "text/x-rsrc" "r"
    |>.addInfo ⟨"R", "text/x-rsrc", "r", ["r", "R"]⟩
    |>.define "ielixir" (.cell options)
    |>.defineMime "text/x-ielixir" "ielixir"
    |>.addInfo ⟨"ielixir", "text/x-ielixir", "ielixir", ["ex"]⟩

end Modes

end CellHighlight
