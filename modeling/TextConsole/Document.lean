import TextConsole.Config
import TextConsole.Json.Parse
import TextConsole.Json.Record

/-!
# Configuration documents

A configuration is written as a JSON record of three sections. Whatever a
document leaves out has its default. A document is first read as a whole, and
only then are its numbers checked.
-/

namespace TextConsole

open Json (RecordField Record.read)

namespace Config

/-! ## The sections -/

def kindName : DisplayKind → String
  | .color => "Color"
  | .mono => "Mono"

def kindOfName? (name : String) : Option DisplayKind :=
  if name = "Color" then some .color
  else if name = "Mono" then some .mono
  else none

/-- Reads a kind of display: its name, or an object whose only member has that
name and nothing for a value. -/
def kind? : Json → Option DisplayKind
  | .str (some name) => kindOfName? name
  | .obj [(some name, .null)] => kindOfName? name
  | _ => none

def screenFields : List (RecordField Geometry) :=
  [⟨"columns", fun g v => v.natural?.map fun n => { g with columns := n }⟩,
   ⟨"rows", fun g v => v.natural?.map fun n => { g with rows := n }⟩]

def behaviorFields : List (RecordField Behavior) :=
  [⟨"tab_width", fun b v => v.natural?.map fun n => { b with tabWidth := n }⟩,
   ⟨"line_wrap", fun b v => v.bool?.map fun on => { b with lineWrap := on }⟩,
   ⟨"software_scroll", fun b v => v.bool?.map fun on => { b with softwareScroll := on }⟩,
   ⟨"bell_enabled", fun b v => v.bool?.map fun on => { b with bellEnabled := on }⟩,
   ⟨"newline_returns_carriage",
     fun b v => v.bool?.map fun on => { b with newlineReturnsCarriage := on }⟩,
   ⟨"max_consoles", fun b v => v.natural?.map fun n => { b with maxConsoles := n }⟩]

def displayFields : List (RecordField DisplayConfig) :=
  [⟨"kind", fun d v => (kind? v).map fun k => { d with kind := k }⟩,
   ⟨"capacity_words", fun d v => v.natural?.map fun n => { d with capacity := n }⟩,
   ⟨"wrap_capable", fun d v => v.bool?.map fun on => { d with wraps := on }⟩,
   ⟨"font_upload", fun d v => v.bool?.map fun on => { d with fontUpload := on }⟩]

def displays? : Json → Option (List DisplayConfig)
  | .arr items => items.mapM (Record.read displayFields {})
  | _ => none

def sections : List (RecordField Config) :=
  [⟨"screen", fun c v => (Record.read screenFields {} v).map fun g => { c with screen := g }⟩,
   ⟨"behavior",
     fun c v => (Record.read behaviorFields {} v).map fun b => { c with behavior := b }⟩,
   ⟨"displays", fun c v => (displays? v).map fun ds => { c with displays := ds }⟩]

def ofJson? (v : Json) : Option Config := Record.read sections {} v

end Config

/-! ## Loading -/

/-- Why a configuration cannot be loaded. -/
inductive LoadError where
  /-- There is no text at the given path. -/
  | unreadable (path : String)
  /-- The text is not a configuration document. -/
  | malformed
  /-- The document describes a configuration that cannot be used. -/
  | invalid (error : ConfigError)
deriving DecidableEq, Repr

def LoadError.message : LoadError → String
  | unreadable path => "Failed to read configuration file " ++ path
  | malformed => "Failed to parse console configuration"
  | invalid error => error.message

namespace Config

def ofText (text : String) : Except LoadError Config :=
  match (Json.parse? text).bind ofJson? with
  | none => .error .malformed
  | some c =>
      match c.validate with
      | .error e => .error (.invalid e)
      | .ok () => .ok c

/-- The configuration in a file, given what was read there. The bytes have to
be a text in UTF-8. -/
def ofFile (path : String) (contents : Option ByteArray) : Except LoadError Config :=
  match contents.bind String.fromUTF8? with
  | none => .error (.unreadable path)
  | some text => ofText text

/-- The configuration at a path, or the default one for no path. -/
def load {m : Type → Type} [Monad m] (readFile : String → m (Option ByteArray)) :
    Option String → m (Except LoadError Config)
  | none => return .ok {}
  | some path => return ofFile path (← readFile path)

end Config

end TextConsole
