import TextConsole.Color

/-!
# Configuration

A configuration gives the geometry of a screen, which every console shares, the
behaviour of output, and the displays with their video memory. Its defaults are
a single colour display with a screen of eighty columns and twenty-five rows.

`Config.validate` checks that the numbers make sense by themselves; whether the
consoles then find room is decided by the layout.
-/

namespace TextConsole

/-! ## The parts of a configuration -/

/-- The size of a screen in cells. -/
structure Geometry where
  columns : Nat := 80
  rows : Nat := 25
deriving DecidableEq, Repr, Inhabited

def Geometry.size (g : Geometry) : Nat := g.columns * g.rows

structure Behavior where
  /-- The distance between tab stops, a power of two. -/
  tabWidth : Nat := 8
  /-- Whether a character past the last column starts a new line, or is lost. -/
  lineWrap : Bool := true
  /-- Whether a screen scrolls by being copied, with its origin at rest. -/
  softwareScroll : Bool := false
  /-- Whether the bell can be heard. -/
  bellEnabled : Bool := true
  /-- Whether a line feed also returns the cursor to the first column. -/
  newlineReturnsCarriage : Bool := true
  /-- The most consoles to create. -/
  maxConsoles : Nat := 4
deriving DecidableEq, Repr, Inhabited

structure DisplayConfig where
  kind : DisplayKind := .color
  /-- The number of words of video memory, a power of two. -/
  capacity : Nat := 0x4000
  /-- Whether addresses past the end of video memory continue at its start. -/
  wraps : Bool := false
  /-- Whether the display takes a font. -/
  fontUpload : Bool := true
deriving DecidableEq, Repr, Inhabited

/-- What all consoles have in common. -/
structure Settings where
  screen : Geometry := {}
  behavior : Behavior := {}
deriving DecidableEq, Repr, Inhabited

/-- A complete configuration. -/
structure Config extends Settings where
  displays : List DisplayConfig := [{}]
deriving DecidableEq, Repr, Inhabited

/-! ## Errors -/

/-- Why a configuration cannot be used. -/
inductive ConfigError where
  | badGeometry (columns rows : Nat)
  | badTabWidth (width : Nat)
  | noDisplays
  | badCapacity (capacity : Nat)
  | memoryTooSmall (needed available : Nat)
deriving DecidableEq, Repr

def ConfigError.message : ConfigError → String
  | badGeometry columns rows => s!"screen geometry {columns}x{rows} is empty or too large"
  | badTabWidth width => s!"tab width {width} must be a non-zero power of two"
  | noDisplays => "no displays configured"
  | badCapacity capacity =>
      s!"display capacity of {capacity} words must be a power of two no larger than 65536"
  | memoryTooSmall needed available =>
      s!"a screen needs {needed} words but the displays only hold {available}"

/-! ## Validation -/

/-- Screens are smaller than this, so that every address is a 64-bit number. -/
def sizeLimit : Nat := 0x10000000000000000

/-- The largest video memory: addresses go out through registers of 16 bits. -/
def capacityLimit : Nat := 0x10000

/-- Whether a display's video memory has a size that the hardware can have. -/
def DisplayConfig.HasValidCapacity (d : DisplayConfig) : Prop :=
  d.capacity.isPowerOfTwo ∧ d.capacity ≤ capacityLimit

instance (d : DisplayConfig) : Decidable d.HasValidCapacity :=
  inferInstanceAs (Decidable (_ ∧ _))

namespace Config

def totalCapacity (c : Config) : Nat := c.displays.foldr (fun d n => d.capacity + n) 0

/-- Checks a configuration, and gives the first of its faults: the geometry,
then the tab width, then the displays in order, and last whether all their
memory together holds a screen. -/
def validate (c : Config) : Except ConfigError Unit :=
  if c.screen.size = 0 ∨ sizeLimit ≤ c.screen.size then
    .error (.badGeometry c.screen.columns c.screen.rows)
  else if ¬ c.behavior.tabWidth.isPowerOfTwo then
    .error (.badTabWidth c.behavior.tabWidth)
  else if c.displays = [] then
    .error .noDisplays
  else
    match c.displays.find? fun d => ¬ d.HasValidCapacity with
    | some d => .error (.badCapacity d.capacity)
    | none =>
        if c.totalCapacity < c.screen.size then
          .error (.memoryTooSmall c.screen.size c.totalCapacity)
        else .ok ()

end Config

end TextConsole
