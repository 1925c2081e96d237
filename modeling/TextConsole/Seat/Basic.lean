import TextConsole.Console.Input
import TextConsole.Journal

/-!
# The seat

A seat is where an operator sits: the consoles, the displays that they are drawn
on, and the one console that has the focus. Only that console drives the
registers of its display. The others keep up their windows in video memory, and
their registers are loaded when they get the focus.

Consoles on one display share its rendition of blanks. `Seat.run` therefore
loads a console's own rendition before the console can blank anything, and is
the only way in which a console reaches its display.
-/

namespace TextConsole

/-- Consoles, displays, and what they have told the hardware. -/
structure Seat where
  consoles : Array Console
  displays : Array Display
  /-- The index of the console that is seen. -/
  focused : Nat := 0
  settings : Settings
  journal : Journal := {}
deriving DecidableEq, Repr, Inhabited

namespace Seat

/-! ## Running a console -/

def displayOf (s : Seat) (c : Console) : Display :=
  s.displays.getD c.region.display default

/-- What console `id` knows of its display. -/
def surface (s : Seat) (id : Nat) (c : Console) : Surface where
  settings := s.settings
  kind := (s.displayOf c).kind
  wraps := (s.displayOf c).memory.wraps
  capacity := (s.displayOf c).capacity
  focused := id = s.focused

/-- Runs a computation of console `id` and carries out its effects. Nothing
happens if there is no such console. -/
def run (s : Seat) (id : Nat) (f : Surface → Console → Output Console) : Seat :=
  match s.consoles[id]? with
  | none => s
  | some c =>
      let surface := s.surface id c
      let out := f surface c
      { s with
        consoles := s.consoles.setIfInBounds id out.value
        displays := s.displays.modify c.region.display fun d =>
          (d.setBlank c.blank).performAll out.effects
        journal := s.journal.recordAll c.region.display surface.capacity out.effects }

/-- Runs a computation of every console in turn. -/
def runAll (s : Seat) (f : Surface → Console → Output Console) : Seat :=
  (List.range s.consoles.size).foldl (fun s id => s.run id f) s

/-! ## Focus -/

def loadRegisters (c : Console) : Output Console := do
  Output.emit (.setRegister .origin c.origin)
  Output.emit (.setRegister .cursor c.cursorAddr)
  return c

/-- Gives the focus to console `id`. It stays where it is if there is no such
console. -/
def focus (s : Seat) (id : Nat) : Seat :=
  if id < s.consoles.size then { s with focused := id }.run id fun _ c => loadRegisters c
  else s

/-! ## Setting up -/

/-- Whether a list of regions uses the second display. -/
def UsesSecondDisplay (regions : List Region) : Prop := ∃ r ∈ regions, r.display = 1

instance (regions : List Region) : Decidable (UsesSecondDisplay regions) :=
  inferInstanceAs (Decidable (∃ r ∈ regions, _))

/-- A seat whose consoles have the given regions, before it has touched video
memory. Displays without a console are left out. -/
def ofRegions (config : Config) (regions : List Region) : Seat where
  consoles := (regions.map fun r => { region := r : Console }).toArray
  displays :=
    ((config.displays.take (if UsesSecondDisplay regions then 2 else 1)).map fun d =>
      Display.ofConfig d (1 < regions.length)).toArray
  settings := config.toSettings

def clearWindow (s : Surface) (c : Console) : Output Console := do
  Output.emit (.fill c.origin s.size)
  return c

/-- The seat that a configuration describes, with every window blank and the
focus on the first console. -/
def ofConfig (config : Config) : Except ConfigError Seat := do
  config.validate
  let regions ← config.layout
  return ((ofRegions config regions).runAll clearWindow).focus 0

end Seat

end TextConsole
