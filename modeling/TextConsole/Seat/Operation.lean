import TextConsole.Seat.Basic

/-!
# Operations on a seat

What the clients of a seat can do: programs send bytes to a console, the kernel
prints on the first console, and the operator moves the focus and sets how
screens scroll and whether the bell is heard. A history of a seat is a list of
operations, `Seat.applyAll`.

An operation on a console that does not exist does nothing. Only the loading of
a font can fail.
-/

namespace TextConsole

namespace Seat

/-! ## Bytes -/

/-- Sends one byte to a console. Characters may stay in the queue. -/
def send (s : Seat) (id : Nat) (byte : UInt8) : Seat :=
  s.run id fun surface c => c.accept surface byte

def sendRun (s : Seat) (id : Nat) (bytes : List UInt8) : Seat :=
  s.run id fun surface c => c.acceptRun surface bytes

def flush (s : Seat) (id : Nat) : Seat :=
  s.run id fun surface c => c.flush surface

/-- Sends one byte to a console and makes it visible at once, as for a key. -/
def echo (s : Seat) (id : Nat) (byte : UInt8) : Seat :=
  s.run id fun surface c => c.echo surface byte

def scroll (s : Seat) (id : Nat) (direction : Direction) : Seat :=
  s.run id fun surface c => c.scroll surface direction

/-- Prints a byte on the first console on behalf of the kernel. A null byte only
stores the queue, and a new line starts with a carriage return. -/
def message (s : Seat) (byte : UInt8) : Seat :=
  if byte = 0x00 then s.flush 0
  else if byte = 0x0A then (s.send 0 0x0D).send 0 0x0A
  else s.send 0 byte

/-! ## Reports -/

/-- A console's report on the output it has stored, if there is such a console. -/
def report? (s : Seat) (id : Nat) : Option OutputReport :=
  s.consoles[id]?.map (·.report)

def acknowledge (s : Seat) (id : Nat) : Seat :=
  s.run id fun _ c => return c.acknowledge

/-! ## The operator -/

/-- Moves every window to the start of its region, and loads the registers of
the console in focus anew. -/
def homeAll (s : Seat) : Seat :=
  (s.runAll fun surface c => c.goHome surface).focus s.focused

def setSoftwareScroll (s : Seat) (on : Bool) : Seat :=
  { s with
    settings := { s.settings with
      behavior := { s.settings.behavior with softwareScroll := on } } }

/-- Changes the way screens scroll, once every window is at home. -/
def switchScrolling (s : Seat) : Seat :=
  s.homeAll.setSoftwareScroll (!s.settings.behavior.softwareScroll)

/-- Silences the bell, or lets it be heard again. -/
def switchBell (s : Seat) : Seat :=
  { s with
    settings := { s.settings with
      behavior := { s.settings.behavior with
        bellEnabled := !s.settings.behavior.bellEnabled } } }

/-- Leaves the hardware as it was found: every window at home, software
scrolling, and the focus on the first console in its first rendition. -/
def release (s : Seat) : Seat :=
  let s := (s.homeAll.setSoftwareScroll true).focus 0
  { s with
    consoles := s.consoles.modify 0 Console.resetRenditions
    displays := s.displays.modify 0 fun d => d.setBlank Rendition.normal }

/-! ## Fonts -/

def fontSize : Nat := 8192

end Seat

/-- Why a font cannot be loaded. -/
inductive FontError where
  | unsupported
  | wrongSize (expected actual : Nat)
deriving DecidableEq, Repr

def FontError.message : FontError → String
  | unsupported => "display does not support font upload"
  | wrongSize expected actual => s!"font must be {expected} bytes, got {actual}"

namespace Seat

/-- Loads a font into the first display, if that takes fonts and the font has
the right size. -/
def installFont (s : Seat) (font : List UInt8) : Except FontError Seat :=
  if (s.displays.getD 0 default).fontUpload then
    if font.length = fontSize then
      .ok { s with journal := { s.journal with fonts := s.journal.fonts.push ⟨0, font⟩ } }
    else .error (.wrongSize fontSize font.length)
  else .error .unsupported

end Seat

/-! ## Histories -/

/-- One operation of a client of a seat. -/
inductive Operation where
  | send (id : Nat) (byte : UInt8)
  | sendRun (id : Nat) (bytes : List UInt8)
  | flush (id : Nat)
  | echo (id : Nat) (byte : UInt8)
  | message (byte : UInt8)
  | acknowledge (id : Nat)
  | scroll (id : Nat) (direction : Direction)
  | focus (id : Nat)
  | homeAll
  | switchScrolling
  | switchBell
  | release
  | installFont (font : List UInt8)
deriving DecidableEq, Repr

namespace Seat

/-- The seat after an operation. A font that cannot be loaded changes nothing. -/
def apply (s : Seat) : Operation → Seat
  | .send id byte => s.send id byte
  | .sendRun id bytes => s.sendRun id bytes
  | .flush id => s.flush id
  | .echo id byte => s.echo id byte
  | .message byte => s.message byte
  | .acknowledge id => s.acknowledge id
  | .scroll id direction => s.scroll id direction
  | .focus id => s.focus id
  | .homeAll => s.homeAll
  | .switchScrolling => s.switchScrolling
  | .switchBell => s.switchBell
  | .release => s.release
  | .installFont font =>
      match s.installFont font with
      | .ok loaded => loaded
      | .error _ => s

/-- The seat after a history. -/
def applyAll (s : Seat) (ops : List Operation) : Seat := ops.foldl apply s

@[simp] theorem applyAll_nil (s : Seat) : s.applyAll [] = s := rfl

theorem applyAll_append (s : Seat) (xs ys : List Operation) :
    s.applyAll (xs ++ ys) = (s.applyAll xs).applyAll ys := by
  simp [applyAll, List.foldl_append]

end Seat

end TextConsole
