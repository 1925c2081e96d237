import TextConsole.Escape
import TextConsole.Layout
import TextConsole.Output

/-!
# Consoles

A console is one logical terminal. Its visible window is a screen's worth of
words of video memory, starting at an origin inside the console's region and
continuing, row after row, from there. Characters wait in a queue until they
are stored all at once; the cursor's address is where the queue will go, and
moves to where the cursor is only once the queue has been stored.
-/

namespace TextConsole

/-- The most cells that wait in a console's queue. -/
def queueLimit : Nat := 80

/-- What a console says about the output that it has stored. -/
structure OutputReport where
  /-- The column asked for by the last move that stored queued cells. It can lie
  past the end of the line, since the cursor is confined only afterwards. -/
  column : Nat := 0
  /-- Whether cells have been stored since the report was last taken. -/
  fresh : Bool := false
deriving DecidableEq, Repr, Inhabited

/-- One logical terminal. -/
structure Console where
  region : Region
  /-- Where the visible window starts. -/
  origin : Nat := region.start
  row : Nat := 0
  /-- The column of the cursor. After the last character of a full line it is the
  number of columns, until the next character starts a line. -/
  col : Nat := 0
  /-- Where the queue will be stored. -/
  cursorAddr : Nat := region.start
  /-- The rendition of the characters to come. -/
  pen : Rendition := Rendition.normal
  /-- The rendition of blanks. -/
  blank : Rendition := Rendition.normal
  queue : List Cell := []
  escape : Escape.State := .ground
  report : OutputReport := {}
deriving DecidableEq, Repr, Inhabited

/-- What a console knows of the display it is drawn on. -/
structure Surface where
  settings : Settings
  kind : DisplayKind
  /-- Whether the display's memory wraps. -/
  wraps : Bool
  /-- The capacity of the display's memory. -/
  capacity : Nat
  /-- Whether this console is the one that is seen, and so drives the registers. -/
  focused : Bool
deriving DecidableEq, Repr, Inhabited

namespace Surface

def columns (s : Surface) : Nat := s.settings.screen.columns

def rows (s : Surface) : Nat := s.settings.screen.rows

def size (s : Surface) : Nat := s.settings.screen.size

end Surface

namespace Console

/-- Puts a character into the queue, in the current rendition. -/
def place (c : Console) (code : UInt8) : Console :=
  { c with queue := c.queue ++ [Cell.ofCode code c.pen], col := c.col + 1 }

/-- The report after being taken: nothing has been stored since. -/
def acknowledge (c : Console) : Console :=
  { c with report := { c.report with fresh := false } }

/-- Back to the renditions that a console starts with. -/
def resetRenditions (c : Console) : Console :=
  { c with pen := Rendition.normal, blank := Rendition.normal }

end Console

end TextConsole
