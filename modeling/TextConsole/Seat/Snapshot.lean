import TextConsole.Seat.Operation

/-!
# What a seat shows

The rows of a console's window as they stand in video memory, and a snapshot of
a whole console: its rows as text, with the state of its cursor. Characters in
the queue are not visible yet.
-/

namespace TextConsole

/-- A console's visible window. -/
structure Snapshot where
  id : Nat
  focused : Bool
  origin : Nat
  cursorRow : Nat
  cursorCol : Nat
  /-- The rows as text, one character for each cell. -/
  lines : List String
deriving DecidableEq, Repr, Inhabited

namespace Console

def windowRow (c : Console) (memory : VideoMemory) (columns row : Nat) : List Cell :=
  memory.read (c.origin + row * columns) columns

end Console

namespace Seat

/-- The cells of a row of a console's window, if there is such a console. -/
def windowRow? (s : Seat) (id row : Nat) : Option (List Cell) :=
  s.consoles[id]?.map fun c =>
    c.windowRow (s.displayOf c).memory s.settings.screen.columns row

/-- The rows of a console's window, from the top. -/
def rows? (s : Seat) (id : Nat) : Option (List (List Cell)) :=
  s.consoles[id]?.map fun c =>
    (List.range s.settings.screen.rows).map
      (c.windowRow (s.displayOf c).memory s.settings.screen.columns)

def textOf (row : List Cell) : String := String.ofList (row.map Cell.char)

/-- A snapshot of a console, if there is such a console. -/
def snapshot? (s : Seat) (id : Nat) : Option Snapshot :=
  s.consoles[id]?.map fun c =>
    { id := id
      focused := id = s.focused
      origin := c.origin
      cursorRow := c.row
      cursorCol := c.col
      lines := ((s.rows? id).getD []).map textOf }

end Seat

end TextConsole
