import TextConsole.Command
import TextConsole.Console.Cursor

/-!
# Editing the screen

Commands that blank or move parts of the window around the cursor. The cursor
and the pen stay as they are, so each of these is only a list of effects. They
are for a console whose queue has been stored: its cursor address is then the
address of its row and column.

Counts are cut down to the rows or columns between the cursor and the end, so
a large count leaves blanks only.
-/

namespace TextConsole.Console

/-! ## Erasing -/

def eraseInDisplay (s : Surface) (c : Console) : EraseMode → Effect
  | .toEnd => .fill c.cursorAddr (s.size - (c.row * s.columns + c.col))
  | .toCursor => .fill c.origin (c.row * s.columns + c.col)
  | .all => .fill c.origin s.size

def eraseInLine (s : Surface) (c : Console) : EraseMode → Effect
  | .toEnd => .fill c.cursorAddr (s.columns - c.col)
  | .toCursor => .fill (c.cursorAddr - c.col) c.col
  | .all => .fill (c.cursorAddr - c.col) s.columns

/-! ## Lines -/

/-- Moves the rows from the cursor's on down by `count`, and blanks the rows
that this opens. -/
def insertLines (s : Surface) (c : Console) (count : Nat) : Output Unit := do
  let n := min count (s.rows - c.row)
  let top := c.origin + c.row * s.columns
  Output.emit (.copy top (top + n * s.columns) ((s.rows - c.row - n) * s.columns))
  Output.emit (.fill top (n * s.columns))

/-- Moves the rows below the next `count` up to the cursor's row, and blanks the
last `count` rows. -/
def deleteLines (s : Surface) (c : Console) (count : Nat) : Output Unit := do
  let n := min count (s.rows - c.row)
  let top := c.origin + c.row * s.columns
  let kept := (s.rows - c.row - n) * s.columns
  Output.emit (.copy (top + n * s.columns) top kept)
  Output.emit (.fill (top + kept) (n * s.columns))

/-! ## Characters -/

/-- Moves the rest of the row from the cursor on by `count`, and blanks the
cells that this opens. -/
def insertChars (s : Surface) (c : Console) (count : Nat) : Output Unit := do
  let n := min count (s.columns - c.col)
  Output.emit (.copy c.cursorAddr (c.cursorAddr + n) (s.columns - c.col - n))
  Output.emit (.fill c.cursorAddr n)

/-- Moves the rest of the row past the next `count` cells back to the cursor,
and blanks the last `count` cells. -/
def deleteChars (s : Surface) (c : Console) (count : Nat) : Output Unit := do
  let n := min count (s.columns - c.col)
  let kept := s.columns - c.col - n
  Output.emit (.copy (c.cursorAddr + n) c.cursorAddr kept)
  Output.emit (.fill (c.cursorAddr + kept) n)

end TextConsole.Console
