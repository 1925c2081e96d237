import TextConsole.Console.Cursor

/-!
# Scrolling

A screen scrolls by one row at a time. The cheap way is to shift the origin and
leave video memory alone. It is open as long as the window stays inside the
console's region, and always on wrapping memory, where a window may cross the
end. At an end of the region of linear memory the rows that stay visible are
moved to the other end, and the window with them. With software scrolling the
rows are copied within the window and the origin never moves.

Whichever way is taken, the screen shows the same: the kept rows one row further
on, and blanks in the row that has come into view.
-/

namespace TextConsole

inductive Direction where
  | up
  | down
deriving DecidableEq, Repr

inductive ScrollMethod where
  /-- Move the rows within the window. -/
  | copy
  /-- Move the rows, and the window, to the other end of the region. -/
  | relocate
  /-- Move the window over the rows. -/
  | shift
deriving DecidableEq, Repr

namespace Console

/-! ## The plan of a scroll -/

/-- Whether the window is too close to an end of the region to shift by a row.
Scrolling up, it is so already where the next window would end at the limit. -/
def AtEdge (s : Surface) (c : Console) : Direction → Prop
  | .up => c.region.limit ≤ c.origin + s.size + s.columns
  | .down => c.origin < c.region.start + s.columns

instance (s : Surface) (c : Console) (d : Direction) : Decidable (c.AtEdge s d) :=
  match d with
  | .up => inferInstanceAs (Decidable (_ ≤ _))
  | .down => inferInstanceAs (Decidable (_ < _))

def scrollMethod (s : Surface) (c : Console) (d : Direction) : ScrollMethod :=
  if s.settings.behavior.softwareScroll then .copy
  else if s.wraps then .shift
  else if c.AtEdge s d then .relocate
  else .shift

def scrolledOrigin (s : Surface) (c : Console) : Direction → ScrollMethod → Nat
  | _, .copy => c.origin
  | .up, .relocate => c.region.start
  | .up, .shift => (c.origin + s.columns) % s.capacity
  | .down, .relocate => c.region.limit - s.size
  | .down, .shift => (c.origin + s.capacity - s.columns) % s.capacity

/-- The move of the rows that stay visible, to a window that starts at `origin`. -/
def moveKeptRows (s : Surface) (c : Console) (origin : Nat) : Direction → Effect
  | .up => .copy (c.origin + s.columns) origin (s.size - s.columns)
  | .down => .copy c.origin (origin + s.columns) (s.size - s.columns)

/-- The address of the row that has come into view in a window that starts at
`origin`. -/
def exposedRow (s : Surface) (origin : Nat) : Direction → Nat
  | .up => (origin + (s.size - s.columns)) % s.capacity
  | .down => origin

/-! ## Scrolling and line feeds -/

def scroll (s : Surface) (d : Direction) (c : Console) : Output Console := do
  let c ← c.flush s
  let method := c.scrollMethod s d
  let origin := c.scrolledOrigin s d method
  Output.emitIf (method ≠ .shift) (c.moveKeptRows s origin d)
  Output.emit (.fill (exposedRow s origin d) s.columns)
  Output.emitIf (s.focused = true) (.setRegister .origin origin)
  flush s { c with origin := origin }

/-- Moves to column `col` of the next row, and scrolls when there is none. -/
def lineFeed (s : Surface) (c : Console) (col : Int) : Output Console :=
  if c.row + 1 < s.rows then c.settle s (c.row + 1) col
  else do
    let c ← c.settle s c.row col
    c.scroll s .up

/-- Moves to the start of the next row, after the last column of a row. The
screen scrolls first when there is no next row. -/
def wrapLine (s : Surface) (c : Console) : Output Console :=
  if c.row + 1 < s.rows then c.settle s (c.row + 1) 0
  else do
    let c ← c.scroll s .up
    c.settle s c.row 0

/-! ## Going home -/

/-- Moves the window down towards the start of its region, as far at a time as
the display has room outside the window, and gives the origin where it ends. -/
def descend (s : Surface) (start origin : Nat) : Output Nat :=
  let n := min (s.capacity - s.size) (origin - start)
  if n = 0 then return origin
  else do
    Output.emit (.copy origin (origin - n) s.size)
    descend s start (origin - n)
termination_by origin

/-- Moves the window to the start of its region. Wrapping memory takes it there
at once, by way of a temporary. -/
def goHome (s : Surface) (c : Console) : Output Console := do
  if s.wraps then
    Output.emitIf (c.origin ≠ c.region.start) (.copy c.origin c.region.start s.size)
    flush s { c with origin := c.region.start }
  else
    let origin ← descend s c.region.start c.origin
    flush s { c with origin := origin }

end Console

end TextConsole
