import TextConsole.Console.Basic

/-!
# Moving the cursor

Every move of a console's cursor ends by settling: the queue is stored where it
belongs, the target is confined to the screen, and the cursor register follows.
Targets are integers, so a relative move may be computed without regard to the
edges; the column just past the last one belongs to the screen. Settling where
the cursor already is flushes the queue.
-/

namespace TextConsole

namespace Surface

/-- The row of the screen nearest to `row`. -/
def confineRow (s : Surface) (row : Int) : Nat := (min row (s.rows - 1 : Int)).toNat

/-- The column nearest to `col`, where the column past the last one counts. -/
def confineColumn (s : Surface) (col : Int) : Nat := (min col (s.columns : Int)).toNat

end Surface

namespace Console

def addressOf (s : Surface) (c : Console) (row col : Nat) : Nat :=
  c.origin + row * s.columns + col

/-- The report after a move to column `col`. -/
def reportAt (c : Console) (col : Int) : OutputReport :=
  if c.queue = [] then c.report else ⟨col.toNat, true⟩

/-- Stores the queue and moves the cursor to the cell of the screen nearest to
`row` and `col`. -/
def settle (s : Surface) (c : Console) (row col : Int) : Output Console := do
  let addr := c.addressOf s (s.confineRow row) (s.confineColumn col)
  Output.emitIf (c.queue ≠ []) (.write c.cursorAddr c.queue)
  Output.emitIf (s.focused = true ∧ addr ≠ c.cursorAddr) (.setRegister .cursor addr)
  return { c with
    row := s.confineRow row
    col := s.confineColumn col
    cursorAddr := addr
    queue := []
    report := c.reportAt col }

/-- Stores the queue, with the cursor at rest. -/
def flush (s : Surface) (c : Console) : Output Console :=
  c.settle s c.row c.col

end Console

end TextConsole
