import TextConsole.Cell

/-!
# Video memory

A display's memory is an array of cells, addressed by word, together with the
rendition that its blanks are drawn in. Memory of either sort reads a single
cell at any address, taken modulo the capacity. They differ in how they treat a
run of consecutive addresses: *wrapping* memory takes every address of the run
modulo the capacity, so a run may cross the end and even overtake itself, while
*linear* memory holds only the runs that lie inside it (`VideoMemory.Fits`) and
ignores a store to any other.

A move between overlapping runs behaves as if through a temporary. Wrapping
memory does use one, since both runs may cross the end; linear memory moves in
place, starting from the end of the run that is not overwritten first.
-/

namespace TextConsole

/-- A display's memory and the rendition of its blanks. -/
structure VideoMemory where
  cells : Array Cell
  wraps : Bool
  blank : Rendition := Rendition.normal
deriving DecidableEq, Repr, Inhabited

namespace VideoMemory

def ofCapacity (capacity : Nat) (wraps : Bool) : VideoMemory where
  cells := Array.replicate capacity default
  wraps := wraps

def capacity (m : VideoMemory) : Nat := m.cells.size

/-- The cell at an address, taken modulo the capacity. -/
def cell (m : VideoMemory) (addr : Nat) : Cell :=
  m.cells.getD (addr % m.capacity) default

/-- The cell that blanks are stored as. -/
def blankCell (m : VideoMemory) : Cell := Cell.blank m.blank

/-- Whether the memory holds a run of `len` cells from `addr` on. -/
def Fits (m : VideoMemory) (addr len : Nat) : Prop :=
  m.wraps = true ∨ addr + len ≤ m.capacity

instance (m : VideoMemory) (addr len : Nat) : Decidable (m.Fits addr len) :=
  inferInstanceAs (Decidable (_ ∨ _))

/-! ## Runs of cells -/

def read (m : VideoMemory) (addr len : Nat) : List Cell :=
  if m.wraps then (List.range len).map fun i => m.cell (addr + i)
  else (m.cells.extract addr (addr + len)).toList

/-- Stores a run at consecutive addresses, each modulo the size. -/
def storeAround (cells : Array Cell) (dest : Nat) : List Cell → Array Cell
  | [] => cells
  | c :: run => storeAround (cells.setIfInBounds (dest % cells.size) c) (dest + 1) run

def storeAt (cells : Array Cell) (dest : Nat) : List Cell → Array Cell
  | [] => cells
  | c :: run => storeAt (cells.setIfInBounds dest c) (dest + 1) run

def write (m : VideoMemory) (dest : Nat) (run : List Cell) : VideoMemory :=
  if m.wraps then { m with cells := storeAround m.cells dest run }
  else if dest + run.length ≤ m.capacity then { m with cells := storeAt m.cells dest run }
  else m

def fill (m : VideoMemory) (dest len : Nat) : VideoMemory :=
  m.write dest (List.replicate len m.blankCell)

/-! ## Moves -/

/-- Moves `len` cells in place, lowest address first: right when the
destination does not lie above the source. -/
def moveAscending (cells : Array Cell) (src dest : Nat) : Nat → Array Cell
  | 0 => cells
  | len + 1 =>
      moveAscending (cells.setIfInBounds dest (cells.getD src default)) (src + 1) (dest + 1) len

/-- Moves `len` cells in place, highest address first: right when the
destination lies above the source. -/
def moveDescending (cells : Array Cell) (src dest : Nat) : Nat → Array Cell
  | 0 => cells
  | len + 1 =>
      moveDescending (cells.setIfInBounds (dest + len) (cells.getD (src + len) default))
        src dest len

/-- Moves `len` cells from `src` on to `dest` on. An empty move does nothing,
wherever it points. -/
def copy (m : VideoMemory) (src dest len : Nat) : VideoMemory :=
  if len = 0 then m
  else if m.wraps then m.write dest (m.read src len)
  else if src + len ≤ m.capacity ∧ dest + len ≤ m.capacity then
    { m with
      cells :=
        if dest ≤ src then moveAscending m.cells src dest len
        else moveDescending m.cells src dest len }
  else m

/-! ## What every operation keeps -/

@[simp] theorem capacity_ofCapacity (n : Nat) (w : Bool) : (ofCapacity n w).capacity = n := by
  simp [ofCapacity, capacity]

@[simp] theorem size_storeAround (cells : Array Cell) (dest : Nat) (run : List Cell) :
    (storeAround cells dest run).size = cells.size := by
  induction run generalizing cells dest with
  | nil => rfl
  | cons c run ih => simp [storeAround, ih]

@[simp] theorem size_storeAt (cells : Array Cell) (dest : Nat) (run : List Cell) :
    (storeAt cells dest run).size = cells.size := by
  induction run generalizing cells dest with
  | nil => rfl
  | cons c run ih => simp [storeAt, ih]

@[simp] theorem size_moveAscending (cells : Array Cell) (src dest len : Nat) :
    (moveAscending cells src dest len).size = cells.size := by
  induction len generalizing cells src dest with
  | zero => rfl
  | succ len ih => simp [moveAscending, ih]

@[simp] theorem size_moveDescending (cells : Array Cell) (src dest len : Nat) :
    (moveDescending cells src dest len).size = cells.size := by
  induction len generalizing cells with
  | zero => rfl
  | succ len ih => simp [moveDescending, ih]

@[simp] theorem capacity_write (m : VideoMemory) (dest : Nat) (run : List Cell) :
    (m.write dest run).capacity = m.capacity := by
  unfold write
  split
  · simp [capacity]
  · split <;> simp [capacity]

@[simp] theorem capacity_fill (m : VideoMemory) (dest len : Nat) :
    (m.fill dest len).capacity = m.capacity := capacity_write ..

@[simp] theorem capacity_copy (m : VideoMemory) (src dest len : Nat) :
    (m.copy src dest len).capacity = m.capacity := by
  unfold copy
  split
  · rfl
  · split
    · exact capacity_write ..
    · split
      · simp only [capacity]; split <;> simp
      · rfl

@[simp] theorem wraps_write (m : VideoMemory) (dest : Nat) (run : List Cell) :
    (m.write dest run).wraps = m.wraps := by
  unfold write
  split
  · rfl
  · split <;> rfl

@[simp] theorem blank_write (m : VideoMemory) (dest : Nat) (run : List Cell) :
    (m.write dest run).blank = m.blank := by
  unfold write
  split
  · rfl
  · split <;> rfl

@[simp] theorem wraps_copy (m : VideoMemory) (src dest len : Nat) :
    (m.copy src dest len).wraps = m.wraps := by
  unfold copy
  split
  · rfl
  · split
    · exact wraps_write ..
    · split <;> rfl

@[simp] theorem blank_copy (m : VideoMemory) (src dest len : Nat) :
    (m.copy src dest len).blank = m.blank := by
  unfold copy
  split
  · rfl
  · split
    · exact blank_write ..
    · split <;> rfl

end VideoMemory

end TextConsole
