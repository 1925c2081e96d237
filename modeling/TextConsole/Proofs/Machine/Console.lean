import TextConsole.Console.Input

/-!
# Consoles on machine words

The computations of a console as a machine carries them out. A row and a column are
signed numbers of 32 bits, which leave the screen in the middle of a computation and are
confined by the next flush; an address or a size is a number of 64 bits. Nothing is cut
off here: a difference below zero, a sum or a product past the end of its range, and
bounds in the wrong order stop the machine, and there is no result. A loop that does
not end has no result either. Each computation has the name that it has in `Console`.
-/

namespace TextConsole

/-! ## Computations that may stop -/

/-- The outcome of a computation, if every number on the way stays in its range. -/
def Checked (α : Type) : Type := Option (Output α)

namespace Checked

variable {α β : Type}

/-- Does both, if neither stops. -/
def andThen (x : Checked α) (f : α → Checked β) : Checked β :=
  match x with
  | none => none
  | some out =>
      match f out.value with
      | none => none
      | some rest => some ⟨rest.value, out.effects ++ rest.effects⟩

instance : Monad Checked where
  pure a := some (pure a)
  bind := andThen

/-- The machine stops. -/
def stop : Checked α := none

def emit (e : Effect) : Checked Unit := some (Output.emit e)

def emitIf (p : Prop) [Decidable p] (e : Effect) : Checked Unit := some (Output.emitIf p e)

/-! ## Addresses and sizes -/

/-- A sum of 64 bits. -/
def add (a b : Nat) : Checked Nat := if a + b < sizeLimit then pure (a + b) else stop

def mul (a b : Nat) : Checked Nat := if a * b < sizeLimit then pure (a * b) else stop

/-- A difference that is not below zero. -/
def sub (a b : Nat) : Checked Nat := if b ≤ a then pure (a - b) else stop

/-! ## Rows and columns -/

/-- Whether a number has 32 bits with its sign. -/
def InRange (x : Int) : Prop := -0x80000000 ≤ x ∧ x < 0x80000000

instance (x : Int) : Decidable (InRange x) := inferInstanceAs (Decidable (_ ∧ _))

/-- A sum of 32 bits. -/
def addInt (x y : Int) : Checked Int := if InRange (x + y) then pure (x + y) else stop

/-- A difference of 32 bits. -/
def subInt (x y : Int) : Checked Int := if InRange (x - y) then pure (x - y) else stop

/-- The number nearest to `x` between two bounds, which have to be in order. -/
def clamp (x low high : Int) : Checked Int :=
  if low ≤ high then pure (max low (min x high)) else stop

end Checked

/-- The low 32 bits of a size, read with a sign. -/
def signedWord (n : Nat) : Int := (n : Int).bmod 0x100000000

/-- A signed number as one of 64 bits, with its sign carried into the high bits. -/
def unsignedWord (x : Int) : Nat := (x % sizeLimit).toNat

/-- The number of 32 bits nearest to `x`. -/
def saturated (x : Int) : Int := max (-0x80000000) (min x 0x7FFFFFFF)

/-- A count as a signed number of 32 bits, the largest one if it is too large. -/
def signedCount (n : Nat) : Int := min n 0x7FFFFFFF

/-- The bits of `x` that are not bits of `y`. -/
def clearBits (x y : Int) : Int := (BitVec.ofInt 32 x &&& ~~~ BitVec.ofInt 32 y).toInt

/-! ## Consoles -/

/-- A console in the middle of a computation, where its cursor may be anywhere. -/
structure RawConsole where
  region : Region
  origin : Nat
  row : Int
  col : Int
  cursorAddr : Nat
  pen : Rendition
  blank : Rendition
  queue : List Cell
  escape : Escape.State
  report : OutputReport

/-- A console at rest, as the machine finds it. -/
def Console.raw (c : Console) : RawConsole where
  region := c.region
  origin := c.origin
  row := c.row
  col := c.col
  cursorAddr := c.cursorAddr
  pen := c.pen
  blank := c.blank
  queue := c.queue
  escape := c.escape
  report := c.report

namespace RawConsole

open Checked

/-- A console at rest again, with its cursor not left of or above the screen. -/
def rest? (r : RawConsole) : Option Console :=
  if 0 ≤ r.row ∧ 0 ≤ r.col then
    some
      { region := r.region
        origin := r.origin
        row := r.row.toNat
        col := r.col.toNat
        cursorAddr := r.cursorAddr
        pen := r.pen
        blank := r.blank
        queue := r.queue
        escape := r.escape
        report := r.report }
  else none

variable (s : Surface) (r : RawConsole)

/-! ## Flushing -/

def storeQueue : Checked RawConsole :=
  if r.queue = [] then pure r
  else do
    emit (.write r.cursorAddr r.queue)
    return { r with queue := [], report := ⟨r.col.toNat, true⟩ }

def confine : Checked RawConsole := do
  let col ← clamp r.col 0 (signedWord s.columns)
  let last ← subInt (signedWord s.rows) 1
  let row ← clamp r.row 0 last
  return { r with row := row, col := col }

def placeCursor : Checked RawConsole := do
  let offset ← mul (unsignedWord r.row) s.columns
  let line ← add r.origin offset
  let addr ← add line (unsignedWord r.col)
  emitIf (s.focused = true ∧ addr ≠ r.cursorAddr) (.setRegister .cursor addr)
  return { r with cursorAddr := addr }

def flush : Checked RawConsole := do
  let r ← r.storeQueue
  let r ← r.confine s
  r.placeCursor s

/-! ## Scrolling -/

def atEdge : Direction → Checked Bool
  | .up => do
      let size ← mul s.columns s.rows
      let limit ← add r.origin size
      let limit ← add limit s.columns
      return decide (r.region.limit ≤ limit)
  | .down => do
      let start ← add r.region.start s.columns
      return decide (r.origin < start)

def scrollMethod (d : Direction) : Checked ScrollMethod :=
  if s.settings.behavior.softwareScroll then pure .copy
  else if s.wraps then pure .shift
  else do
    let edge ← r.atEdge s d
    return if edge then .relocate else .shift

/-- Moves the kept rows up, or the window over them, and gives the new origin. -/
def moveUp (kept mask : Nat) (method : ScrollMethod) : Checked Nat := do
  let next ← add r.origin s.columns
  match method with
  | .copy => do
      emit (.copy next r.origin kept)
      return r.origin
  | .relocate => do
      emit (.copy next r.region.start kept)
      return r.region.start
  | .shift => return next &&& mask

/-- Moves the kept rows down, or the window over them, and gives the new origin. The
difference of a shift goes around the end of 64 bits. -/
def moveDown (size kept mask : Nat) (method : ScrollMethod) : Checked Nat :=
  match method with
  | .copy => do
      let dest ← add r.origin s.columns
      emit (.copy r.origin dest kept)
      return r.origin
  | .relocate => do
      let origin ← sub r.region.limit size
      let dest ← add origin s.columns
      emit (.copy r.origin dest kept)
      return origin
  | .shift => return (r.origin + sizeLimit - s.columns) % sizeLimit &&& mask

/-- Scrolls a console whose queue has been stored. -/
def scrollWindow (d : Direction) : Checked RawConsole := do
  let size ← mul s.columns s.rows
  let kept ← sub size s.columns
  let mask ← sub s.capacity 1
  let method ← r.scrollMethod s d
  match d with
  | .up => do
      let origin ← r.moveUp s kept mask method
      let exposed ← add origin kept
      emit (.fill (exposed &&& mask) s.columns)
      emitIf (s.focused = true) (.setRegister .origin origin)
      flush s { r with origin := origin }
  | .down => do
      let origin ← r.moveDown s size kept mask method
      emit (.fill origin s.columns)
      emitIf (s.focused = true) (.setRegister .origin origin)
      flush s { r with origin := origin }

def scroll (d : Direction) : Checked RawConsole := do
  let r ← r.flush s
  r.scrollWindow s d

def lineFeed : Checked RawConsole := do
  let last ← subInt (signedWord s.rows) 1
  if last ≤ r.row then r.scroll s .up
  else do
    let row ← addInt r.row 1
    return { r with row := row }

/-! ## Characters and controls -/

def place (code : UInt8) : Checked RawConsole := do
  let col ← addInt r.col 1
  return { r with queue := r.queue ++ [Cell.ofCode code r.pen], col := col }

def enqueue (code : UInt8) : Checked RawConsole := do
  let r ← if queueLimit ≤ r.queue.length then r.flush s else pure r
  r.place code

def print (code : UInt8) : Checked RawConsole :=
  if signedWord s.columns ≤ r.col then
    if s.settings.behavior.lineWrap then do
      let r ← r.lineFeed s
      let r ← flush s { r with col := 0 }
      r.enqueue s code
    else pure r
  else r.enqueue s code

def backspace : Checked RawConsole := do
  let col ← subInt r.col 1
  if col < 0 then do
    let row ← subInt r.row 1
    -- Above the first row the cursor stays off the screen until the flush.
    let col ← if 0 ≤ row then addInt col (signedWord s.columns) else pure col
    flush s { r with row := row, col := col }
  else flush s { r with col := col }

def moveToStop (stop : Int) : Checked RawConsole :=
  if signedWord s.columns < stop then do
    let col ← subInt stop (signedWord s.columns)
    let r ← lineFeed s { r with col := col }
    r.flush s
  else flush s { r with col := stop }

def tabulate : Checked RawConsole := do
  let width := signedWord s.settings.behavior.tabWidth
  let next ← addInt r.col width
  -- The bits below those of the width, which is a power of two.
  let low ← subInt width 1
  r.moveToStop s (clearBits next low)

/-- A tab where the words of its stop are not checked, and go around the end of their range. -/
def tabulateAround : Checked RawConsole :=
  let width := signedWord s.settings.behavior.tabWidth
  r.moveToStop s (clearBits (r.col + width) (width - 1))

def control : ControlCode → Checked RawConsole
  | .null => pure r
  | .bell => do
      let r ← r.flush s
      emitIf (s.settings.behavior.bellEnabled = true) .ring
      return r
  | .backspace => r.backspace s
  | .tab => r.tabulate s
  | .lineFeed => do
      let r ← lineFeed s
        (if s.settings.behavior.newlineReturnsCarriage then { r with col := 0 } else r)
      r.flush s
  | .verticalTab => do
      let r ← r.lineFeed s
      r.flush s
  | .formFeed => do
      let r ← r.lineFeed s
      r.flush s
  | .carriageReturn => flush s { r with col := 0 }
  | .escape => do
      let r ← r.flush s
      return { r with escape := .afterEscape }

/-! ## Commands -/

def eraseInDisplay (mode : EraseMode) : Checked RawConsole := do
  let size ← mul s.columns s.rows
  let line ← mul r.row.toNat s.columns
  let offset ← add line r.col.toNat
  match mode with
  | .toEnd => do
      let len ← sub size offset
      emit (.fill r.cursorAddr len)
      return r
  | .toCursor => do
      emit (.fill r.origin offset)
      return r
  | .all => do
      emit (.fill r.origin size)
      return r

def eraseInLine (mode : EraseMode) : Checked RawConsole := do
  let line ← sub r.cursorAddr r.col.toNat
  match mode with
  | .toEnd => do
      let len ← sub s.columns r.col.toNat
      emit (.fill r.cursorAddr len)
      return r
  | .toCursor => do
      emit (.fill line r.col.toNat)
      return r
  | .all => do
      emit (.fill line s.columns)
      return r

/-- The parts of an insertion or deletion of lines: where the cursor's row starts, the
words of the lines asked for, and those of the lines that move. -/
def lineParts (count : Nat) : Checked (Nat × Nat × Nat) := do
  let rows ← sub s.rows r.row.toNat
  let n := min count rows
  let offset ← mul r.row.toNat s.columns
  let top ← add r.origin offset
  let gap ← mul n s.columns
  let moved ← sub rows n
  let kept ← mul moved s.columns
  return (top, gap, kept)

def insertLines (count : Nat) : Checked RawConsole := do
  let (top, gap, kept) ← r.lineParts s count
  let dest ← add top gap
  emit (.copy top dest kept)
  emit (.fill top gap)
  return r

def deleteLines (count : Nat) : Checked RawConsole := do
  let (top, gap, kept) ← r.lineParts s count
  let src ← add top gap
  emit (.copy src top kept)
  let bottom ← add top kept
  emit (.fill bottom gap)
  return r

/-- The cells asked for and those that move, of an insertion or deletion in a row. -/
def charParts (count : Nat) : Checked (Nat × Nat) := do
  let columns ← sub s.columns r.col.toNat
  let n := min count columns
  let kept ← sub columns n
  return (n, kept)

def insertChars (count : Nat) : Checked RawConsole := do
  let (n, kept) ← r.charParts s count
  let dest ← add r.cursorAddr n
  emit (.copy r.cursorAddr dest kept)
  emit (.fill r.cursorAddr n)
  return r

def deleteChars (count : Nat) : Checked RawConsole := do
  let (n, kept) ← r.charParts s count
  let src ← add r.cursorAddr n
  emit (.copy src r.cursorAddr kept)
  let right ← add r.cursorAddr kept
  emit (.fill right n)
  return r

def changeRendition (change : RenditionChange) : Checked RawConsole :=
  let inked := { r with pen := change.pen s.kind r.blank r.pen }
  match change.blank? r.blank with
  | none => pure inked
  | some blank => do
      emit (.setBlank blank)
      return { inked with blank := blank }

def perform : Command → Checked RawConsole
  | .reverseIndex => do
      let r ←
        if r.row = 0 then r.scroll s .down
        else do
          let row ← subInt r.row 1
          pure { r with row := row }
      r.flush s
  | .cursorUp n => flush s { r with row := saturated (r.row - signedCount n) }
  | .cursorDown n => flush s { r with row := saturated (r.row + signedCount n) }
  | .cursorForward n => flush s { r with col := saturated (r.col + signedCount n) }
  | .cursorBackward n => flush s { r with col := saturated (r.col - signedCount n) }
  | .cursorPosition row col => do
      let row ← subInt (signedCount row) 1
      let col ← subInt (signedCount col) 1
      flush s { r with row := row, col := col }
  | .eraseInDisplay mode => r.eraseInDisplay s mode
  | .eraseInLine mode => r.eraseInLine s mode
  | .insertLines n => r.insertLines s n
  | .deleteLines n => r.deleteLines s n
  | .insertChars n => r.insertChars s n
  | .deleteChars n => r.deleteChars s n
  | .changeRendition change => r.changeRendition s change

def execute (sequence : Escape.Sequence) : Checked RawConsole := do
  let r ← r.flush s
  match Command.ofSequence? sequence with
  | none => return r
  | some command => r.perform s command

/-! ## Bytes and runs of bytes -/

def accept (byte : UInt8) : Checked RawConsole :=
  if r.escape.isCollecting then
    match r.escape.advance byte with
    | (escape, none) => pure { r with escape := escape }
    | (escape, some sequence) => execute s { r with escape := escape } sequence
  else
    match ControlCode.ofByte? byte with
    | some code => r.control s code
    | none => r.print s byte

def acceptFast (byte : UInt8) : Checked RawConsole :=
  if byte < 0x20 ∨ r.escape.isCollecting = true ∨ signedWord s.columns ≤ r.col ∨
      queueLimit ≤ r.queue.length then
    r.accept s byte
  else r.place byte

def acceptRun (bytes : List UInt8) : Checked RawConsole := do
  let r ← bytes.foldl (fun out byte => do (← out).acceptFast s byte) (pure r)
  r.flush s

def echo (byte : UInt8) : Checked RawConsole := do
  let r ← r.accept s byte
  r.flush s

/-! ## Other computations -/

def acknowledge : Checked RawConsole := pure { r with report := { r.report with fresh := false } }

def loadRegisters : Checked RawConsole := do
  emit (.setRegister .origin r.origin)
  emit (.setRegister .cursor r.cursorAddr)
  return r

def clearWindow : Checked RawConsole := do
  let size ← mul s.columns s.rows
  emit (.fill r.origin size)
  return r

/-- Moves a window once towards the start of its region, by as much as there is room for
outside of the window. -/
def descendOnce (start origin : Nat) : Checked Nat := do
  let size ← mul s.columns s.rows
  let unused ← sub s.capacity size
  let gap ← sub origin start
  let next ← sub origin (min unused gap)
  emit (.copy origin next size)
  return next

/-- Moves a window to the start of its region, in as many rounds as that takes. A round
that leaves the window where it is would be followed by the same round, for ever, and so
there is no result. -/
def descend (start origin : Nat) : Checked Nat :=
  if start < origin then do
    let next ← descendOnce s start origin
    if next < origin then descend start next else stop
  else pure origin
termination_by origin

def goHome : Checked RawConsole := do
  let size ← mul s.columns s.rows
  if s.wraps then
    emitIf (r.origin ≠ r.region.start) (.copy r.origin r.region.start size)
    flush s { r with origin := r.region.start }
  else
    let origin ← descend s r.region.start r.origin
    flush s { r with origin := origin }

end RawConsole

end TextConsole
