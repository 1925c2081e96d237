import TextConsole.Console.Execute

/-!
# Input

What a console does with each byte that is sent to it. Nine control codes have
an effect of their own; every other byte is a character to show, unless an
escape sequence is being collected.

A byte at a time leaves characters in the queue. A run of bytes is followed by a
flush, and takes a short way for characters that need no more than a place in
the queue.
-/

namespace TextConsole

/-! ## Control codes -/

/-- The bytes that are not shown. -/
inductive ControlCode where
  | null
  | bell
  | backspace
  | tab
  | lineFeed
  | verticalTab
  | formFeed
  | carriageReturn
  | escape
deriving DecidableEq, Repr

/-- The control code that a byte stands for, if any. -/
def ControlCode.ofByte? (byte : UInt8) : Option ControlCode :=
  match byte.toNat with
  | 0x00 => some null
  | 0x07 => some bell
  | 0x08 => some backspace
  | 0x09 => some tab
  | 0x0A => some lineFeed
  | 0x0B => some verticalTab
  | 0x0C => some formFeed
  | 0x0D => some carriageReturn
  | 0x1B => some escape
  | _ => none

/-- The tab stop after column `col`: the next multiple of the tab width, which
counts in 32 bits with a sign. Where nothing is left of the width, the stop is
column 0, and so it is for a width below zero, whose stop is left of the screen. -/
def Surface.nextTabStop (s : Surface) (col : Nat) : Nat :=
  let width := s.settings.behavior.tabWidth % 0x100000000
  if width < 0x80000000 then (col + width) / width * width else 0

/-- Tab stops only depend on the tab width. -/
theorem Surface.nextTabStop_congr {s s' : Surface}
    (h : s'.settings.behavior.tabWidth = s.settings.behavior.tabWidth) (col : Nat) :
    s'.nextTabStop col = s.nextTabStop col := by
  rw [nextTabStop, nextTabStop, h]

namespace Console

/-! ## Characters -/

def makeRoom (s : Surface) (c : Console) : Output Console :=
  if c.queue.length < queueLimit then return c else c.flush s

/-- Shows a character. One past the end of the line starts the next line, or is
lost if lines do not wrap. -/
def print (s : Surface) (c : Console) (code : UInt8) : Output Console :=
  if c.col < s.columns then do
    let c ← c.makeRoom s
    return c.place code
  else if s.settings.behavior.lineWrap then do
    let c ← c.wrapLine s
    let c ← c.makeRoom s
    return c.place code
  else return c

/-! ## Controls -/

/-- Moves back by one column, or to the end of the row before. -/
def backspace (s : Surface) (c : Console) : Output Console :=
  if 0 < c.col then c.settle s c.row (c.col - 1 : Int)
  else if 0 < c.row then c.settle s (c.row - 1 : Int) (s.columns - 1 : Int)
  else c.flush s

/-- Moves to the next tab stop. One past the end of the line is reached on the
next line, counted on from the start of it. -/
def tabulate (s : Surface) (c : Console) : Output Console :=
  let stop := s.nextTabStop c.col
  if stop ≤ s.columns then c.settle s c.row stop
  else c.lineFeed s (stop - s.columns : Int)

def control (s : Surface) (c : Console) : ControlCode → Output Console
  | .null => return c
  | .bell => do
      let c ← c.flush s
      Output.emitIf (s.settings.behavior.bellEnabled = true) .ring
      return c
  | .backspace => c.backspace s
  | .tab => c.tabulate s
  | .lineFeed => c.lineFeed s (if s.settings.behavior.newlineReturnsCarriage then 0 else c.col)
  | .verticalTab => c.lineFeed s c.col
  | .formFeed => c.lineFeed s c.col
  | .carriageReturn => c.settle s c.row 0
  | .escape => do
      let c ← c.flush s
      return { c with escape := .afterEscape }

/-! ## Bytes and runs of bytes -/

/-- Takes a byte of an escape sequence, and acts on the sequence it finishes. -/
def continueEscape (s : Surface) (c : Console) (byte : UInt8) : Output Console :=
  let (escape, finished) := c.escape.advance byte
  let c := { c with escape := escape }
  match finished with
  | none => return c
  | some sequence => c.execute s sequence

def accept (s : Surface) (c : Console) (byte : UInt8) : Output Console :=
  if c.escape.isCollecting then c.continueEscape s byte
  else
    match ControlCode.ofByte? byte with
    | some code => c.control s code
    | none => c.print s byte

/-- Whether a byte only needs a place in the queue. -/
def IsPlain (s : Surface) (c : Console) (byte : UInt8) : Prop :=
  0x20 ≤ byte ∧ c.escape.isCollecting = false ∧ c.col < s.columns ∧ c.queue.length < queueLimit

instance (s : Surface) (c : Console) (byte : UInt8) : Decidable (c.IsPlain s byte) :=
  inferInstanceAs (Decidable (_ ∧ _))

/-- Takes one byte, by the short way if that is open. -/
def acceptFast (s : Surface) (c : Console) (byte : UInt8) : Output Console :=
  if c.IsPlain s byte then return c.place byte else c.accept s byte

/-- Takes a run of bytes, and then stores the queue. -/
def acceptRun (s : Surface) (c : Console) (bytes : List UInt8) : Output Console := do
  let c ← bytes.foldl (fun out byte => do (← out).acceptFast s byte) (pure c)
  c.flush s

/-- Takes one byte and stores the queue at once. -/
def echo (s : Surface) (c : Console) (byte : UInt8) : Output Console := do
  let c ← c.accept s byte
  c.flush s

end Console

end TextConsole
