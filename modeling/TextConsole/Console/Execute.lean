import TextConsole.Console.Editing
import TextConsole.Console.Pen
import TextConsole.Console.Scroll

/-!
# Executing commands

What each command does to a console. The queue is stored first, also for a
sequence that spells no command.
-/

namespace TextConsole.Console

/-- Carries out a command on a console whose queue has been stored. -/
def perform (s : Surface) (c : Console) : Command → Output Console
  | .reverseIndex =>
      if c.row = 0 then c.scroll s .down else c.settle s (c.row - 1 : Int) c.col
  | .cursorUp n => c.settle s (c.row - n : Int) c.col
  | .cursorDown n => c.settle s (c.row + n : Int) c.col
  | .cursorForward n => c.settle s c.row (c.col + n : Int)
  | .cursorBackward n => c.settle s c.row (c.col - n : Int)
  | .cursorPosition row col => c.settle s (row - 1 : Int) (col - 1 : Int)
  | .eraseInDisplay mode => do
      Output.emit (c.eraseInDisplay s mode)
      return c
  | .eraseInLine mode => do
      Output.emit (c.eraseInLine s mode)
      return c
  | .insertLines n => do
      c.insertLines s n
      return c
  | .deleteLines n => do
      c.deleteLines s n
      return c
  | .insertChars n => do
      c.insertChars s n
      return c
  | .deleteChars n => do
      c.deleteChars s n
      return c
  | .changeRendition change => c.changeRendition s change

def execute (s : Surface) (c : Console) (sequence : Escape.Sequence) : Output Console := do
  let c ← c.flush s
  match Command.ofSequence? sequence with
  | none => return c
  | some command => c.perform s command

end TextConsole.Console
