import TextConsole.Color
import TextConsole.Escape

/-!
# Commands

What a finished escape sequence asks of a console. Most commands take the first
parameter of the sequence as a count, and a count is at least one. The position
command keeps both parameters as they stand: they number rows and columns from
one, and the zero of a missing parameter means the same as one once the cursor
is confined to the screen.
-/

namespace TextConsole

/-- Which part of the screen or of a line an erasure covers. -/
inductive EraseMode where
  /-- From the cursor to the end. -/
  | toEnd
  /-- From the start up to the cursor. -/
  | toCursor
  | all
deriving DecidableEq, Repr

def EraseMode.ofValue? : Nat → Option EraseMode
  | 0 => some toEnd
  | 1 => some toCursor
  | 2 => some all
  | _ => none

/-- A change of the rendition of the characters to come. -/
inductive RenditionChange where
  | bold
  | underline
  | blink
  | reverse
  | foreground (color : Color)
  | background (color : Color)
  /-- Back to the rendition of blanks. -/
  | reset
deriving DecidableEq, Repr

namespace RenditionChange

/-- The change that a parameter selects. The decades from 30 and from 40 select
the eight colours, and a value without a meaning of its own resets. -/
def ofValue (value : Nat) : RenditionChange :=
  match value with
  | 1 => bold
  | 4 => underline
  | 5 => blink
  | 7 => reverse
  | _ =>
      if 30 ≤ value ∧ value < 40 then ((Color.ofIndex? (value - 30)).map foreground).getD reset
      else if 40 ≤ value then ((Color.ofIndex? (value - 40)).map background).getD reset
      else reset

end RenditionChange

/-- What a console can be asked to do by an escape sequence. -/
inductive Command where
  | reverseIndex
  | cursorUp (count : Nat)
  | cursorDown (count : Nat)
  | cursorForward (count : Nat)
  | cursorBackward (count : Nat)
  | cursorPosition (row col : Nat)
  | eraseInDisplay (mode : EraseMode)
  | eraseInLine (mode : EraseMode)
  | insertLines (count : Nat)
  | deleteLines (count : Nat)
  | insertChars (count : Nat)
  | deleteChars (count : Nat)
  | changeRendition (change : RenditionChange)
deriving DecidableEq, Repr

namespace Command

def ofBracket? (first second : Nat) (final : Char) : Option Command :=
  let count := max first 1
  match final with
  | 'A' => some (cursorUp count)
  | 'B' => some (cursorDown count)
  | 'C' => some (cursorForward count)
  | 'D' => some (cursorBackward count)
  | 'H' => some (cursorPosition first second)
  | 'J' => (EraseMode.ofValue? first).map eraseInDisplay
  | 'K' => (EraseMode.ofValue? first).map eraseInLine
  | 'L' => some (insertLines count)
  | 'M' => some (deleteLines count)
  | '@' => some (insertChars count)
  | 'P' => some (deleteChars count)
  | 'm' => some (changeRendition (.ofValue first))
  | _ => none

/-- The command that a sequence spells, if it spells one. -/
def ofSequence? (s : Escape.Sequence) : Option Command :=
  let final := Char.ofNat s.final.toNat
  match s.introducer with
  | .bare => if final = 'M' then some reverseIndex else none
  | .bracket => ofBracket? s.first s.second final

end Command

end TextConsole
