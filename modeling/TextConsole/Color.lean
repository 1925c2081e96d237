/-!
# Colours

The eight colours that a program can ask for, and the kinds of display that
show them. A colour sequence numbers the primaries red, green, blue from the
low bit up; the display hardware numbers them blue, green, red. `Color.native`
is the change of order, a bijection between the two numberings.
-/

namespace TextConsole

/-- The colours in the order in which colour sequences number them. -/
inductive Color where
  | black | red | green | yellow | blue | magenta | cyan | white
deriving DecidableEq, Repr, Inhabited

namespace Color

/-- The colour with a given number; there are none past seven. -/
def ofIndex? : Nat → Option Color
  | 0 => some black
  | 1 => some red
  | 2 => some green
  | 3 => some yellow
  | 4 => some blue
  | 5 => some magenta
  | 6 => some cyan
  | 7 => some white
  | _ => none

/-- The value that the hardware draws a colour with: bit 0 is blue, bit 1
green and bit 2 red. -/
def native : Color → UInt8
  | black => 0
  | red => 4
  | green => 2
  | yellow => 6
  | blue => 1
  | magenta => 5
  | cyan => 3
  | white => 7

end Color

/-- Whether a display shows colours, or only intensity, underline and blink. -/
inductive DisplayKind where
  | color
  | mono
deriving DecidableEq, Repr, Inhabited

end TextConsole
