import TextConsole.Json.Render
import TextConsole.Seat.Snapshot

/-!
# Printing a screen

A snapshot is printed either as its lines, without the blank space at their
ends, or as a JSON document that holds all of it.
-/

namespace TextConsole

/-- The characters that count as blank space at the end of a line. The codes of
cells go no further than 255, so these are all the ones that a screen can hold. -/
def isBlankSpace (c : Char) : Bool :=
  ('\t' ≤ c && c ≤ '\r') || c = ' ' || c = '\u0085' || c = '\u00a0'

def trimEnd (line : String) : String :=
  String.ofList (line.toList.reverse.dropWhile isBlankSpace).reverse

namespace Snapshot

def toText (s : Snapshot) : String :=
  String.join (s.lines.map fun line => trimEnd line ++ "\n")

def toJson (s : Snapshot) : Json :=
  .ofFields
    [("id", .ofNat s.id),
     ("focused", .bool s.focused),
     ("origin", .ofNat s.origin),
     ("cursor_row", .ofNat s.cursorRow),
     ("cursor_col", .ofNat s.cursorCol),
     ("lines", .arr (s.lines.map .ofString))]

def toDocument (s : Snapshot) : String := s.toJson.render ++ "\n"

end Snapshot

end TextConsole
