import TextConsole.Json.Basic

/-!
# Printing JSON

The indented form: each item of an array and each member of an object stands on
a line of its own, two columns further in than the line that opens it. In
strings only quotes, backslashes and the control characters below the space are
escaped. A string without text is printed as a lone half of a surrogate pair,
which reads back as a string without text.
-/

namespace TextConsole.Json

/-! ## Strings -/

/-- The two hexadecimal digits of a code below 256. -/
def hexPair (n : Nat) : List Char := [Nat.digitChar (n / 16), Nat.digitChar (n % 16)]

/-- A character as it stands in a string. -/
def escapeChar (c : Char) : List Char :=
  if c = '"' then ['\\', '"']
  else if c = '\\' then ['\\', '\\']
  else if c = '\x08' then ['\\', 'b']
  else if c = '\t' then ['\\', 't']
  else if c = '\n' then ['\\', 'n']
  else if c = '\x0C' then ['\\', 'f']
  else if c = '\r' then ['\\', 'r']
  else if c < ' ' then ['\\', 'u', '0', '0'] ++ hexPair c.toNat
  else [c]

def renderText : Text → List Char
  | some s => '"' :: (s.toList.flatMap escapeChar ++ ['"'])
  | none => "\"\\ud800\"".toList

/-! ## Values -/

/-- A new line, and the space before what stands on it. -/
def lineBreak (indent : Nat) : List Char := '\n' :: List.replicate (2 * indent) ' '

mutual

/-- A value that begins on a line of a given indentation. -/
def renderAt (indent : Nat) : Json → List Char
  | null => "null".toList
  | bool true => "true".toList
  | bool false => "false".toList
  | num numeral => numeral.toList
  | str text => renderText text
  | arr items => '[' :: renderItems indent items
  | obj members => '\x7b' :: renderMembers indent members

def renderItems (indent : Nat) : List Json → List Char
  | [] => [']']
  | v :: rest => lineBreak (indent + 1) ++ (renderAt (indent + 1) v ++ renderMoreItems indent rest)

/-- What follows an item of an array. -/
def renderMoreItems (indent : Nat) : List Json → List Char
  | [] => lineBreak indent ++ [']']
  | v :: rest =>
      ',' :: (lineBreak (indent + 1) ++
        (renderAt (indent + 1) v ++ renderMoreItems indent rest))

def renderMembers (indent : Nat) : List (Text × Json) → List Char
  | [] => ['\x7d']
  | (key, v) :: rest =>
      lineBreak (indent + 1) ++
        (renderText key ++ (':' :: ' ' ::
          (renderAt (indent + 1) v ++ renderMoreMembers indent rest)))

def renderMoreMembers (indent : Nat) : List (Text × Json) → List Char
  | [] => lineBreak indent ++ ['\x7d']
  | (key, v) :: rest =>
      ',' :: (lineBreak (indent + 1) ++
        (renderText key ++ (':' :: ' ' ::
          (renderAt (indent + 1) v ++ renderMoreMembers indent rest))))

end

/-- A value in indented form. -/
def render (v : Json) : String := String.ofList (renderAt 0 v)

end TextConsole.Json
