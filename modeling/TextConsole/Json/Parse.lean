import TextConsole.Json.Token

/-!
# Parsing JSON

A machine with a stack reads the tokens of a text one by one. The stack holds
the arrays and objects that are still open, so values may be nested to any
depth. `Json.tokens` goes the other way and lists the tokens of a value, of
which there is only one spelling.
-/

namespace TextConsole.Json

/-! ## The tokens of a value -/

mutual

/-- The tokens that write a value. -/
def tokens : Json → List Token
  | null => [.null]
  | bool b => [.bool b]
  | num numeral => [.num numeral]
  | str text => [.str text]
  | arr items => .openArray :: itemTokens items
  | obj members => .openObject :: memberTokens members

def itemTokens : List Json → List Token
  | [] => [.closeArray]
  | v :: rest => tokens v ++ moreItemTokens rest

/-- The tokens after an item of an array. -/
def moreItemTokens : List Json → List Token
  | [] => [.closeArray]
  | v :: rest => .comma :: (tokens v ++ moreItemTokens rest)

def memberTokens : List (Text × Json) → List Token
  | [] => [.closeObject]
  | (key, v) :: rest => .str key :: .colon :: (tokens v ++ moreMemberTokens rest)

def moreMemberTokens : List (Text × Json) → List Token
  | [] => [.closeObject]
  | (key, v) :: rest => .comma :: .str key :: .colon :: (tokens v ++ moreMemberTokens rest)

end

/-! ## The machine -/

/-- An array or object whose next value is being read. What it holds already is
kept with the latest first. -/
inductive Frame where
  | items (done : List Json)
  | member (done : List (Text × Json)) (key : Text)
deriving Inhabited

/-- What has to come next. -/
inductive ParseMode where
  | value
  /-- The first item of an array, or its end. -/
  | firstItem
  /-- The first key of an object, or its end. -/
  | firstKey
  /-- A further key. -/
  | key (done : List (Text × Json))
  | colon (done : List (Text × Json)) (key : Text)
  /-- Something that goes on after a value. -/
  | after (v : Json)
deriving Inhabited

/-- The machine: what is open, innermost first, and what has to come next. -/
structure Parser where
  stack : List Frame := []
  mode : ParseMode := .value
deriving Inhabited

namespace Parser

def begin (stack : List Frame) : Token → Option Parser
  | .null => some ⟨stack, .after Json.null⟩
  | .bool b => some ⟨stack, .after (Json.bool b)⟩
  | .num numeral => some ⟨stack, .after (Json.num numeral)⟩
  | .str text => some ⟨stack, .after (Json.str text)⟩
  | .openArray => some ⟨stack, .firstItem⟩
  | .openObject => some ⟨stack, .firstKey⟩
  | _ => none

def next (v : Json) : List Frame → Token → Option Parser
  | .items done :: stack, .comma => some ⟨.items (v :: done) :: stack, .value⟩
  | .items done :: stack, .closeArray => some ⟨stack, .after (arr (v :: done).reverse)⟩
  | .member done key :: stack, .comma => some ⟨stack, .key ((key, v) :: done)⟩
  | .member done key :: stack, .closeObject =>
      some ⟨stack, .after (obj ((key, v) :: done).reverse)⟩
  | _, _ => none

def step (p : Parser) (t : Token) : Option Parser :=
  match p.mode, t with
  | .value, t => begin p.stack t
  | .firstItem, .closeArray => some ⟨p.stack, .after (arr [])⟩
  | .firstItem, t => begin (.items [] :: p.stack) t
  | .firstKey, .closeObject => some ⟨p.stack, .after (obj [])⟩
  | .firstKey, .str key => some ⟨p.stack, .colon [] key⟩
  | .firstKey, _ => none
  | .key done, .str key => some ⟨p.stack, .colon done key⟩
  | .key _, _ => none
  | .colon done key, .colon => some ⟨.member done key :: p.stack, .value⟩
  | .colon _ _, _ => none
  | .after v, t => next v p.stack t

/-- The value at the end of a text, if nothing is left open. -/
def finish? (p : Parser) : Option Json :=
  match p.mode, p.stack with
  | .after v, [] => some v
  | _, _ => none

end Parser

def ofTokens? (ts : List Token) : Option Json := do
  let p ← ts.foldlM Parser.step {}
  p.finish?

def parse? (text : String) : Option Json := do
  let ts ← tokens? text.toList
  ofTokens? ts

end TextConsole.Json
