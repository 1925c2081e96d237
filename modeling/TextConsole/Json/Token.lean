import TextConsole.Json.Basic

/-!
# JSON tokens

A text is cut into tokens by a machine that sees one character at a time.
Outside strings it knows white space, the six punctuation marks, and words: a
word is a longest run of letters, digits, signs and points, and it is a token if
it is one of the three names or a numeral. The grammar puts punctuation between
any two words, so nothing depends on where a run of such characters is cut.

Inside strings, escapes of the form `\uXXXX` are units of sixteen bits, and two
of them that are the halves of a surrogate pair make one character.
-/

namespace TextConsole.Json

/-- A token of a JSON text. -/
inductive Token where
  | openObject
  | closeObject
  | openArray
  | closeArray
  | colon
  | comma
  | null
  | bool (value : Bool)
  | num (numeral : String)
  | str (text : Text)
deriving DecidableEq, Repr

/-! ## Strings -/

/-- What a string is made of: characters, and units that are written as
escapes of four hexadecimal digits. -/
inductive Piece where
  | char (c : Char)
  | unit (code : Nat)
deriving DecidableEq, Repr

/-- Whether a unit is the first half of a surrogate pair. -/
def isHighSurrogate (code : Nat) : Bool := 0xD800 ≤ code && code < 0xDC00

def isLowSurrogate (code : Nat) : Bool := 0xDC00 ≤ code && code < 0xE000

def joinSurrogates (high low : Nat) : Char :=
  Char.ofNat (0x10000 + (high - 0xD800) * 0x400 + (low - 0xDC00))

/-- The characters that pieces spell, put in front of `after`. The pieces are
given with the latest first. A second half of a pair that does not come directly
after a first half, or a first half by itself, spells none. -/
def spellOnto (after : List Char) : List Piece → Option (List Char)
  | [] => some after
  | .char c :: rest => spellOnto (c :: after) rest
  | .unit code :: rest =>
      if isLowSurrogate code then
        match rest with
        | .unit high :: rest =>
            if isHighSurrogate high then spellOnto (joinSurrogates high code :: after) rest
            else none
        | _ => none
      else if isHighSurrogate code then none
      else spellOnto (Char.ofNat code :: after) rest

/-- The text of a string that is made of given pieces, the latest first. -/
def textOf (read : List Piece) : Text := (spellOnto [] read).map String.ofList

/-- The character that an escape of one letter stands for. -/
def unescape? : Char → Option Char
  | '"' => some '"'
  | '\\' => some '\\'
  | '/' => some '/'
  | 'b' => some '\x08'
  | 'f' => some '\x0C'
  | 'n' => some '\n'
  | 'r' => some '\r'
  | 't' => some '\t'
  | _ => none

def hexDigit? (c : Char) : Option Nat :=
  if c.isDigit then some (c.toNat - '0'.toNat)
  else if 'a' ≤ c ∧ c ≤ 'f' then some (c.toNat - 'a'.toNat + 10)
  else if 'A' ≤ c ∧ c ≤ 'F' then some (c.toNat - 'A'.toNat + 10)
  else none

/-! ## Words and punctuation -/

/-- The characters that separate tokens and mean nothing. -/
def isSpace (c : Char) : Bool := c = ' ' || c = '\t' || c = '\n' || c = '\r'

def isWordChar (c : Char) : Bool := c.isAlphanum || c = '+' || c = '-' || c = '.'

def punctuation? : Char → Option Token
  | '\x7b' => some .openObject
  | '\x7d' => some .closeObject
  | '[' => some .openArray
  | ']' => some .closeArray
  | ':' => some .colon
  | ',' => some .comma
  | _ => none

def word? (w : List Char) : Option Token :=
  if w = "null".toList then some .null
  else if w = "true".toList then some (.bool true)
  else if w = "false".toList then some (.bool false)
  else if isNumeral w then some (.num (String.ofList w))
  else none

/-! ## The machine -/

/-- Where the machine is in a text. What it has read of a word or string is held
with the latest first. -/
inductive LexMode where
  | between
  | word (read : List Char)
  | string (read : List Piece)
  /-- After a backslash. -/
  | escape (read : List Piece)
  /-- In an escape by code, with the digits still to come and the value so far. -/
  | code (read : List Piece) (missing value : Nat)
deriving DecidableEq, Repr

/-- The machine: its place in the text, and the tokens so far, latest first. -/
structure Lexer where
  mode : LexMode := .between
  tokens : List Token := []
deriving DecidableEq, Repr

namespace Lexer

/-- A character at which a token may begin. -/
def begin (tokens : List Token) (c : Char) : Option Lexer :=
  if isSpace c then some ⟨.between, tokens⟩
  else if c = '"' then some ⟨.string [], tokens⟩
  else if isWordChar c then some ⟨.word [c], tokens⟩
  else (punctuation? c).map fun t => ⟨.between, t :: tokens⟩

def insideString (tokens : List Token) (read : List Piece) (c : Char) : Option Lexer :=
  if c = '"' then some ⟨.between, .str (textOf read) :: tokens⟩
  else if c = '\\' then some ⟨.escape read, tokens⟩
  else if c < ' ' then none
  else some ⟨.string (.char c :: read), tokens⟩

/-- The character after a backslash. -/
def afterBackslash (tokens : List Token) (read : List Piece) (c : Char) : Option Lexer :=
  if c = 'u' then some ⟨.code read 4 0, tokens⟩
  else (unescape? c).map fun d => ⟨.string (.char d :: read), tokens⟩

/-- A digit of an escape by code; the last one finishes the unit. -/
def insideCode (tokens : List Token) (read : List Piece) (missing value : Nat) (c : Char) :
    Option Lexer :=
  (hexDigit? c).map fun d =>
    let value := 16 * value + d
    if missing ≤ 1 then ⟨.string (.unit value :: read), tokens⟩
    else ⟨.code read (missing - 1) value, tokens⟩

def step (l : Lexer) (c : Char) : Option Lexer :=
  match l.mode with
  | .between => begin l.tokens c
  | .word read =>
      if isWordChar c then some ⟨.word (c :: read), l.tokens⟩
      else do
        let t ← word? read.reverse
        begin (t :: l.tokens) c
  | .string read => insideString l.tokens read c
  | .escape read => afterBackslash l.tokens read c
  | .code read missing value => insideCode l.tokens read missing value c

/-- The tokens at the end of a text. A string has to be closed by then. -/
def finish? (l : Lexer) : Option (List Token) :=
  match l.mode with
  | .between => some l.tokens.reverse
  | .word read => do
      let t ← word? read.reverse
      return (t :: l.tokens).reverse
  | _ => none

end Lexer

def tokens? (text : List Char) : Option (List Token) := do
  let l ← text.foldlM Lexer.step {}
  l.finish?

end TextConsole.Json
