/-!
# JSON values

A value is kept as its text says it, without a choice among the fields of an
object or a reading of the numerals: fields stay in order and may repeat a key,
and a number is the numeral that writes it. So every text of the grammar has a
value, numbers beyond any machine type included.

A JSON string can spell a lone half of a surrogate pair, which no text contains.
Such a string has no text; it is a value like any other, and of no use.
-/

namespace TextConsole

/-- The text of a JSON string, if what it spells is a text. -/
abbrev Json.Text := Option String

/-- A JSON value. -/
inductive Json where
  | null
  | bool (value : Bool)
  | num (numeral : String)
  | str (text : Json.Text)
  | arr (items : List Json)
  | obj (members : List (Json.Text × Json))
deriving Repr, Inhabited

namespace Json

/-- A number that is written as its decimal digits. -/
def ofNat (n : Nat) : Json := num (String.ofList (Nat.toDigits 10 n))

/-- A string with a given text. -/
def ofString (s : String) : Json := str (some s)

/-- An object whose keys are given by their texts. -/
def ofFields (fields : List (String × Json)) : Json :=
  obj (fields.map fun f => (some f.1, f.2))

/-! ## Numerals -/

/-- Whether a text is a run of digits, at least one. -/
def isDigits (cs : List Char) : Bool := !cs.isEmpty && cs.all Char.isDigit

/-- Whether a text is an exponent after its letter: digits, perhaps signed. -/
def isExponent : List Char → Bool
  | '+' :: cs => isDigits cs
  | '-' :: cs => isDigits cs
  | cs => isDigits cs

/-- Whether a text may follow the fraction of a numeral, or stand in for it. -/
def isExponentPart : List Char → Bool
  | [] => true
  | 'e' :: cs => isExponent cs
  | 'E' :: cs => isExponent cs
  | _ => false

/-- Whether a text may follow the integer of a numeral. -/
def isFractionPart : List Char → Bool
  | '.' :: cs => isDigits (cs.takeWhile Char.isDigit) && isExponentPart (cs.dropWhile Char.isDigit)
  | cs => isExponentPart cs

/-- Whether a text is a numeral without a sign. Only the numeral zero has an
integer that starts with a zero. -/
def isUnsigned : List Char → Bool
  | [] => false
  | '0' :: cs => isFractionPart cs
  | c :: cs => c.isDigit && isFractionPart (cs.dropWhile Char.isDigit)

def isNumeral : List Char → Bool
  | '-' :: cs => isUnsigned cs
  | cs => isUnsigned cs

/-- The bound of the natural numbers that a value is read as. -/
def naturalLimit : Nat := 0x10000000000000000

/-- The natural number below the limit that a value writes with digits only. A
sign, a fraction or an exponent is not accepted, even if its value is none. -/
def natural? : Json → Option Nat
  | num numeral =>
      let n := Nat.ofDigitChars 10 numeral.toList 0
      if isDigits numeral.toList ∧ n < naturalLimit then some n else none
  | _ => none

def bool? : Json → Option Bool
  | bool b => some b
  | _ => none

end Json

end TextConsole
