/-!
# Escape sequences

Two shapes of escape sequence are recognised: an escape followed by one byte,
and an escape followed by a bracket, decimal parameters separated by
semicolons, and a final byte that is neither a digit nor a semicolon. A state
machine collects them a byte at a time. It holds what it has seen of the
sequence in progress and nothing of those before it: `State.ground` carries no
data, and parameters start from zero at each bracket.

Two parameters are kept and any further ones dropped. A parameter is the number
its digits write, or `parameterLimit` if that is smaller; with no digits it is
zero.
-/

namespace TextConsole.Escape

/-! ## Sequences -/

/-- What stands between the escape and the rest of a sequence. -/
inductive Introducer where
  | bare
  | bracket
deriving DecidableEq, Repr

/-- A finished sequence. -/
structure Sequence where
  introducer : Introducer
  first : Nat
  second : Nat
  final : UInt8
deriving DecidableEq, Repr

/-- The largest value of a parameter. -/
def parameterLimit : Nat := 0xFFFFFFFF

/-! ## Collecting a sequence -/

/-- Which parameter the next digit belongs to. -/
inductive Slot where
  | first
  | second
  | dropped
deriving DecidableEq, Repr

def Slot.next : Slot → Slot
  | .first => .second
  | .second => .dropped
  | .dropped => .dropped

/-- How much of a sequence has been seen. -/
inductive State where
  /-- Outside any sequence. -/
  | ground
  /-- After the escape. -/
  | afterEscape
  /-- After the escape and bracket, with the parameters so far. -/
  | inBracket (first second : Nat) (slot : Slot)
deriving DecidableEq, Repr, Inhabited

/-- Appends a decimal digit to a parameter, up to the limit. -/
def appendDigit (value digit : Nat) : Nat := min (10 * value + digit) parameterLimit

def digit? (byte : UInt8) : Option Nat :=
  if 0x30 ≤ byte ∧ byte ≤ 0x39 then some (byte.toNat - 0x30) else none

namespace State

def isCollecting : State → Bool
  | ground => false
  | _ => true

/-- A digit of the parameter in progress. -/
def addDigit (first second : Nat) : Slot → Nat → State
  | .first, d => inBracket (appendDigit first d) second .first
  | .second, d => inBracket first (appendDigit second d) .second
  | .dropped, _ => inBracket first second .dropped

/-- Takes the next byte of a sequence. The sequence is returned with the byte
that finishes it, and the state is then `ground`, where bytes have no effect. -/
def advance : State → UInt8 → State × Option Sequence
  | ground, _ => (ground, none)
  | afterEscape, byte =>
      if byte = 0x5B then (inBracket 0 0 .first, none)
      else (ground, some ⟨.bare, 0, 0, byte⟩)
  | inBracket first second slot, byte =>
      match digit? byte with
      | some d => (addDigit first second slot d, none)
      | none =>
          if byte = 0x3B then (inBracket first second slot.next, none)
          else (ground, some ⟨.bracket, first, second, byte⟩)

end State

end TextConsole.Escape
