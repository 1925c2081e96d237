import TextConsole.Display

/-!
# The journal

What the shared hardware has been told: every register write in order, how often
the bell was rung, and the fonts that were loaded. A register holds what was
written to it last.
-/

namespace TextConsole

/-- One write to a register of a display. -/
structure RegisterWrite where
  display : Nat
  register : Register
  value : UInt16
deriving DecidableEq, Repr

/-- A font that was loaded into a display. -/
structure InstalledFont where
  display : Nat
  bytes : List UInt8
deriving DecidableEq, Repr

/-- What the hardware has been told. -/
structure Journal where
  writes : Array RegisterWrite := #[]
  bells : Nat := 0
  fonts : Array InstalledFont := #[]
deriving DecidableEq, Repr, Inhabited

namespace Journal

/-- Enters an effect on a display of a given capacity. -/
def record (display capacity : Nat) (j : Journal) : Effect → Journal
  | .setRegister register addr =>
      { j with
        writes := j.writes.push ⟨display, register, Display.registerWord capacity addr⟩ }
  | .ring => { j with bells := j.bells + 1 }
  | .write _ _ => j
  | .fill _ _ => j
  | .copy _ _ _ => j
  | .setBlank _ => j

/-- Enters effects in their order. -/
def recordAll (display capacity : Nat) (j : Journal) (effects : Array Effect) : Journal :=
  effects.foldl (record display capacity) j

/-- What a register holds, if it has been written to. -/
def register? (j : Journal) (display : Nat) (register : Register) : Option UInt16 :=
  (j.writes.findRev? fun w => w.display = display ∧ w.register = register).map (·.value)

/-- Forgets the register writes. -/
def clearWrites (j : Journal) : Journal := { j with writes := #[] }

theorem recordAll_append (display capacity : Nat) (j : Journal) (xs ys : Array Effect) :
    j.recordAll display capacity (xs ++ ys) =
      (j.recordAll display capacity xs).recordAll display capacity ys := by
  simp [recordAll]

end Journal

end TextConsole
