import TextConsole.Rendition

/-!
# Cells

A cell is one word of video memory: a character code in the low byte and a
rendition in the high byte.
-/

namespace TextConsole

/-- One word of video memory. -/
structure Cell where
  word : UInt16
deriving DecidableEq, Repr

namespace Cell

/-- The character code of a blank cell, a space. -/
def blankCode : UInt8 := 0x20

/-- The cell that draws character `code` in rendition `r`. -/
def ofCode (code : UInt8) (r : Rendition) : Cell :=
  ⟨r.bits ||| code.toUInt16⟩

def blank (r : Rendition) : Cell := ofCode blankCode r

instance : Inhabited Cell := ⟨blank Rendition.normal⟩

def code (c : Cell) : UInt8 := c.word.toUInt8

def rendition (c : Cell) : Rendition := ⟨c.word &&& 0xFF00⟩

/-- Whether a cell shows a space, whatever its rendition. -/
def isBlank (c : Cell) : Bool := c.code == blankCode

/-- The character that a cell shows: the code read as a code point. -/
def char (c : Cell) : Char := Char.ofNat c.code.toNat

end Cell

end TextConsole
