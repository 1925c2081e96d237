/-!
# Renditions

A rendition says how a character is drawn. It occupies the high byte of a
video memory word, and is kept in that position: bits 8–11 are the foreground
colour and bits 12–15 the background colour. Three single bits have a second
meaning on displays without colour: 11 is intensity, 15 is blink, and 8 an
underline. The low byte is zero in every rendition a console makes, but the
type does not insist on it.
-/

namespace TextConsole

/-- How a character is drawn, in the high byte of a word. -/
structure Rendition where
  bits : UInt16
deriving DecidableEq, Repr

namespace Rendition

/-! ## The nibbles -/

def foregroundMask : UInt16 := 0x0F00

def backgroundMask : UInt16 := 0xF000

/-- Light grey on black, the rendition every console starts with. -/
def normal : Rendition := ⟨0x0700⟩

instance : Inhabited Rendition := ⟨normal⟩

def foreground (r : Rendition) : UInt8 :=
  ((r.bits &&& foregroundMask) >>> 8).toUInt8

def background (r : Rendition) : UInt8 :=
  ((r.bits &&& backgroundMask) >>> 12).toUInt8

/-- Replaces the foreground by the low four bits of `n`. -/
def withForeground (r : Rendition) (n : UInt8) : Rendition :=
  ⟨(r.bits &&& ~~~foregroundMask) ||| ((n &&& 0x0F).toUInt16 <<< 8)⟩

def withBackground (r : Rendition) (n : UInt8) : Rendition :=
  ⟨(r.bits &&& ~~~backgroundMask) ||| ((n &&& 0x0F).toUInt16 <<< 12)⟩

def swapped (r : Rendition) : Rendition :=
  ⟨((r.bits &&& backgroundMask) >>> 4) ||| ((r.bits &&& foregroundMask) <<< 4)⟩

/-! ## The single bits -/

def intensity : Rendition := ⟨0x0800⟩

def blink : Rendition := ⟨0x8000⟩

def underline : Rendition := ⟨0x0100⟩

instance : OrOp Rendition := ⟨fun r s => ⟨r.bits ||| s.bits⟩⟩

instance : AndOp Rendition := ⟨fun r s => ⟨r.bits &&& s.bits⟩⟩

/-- Whether every bit of `flag` is set in `r`. -/
def contains (r flag : Rendition) : Bool :=
  r.bits &&& flag.bits == flag.bits

@[simp] theorem or_bits (r s : Rendition) : (r ||| s).bits = r.bits ||| s.bits := rfl

@[simp] theorem and_bits (r s : Rendition) : (r &&& s).bits = r.bits &&& s.bits := rfl

end Rendition

end TextConsole
