import TextConsole.Command
import TextConsole.Console.Basic

/-!
# The pen

How changes of rendition are drawn. A colour display has no intensity, underline
or blink of its own, so it shows each of them as a foreground colour; a display
without colours uses the bits. A colour that is asked for becomes the colour of
blanks too, and the display is told so at once, since its rendition of blanks is
shared by all the consoles on it.
-/

namespace TextConsole

namespace Rendition

/-- The foreground that stands for bold on a colour display, yellow. -/
def boldColor : UInt8 := 0xE

/-- The foreground that stands for underline on a colour display, light green. -/
def underlineColor : UInt8 := 0xA

/-- The foreground that stands for blink on a colour display, magenta. -/
def blinkColor : UInt8 := 0x5

/-- Reverse video without colours: blink and intensity are kept, and light on
dark is exchanged with dark on light, by whether the background is dark. -/
def reversedMono (r : Rendition) : Rendition :=
  (r &&& (blink ||| intensity)) ||| if r.bits &&& 0x7000 = 0 then ⟨0x7000⟩ else ⟨0x0700⟩

end Rendition

namespace RenditionChange

/-- The pen after a change, given the rendition of blanks before it. -/
def pen (kind : DisplayKind) (blank r : Rendition) : RenditionChange → Rendition
  | bold =>
      match kind with
      | .color => r.withForeground Rendition.boldColor
      | .mono => r ||| Rendition.intensity
  | underline =>
      match kind with
      | .color => r.withForeground Rendition.underlineColor
      | .mono => r &&& (Rendition.blink ||| Rendition.intensity ||| Rendition.underline)
  | blink =>
      match kind with
      | .color => r.withForeground Rendition.blinkColor
      | .mono => r ||| Rendition.blink
  | reverse =>
      match kind with
      | .color => r.swapped
      | .mono => r.reversedMono
  | foreground color => r.withForeground color.native
  | background color => r.withBackground color.native
  | reset => blank

/-- The rendition of blanks after a change, if it is a change of colour. -/
def blank? (blank : Rendition) : RenditionChange → Option Rendition
  | foreground color => some (blank.withForeground color.native)
  | background color => some (blank.withBackground color.native)
  | _ => none

end RenditionChange

/-- Changes the pen, and the rendition of blanks with its colours. -/
def Console.changeRendition (s : Surface) (change : RenditionChange) (c : Console) :
    Output Console :=
  let inked := { c with pen := change.pen s.kind c.blank c.pen }
  match change.blank? c.blank with
  | none => return inked
  | some blank => do
      Output.emit (.setBlank blank)
      return { inked with blank := blank }

end TextConsole
