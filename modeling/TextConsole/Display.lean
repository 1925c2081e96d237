import TextConsole.Config
import TextConsole.Output
import TextConsole.VideoMemory

/-!
# Displays

A display is its video memory together with what the hardware can do. Effects on
memory are carried out here. Register writes and bells leave the display as it
is; they are entered in the seat's journal.
-/

namespace TextConsole

/-- A display and its video memory. -/
structure Display where
  kind : DisplayKind
  /-- Whether the display takes a font. -/
  fontUpload : Bool
  memory : VideoMemory
deriving DecidableEq, Repr, Inhabited

namespace Display

/-- A display with blank memory. Memory that several consoles share does not
wrap, whatever the hardware can do: a window must stay inside its region. -/
def ofConfig (d : DisplayConfig) (shared : Bool) : Display where
  kind := d.kind
  fontUpload := d.fontUpload
  memory := .ofCapacity d.capacity (d.wraps && !shared)

def capacity (d : Display) : Nat := d.memory.capacity

def setBlank (d : Display) (r : Rendition) : Display :=
  { d with memory := { d.memory with blank := r } }

/-- What a register of 16 bits holds when it is pointed at an address, in memory
of a given capacity. -/
def registerWord (capacity addr : Nat) : UInt16 := (addr % capacity).toUInt16

def perform (d : Display) : Effect → Display
  | .write dest run => { d with memory := d.memory.write dest run }
  | .fill dest len => { d with memory := d.memory.fill dest len }
  | .copy src dest len => { d with memory := d.memory.copy src dest len }
  | .setBlank r => d.setBlank r
  | .setRegister _ _ => d
  | .ring => d

def performAll (d : Display) (effects : Array Effect) : Display :=
  effects.foldl perform d

@[simp] theorem capacity_perform (d : Display) (e : Effect) :
    (d.perform e).capacity = d.capacity := by
  cases e <;> simp [perform, capacity, setBlank, VideoMemory.capacity_write,
    VideoMemory.capacity_fill, VideoMemory.capacity_copy]
  rfl

theorem performAll_append (d : Display) (xs ys : Array Effect) :
    d.performAll (xs ++ ys) = (d.performAll xs).performAll ys := by
  simp [performAll]

end Display

end TextConsole
