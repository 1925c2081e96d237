import TextConsole.Config

/-!
# Layout

Each console owns a region of video memory. A second display that holds a whole
screen is given to the last console; the others share the first display in
equal pages, as many as hold a screen each and as the configuration allows.
-/

namespace TextConsole

/-- Consecutive words of a display's video memory, from `start` up to `limit`. -/
structure Region where
  display : Nat
  start : Nat
  limit : Nat
deriving DecidableEq, Repr, Inhabited

namespace Config

/-- The most consoles that a layout makes: one at least. -/
def consoleLimit (c : Config) : Nat := max c.behavior.maxConsoles 1

/-- The second display, if it is given to a console: a second console must be
allowed, and the display must hold a screen. -/
def secondDisplay? (c : Config) : Option DisplayConfig :=
  match c.displays with
  | _ :: d :: _ => if 1 < c.consoleLimit ∧ c.screen.size ≤ d.capacity then some d else none
  | _ => none

/-- The number of consoles on a first display of a given capacity. -/
def pageCount (c : Config) (capacity : Nat) : Nat :=
  min (capacity / c.screen.size) (c.consoleLimit - if c.secondDisplay?.isSome then 1 else 0)

/-- The pages of the first display: `count` regions of `length` words. -/
def pages (count length : Nat) : List Region :=
  (List.range count).map fun i => ⟨0, i * length, (i + 1) * length⟩

/-- The region of every console, in the order of the consoles. The first
display has to hold one console at least. -/
def layout (c : Config) : Except ConfigError (List Region) :=
  match c.displays with
  | [] => .error .noDisplays
  | first :: _ =>
      let count := c.pageCount first.capacity
      if count = 0 then
        .error (.memoryTooSmall c.screen.size first.capacity)
      else
        .ok (pages count (first.capacity / count) ++
          c.secondDisplay?.toList.map fun d => ⟨1, 0, d.capacity⟩)

end Config

end TextConsole
