import TextConsole.Cell

/-!
# Output

A console changes the world only through its display: it stores, fills and
moves runs of video memory, loads the rendition of blanks, points the hardware
registers at an address, and rings the bell. These are its effects.

A computation of type `Output α` has a value and the effects it asks for, in
order. Computations do not see what their effects do, since a console never
reads video memory back. What they do is the business of the display and of the
seat.
-/

namespace TextConsole

/-! ## Effects -/

/-- The registers that a console points at an address. -/
inductive Register where
  /-- Where the visible window starts. -/
  | origin
  /-- Where the cursor is drawn. -/
  | cursor
deriving DecidableEq, Repr

/-- The number by which the hardware selects a register. -/
def Register.index : Register → Nat
  | origin => 12
  | cursor => 14

/-- One effect of a console on its display. -/
inductive Effect where
  /-- Store a run of cells. -/
  | write (dest : Nat) (run : List Cell)
  /-- Store blanks, drawn in the display's current rendition of blanks. -/
  | fill (dest len : Nat)
  /-- Move a run of cells. -/
  | copy (src dest len : Nat)
  /-- Load the display's rendition of blanks. -/
  | setBlank (r : Rendition)
  /-- Point a register at an address. -/
  | setRegister (register : Register) (addr : Nat)
  /-- Ring the bell. -/
  | ring
deriving DecidableEq, Repr

/-! ## Computations with effects -/

/-- A value, and the effects of obtaining it in their order. -/
@[ext] structure Output (α : Type) where
  value : α
  effects : Array Effect := #[]

namespace Output

variable {α β : Type}

/-- Does both, and the effects one after the other. -/
def andThen (x : Output α) (f : α → Output β) : Output β :=
  let y := f x.value
  ⟨y.value, x.effects ++ y.effects⟩

instance : Monad Output where
  pure a := ⟨a, #[]⟩
  bind := andThen

def emit (e : Effect) : Output Unit := ⟨(), #[e]⟩

/-- Asks for one effect if a condition holds. -/
def emitIf (p : Prop) [Decidable p] (e : Effect) : Output Unit :=
  ⟨(), if p then #[e] else #[]⟩

@[simp] theorem value_pure (a : α) : (pure a : Output α).value = a := rfl

@[simp] theorem effects_pure (a : α) : (pure a : Output α).effects = #[] := rfl

@[simp] theorem value_bind (x : Output α) (f : α → Output β) :
    (x >>= f).value = (f x.value).value := rfl

@[simp] theorem effects_bind (x : Output α) (f : α → Output β) :
    (x >>= f).effects = x.effects ++ (f x.value).effects := rfl

@[simp] theorem value_map (x : Output α) (f : α → β) : (f <$> x).value = f x.value := rfl

@[simp] theorem effects_map (x : Output α) (f : α → β) : (f <$> x).effects = x.effects := by
  simp [Functor.map, andThen]

@[simp] theorem effects_emit (e : Effect) : (emit e).effects = #[e] := rfl

@[simp] theorem effects_emitIf (p : Prop) [Decidable p] (e : Effect) :
    (emitIf p e).effects = if p then #[e] else #[] := rfl

instance : LawfulMonad Output :=
  LawfulMonad.mk' _ (fun x => by ext1 <;> simp) (fun a f => by ext1 <;> simp)
    (fun x f g => by ext1 <;> simp [Array.append_assoc])

end Output

end TextConsole
