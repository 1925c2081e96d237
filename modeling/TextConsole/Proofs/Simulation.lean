import TextConsole.Seat.Operation

/-!
# Computations on two sides

Two consoles that take the same input go through the same kinds of steps, as long as
they agree in the few things that decide which step comes next: the row and column of
the cursor, the escape state, and what their surfaces say of the screen and of tabs and
line ends. A `Link` relates two consoles and what each has asked for so far. If each kind
of step keeps it on both sides (`Simulation`), then so does whatever clients do with the
two consoles (`Simulation.input`).

The two sides may differ in anything that a link leaves open: memory and regions, the
focus, the bell, or how many characters still wait in the queue. With the same console
on both sides a link is a property of one console (`Law`).
-/

namespace TextConsole

theorem ControlCode.ofByte?_eq_none {byte : UInt8} (h : 0x20 ≤ byte) :
    ControlCode.ofByte? byte = none := by
  have hle : 0x20 ≤ byte.toNat := UInt8.le_iff_toNat_le.mp h
  unfold ControlCode.ofByte?
  split
  all_goals first
    | rfl
    | omega

namespace Console

variable {s s' : Surface} {c c' : Console} {es es' : Array Effect} {x x' : Output Console}

/-! ## The kinds of steps -/

/-- Puts a character into the queue, after storing a full one. -/
def enqueue (s : Surface) (c : Console) (code : UInt8) : Output Console := do
  let c ← c.makeRoom s
  return c.place code

/-- Rings the bell, if it can be heard. -/
def chime (s : Surface) (c : Console) : Output Console := do
  Output.emitIf (s.settings.behavior.bellEnabled = true) .ring
  return c

/-- Takes bytes one after the other, and leaves what waits in the queue. -/
def acceptAll (s : Surface) (c : Console) : List UInt8 → Output Console
  | [] => pure c
  | byte :: bytes => c.accept s byte >>= fun c => c.acceptAll s bytes

/-- Whether a console waits for the rest of an escape sequence only with an empty
queue. -/
def Quiet (c : Console) : Prop := c.escape.isCollecting = true → c.queue = []

end Console

/-- Whether a command only rearranges cells of the window. -/
def Command.IsEdit : Command → Prop
  | .eraseInDisplay _ => True
  | .eraseInLine _ => True
  | .insertLines _ => True
  | .deleteLines _ => True
  | .insertChars _ => True
  | .deleteChars _ => True
  | _ => False

namespace Console

variable {s s' : Surface} {c c' : Console} {es es' : Array Effect} {x x' : Output Console}

theorem print_eq (code : UInt8) :
    c.print s code =
      if c.col < s.columns then c.enqueue s code
      else if s.settings.behavior.lineWrap = true then
        c.wrapLine s >>= fun c => c.enqueue s code
      else pure c := rfl

/-- **The short way leads to the same place.** -/
theorem acceptFast_eq (byte : UInt8) : c.acceptFast s byte = c.accept s byte := by
  unfold acceptFast
  split
  · rename_i h
    obtain ⟨hbyte, hescape, hcol, hroom⟩ := h
    rw [accept, if_neg (by simp [hescape]), ControlCode.ofByte?_eq_none hbyte]
    show pure (c.place byte) = c.print s byte
    rw [print_eq, if_pos hcol, enqueue, makeRoom, if_pos hroom, pure_bind]
  · rfl

theorem acceptAll_append (xs ys : List UInt8) :
    c.acceptAll s (xs ++ ys) = c.acceptAll s xs >>= fun c => c.acceptAll s ys := by
  induction xs generalizing c with
  | nil => rw [acceptAll, pure_bind, List.nil_append]
  | cons byte xs ih => simp only [List.cons_append, acceptAll, ih, bind_assoc]

theorem acceptAll_concat (bytes : List UInt8) (byte : UInt8) :
    c.acceptAll s (bytes ++ [byte]) = c.acceptAll s bytes >>= fun c => c.accept s byte := by
  simp [acceptAll_append, acceptAll]

/-- **A run is taken byte by byte**, and then flushed. -/
theorem acceptRun_eq (bytes : List UInt8) :
    c.acceptRun s bytes = c.acceptAll s bytes >>= fun c => c.flush s := by
  have key : ∀ {x : Output Console},
      bytes.foldl (fun out byte => out >>= fun c => c.acceptFast s byte) x =
        x >>= fun c => c.acceptAll s bytes := by
    induction bytes with
    | nil => exact fun {x} => (bind_pure x).symm
    | cons byte bytes ih =>
        intro x
        rw [List.foldl_cons, ih, bind_assoc]
        simp only [acceptFast_eq, acceptAll]
  rw [acceptRun, key, pure_bind]

theorem col_wrapLine : (c.wrapLine s).value.col = 0 := by
  have hzero : s.confineColumn 0 = 0 := by
    unfold Surface.confineColumn
    omega
  unfold wrapLine
  split
  · exact hzero
  · exact hzero

theorem escape_wrapLine : (c.wrapLine s).value.escape = c.escape := by
  unfold wrapLine
  split <;> rfl

/-! ## Links -/

/-- A relation between two consoles, each with what it has asked for so far. -/
abbrev Link := Console → Array Effect → Console → Array Effect → Prop

/-- Whether two computations, begun after some effects, end in linked consoles. -/
def Link.Ends (R : Link) (es es' : Array Effect) (x x' : Output Console) : Prop :=
  R x.value (es ++ x.effects) x'.value (es' ++ x'.effects)

theorem Link.done {R : Link} (h : R c es c' es') : R.Ends es es' (pure c) (pure c') := by
  simpa [Ends] using h

/-- Computations one after the other. -/
theorem Link.Ends.bind {R : Link} {f f' : Console → Output Console} (hx : R.Ends es es' x x')
    (hf : R x.value (es ++ x.effects) x'.value (es' ++ x'.effects) →
      R.Ends (es ++ x.effects) (es' ++ x'.effects) (f x.value) (f' x'.value)) :
    R.Ends es es' (x >>= f) (x' >>= f') := by
  have hend := hf hx
  unfold Ends at hend ⊢
  rwa [Array.append_assoc, Array.append_assoc] at hend

/-- Whether every kind of step keeps a link, when it is taken on both sides. -/
structure Simulation (s s' : Surface) (R : Link) : Prop where
  columns_pos : 0 < s.columns
  columns : s'.columns = s.columns
  rows : s'.rows = s.rows
  nextTabStop : ∀ col, s'.nextTabStop col = s.nextTabStop col
  lineWrap : s'.settings.behavior.lineWrap = s.settings.behavior.lineWrap
  newlineReturnsCarriage :
    s'.settings.behavior.newlineReturnsCarriage = s.settings.behavior.newlineReturnsCarriage
  row : ∀ {c es c' es'}, R c es c' es' → c'.row = c.row
  col : ∀ {c es c' es'}, R c es c' es' → c'.col = c.col
  escape : ∀ {c es c' es'}, R c es c' es' → c'.escape = c.escape
  quiet : ∀ {c es c' es'}, R c es c' es' → c.Quiet ∧ c'.Quiet
  enqueue : ∀ {c es c' es'} {code : UInt8}, R c es c' es' → c.col < s.columns →
    c.escape.isCollecting = false → ControlCode.ofByte? code = none →
      R.Ends es es' (c.enqueue s code) (c'.enqueue s' code)
  settle : ∀ {c es c' es'} (row col : Int), R c es c' es' →
    R.Ends es es' (c.settle s row col) (c'.settle s' row col)
  scroll : ∀ {c es c' es'} (d : Direction), R c es c' es' →
    R.Ends es es' (c.scroll s d) (c'.scroll s' d)
  edit : ∀ {c es c' es'} {command : Command}, R c es c' es' → c.queue = [] → c'.queue = [] →
    command.IsEdit → R.Ends es es' (c.perform s command) (c'.perform s' command)
  recolor : ∀ {c es c' es'} (change : RenditionChange), R c es c' es' → c.queue = [] →
    c'.queue = [] → R.Ends es es' (c.changeRendition s change) (c'.changeRendition s' change)
  chime : ∀ {c es c' es'}, R c es c' es' → R.Ends es es' (c.chime s) (c'.chime s')
  collect : ∀ {c es c' es'} (escape : Escape.State), R c es c' es' → c.queue = [] →
    c'.queue = [] → R { c with escape := escape } es { c' with escape := escape } es'
  acknowledge : ∀ {c es c' es'}, R c es c' es' → R c.acknowledge es c'.acknowledge es'

/-- The computations by which the clients of a seat reach a console. -/
inductive Input : (Surface → Console → Output Console) → Prop
  | accept (byte : UInt8) : Input fun s c => c.accept s byte
  | acceptRun (bytes : List UInt8) : Input fun s c => c.acceptRun s bytes
  | flush : Input fun s c => c.flush s
  | echo (byte : UInt8) : Input fun s c => c.echo s byte
  | acknowledge : Input fun _ c => pure c.acknowledge
  | scroll (d : Direction) : Input fun s c => c.scroll s d

/-! ## Whole computations on both sides -/

namespace Simulation

variable {R : Link}

theorem flush (sim : Simulation s s' R) (h : R c es c' es') :
    R.Ends es es' (c.flush s) (c'.flush s') := by
  rw [Console.flush, Console.flush, sim.row h, sim.col h]
  exact sim.settle _ _ h

theorem lineFeed (sim : Simulation s s' R) (h : R c es c' es') (col : Int) :
    R.Ends es es' (c.lineFeed s col) (c'.lineFeed s' col) := by
  rw [Console.lineFeed, Console.lineFeed, sim.row h, sim.rows]
  split
  · exact sim.settle _ col h
  · exact (sim.settle _ col h).bind fun h => sim.scroll .up h

theorem wrapLine (sim : Simulation s s' R) (h : R c es c' es') :
    R.Ends es es' (c.wrapLine s) (c'.wrapLine s') := by
  rw [Console.wrapLine, Console.wrapLine, sim.row h, sim.rows]
  split
  · exact sim.settle _ 0 h
  · refine (sim.scroll .up h).bind fun h => ?_
    rw [sim.row h]
    exact sim.settle _ 0 h

theorem print (sim : Simulation s s' R) (h : R c es c' es') {code : UInt8}
    (hescape : c.escape.isCollecting = false) (hcode : ControlCode.ofByte? code = none) :
    R.Ends es es' (c.print s code) (c'.print s' code) := by
  rw [print_eq, print_eq, sim.col h, sim.columns, sim.lineWrap]
  split
  · exact sim.enqueue h ‹_› hescape hcode
  · split
    · refine (sim.wrapLine h).bind fun h => sim.enqueue h ?_ ?_ hcode
      · rw [col_wrapLine]
        exact sim.columns_pos
      · rwa [escape_wrapLine]
    · exact Link.done h

theorem backspace (sim : Simulation s s' R) (h : R c es c' es') :
    R.Ends es es' (c.backspace s) (c'.backspace s') := by
  rw [Console.backspace, Console.backspace, sim.row h, sim.col h, sim.columns]
  split
  · exact sim.settle _ _ h
  · split
    · exact sim.settle _ _ h
    · exact sim.flush h

theorem tabulate (sim : Simulation s s' R) (h : R c es c' es') :
    R.Ends es es' (c.tabulate s) (c'.tabulate s') := by
  rw [Console.tabulate, Console.tabulate, sim.row h, sim.col h, sim.columns, sim.nextTabStop]
  split
  · exact sim.settle _ _ h
  · exact sim.lineFeed h _

theorem control (sim : Simulation s s' R) (h : R c es c' es') (code : ControlCode) :
    R.Ends es es' (c.control s code) (c'.control s' code) := by
  cases code with
  | null => exact Link.done h
  | bell => exact (sim.flush h).bind fun h => sim.chime h
  | backspace => exact sim.backspace h
  | tab => exact sim.tabulate h
  | lineFeed =>
      rw [Console.control, Console.control, sim.col h, sim.newlineReturnsCarriage]
      exact sim.lineFeed h _
  | verticalTab | formFeed =>
      rw [Console.control, Console.control, sim.col h]
      exact sim.lineFeed h _
  | carriageReturn =>
      rw [Console.control, Console.control, sim.row h]
      exact sim.settle _ _ h
  | escape =>
      exact (sim.flush h).bind fun h => Link.done (sim.collect .afterEscape h rfl rfl)

theorem perform (sim : Simulation s s' R) (h : R c es c' es') (hqueue : c.queue = [])
    (hqueue' : c'.queue = []) (command : Command) :
    R.Ends es es' (c.perform s command) (c'.perform s' command) := by
  cases command with
  | reverseIndex =>
      rw [Console.perform, Console.perform, sim.row h, sim.col h]
      split
      · exact sim.scroll .down h
      · exact sim.settle _ _ h
  | cursorUp | cursorDown | cursorForward | cursorBackward =>
      rw [Console.perform, Console.perform, sim.row h, sim.col h]
      exact sim.settle _ _ h
  | cursorPosition row col => exact sim.settle _ _ h
  | eraseInDisplay | eraseInLine | insertLines | deleteLines | insertChars | deleteChars =>
      exact sim.edit h hqueue hqueue' trivial
  | changeRendition change => exact sim.recolor change h hqueue hqueue'

theorem execute (sim : Simulation s s' R) (h : R c es c' es') (sequence : Escape.Sequence) :
    R.Ends es es' (c.execute s sequence) (c'.execute s' sequence) := by
  refine (sim.flush h).bind fun h => ?_
  split
  · exact Link.done h
  · exact sim.perform h rfl rfl _

theorem continueEscape (sim : Simulation s s' R) (h : R c es c' es')
    (hcollect : c.escape.isCollecting = true) (byte : UInt8) :
    R.Ends es es' (c.continueEscape s byte) (c'.continueEscape s' byte) := by
  obtain ⟨hquiet, hquiet'⟩ := sim.quiet h
  have hnext := sim.collect (c.escape.advance byte).1 h (hquiet hcollect)
    (hquiet' (by rwa [sim.escape h]))
  rw [Console.continueEscape, Console.continueEscape, sim.escape h]
  dsimp only
  split
  · exact Link.done hnext
  · exact sim.execute hnext _

theorem accept (sim : Simulation s s' R) (h : R c es c' es') (byte : UInt8) :
    R.Ends es es' (c.accept s byte) (c'.accept s' byte) := by
  rw [Console.accept, Console.accept, sim.escape h]
  split
  · exact sim.continueEscape h ‹_› byte
  · rename_i hescape
    cases hcode : ControlCode.ofByte? byte with
    | some code => exact sim.control h code
    | none => exact sim.print h (by simpa using hescape) hcode

theorem acceptAll (sim : Simulation s s' R) (bytes : List UInt8) (h : R c es c' es') :
    R.Ends es es' (c.acceptAll s bytes) (c'.acceptAll s' bytes) := by
  induction bytes generalizing c c' es es' with
  | nil => exact Link.done h
  | cons byte bytes ih => exact (sim.accept h byte).bind fun h => ih h

theorem acceptRun (sim : Simulation s s' R) (h : R c es c' es') (bytes : List UInt8) :
    R.Ends es es' (c.acceptRun s bytes) (c'.acceptRun s' bytes) := by
  rw [acceptRun_eq, acceptRun_eq]
  exact (sim.acceptAll bytes h).bind fun h => sim.flush h

theorem echo (sim : Simulation s s' R) (h : R c es c' es') (byte : UInt8) :
    R.Ends es es' (c.echo s byte) (c'.echo s' byte) :=
  (sim.accept h byte).bind fun h => sim.flush h

/-- **Whatever clients do with the two consoles keeps the link.** -/
theorem input {f : Surface → Console → Output Console} (sim : Simulation s s' R) (hf : Input f)
    (h : R c es c' es') : R.Ends es es' (f s c) (f s' c') := by
  cases hf with
  | accept byte => exact sim.accept h byte
  | acceptRun bytes => exact sim.acceptRun h bytes
  | flush => exact sim.flush h
  | echo byte => exact sim.echo h byte
  | acknowledge => exact Link.done (sim.acknowledge h)
  | scroll d => exact sim.scroll d h

end Simulation

/-! ## Laws of one console -/

/-- Whether every kind of step keeps a property of a console and of what it has asked for
so far. -/
structure Law (s : Surface) (P : Console → Array Effect → Prop) : Prop where
  columns_pos : 0 < s.columns
  quiet : ∀ {c es}, P c es → c.Quiet
  enqueue : ∀ {c es} {code : UInt8}, P c es → c.col < s.columns →
    c.escape.isCollecting = false → ControlCode.ofByte? code = none →
      P (c.enqueue s code).value (es ++ (c.enqueue s code).effects)
  settle : ∀ {c es} (row col : Int), P c es →
    P (c.settle s row col).value (es ++ (c.settle s row col).effects)
  scroll : ∀ {c es} (d : Direction), P c es →
    P (c.scroll s d).value (es ++ (c.scroll s d).effects)
  edit : ∀ {c es} {command : Command}, P c es → c.queue = [] → command.IsEdit →
    P (c.perform s command).value (es ++ (c.perform s command).effects)
  recolor : ∀ {c es} (change : RenditionChange), P c es → c.queue = [] →
    P (c.changeRendition s change).value (es ++ (c.changeRendition s change).effects)
  chime : ∀ {c es}, P c es → P (c.chime s).value (es ++ (c.chime s).effects)
  collect : ∀ {c es} (escape : Escape.State), P c es → c.queue = [] →
    P { c with escape := escape } es
  acknowledge : ∀ {c es}, P c es → P c.acknowledge es

/-- The same console on both sides. -/
def Link.diagonal (P : Console → Array Effect → Prop) : Link :=
  fun c es c' es' => c' = c ∧ es' = es ∧ P c es

namespace Law

variable {P : Console → Array Effect → Prop}

/-- A law is a simulation of a console by itself. -/
theorem simulation (law : Law s P) : Simulation s s (Link.diagonal P) where
  columns_pos := law.columns_pos
  columns := rfl
  rows := rfl
  nextTabStop := fun _ => rfl
  lineWrap := rfl
  newlineReturnsCarriage := rfl
  row := by rintro c es _ _ ⟨rfl, rfl, _⟩; rfl
  col := by rintro c es _ _ ⟨rfl, rfl, _⟩; rfl
  escape := by rintro c es _ _ ⟨rfl, rfl, _⟩; rfl
  quiet := by rintro c es _ _ ⟨rfl, rfl, h⟩; exact ⟨law.quiet h, law.quiet h⟩
  enqueue := by
    rintro c es _ _ code ⟨rfl, rfl, h⟩ hcol hescape hcode
    exact ⟨rfl, rfl, law.enqueue h hcol hescape hcode⟩
  settle := by rintro c es _ _ row col ⟨rfl, rfl, h⟩; exact ⟨rfl, rfl, law.settle row col h⟩
  scroll := by rintro c es _ _ d ⟨rfl, rfl, h⟩; exact ⟨rfl, rfl, law.scroll d h⟩
  edit := by
    rintro c es _ _ command ⟨rfl, rfl, h⟩ hqueue _ hedit
    exact ⟨rfl, rfl, law.edit h hqueue hedit⟩
  recolor := by
    rintro c es _ _ change ⟨rfl, rfl, h⟩ hqueue _
    exact ⟨rfl, rfl, law.recolor change h hqueue⟩
  chime := by rintro c es _ _ ⟨rfl, rfl, h⟩; exact ⟨rfl, rfl, law.chime h⟩
  collect := by
    rintro c es _ _ escape ⟨rfl, rfl, h⟩ hqueue _
    exact ⟨rfl, rfl, law.collect escape h hqueue⟩
  acknowledge := by rintro c es _ _ ⟨rfl, rfl, h⟩; exact ⟨rfl, rfl, law.acknowledge h⟩

theorem input {f : Surface → Console → Output Console} (law : Law s P) (hf : Input f)
    (h : P c es) : P (f s c).value (es ++ (f s c).effects) :=
  (law.simulation.input hf ⟨rfl, rfl, h⟩).2.2

end Law

end Console

end TextConsole
