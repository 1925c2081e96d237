import TextConsole.Proofs.Legibility
import TextConsole.Proofs.Rows
import TextConsole.Proofs.Scrolling

/-!
# Where text is set

Text is set from the cursor on, line after line, as on a roll of paper that is blank below
the screen. The screen is a part of that roll. It starts at the top, and moves down by a line
each time the text passes the last row (`Console.Rolled`). So each character is found at its
place in the text, counted from where the cursor was, and the cursor ends behind the last one
(`Console.Typed`).

Without line wrap the roll is one line, and what passes its end is lost.
-/

namespace TextConsole

/-- One more cell at the end of a run. -/
theorem Patch.apply_store_append (offset : Nat) (run : List Cell) (cell blank : Cell)
    (shown : Nat → Cell) (k : Nat) :
    (Patch.store offset (run ++ [cell])).apply blank shown k =
      if k = offset + run.length then cell
      else (Patch.store offset run).apply blank shown k := by
  simp only [apply, List.length_append, List.length_singleton]
  by_cases hlast : k = offset + run.length
  · subst hlast
    simp
  · rw [if_neg hlast]
    by_cases hin : offset ≤ k ∧ k < offset + run.length
    · rw [if_pos (by omega), if_pos hin]
      simp [List.getD_eq_getElem?_getD, List.getElem?_append, show k - offset < run.length by omega]
    · rw [if_neg (by omega), if_neg hin]

namespace Console

variable {s : Surface} {c c₀ : Console} {d : Display} {shown : Nat → Cell} {n k : Nat}
  {text : List UInt8} {code : UInt8}

/-! ## The picture with the queue in it -/

/-- What a console shows once its queue is stored. -/
def view (s : Surface) (c : Console) (d : Display) : Nat → Cell :=
  (c.waiting s).apply (Cell.blank c.blank) (d.shown c.origin)

theorem view_of_queue_eq_nil (hqueue : c.queue = []) (k : Nat) :
    c.view s d k = d.shown c.origin k := by
  simp [view, waiting, Patch.apply, hqueue]

theorem waiting_place (hc : c.WellPlaced s) :
    (c.place code).waiting s =
      .store (c.row * s.columns + c.col - c.queue.length)
        (c.queue ++ [Cell.ofCode code c.pen]) := by
  have hqueue := hc.queue_le_col
  show Patch.store (c.row * s.columns + (c.col + 1) - (c.queue ++ [_]).length) _ = _
  rw [List.length_append, List.length_singleton, ← Nat.add_assoc, Nat.add_sub_add_right]
  rfl

/-- A character in the queue shows where the cursor was. -/
theorem view_place (hc : c.WellPlaced s) (k : Nat) :
    (c.place code).view s d k =
      if k = c.row * s.columns + c.col then Cell.ofCode code c.pen else c.view s d k := by
  have hqueue := hc.queue_le_col
  rw [view, waiting_place hc, Patch.apply_store_append, Nat.sub_add_cancel (by omega)]
  rfl

theorem view_settle (hd : c.Drawn s d) (row col : Int) (hk : k < s.size) :
    (c.settle s row col).value.view s (d.performAll (c.settle s row col).effects) k =
      c.view s d k := by
  rw [view_of_queue_eq_nil rfl, origin_settle, shown_settle hd.holds hd.placed hd.describes row col
    hk, hd.blankCell]
  rfl

theorem view_scroll (hd : c.Drawn s d) (dir : Direction) (hk : k < s.size) :
    (c.scroll s dir).value.view s (d.performAll (c.scroll s dir).effects) k =
      dir.scrolled s (Cell.blank c.blank) (c.view s d) k := by
  rw [view_of_queue_eq_nil rfl, shown_scroll hd.holds hd.placed hd.describes dir hk, hd.blankCell]
  rfl

/-! ## The roll -/

/-- A screen as the top of a roll that is blank below it. -/
def roll (s : Surface) (c : Console) (shown : Nat → Cell) (k : Nat) : Cell :=
  if k < s.size then shown k else Cell.blank c.blank

/-- The text as a patch of the roll, from the cursor of a console on. -/
def setting (s : Surface) (c : Console) (text : List UInt8) : Patch :=
  .store (c.row * s.columns + c.col) (text.map fun byte => Cell.ofCode byte c.pen)

/-- Whether a console that was `c₀` shows the roll from line `n` on, with the text set on it. -/
structure Rolled (s : Surface) (c₀ : Console) (shown : Nat → Cell) (text : List UInt8) (n : Nat)
    (c : Console) (d : Display) : Prop where
  drawn : c.Drawn s d
  escape : c.escape = .ground
  pen : c.pen = c₀.pen
  blank : c.blank = c₀.blank
  origin : n = 0 → c.origin = c₀.origin
  view : ∀ k < s.size, c.view s d k =
    (c₀.setting s text).apply (Cell.blank c₀.blank) (c₀.roll s shown) (k + n * s.columns)

theorem Rolled.start (hd : c.Drawn s d) (hescape : c.escape = .ground) :
    Rolled s c (c.view s d) [] 0 c d where
  drawn := hd
  escape := hescape
  pen := rfl
  blank := rfl
  origin := fun _ => rfl
  view := by
    intro k hk
    simp [setting, Patch.apply, roll, hk]

namespace Rolled

theorem settle (h : Rolled s c₀ shown text n c d) (row col : Int) :
    Rolled s c₀ shown text n (c.settle s row col).value
      (d.performAll (c.settle s row col).effects) where
  drawn := (Step.settle row col).drawn h.drawn
  escape := h.escape
  pen := h.pen
  blank := h.blank
  origin := h.origin
  view := by
    intro k hk
    rw [view_settle h.drawn row col hk, h.view k hk]

/-- **A scroll moves the screen down the roll**, as long as the text ends on the screen. -/
theorem scroll (h : Rolled s c₀ shown text n c d)
    (hend : c₀.row * s.columns + c₀.col + text.length ≤ s.size + n * s.columns) :
    Rolled s c₀ shown text (n + 1) (c.scroll s .up).value
      (d.performAll (c.scroll s .up).effects) where
  drawn := (Step.scroll .up).drawn h.drawn
  escape := h.escape
  pen := h.pen
  blank := h.blank
  origin := fun hzero => absurd hzero (Nat.succ_ne_zero n)
  view := by
    intro k hk
    rw [view_scroll h.drawn .up hk, Direction.scrolled_up hk, Nat.succ_mul, ← Nat.add_assoc,
      Nat.add_right_comm, h.blank]
    by_cases hkept : k + s.columns < s.size
    · rw [if_pos hkept, h.view _ hkept]
    · -- The line that comes into view is below the screen and behind the text.
      rw [if_neg hkept, setting, Patch.apply, List.length_map, if_neg (by omega), roll,
        if_neg (by omega)]

/-- A character is set at its place in the text if the cursor is there. -/
theorem place (h : Rolled s c₀ shown text n c d) (hcol : c.col < s.columns)
    (hroom : c.queue.length < queueLimit) (hcode : ControlCode.ofByte? code = none)
    (hcursor : c.row * s.columns + c.col + n * s.columns =
      c₀.row * s.columns + c₀.col + text.length) :
    Rolled s c₀ shown (text ++ [code]) n (c.place code) d where
  drawn := (Step.place hcol hroom (by rw [h.escape]; rfl) hcode).drawn h.drawn
  escape := h.escape
  pen := h.pen
  blank := h.blank
  origin := h.origin
  view := by
    intro k hk
    rw [view_place h.drawn.placed, h.view k hk, setting, setting, List.map_append,
      List.map_singleton, Patch.apply_store_append, List.length_map, ← hcursor, h.pen]
    simp only [Nat.add_right_cancel_iff]

end Rolled

/-! ## Setting characters one by one -/

/-- Whether a console that was `c₀` shows the roll from line `n` on with the text set on it, and
has its cursor behind the text. The screen has moved only if the cursor is in the last row. -/
structure Typed (s : Surface) (c₀ : Console) (shown : Nat → Cell) (text : List UInt8) (n : Nat)
    (c : Console) (d : Display) : Prop extends Rolled s c₀ shown text n c d where
  cursor : c.row * s.columns + c.col + n * s.columns =
    c₀.row * s.columns + c₀.col + text.length
  bottom : n ≠ 0 → c.row + 1 = s.rows

namespace Typed

theorem flush (h : Typed s c₀ shown text n c d) :
    Typed s c₀ shown text n (c.flush s).value (d.performAll (c.flush s).effects) ∧
      (c.flush s).value.row = c.row ∧ (c.flush s).value.col = c.col := by
  have hrow : (c.flush s).value.row = c.row := confineRow_of_lt h.drawn.placed.row_lt
  have hcol : (c.flush s).value.col = c.col := confineColumn_of_le h.drawn.placed.col_le
  refine ⟨⟨h.toRolled.settle _ _, ?_, ?_⟩, hrow, hcol⟩
  · rw [hrow, hcol, h.cursor]
  · rw [hrow]
    exact h.bottom

theorem makeRoom (h : Typed s c₀ shown text n c d) :
    Typed s c₀ shown text n (c.makeRoom s).value (d.performAll (c.makeRoom s).effects) ∧
      (c.makeRoom s).value.row = c.row ∧ (c.makeRoom s).value.col = c.col := by
  unfold Console.makeRoom
  split
  · exact ⟨h, rfl, rfl⟩
  · exact h.flush

/-- Within a line the cursor moves on by one. -/
theorem enqueue (h : Typed s c₀ shown text n c d) (hcol : c.col < s.columns)
    (hcode : ControlCode.ofByte? code = none) :
    Typed s c₀ shown (text ++ [code]) n (c.enqueue s code).value
        (d.performAll (c.enqueue s code).effects) ∧
      (c.enqueue s code).value.row = c.row ∧ (c.enqueue s code).value.col = c.col + 1 := by
  obtain ⟨hroom, hrow, hsame⟩ := h.makeRoom
  have hplace : Rolled s c₀ shown (text ++ [code]) n ((c.makeRoom s).value.place code) _ :=
    hroom.toRolled.place (by rwa [hsame]) length_queue_makeRoom hcode hroom.cursor
  have heffects : (c.enqueue s code).effects = (c.makeRoom s).effects := Array.append_empty
  rw [heffects]
  refine ⟨⟨hplace, ?_, hroom.bottom⟩, hrow, congrArg (· + 1) hsame⟩
  have hcursor := hroom.cursor
  show (c.makeRoom s).value.row * s.columns + ((c.makeRoom s).value.col + 1) + n * s.columns = _
  rw [List.length_append, List.length_singleton]
  omega

/-- **The end of a line is the start of the next**, further down the roll if there is no next
line on the screen. -/
theorem wrapLine (h : Typed s c₀ shown text n c d) (hend : c.col = s.columns) :
    ∃ m, Typed s c₀ shown text m (c.wrapLine s).value (d.performAll (c.wrapLine s).effects) := by
  have hrow_lt := h.drawn.placed.row_lt
  have hcursor := h.cursor
  have hzero : s.confineColumn 0 = 0 := confineColumn_of_le (Nat.zero_le _)
  unfold Console.wrapLine
  by_cases hnext : c.row + 1 < s.rows
  · have hrow : s.confineRow (c.row + 1 : Int) = c.row + 1 := confineRow_of_lt hnext
    rw [if_pos hnext]
    refine ⟨n, h.toRolled.settle _ _, ?_, ?_⟩
    · rw [row_settle, col_settle, hrow, hzero, Nat.succ_mul]
      omega
    · intro hn
      have := h.bottom hn
      omega
  · have hlast : c.row + 1 = s.rows := by omega
    have hsize : s.size = c.row * s.columns + s.columns := by rw [s.size_eq, ← hlast, Nat.succ_mul]
    have hconfined : s.confineRow c.row = c.row := confineRow_of_lt hrow_lt
    have hrow : s.confineRow (c.scroll s .up).value.row = c.row := by
      rw [row_scroll, hconfined, hconfined, hconfined]
    rw [if_neg hnext, Output.value_bind, Output.effects_bind, Display.performAll_append]
    refine ⟨n + 1, (h.toRolled.scroll (by omega)).settle _ _, ?_, fun _ => ?_⟩
    · rw [row_settle, col_settle, hrow, hzero, Nat.succ_mul]
      omega
    · rw [row_settle, hrow, hlast]

theorem print (h : Typed s c₀ shown text n c d) (hwrap : s.settings.behavior.lineWrap = true)
    (hcode : ControlCode.ofByte? code = none) :
    ∃ m, Typed s c₀ shown (text ++ [code]) m (c.print s code).value
        (d.performAll (c.print s code).effects) ∧ 0 < (c.print s code).value.col := by
  rw [print_eq]
  by_cases hcol : c.col < s.columns
  · rw [if_pos hcol]
    obtain ⟨htyped, _, hbehind⟩ := h.enqueue hcol hcode
    exact ⟨n, htyped, by rw [hbehind]; exact Nat.succ_pos _⟩
  · obtain ⟨m, hwrapped⟩ := h.wrapLine (Nat.le_antisymm h.drawn.placed.col_le (by omega))
    have hstart : (c.wrapLine s).value.col < s.columns := by
      rw [col_wrapLine]
      exact h.drawn.holds.columns_pos
    obtain ⟨htyped, _, hbehind⟩ := hwrapped.enqueue hstart hcode
    rw [if_neg hcol, if_pos hwrap, Output.effects_bind, Display.performAll_append]
    exact ⟨m, htyped, by rw [Output.value_bind, hbehind]; exact Nat.succ_pos _⟩

end Typed

/-! ## Whole texts -/

theorem accept_eq_print (hescape : c.escape = .ground) (hcode : ControlCode.ofByte? code = none) :
    c.accept s code = c.print s code := by
  rw [accept, hescape, hcode]
  rfl

/-- **Text on lines that wrap is set as on a roll.** -/
theorem typed_acceptAll (hwrap : s.settings.behavior.lineWrap = true) (hd : c.Drawn s d)
    (hescape : c.escape = .ground) (htext : ∀ code ∈ text, ControlCode.ofByte? code = none) :
    ∃ n, Typed s c (c.view s d) text n (c.acceptAll s text).value
        (d.performAll (c.acceptAll s text).effects) ∧
      (text ≠ [] → 0 < (c.acceptAll s text).value.col) := by
  induction text using List.reverseRecOn with
  | nil => exact ⟨0, ⟨.start hd hescape, by simp [acceptAll], fun h => absurd rfl h⟩,
      fun h => absurd rfl h⟩
  | append_singleton text code ih =>
      obtain ⟨hfirst, hcode⟩ := List.forall_mem_append.mp htext
      obtain ⟨n, htyped, _⟩ := ih hfirst
      obtain ⟨m, hnext, hcol⟩ := htyped.print hwrap (hcode code List.mem_cons_self)
      rw [← accept_eq_print htyped.escape (hcode code List.mem_cons_self)] at hnext hcol
      rw [acceptAll_concat, Output.effects_bind, Display.performAll_append]
      exact ⟨m, hnext, fun _ => hcol⟩

/-- **Text on a line that does not wrap is cut at its end.** -/
theorem typed_acceptAll_take (hwrap : s.settings.behavior.lineWrap = false) (hd : c.Drawn s d)
    (hescape : c.escape = .ground) (htext : ∀ code ∈ text, ControlCode.ofByte? code = none) :
    Typed s c (c.view s d) (text.take (s.columns - c.col)) 0 (c.acceptAll s text).value
        (d.performAll (c.acceptAll s text).effects) ∧
      (c.acceptAll s text).value.row = c.row ∧
      (c.acceptAll s text).value.col = min (c.col + text.length) s.columns := by
  have hcol_le := hd.placed.col_le
  induction text using List.reverseRecOn with
  | nil =>
      have hstart : Typed s c (c.view s d) [] 0 c d :=
        ⟨.start hd hescape, by simp, fun h => absurd rfl h⟩
      exact ⟨by simpa [acceptAll] using hstart, rfl, by simp [acceptAll, hcol_le]⟩
  | append_singleton text code ih =>
      obtain ⟨hfirst, hcode⟩ := List.forall_mem_append.mp htext
      obtain ⟨htyped, hrow, hcol⟩ := ih hfirst
      have hplain := hcode code List.mem_cons_self
      rw [acceptAll_concat, Output.effects_bind, Output.value_bind, Display.performAll_append,
        accept_eq_print htyped.escape hplain, print_eq, List.length_append, List.length_singleton]
      by_cases hroom : c.col + text.length < s.columns
      · have hbefore : (c.acceptAll s text).value.col < s.columns := by omega
        obtain ⟨hnext, hrow', hcol'⟩ := htyped.enqueue hbefore hplain
        rw [List.take_of_length_le (by omega)] at hnext
        rw [if_pos hbefore, List.take_of_length_le (by simp; omega)]
        exact ⟨hnext, hrow'.trans hrow, by omega⟩
      · rw [if_neg (by omega), if_neg (by simp [hwrap]),
          List.take_append_of_le_length (by omega)]
        exact ⟨by simpa using htyped, hrow, by rw [Output.value_pure]; omega⟩

end Console

/-! ## Text on a seat -/

namespace Seat

variable {config : Config} {s : Seat} {c : Console} {id : Nat} {text : List UInt8}

/-- The cell that a console shows at a row and a column. -/
def cellAt? (s : Seat) (id row col : Nat) : Option Cell :=
  (s.rows? id).bind fun rows => rows[row]?.bind fun cells => cells[col]?

theorem cellAt?_eq {surface : Surface} {shown : Nat → Cell}
    (h : s.rows? id = some (surface.rowsOf shown)) {row col : Nat} (hrow : row < surface.rows)
    (hcol : col < surface.columns) :
    s.cellAt? id row col = some (shown (row * surface.columns + col)) := by
  simp [cellAt?, h, Surface.rowsOf, hrow, hcol]

/-- A cell that waits is stored where the cursor was when it was put into the queue. -/
theorem Sound.cellAt?_flush (h : s.Sound) (hc : s.consoles[id]? = some c) {i : Nat}
    (hi : i < c.queue.length) :
    (s.flush id).cellAt? id c.row (c.col - c.queue.length + i) = some c.queue[i] := by
  have hplaced := h.placed hc
  have hqueue := hplaced.queue_le_col
  have hcol : c.col - c.queue.length + i < (s.surface id c).columns := by
    have hle := hplaced.col_le
    omega
  rw [cellAt?_eq (h.rows?_flush hc) hplaced.row_lt hcol, Option.some.injEq]
  simp only [picture, Console.waiting, Patch.apply]
  rw [if_pos (by omega), show c.row * (s.surface id c).columns + (c.col - c.queue.length + i) -
    (c.row * (s.surface id c).columns + c.col - c.queue.length) = i by omega]
  simp [hi]

/-- A run of bytes that sets a text, and then stores the queue. -/
theorem Sound.sendRun_typed (h : s.Sound) (hc : s.consoles[id]? = some c) {kept : List UInt8}
    {n : Nat} (htyped : Console.Typed (s.surface id c) c (s.picture id c) kept n
      (c.acceptAll (s.surface id c) text).value
      (((s.displayOf c).setBlank c.blank).performAll
        (c.acceptAll (s.surface id c) text).effects)) :
    ∃ c', (s.sendRun id text).consoles[id]? = some c' ∧
      c'.row = (c.acceptAll (s.surface id c) text).value.row ∧
      c'.col = (c.acceptAll (s.surface id c) text).value.col ∧ (n = 0 → c'.origin = c.origin) ∧
      ∀ row < (s.surface id c).rows, ∀ col < (s.surface id c).columns,
        (s.sendRun id text).cellAt? id row col =
          some ((c.setting (s.surface id c) kept).apply (Cell.blank c.blank)
            (c.roll (s.surface id c) (s.picture id c))
            ((row + n) * (s.surface id c).columns + col)) := by
  obtain ⟨hflushed, hrow, hcol⟩ := htyped.flush
  have hconsole := consoles_run_self (f := fun surface c => c.acceptRun surface text) hc
  have hrows := h.rows?_run hc (stepwise_acceptRun text)
  rw [Console.acceptRun_eq] at hconsole hrows
  rw [Output.effects_bind, Display.performAll_append] at hrows
  refine ⟨_, hconsole, hrow, hcol, hflushed.origin, ?_⟩
  intro row hrow col hcol
  have hlt := (s.surface id c).offset_le hrow (Nat.succ_le_of_lt hcol)
  rw [sendRun, cellAt?_eq hrows hrow hcol, Nat.add_mul, Nat.add_right_comm,
    ← hflushed.view _ (by omega), Console.view_of_queue_eq_nil rfl]
  rfl

/-- A character of the text, where it is set. -/
theorem setting_of_lt (surface : Surface) (shown : Nat → Cell) {j : Nat} (hj : j < text.length) :
    (c.setting surface text).apply (Cell.blank c.blank) (c.roll surface shown)
        (c.row * surface.columns + (c.col + j)) = Cell.ofCode text[j] c.pen := by
  rw [Console.setting, Patch.apply, List.length_map, if_pos (by omega), ← Nat.add_assoc,
    Nat.add_sub_cancel_left]
  simp [hj]

/-- A cell of the roll on which no character is set. -/
theorem setting_of_forall_ne {surface : Surface} {shown : Nat → Cell} {row col : Nat}
    (hcol : col < surface.columns)
    (h : ∀ j < text.length, row * surface.columns + col ≠ c.row * surface.columns + (c.col + j)) :
    (c.setting surface text).apply (Cell.blank c.blank) (c.roll surface shown)
        (row * surface.columns + col) =
      if row < surface.rows then shown (row * surface.columns + col) else Cell.blank c.blank := by
  have hout : ¬ (c.row * surface.columns + c.col ≤ row * surface.columns + col ∧
      row * surface.columns + col < c.row * surface.columns + c.col + text.length) := by
    intro hin
    exact h (row * surface.columns + col - (c.row * surface.columns + c.col)) (by omega) (by omega)
  rw [Console.setting, Patch.apply, List.length_map, if_neg hout, Console.roll, surface.size_eq]
  simp only [Surface.offset_lt_iff hcol]

/-- How a text stands on a seat whose lines wrap, from the cursor of `c` on. The text passes the
end of a line `lines` times, and the screen has moved by `shift` rows to show its last line. -/
structure Wrapped (config : Config) (s : Seat) (id : Nat) (c : Console) (text : List UInt8)
    (lines shift : Nat) (t : Seat) : Prop where
  lines_eq : lines = (c.col + text.length - 1) / config.screen.columns
  shift_eq : shift = c.row + lines - (config.screen.rows - 1)
  /-- The cursor is behind the last character, in the same line. -/
  cursor : ∃ c', t.consoles[id]? = some c' ∧
    c'.row = min (c.row + lines) (config.screen.rows - 1) ∧
    c'.col = (c.col + text.length - 1) % config.screen.columns + 1
  /-- A character is at its place, unless its row has left the screen. -/
  character : ∀ j (hj : j < text.length), shift ≤ c.row + (c.col + j) / config.screen.columns →
    t.cellAt? id (c.row + (c.col + j) / config.screen.columns - shift)
      ((c.col + j) % config.screen.columns) = some (Cell.ofCode text[j] c.pen)
  /-- Any other cell has moved with its row. -/
  other : ∀ row < config.screen.rows, ∀ col < config.screen.columns,
    (∀ j < text.length, ¬ (row + shift = c.row + (c.col + j) / config.screen.columns ∧
      col = (c.col + j) % config.screen.columns)) →
    t.cellAt? id row col =
      if row + shift < config.screen.rows then (s.flush id).cellAt? id (row + shift) col
      else some (Cell.blank c.blank)

/-- How a text stands on a seat whose lines do not wrap, from the cursor of `c` on. -/
structure Cut (config : Config) (s : Seat) (id : Nat) (c : Console) (text : List UInt8)
    (t : Seat) : Prop where
  cursor : ∃ c', t.consoles[id]? = some c' ∧ c'.row = c.row ∧
    c'.col = min (c.col + text.length) config.screen.columns ∧ c'.origin = c.origin
  /-- The characters that the line has room for are in it. -/
  character : ∀ j (hj : j < text.length), c.col + j < config.screen.columns →
    t.cellAt? id c.row (c.col + j) = some (Cell.ofCode text[j] c.pen)
  /-- Any other cell is where it was. -/
  other : ∀ row < config.screen.rows, ∀ col < config.screen.columns,
    ¬ (row = c.row ∧ c.col ≤ col ∧ col < c.col + text.length) →
      t.cellAt? id row col = (s.flush id).cellAt? id row col

/-- **Text on lines that wrap.** The screen moves down the roll until it shows the last line. -/
theorem Reached.wrapped_sendRun (h : Reached config s) (hc : s.consoles[id]? = some c)
    (hground : c.escape = .ground) (hne : text ≠ [])
    (htext : ∀ byte ∈ text, byte ∉ controlBytes) (hwrap : config.behavior.lineWrap = true) :
    ∃ lines shift, Wrapped config s id c text lines shift (s.sendRun id text) := by
  have hsound := h.sound
  have hcodes : ∀ code ∈ text, ControlCode.ofByte? code = none :=
    fun code hcode => ControlCode.ofByte?_eq_none_iff.mpr (htext code hcode)
  obtain ⟨n, htyped, hbehind⟩ := Console.typed_acceptAll (h.lineWrap.trans hwrap)
    (hsound.drawn hc) hground hcodes
  obtain ⟨c', hc', hrow', hcol', _, hcells⟩ := hsound.sendRun_typed hc htyped
  have hflushed := hsound.rows?_flush hc
  have hcursor := htyped.cursor
  have hbottom := htyped.bottom
  have hrow_lt := htyped.drawn.placed.row_lt
  have hcol_le := htyped.drawn.placed.col_le
  have hcol_pos := hbehind hne
  have hlength := List.length_pos_iff.mpr hne
  rw [← hrow', ← hcol'] at hcursor
  rw [← hrow'] at hbottom hrow_lt
  rw [← hcol'] at hcol_le hcol_pos
  have hcolumns := (h.columns_surface id c).symm
  have hrows := (h.rows_surface id c).symm
  generalize s.surface id c = surface at *
  -- Counted from the top of the roll, the last character is in the line of the cursor.
  obtain ⟨hlines, hlast⟩ := @Surface.offset_unique surface (c'.row + n) (c'.col - 1) c.row
    (c.col + text.length - 1) (by omega) (by rw [Nat.add_mul]; omega)
  have hshift : n = c.row + (c.col + text.length - 1) / surface.columns - (surface.rows - 1) := by
    by_cases hn : n = 0
    · omega
    · have := hbottom hn
      omega
  refine ⟨_, n, ⟨rfl, ?_, ⟨c', hc', ?_, ?_⟩, ?_, ?_⟩⟩
  · rw [hcolumns, hrows, hshift]
  · rw [hcolumns, hrows]
    omega
  · rw [hcolumns]
    omega
  · rw [hcolumns]
    intro j hj hshown
    have hline : (c.col + j) / surface.columns ≤ (c.col + text.length - 1) / surface.columns :=
      Nat.div_le_div_right (by omega)
    rw [hcells _ (by omega) _ (Nat.mod_lt _ (by omega)), Nat.sub_add_cancel hshown, Nat.add_mul,
      Nat.add_assoc, Nat.div_add_mod', setting_of_lt surface _ hj]
  · rw [hcolumns, hrows]
    intro row hrow col hcol hfree
    rw [hcells row hrow col hcol, setting_of_forall_ne hcol fun j hj heq =>
      hfree j hj (Surface.offset_unique hcol heq)]
    split
    · rw [cellAt?_eq hflushed ‹_› hcol]
    · rfl

/-- **Text on a line that does not wrap.** The line is filled up to its end, and nothing else
happens. -/
theorem Reached.cut_sendRun (h : Reached config s) (hc : s.consoles[id]? = some c)
    (hground : c.escape = .ground) (htext : ∀ byte ∈ text, byte ∉ controlBytes)
    (hwrap : config.behavior.lineWrap = false) : Cut config s id c text (s.sendRun id text) := by
  have hsound := h.sound
  have hcodes : ∀ code ∈ text, ControlCode.ofByte? code = none :=
    fun code hcode => ControlCode.ofByte?_eq_none_iff.mpr (htext code hcode)
  obtain ⟨htyped, hrow, hcol⟩ := Console.typed_acceptAll_take (h.lineWrap.trans hwrap)
    (hsound.drawn hc) hground hcodes
  obtain ⟨c', hc', hrow', hcol', horigin, hcells⟩ := hsound.sendRun_typed hc htyped
  have hflushed := hsound.rows?_flush hc
  have hrow_lt := (hsound.placed hc).row_lt
  have hcolumns := (h.columns_surface id c).symm
  have hrows := (h.rows_surface id c).symm
  refine ⟨⟨c', hc', hrow'.trans hrow, ?_, horigin rfl⟩, ?_, ?_⟩
  · rw [hcolumns, hcol', hcol]
  · rw [hcolumns]
    intro j hj hin
    have htake : j < (text.take ((s.surface id c).columns - c.col)).length := by
      rw [List.length_take]
      omega
    rw [hcells _ hrow_lt _ hin, Nat.add_zero, setting_of_lt _ _ htake, List.getElem_take]
  · rw [hcolumns, hrows]
    intro row hrow col hcol hfree
    rw [hcells row hrow col hcol, Nat.add_zero, setting_of_forall_ne hcol, if_pos hrow,
      cellAt?_eq hflushed hrow hcol]
    intro j hj heq
    rw [List.length_take] at hj
    have hin : c.col + j < (s.surface id c).columns := by omega
    obtain ⟨hline, hplace⟩ := Surface.offset_unique hcol heq
    rw [Nat.div_eq_of_lt hin] at hline
    rw [Nat.mod_eq_of_lt hin] at hplace
    exact hfree ⟨hline, by omega, by omega⟩

/-- **The layout of printed text.** Text is what a console outside any escape sequence is sent
without control codes. Where lines wrap, it goes on from the cursor over as many lines as it
needs, in the current rendition. The screen moves up by as many rows as there are too few below
the cursor, each other cell with it, and blanks come into view. The cursor ends behind the last
character, in the same line. Where lines do not wrap, the text is cut at the end of the line, and
nothing else changes. -/
theorem text_layout (h : Reached config s) (hc : s.consoles[id]? = some c)
    (hground : c.escape = .ground) (hne : text ≠ [])
    (htext : ∀ byte ∈ text, byte ∉ controlBytes) :
    (config.behavior.lineWrap = true →
      ∃ lines shift, Wrapped config s id c text lines shift (s.sendRun id text)) ∧
    (config.behavior.lineWrap = false → Cut config s id c text (s.sendRun id text)) :=
  ⟨h.wrapped_sendRun hc hground hne htext, h.cut_sendRun hc hground htext⟩

/-- Two screens of two lines that do not wrap, on one display. -/
def narrowPages : Config where
  screen := ⟨3, 2⟩
  behavior := { maxConsoles := 2, lineWrap := false }
  displays := [{ capacity := 16 }]

/-- Two letters set at the end of the last row, behind two that still wait. The first fills the
row, which moves up, and the second starts the next. Without line wrap the second is lost. -/
theorem text_layout_twoPages :
    (∃ s c c', Reached twoPages s ∧ s.consoles[1]? = some c ∧ c.queue.length = 2 ∧
      (s.sendRun 1 [0x43, 0x44]).consoles[1]? = some c' ∧ c'.row = 1 ∧ c'.col = 1 ∧
      (s.sendRun 1 [0x43, 0x44]).cellAt? 1 0 1 = (s.flush 1).cellAt? 1 1 1 ∧
      (s.sendRun 1 [0x43, 0x44]).cellAt? 1 0 2 = some (Cell.ofCode 0x43 c.pen) ∧
      (s.sendRun 1 [0x43, 0x44]).cellAt? 1 1 0 = some (Cell.ofCode 0x44 c.pen)) ∧
    ∃ s c c', Reached narrowPages s ∧ s.consoles[1]? = some c ∧
      (s.sendRun 1 [0x43, 0x44]).consoles[1]? = some c' ∧ c'.row = 1 ∧ c'.col = 3 ∧
      (s.sendRun 1 [0x43, 0x44]).cellAt? 1 1 1 = (s.flush 1).cellAt? 1 1 1 ∧
      (s.sendRun 1 [0x43, 0x44]).cellAt? 1 1 2 = some (Cell.ofCode 0x43 c.pen) := by
  refine ⟨?_, ?_⟩
  · have hreached : Reached twoPages _ :=
      ⟨_, [.send 1 0x0A, .send 1 0x41, .send 1 0x42], rfl, rfl⟩
    obtain ⟨_, _, rfl, rfl, ⟨c', hc', hrow, hcol⟩, hset, hrest⟩ :=
      (@text_layout _ _ _ 1 [0x43, 0x44] hreached rfl rfl (by decide) (by decide +kernel)).1 rfl
    exact ⟨_, _, c', hreached, rfl, rfl, hc', hrow, hcol,
      hrest 0 (by decide) 1 (by decide) (by decide +kernel),
      hset 0 (by decide) (by decide +kernel), hset 1 (by decide) (by decide +kernel)⟩
  · have hreached : Reached narrowPages _ :=
      ⟨_, [.send 1 0x0A, .send 1 0x41, .send 1 0x42], rfl, rfl⟩
    obtain ⟨⟨c', hc', hrow, hcol, _⟩, hset, hrest⟩ :=
      (@text_layout _ _ _ 1 [0x43, 0x44] hreached rfl rfl (by decide) (by decide +kernel)).2 rfl
    exact ⟨_, _, c', hreached, rfl, hc', hrow, hcol,
      hrest 1 (by decide) 1 (by decide) (by decide +kernel),
      hset 0 (by decide) (by decide +kernel)⟩

end Seat

end TextConsole
