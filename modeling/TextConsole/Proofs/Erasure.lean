import TextConsole.Proofs.CharacterSplices

/-!
# Erasing

Two commands blank cells around the cursor, on all of the screen or in the cursor's row: from
the cursor on, up to the cursor, or everywhere (`Erasure.Covers`). Each of them fills one run of
the window, which begins at its start, at the start of a row or at the cursor
(`Erasure.covers_iff`). So exactly the cells that the mode covers are blanked, and a parameter
that is no mode leaves a flush (`erasure_blanks_region`). What is before the cursor and what is
from it on make up the whole, so one after the other they are as good as everything at once.

Inside an unfinished escape sequence the same bytes are text (`erasure_printed_oneScreen`).
-/

namespace TextConsole

open Escape (IsDigit decimal bracketed parameterLimit)

/-! ## What an erasure covers -/

namespace EraseMode

/-- The parameter that selects a mode. -/
def value : EraseMode → Nat
  | toEnd => 0
  | toCursor => 1
  | all => 2

theorem ofValue?_value (mode : EraseMode) : ofValue? mode.value = some mode := by
  cases mode <;> rfl

theorem ofValue?_eq_none_iff {value : Nat} : ofValue? value = none ↔ 2 < value := by
  match value with
  | 0 | 1 | 2 => exact iff_of_false nofun (by decide)
  | n + 3 => exact iff_of_true rfl (by omega)

/-- Whether a position is covered, with the cursor at another one. -/
def Covers (cursor position : Nat) : EraseMode → Prop
  | toEnd => cursor ≤ position
  | toCursor => position < cursor
  | all => True

instance (cursor position : Nat) (mode : EraseMode) : Decidable (mode.Covers cursor position) :=
  match mode with
  | toEnd => inferInstanceAs (Decidable (_ ≤ _))
  | toCursor => inferInstanceAs (Decidable (_ < _))
  | all => isTrue trivial

end EraseMode

/-- Whether an erasure goes over the whole screen or over one line. -/
inductive Erasure where
  | display
  | line
deriving DecidableEq, Repr

namespace Erasure

/-- The command that erases. -/
def command (mode : EraseMode) : Erasure → Command
  | display => .eraseInDisplay mode
  | line => .eraseInLine mode

/-- The final byte of that command: `J` or `K`. -/
def byte : Erasure → UInt8
  | display => 0x4A
  | line => 0x4B

theorem isEdit_command (erasure : Erasure) (mode : EraseMode) :
    (erasure.command mode).IsEdit := by
  cases erasure <;> trivial

theorem ofSequence?_bracketed (erasure : Erasure) (digits : List UInt8) :
    Command.ofSequence? (.bracketed digits erasure.byte) =
      (EraseMode.ofValue? (min (decimal digits) parameterLimit)).map erasure.command := by
  cases erasure <;> rfl

theorem ofSequence?_of_decimal (erasure : Erasure) {digits : List UInt8} {mode : EraseMode}
    (h : decimal digits = mode.value) :
    Command.ofSequence? (.bracketed digits erasure.byte) = some (erasure.command mode) := by
  have hsmall : mode.value ≤ parameterLimit := by cases mode <;> decide
  rw [ofSequence?_bracketed, h, Nat.min_eq_left hsmall, EraseMode.ofValue?_value, Option.map_some]

/-- A parameter that selects no mode makes no command. -/
theorem ofSequence?_of_two_lt (erasure : Erasure) {digits : List UInt8}
    (h : 2 < decimal digits) :
    Command.ofSequence? (.bracketed digits erasure.byte) = none := by
  have hlarge : 2 < min (decimal digits) parameterLimit := by
    unfold parameterLimit
    omega
  rw [ofSequence?_bracketed, EraseMode.ofValue?_eq_none_iff.mpr hlarge, Option.map_none]

theorem not_isParameter_byte (erasure : Erasure) : ¬ Escape.IsParameter erasure.byte := by
  cases erasure <;> decide

/-- Whether the cell in column `j` of row `i` is covered, with the cursor at `row` and `col`.
Positions on the screen are counted row by row, positions on a line by columns. -/
def Covers (columns row col : Nat) (mode : EraseMode) (i j : Nat) : Erasure → Prop
  | display => mode.Covers (row * columns + col) (i * columns + j)
  | line => i = row ∧ mode.Covers col j

instance (columns row col : Nat) (mode : EraseMode) (i j : Nat) (erasure : Erasure) :
    Decidable (erasure.Covers columns row col mode i j) :=
  match erasure with
  | display => inferInstanceAs (Decidable (EraseMode.Covers _ _ _))
  | line => inferInstanceAs (Decidable (_ ∧ _))

/-! ## The run that an erasure fills -/

/-- Where the run starts. -/
def start (s : Surface) (row col : Nat) : EraseMode → Erasure → Nat
  | .toEnd, _ => row * s.columns + col
  | _, display => 0
  | _, line => row * s.columns

def length (s : Surface) (row col : Nat) : EraseMode → Erasure → Nat
  | .toEnd, display => s.size - (row * s.columns + col)
  | .toCursor, display => row * s.columns + col
  | .all, display => s.size
  | .toEnd, line => s.columns - col
  | .toCursor, line => col
  | .all, line => s.columns

variable {s : Surface} {row col i j : Nat}

theorem patches_command (s : Surface) (row col : Nat) (erasure : Erasure) (mode : EraseMode) :
    (erasure.command mode).patches s row col =
      [.fill (erasure.start s row col mode) (erasure.length s row col mode)] := by
  cases erasure <;> cases mode <;> rfl

/-- **The run is what the mode covers.** -/
theorem covers_iff (hcol : col ≤ s.columns) (hi : i < s.rows) (hj : j < s.columns)
    (erasure : Erasure) (mode : EraseMode) :
    erasure.Covers s.columns row col mode i j ↔
      erasure.start s row col mode ≤ i * s.columns + j ∧
        i * s.columns + j < erasure.start s row col mode + erasure.length s row col mode := by
  have hsize := s.offset_le hi (Nat.succ_le_of_lt hj)
  cases erasure with
  | display =>
      cases mode <;> simp only [Covers, EraseMode.Covers, start, length, true_iff] <;> omega
  | line =>
      -- The run lies in the cursor's row.
      have hrow := Surface.offset_mem_row_iff hj i row
      by_cases hsame : i = row
      · subst hsame
        cases mode <;>
          simp only [Covers, EraseMode.Covers, start, length, true_and, true_iff] <;> omega
      · have hout := mt hrow.mp hsame
        cases mode <;>
          simp only [Covers, EraseMode.Covers, start, length, hsame, false_and, false_iff] <;> omega

/-- Up to the cursor and from the cursor on are the whole. -/
theorem start_toEnd (s : Surface) (row col : Nat) (erasure : Erasure) :
    erasure.start s row col .toEnd =
      erasure.start s row col .toCursor + erasure.length s row col .toCursor := by
  cases erasure with
  | display => exact (Nat.zero_add _).symm
  | line => rfl

theorem length_all (hrow : row < s.rows) (hcol : col ≤ s.columns) (erasure : Erasure) :
    erasure.length s row col .all =
      erasure.length s row col .toCursor + erasure.length s row col .toEnd := by
  have hcursor := s.offset_le hrow hcol
  cases erasure with
  | display => exact (Nat.add_sub_of_le hcursor).symm
  | line => exact (Nat.add_sub_of_le hcol).symm

theorem start_all (s : Surface) (row col : Nat) (erasure : Erasure) :
    erasure.start s row col .all = erasure.start s row col .toCursor := by
  cases erasure <;> rfl

end Erasure

/-! ## Cells on the screen -/

/-- Rows whose cells are blanked at some positions. -/
def blankWhere (blank : Cell) (covered : Nat → Nat → Prop) [∀ i j, Decidable (covered i j)]
    (rows : List (List Cell)) : List (List Cell) :=
  rows.mapIdx fun i row => row.mapIdx fun j cell => if covered i j then blank else cell

theorem Surface.rowsOf_blankWhere {s : Surface} {blank : Cell} {shown shown' : Nat → Cell}
    {covered : Nat → Nat → Prop} [∀ i j, Decidable (covered i j)]
    (h : ∀ i < s.rows, ∀ j < s.columns, shown' (i * s.columns + j) =
      if covered i j then blank else shown (i * s.columns + j)) :
    s.rowsOf shown' = blankWhere blank covered (s.rowsOf shown) := by
  apply List.ext_getElem
  · simp [rowsOf, blankWhere]
  · intro i hi _
    rw [length_rowsOf] at hi
    apply List.ext_getElem
    · simp [rowsOf, blankWhere]
    · intro j hj _
      simp only [rowsOf, List.getElem_map, List.getElem_range, List.length_map,
        List.length_range] at hj
      simpa [rowsOf, blankWhere] using h i hi j hj

/-- **Erased cells are those that the mode covers.** -/
theorem Surface.rowsOf_erase {s : Surface} {row col : Nat} (blank : Cell) (shown : Nat → Cell)
    (hcol : col ≤ s.columns) (erasure : Erasure) (mode : EraseMode) :
    s.rowsOf (Patch.applyAll blank shown ((erasure.command mode).patches s row col)) =
      blankWhere blank (fun i j => erasure.Covers s.columns row col mode i j)
        (s.rowsOf shown) := by
  apply rowsOf_blankWhere
  intro i hi j hj
  rw [erasure.patches_command]
  exact if_congr (erasure.covers_iff hcol hi hj mode).symm rfl rfl

/-- A run of blanks may be stored in two parts. -/
theorem VideoMemory.fill_fill {m : VideoMemory} {dest len len' : Nat}
    (h : m.Fits dest (len + len')) :
    (m.fill dest len).fill (dest + len) len' = m.fill dest (len + len') := by
  have hblank : (m.fill dest len).blankCell = m.blankCell :=
    congrArg Cell.blank (blank_write ..)
  have hwhole : (List.replicate len m.blankCell ++ List.replicate len' m.blankCell).length =
      len + len' := by simp
  have hstored := write_append (hwhole.symm ▸ h)
  rw [List.replicate_append_replicate, List.length_replicate] at hstored
  rw [fill, hblank]
  exact hstored.symm

namespace Seat

variable {config : Config} {s t : Seat} {c : Console} {id : Nat} {digits : List UInt8}

/-- An erasure leaves all words as they were, save those of the cells that it covers. -/
theorem cell_patch_erase {surface : Surface} {row col k origin : Nat} (hrow : row < surface.rows)
    (hcol : col ≤ surface.columns) (erasure : Erasure) (mode : EraseMode) {j a : Nat}
    (hout : j = k → ∀ i < surface.rows, ∀ n < surface.columns,
      erasure.Covers surface.columns row col mode i n →
        (origin + (i * surface.columns + n)) % (s.displays.getD j default).capacity ≠
          a % (s.displays.getD j default).capacity) :
    ((s.patch k origin ((erasure.command mode).patches surface row col)).displays.getD j
        default).memory.cell a = (s.displays.getD j default).memory.cell a := by
  have hinside := (erasure.command mode).inside_of_mem_patches hrow hcol
  rw [erasure.patches_command] at hinside ⊢
  have hfits := hinside _ List.mem_cons_self
  simp only [Array.getD_eq_getD_getElem?] at hout ⊢
  simp only [patch, Array.getElem?_modify]
  by_cases hj : k = j
  · rw [if_pos hj]
    cases hd : s.displays[j]? with
    | none => rfl
    | some d =>
        rw [hd] at hout
        refine VideoMemory.cell_fill_of_ne fun n hn => ?_
        -- The word is that of a cell of the window.
        have hsize : erasure.start surface row col mode + n < surface.size := by
          simp only [Patch.Inside] at hfits
          omega
        obtain ⟨i, hi, l, hl, hoffset⟩ := surface.exists_offset hsize
        have hcovers : erasure.Covers surface.columns row col mode i l :=
          (erasure.covers_iff hcol hi hl mode).mpr ⟨by omega, by omega⟩
        have hne := hout hj.symm i hi l hl hcovers
        rw [← hoffset, ← Nat.add_assoc] at hne
        exact hne
  · rw [if_neg hj]

/-- Erasing up to the cursor and then from it on erases everything. -/
theorem Sound.patch_erase (h : s.Sound) (hc : s.consoles[id]? = some c) (erasure : Erasure) :
    (s.flush id).patch c.region.display c.origin
        ((erasure.command .toCursor).patches (s.surface id c) c.row c.col ++
          (erasure.command .toEnd).patches (s.surface id c) c.row c.col) =
      (s.flush id).patch c.region.display c.origin
        ((erasure.command .all).patches (s.surface id c) c.row c.col) := by
  have hplaced := h.placed hc
  have hinside := (erasure.command .all).inside_of_mem_patches hplaced.row_lt hplaced.col_le
  simp only [erasure.patches_command] at hinside ⊢
  have hlength := erasure.length_all hplaced.row_lt hplaced.col_le
  have hflushed := h.run id stepwise_flush
  have hc' := consoles_run_self (f := fun surface c => c.flush surface) hc
  have hwindow := (hflushed.placed hc').origin_within.holdsWindow (hflushed.holds hc')
    (surface_describes id _)
  rw [surface_run, surface_congr rfl] at hwindow
  have hfits := hwindow.fits_add (hinside _ List.mem_cons_self)
  refine patch_congr _ fun d hd => ?_
  have hdisplay : (s.flush id).displayOf (c.flushed (s.surface id c)) = d := by
    rw [displayOf_eq]
    exact congrArg (·.getD default) hd
  have hd' : d.memory.Fits (c.origin + erasure.start (s.surface id c) c.row c.col .toCursor)
      (erasure.length (s.surface id c) c.row c.col .toCursor +
        erasure.length (s.surface id c) c.row c.col .toEnd) := by
    rw [← hdisplay, ← hlength, ← erasure.start_all]
    exact hfits
  rw [hlength, erasure.start_all, erasure.start_toEnd]
  simp only [List.cons_append, List.nil_append, List.map_cons, List.map_nil, Patch.effect,
    ← Nat.add_assoc]
  exact congrArg (fun memory => { d with memory := memory }) (VideoMemory.fill_fill hd')

/-- **Erasures blank exactly what they cover** of the rows that a flush shows, in the console's
own blanks, for a console outside any escape sequence. All else of the seat is as after a flush:
the window, the cursor and the pen, the register writes, and every word that is not covered, on
this display and on any other. A parameter that selects no mode leaves a flush. Erasing up to
the cursor and then from it on leaves the very seat that erasing everything leaves. -/
theorem erasure_blanks_region (h : Reached config s) (hc : s.consoles[id]? = some c)
    (hescape : c.escape = .ground) (hdigits : ∀ byte ∈ digits, IsDigit byte) (erasure : Erasure)
    (ht : Sent s id (bracketed digits erasure.byte) t) :
    (2 < decimal digits → t = s.flush id) ∧
    (∀ mode : EraseMode, decimal digits = mode.value →
      t = { s.flush id with displays := t.displays } ∧
      (∃ c', t.consoles[id]? = some c' ∧ c'.origin = c.origin ∧ c'.row = c.row ∧
        c'.col = c.col ∧ c'.pen = c.pen ∧ c'.blank = c.blank) ∧
      (∃ rows, (s.flush id).rows? id = some rows ∧ rows.length = config.screen.rows ∧
        (∀ row ∈ rows, row.length = config.screen.columns) ∧
        t.rows? id = some (blankWhere (Cell.blank c.blank)
          (fun i j => erasure.Covers config.screen.columns c.row c.col mode i j) rows)) ∧
      ∀ k a, a < ((s.flush id).displays.getD k default).capacity →
        (k = c.region.display → ∀ i < config.screen.rows, ∀ j < config.screen.columns,
          erasure.Covers config.screen.columns c.row c.col mode i j →
            (c.origin + (i * config.screen.columns + j)) %
              ((s.flush id).displays.getD k default).capacity ≠ a) →
        (t.displays.getD k default).memory.cell a =
          ((s.flush id).displays.getD k default).memory.cell a) ∧
    (decimal digits = EraseMode.all.value → ∀ before rest u v,
      (∀ byte ∈ before, IsDigit byte) → (∀ byte ∈ rest, IsDigit byte) →
      decimal before = EraseMode.toCursor.value → decimal rest = EraseMode.toEnd.value →
      Sent s id (bracketed before erasure.byte) u → Sent u id (bracketed rest erasure.byte) v →
      v = t) := by
  have hsound := h.sound
  have hplaced := hsound.placed hc
  have hrow : (c.flushed (s.surface id c)).row = c.row := Console.confineRow_of_lt hplaced.row_lt
  have hcol : (c.flushed (s.surface id c)).col = c.col :=
    Console.confineColumn_of_le hplaced.col_le
  refine ⟨fun hlarge => ?_, fun mode hmode => ?_, fun hall before rest u v => ?_⟩
  · have hnone := erasure.ofSequence?_of_two_lt hlarge
    have hword := Escape.spells_digits hdigits (erasure.not_isParameter_byte)
    rw [hsound.sent_word hc hescape hword ht]
    exact run_congr hc (Console.execute_of_none hnone)
  · have hcommand := erasure.ofSequence?_of_decimal hmode
    have hedit := erasure.isEdit_command mode
    have hedited := hsound.edited hc hescape hdigits hcommand hedit ht
    have hpatched := (hsound.sent_command hc hescape hdigits hcommand ht).trans
      (hsound.run_obey_edit hc hedit)
    refine ⟨?_, ⟨_, hedited.console, rfl, hrow, hcol, rfl, rfl⟩,
      ⟨_, hsound.rows?_flush hc, ?_, ?_, ?_⟩, ?_⟩
    · rw [hpatched]
      rfl
    · rw [Surface.length_rowsOf, h.rows_surface]
    · intro row hmem
      rw [Surface.length_of_mem_rowsOf hmem, h.columns_surface]
    · rw [hedited.rows, Surface.rowsOf_erase _ _ hplaced.col_le]
      simp only [h.columns_surface]
    · intro k a ha hout
      rw [hpatched]
      refine cell_patch_erase hplaced.row_lt hplaced.col_le erasure mode ?_
      rw [h.rows_surface, h.columns_surface, Nat.mod_eq_of_lt ha]
      exact hout
  · intro hbefore hrest hstart hend hu hv
    have hcommand := erasure.ofSequence?_of_decimal hall
    have hfirst := erasure.ofSequence?_of_decimal hstart
    have hsecond := erasure.ofSequence?_of_decimal hend
    obtain rfl := hsound.sent_command hc hescape hbefore hfirst hu
    -- The first erasure leaves the console outside any sequence.
    have hground : (c.obey (s.surface id c) (erasure.command .toCursor)).value.escape =
        .ground := by
      rw [Console.obey_edit (hsound.drawn hc) (erasure.isEdit_command _)]
      exact hescape
    have hboth := (hsound.run id stepwise_obey).sent_command (consoles_run_self hc) hground hrest
      hsecond hv
    rw [hboth, hsound.sent_command hc hescape hdigits hcommand ht,
      hsound.run_obey_obey hc (erasure.isEdit_command _) (erasure.isEdit_command _),
      hsound.patch_erase hc, hsound.run_obey_edit hc (erasure.isEdit_command _)]

/-- A window that goes around the end of memory, with a character in the queue and the cursor in
the second row: from the cursor on, up to the cursor in its row, with a parameter that is zero
in 32 bits, and everything at once or in two parts. -/
theorem erasure_blanks_region_wrappingRows :
    ∃ s c, Reached wrappingRows s ∧ s.consoles[0]? = some c ∧ c.origin = 3 ∧ c.row = 1 ∧
      c.col = 1 ∧
      (s.flush 0).rows? 0 =
        some [[⟨0x0741⟩, ⟨0x0742⟩, ⟨0x0720⟩], [⟨0x0746⟩, ⟨0x0744⟩, ⟨0x0745⟩]] ∧
      (s.sends 0 (bracketed [] 0x4A)).rows? 0 =
        some [[⟨0x0741⟩, ⟨0x0742⟩, ⟨0x0720⟩], [⟨0x0746⟩, ⟨0x0720⟩, ⟨0x0720⟩]] ∧
      (s.sendRun 0 (bracketed [0x31] 0x4B)).rows? 0 =
        some [[⟨0x0741⟩, ⟨0x0742⟩, ⟨0x0720⟩], [⟨0x0720⟩, ⟨0x0744⟩, ⟨0x0745⟩]] ∧
      s.sends 0 (bracketed [0x34, 0x32, 0x39, 0x34, 0x39, 0x36, 0x37, 0x32, 0x39, 0x36] 0x4A) =
        s.flush 0 ∧
      (s.sends 0 (bracketed [0x31] 0x4A)).sendRun 0 (bracketed [] 0x4A) =
        s.sends 0 (bracketed [0x32] 0x4A) := by
  have hreached : Reached wrappingRows _ :=
    ⟨_, [.scroll 0 .up,
      .sendRun 0 [0x41, 0x42, 0x0A, 0x43, 0x44, 0x45, 0x1B, 0x5B, 0x32, 0x48], .send 0 0x46],
      rfl, rfl⟩
  obtain ⟨_, hend, _⟩ := @erasure_blanks_region _ _ _ _ 0 [] hreached rfl rfl
    (List.forall_mem_nil _) .display (Or.inl rfl)
  obtain ⟨_, hstart, _⟩ := @erasure_blanks_region _ _ _ _ 0 [0x31] hreached rfl rfl
    (by decide +kernel) .line (Or.inr rfl)
  obtain ⟨hnone, _⟩ := @erasure_blanks_region _ _ _ _ 0
    [0x34, 0x32, 0x39, 0x34, 0x39, 0x36, 0x37, 0x32, 0x39, 0x36] hreached rfl rfl
    (by decide +kernel) .display (Or.inl rfl)
  obtain ⟨_, _, hall⟩ := @erasure_blanks_region _ _ _ _ 0 [0x32] hreached rfl rfl
    (by decide +kernel) .display (Or.inl rfl)
  obtain ⟨_, _, ⟨rows, hrows, _, _, herased⟩, _⟩ := hend .toEnd (by decide +kernel)
  obtain ⟨_, _, ⟨rows', hrows', _, _, herased'⟩, _⟩ := hstart .toCursor (by decide +kernel)
  have hshown : some rows =
      some [[⟨0x0741⟩, ⟨0x0742⟩, ⟨0x0720⟩], [⟨0x0746⟩, ⟨0x0744⟩, ⟨0x0745⟩]] :=
    hrows.symm.trans (by decide +kernel)
  obtain rfl := Option.some.inj (hrows'.symm.trans hrows)
  obtain rfl := Option.some.inj hshown
  exact ⟨_, _, hreached, rfl, by decide +kernel, by decide +kernel, by decide +kernel, hrows,
    herased, herased', hnone (by decide +kernel),
    hall (by decide +kernel) [0x31] [] _ _ (by decide +kernel) (List.forall_mem_nil _)
      (by decide +kernel) (by decide +kernel) (Or.inl rfl) (Or.inr rfl)⟩

/-- **An unfinished sequence takes the escape for itself**, and what follows is printed: nothing
is erased. -/
theorem erasure_printed_oneScreen :
    ∃ s c rows, Reached oneScreen s ∧ s.consoles[0]? = some c ∧ c.row = 0 ∧ c.col = 0 ∧
      (s.flush 0).rows? 0 = some rows ∧
      (s.sendRun 0 (bracketed [0x32] 0x4A)).rows? 0 =
        some [[⟨0x075B⟩, ⟨0x0732⟩], [⟨0x074A⟩, ⟨0x0720⟩]] ∧
      (s.sendRun 0 (bracketed [0x32] 0x4A)).rows? 0 ≠
        some (blankWhere (Cell.blank c.blank)
          (fun i j => Erasure.display.Covers 2 0 0 .all i j) rows) := by
  have hreached : Reached oneScreen _ := ⟨_, [.send 0 0x1B], rfl, rfl⟩
  exact ⟨_, _, [[⟨0x0720⟩, ⟨0x0720⟩], [⟨0x0720⟩, ⟨0x0720⟩]], hreached, rfl, rfl, rfl,
    by decide +kernel, by decide +kernel, by decide +kernel⟩

end Seat

end TextConsole
