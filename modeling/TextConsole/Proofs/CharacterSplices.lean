import TextConsole.Proofs.Splices

/-!
# Characters put in and taken out

Two commands splice the cells of the cursor's row at the cursor: one puts blanks in front of
the cell under the cursor, the other takes cells out from there on. The row keeps its width,
so cells are lost at its end or blanks come in there. No other row changes
(`Surface.rowsOf_spliceChars`).

The copy and the fill go by the address of the cursor. After the last character of a full row
that is the address of the next row, or of the next console's window; but then both of them are
empty, and the command is a flush (`characters_spliced`). Inside an unfinished escape sequence
the same bytes are text (`characters_printed_oneScreen`).
-/

namespace TextConsole

open Escape (IsDigit decimal bracketed parameterLimit)

/-! ## Splices of a row -/

namespace Splice

/-- The command that splices characters. -/
def chars (count : Nat) : Splice → Command
  | insert => .insertChars count
  | delete => .deleteChars count

/-- The final byte of that command: `@` or `P`. -/
def charsByte : Splice → UInt8
  | insert => 0x40
  | delete => 0x50

theorem isEdit_chars (splice : Splice) (count : Nat) : (splice.chars count).IsEdit := by
  cases splice <;> trivial

theorem ofSequence?_chars (splice : Splice) (digits : List UInt8) :
    Command.ofSequence? (.bracketed digits splice.charsByte) =
      some (splice.chars (max (min (decimal digits) parameterLimit) 1)) := by
  cases splice <;> rfl

end Splice

namespace Surface

variable {s : Surface} {row col count : Nat} {blank : Cell} {shown : Nat → Cell}

/-- Screens whose cells differ in one row only have the same other rows. -/
theorem rowsOf_modify {shown' : Nat → Cell} (f : List Cell → List Cell)
    (hrow : (List.range s.columns).map (fun j => shown' (row * s.columns + j)) =
      f ((List.range s.columns).map fun j => shown (row * s.columns + j)))
    (hothers : ∀ i ≠ row, ∀ j < s.columns,
      shown' (i * s.columns + j) = shown (i * s.columns + j)) :
    s.rowsOf shown' = (s.rowsOf shown).modify row f := by
  apply List.ext_getElem
  · simp
  · intro i _ _
    rw [List.getElem_modify]
    simp only [rowsOf, List.getElem_map, List.getElem_range]
    by_cases hi : row = i
    · subst hi
      rw [if_pos rfl, hrow]
    · rw [if_neg hi]
      exact List.map_congr_left fun j hj => hothers i (Ne.symm hi) j (List.mem_range.mp hj)

/-- A splice keeps the cells in front of the cursor and those of other rows. -/
theorem applyAll_spliceChars_of_outside (splice : Splice) {k : Nat}
    (h : k < row * s.columns + col ∨ row * s.columns + s.columns ≤ k) :
    Patch.applyAll blank shown ((splice.chars count).patches s row col) k = shown k := by
  cases splice with
  | insert | delete =>
      simp only [Splice.chars, Command.patches, Patch.applyAll, List.foldl_cons, List.foldl_nil,
        Patch.apply]
      rw [if_neg (by omega), if_neg (by omega)]

/-- Characters put in push on the cells from the cursor's on. -/
theorem applyAll_insertChars {j : Nat} (hcol : col ≤ j) (hj : j < s.columns) :
    Patch.applyAll blank shown ((Command.insertChars count).patches s row col)
        (row * s.columns + j) =
      if j < col + min count (s.columns - col) then blank
      else shown (row * s.columns + (j - min count (s.columns - col))) := by
  simp only [Command.patches, Patch.applyAll, List.foldl_cons, List.foldl_nil, Patch.apply]
  by_cases hgap : j < col + min count (s.columns - col)
  · rw [if_pos (by omega), if_pos hgap]
  · rw [if_neg (by omega), if_pos (by omega), if_neg hgap]
    congr 1
    omega

/-- Characters taken out are closed up from behind. -/
theorem applyAll_deleteChars {j : Nat} (hcol : col ≤ j) (hj : j < s.columns) :
    Patch.applyAll blank shown ((Command.deleteChars count).patches s row col)
        (row * s.columns + j) =
      if j + min count (s.columns - col) < s.columns then
        shown (row * s.columns + (j + min count (s.columns - col)))
      else blank := by
  simp only [Command.patches, Patch.applyAll, List.foldl_cons, List.foldl_nil, Patch.apply]
  by_cases hkept : j + min count (s.columns - col) < s.columns
  · rw [if_neg (by omega), if_pos (by omega), if_pos hkept]
    congr 1
    omega
  · rw [if_pos (by omega), if_neg hkept]

/-- **Patched cells are a spliced row**, among rows that stay as they are. -/
theorem rowsOf_spliceChars (s : Surface) (blank : Cell) (shown : Nat → Cell) (row : Nat)
    (hcol : col ≤ s.columns) (splice : Splice) (count : Nat) :
    s.rowsOf (Patch.applyAll blank shown ((splice.chars count).patches s row col)) =
      (s.rowsOf shown).modify row (splice.apply blank col (min count (s.columns - col))) := by
  have hroom : col + min count (s.columns - col) ≤ s.columns := by omega
  apply rowsOf_modify
  · cases splice with
    | insert =>
        rw [Splice.apply, openGap_map_range _ hroom]
        refine List.map_congr_left fun j hj => ?_
        by_cases hbefore : j < col
        · rw [applyAll_spliceChars_of_outside _ (by omega), if_pos hbefore]
        · rw [if_neg hbefore]
          exact applyAll_insertChars (Nat.le_of_not_lt hbefore) (List.mem_range.mp hj)
    | delete =>
        rw [Splice.apply, closeGap_map_range _ hroom]
        refine List.map_congr_left fun j hj => ?_
        by_cases hbefore : j < col
        · rw [applyAll_spliceChars_of_outside _ (by omega), if_pos hbefore]
        · rw [if_neg hbefore]
          exact applyAll_deleteChars (Nat.le_of_not_lt hbefore) (List.mem_range.mp hj)
  · intro i hi j hj
    have hout := mt (offset_mem_row_iff hj i row).mp hi
    exact applyAll_spliceChars_of_outside _ (by omega)

end Surface

/-- Past the last column there is nothing to splice, wherever the cursor's address points. -/
theorem Display.performAll_spliceChars_end (d : Display) (s : Surface) (origin row : Nat)
    (splice : Splice) (count : Nat) :
    d.performAll (((splice.chars count).patches s row s.columns).map
      (Patch.effect origin)).toArray = d := by
  have hcopy : ∀ src dest, d.perform (.copy src dest 0) = d := fun _ _ => rfl
  have hfill : ∀ dest, d.perform (.fill dest 0) = d := by
    intro dest
    rw [perform, VideoMemory.fill, List.replicate_zero, VideoMemory.write_nil]
  cases splice with
  | insert | delete =>
      simp only [Splice.chars, Command.patches, List.map_cons, List.map_nil, Patch.effect,
        Nat.sub_self, Nat.min_zero]
      rw [performAll, List.foldl_toArray, List.foldl_cons, List.foldl_cons, List.foldl_nil, hcopy,
        hfill]

namespace Seat

variable {config : Config} {s t : Seat} {c : Console} {id : Nat} {digits : List UInt8}

/-- **Inserted and deleted characters are splices** of the cursor's row, as a flush shows it,
for a console outside any escape sequence. The number of cells is what the digits write, but at
least one and at most the number of columns from the cursor's on, and they come in the console's
own blanks. The other rows, the window, the cursor and the pen stay as they are, and so does
every word that the window does not show, on this display and on any other. With the cursor
past the last column the command is a flush. -/
theorem characters_spliced (h : Reached config s) (hc : s.consoles[id]? = some c)
    (hescape : c.escape = .ground) (hdigits : ∀ byte ∈ digits, IsDigit byte) (splice : Splice)
    (ht : Sent s id (bracketed digits splice.charsByte) t) :
    (∃ rows, (s.flush id).rows? id = some rows ∧ rows.length = config.screen.rows ∧
      (∀ row ∈ rows, row.length = config.screen.columns) ∧
      t.rows? id = some
        (rows.modify c.row (splice.apply (Cell.blank c.blank) c.col
          (min (max (decimal digits) 1) (config.screen.columns - c.col))))) ∧
    (∃ c', t.consoles[id]? = some c' ∧ c'.origin = c.origin ∧ c'.row = c.row ∧ c'.col = c.col ∧
      c'.pen = c.pen) ∧
    (∀ k a, a < (s.displays.getD k default).capacity →
      (c.region.display = k → ∀ i < config.screen.size,
        (c.origin + i) % (s.displays.getD k default).capacity ≠ a) →
      (t.displays.getD k default).memory.cell a = (s.displays.getD k default).memory.cell a) ∧
    (c.col = config.screen.columns → t = s.flush id) := by
  have hsound := h.sound
  have hplaced := hsound.placed hc
  have hcolumns_le := (hsound.holds hc).columns_le
  have hcommand := splice.ofSequence?_chars digits
  have hedited := hsound.edited hc hescape hdigits hcommand (splice.isEdit_chars _) ht
  -- No row has as many columns as the limit of a parameter.
  have hcount : min (max (min (decimal digits) parameterLimit) 1)
      ((s.surface id c).columns - c.col) =
        min (max (decimal digits) 1) (config.screen.columns - c.col) := by
    rw [h.columns_surface] at hcolumns_le ⊢
    unfold parameterLimit
    omega
  refine ⟨⟨_, hsound.rows?_flush hc, ?_, ?_, ?_⟩, ⟨_, hedited.console, rfl, ?_, ?_, rfl⟩, ?_, ?_⟩
  · rw [Surface.length_rowsOf, h.rows_surface]
  · intro row hrow
    rw [Surface.length_of_mem_rowsOf hrow, h.columns_surface]
  · rw [hedited.rows, Surface.rowsOf_spliceChars _ _ _ _ hplaced.col_le, hcount]
  · exact Console.confineRow_of_lt hplaced.row_lt
  · exact Console.confineColumn_of_le hplaced.col_le
  · rw [← h.size_surface id c]
    exact hedited.outside
  · intro hend
    rw [← h.columns_surface id c] at hend
    rw [hsound.sent_command hc hescape hdigits hcommand ht,
      hsound.run_obey_edit hc (splice.isEdit_chars _), hend]
    exact (patch_congr _ fun d _ => d.performAll_spliceChars_end _ _ _ _ _).trans (patch_nil _ _)

/-- One screen of two rows of three columns, on eight words that wrap. -/
def wrappingRows : Config where
  screen := ⟨3, 2⟩
  behavior := { maxConsoles := 1 }
  displays := [{ capacity := 8, wraps := true }]

/-- A row that goes around the end of memory, with a character in the queue: a character is put
in with no number given, and characters are taken out with a number that does not fit 32 bits.
Two characters later the cursor is past the end of the row, and its address is one word behind
the window. -/
theorem characters_spliced_wrappingRows :
    ∃ s c, Reached wrappingRows s ∧ s.consoles[0]? = some c ∧ c.origin = 3 ∧ c.row = 1 ∧
      c.col = 1 ∧
      (s.flush 0).rows? 0 =
        some [[⟨0x0720⟩, ⟨0x0720⟩, ⟨0x0720⟩], [⟨0x0744⟩, ⟨0x0742⟩, ⟨0x0743⟩]] ∧
      (s.sends 0 (bracketed [] 0x40)).rows? 0 =
        some [[⟨0x0720⟩, ⟨0x0720⟩, ⟨0x0720⟩], [⟨0x0744⟩, ⟨0x0720⟩, ⟨0x0742⟩]] ∧
      (s.sendRun 0
        (bracketed [0x34, 0x32, 0x39, 0x34, 0x39, 0x36, 0x37, 0x32, 0x39, 0x37] 0x50)).rows? 0 =
        some [[⟨0x0720⟩, ⟨0x0720⟩, ⟨0x0720⟩], [⟨0x0744⟩, ⟨0x0720⟩, ⟨0x0720⟩]] ∧
      (s.sends 0 [0x45, 0x46]).sends 0 (bracketed [] 0x50) = (s.sends 0 [0x45, 0x46]).flush 0 := by
  have hreached : Reached wrappingRows _ :=
    ⟨_, [.scroll 0 .up, .sendRun 0 [0x0A, 0x41, 0x42, 0x43, 0x1B, 0x5B, 0x32, 0x48],
      .send 0 0x44], rfl, rfl⟩
  have hreached' := (hreached.apply (.send 0 0x45)).apply (.send 0 0x46)
  obtain ⟨⟨rows, hrows, _, _, hinserted⟩, _⟩ := @characters_spliced _ _ _ _ 0 [] hreached rfl rfl
    (List.forall_mem_nil _) .insert (Or.inl rfl)
  obtain ⟨⟨rows', hrows', _, _, hdeleted⟩, _⟩ := @characters_spliced _ _ _ _ 0
    [0x34, 0x32, 0x39, 0x34, 0x39, 0x36, 0x37, 0x32, 0x39, 0x37] hreached rfl rfl
    (by decide +kernel) .delete (Or.inr rfl)
  obtain ⟨_, _, _, hend⟩ := @characters_spliced _ _ _ _ 0 [] hreached' rfl rfl
    (List.forall_mem_nil _) .delete (Or.inl rfl)
  have hshown : some rows =
      some [[⟨0x0720⟩, ⟨0x0720⟩, ⟨0x0720⟩], [⟨0x0744⟩, ⟨0x0742⟩, ⟨0x0743⟩]] :=
    hrows.symm.trans (by decide +kernel)
  obtain rfl := Option.some.inj (hrows'.symm.trans hrows)
  obtain rfl := Option.some.inj hshown
  exact ⟨_, _, hreached, rfl, by decide +kernel, by decide +kernel, by decide +kernel, hrows,
    hinserted, hdeleted, hend (by decide +kernel)⟩

/-- **An unfinished sequence takes the escape for itself**, and what follows is printed: no
character is put in. -/
theorem characters_printed_oneScreen :
    ∃ s c rows, Reached oneScreen s ∧ s.consoles[0]? = some c ∧ c.row = 0 ∧ c.col = 0 ∧
      (s.flush 0).rows? 0 = some rows ∧
      (s.sendRun 0 (bracketed [] 0x40)).rows? 0 =
        some [[⟨0x075B⟩, ⟨0x0740⟩], [⟨0x0720⟩, ⟨0x0720⟩]] ∧
      (s.sendRun 0 (bracketed [] 0x40)).rows? 0 ≠
        some (rows.modify 0 (Splice.insert.apply (Cell.blank c.blank) 0 1)) := by
  have hreached : Reached oneScreen _ := ⟨_, [.send 0 0x1B], rfl, rfl⟩
  exact ⟨_, _, [[⟨0x0720⟩, ⟨0x0720⟩], [⟨0x0720⟩, ⟨0x0720⟩]], hreached, rfl, rfl, rfl,
    by decide +kernel, by decide +kernel, by decide +kernel⟩

end Seat

end TextConsole
