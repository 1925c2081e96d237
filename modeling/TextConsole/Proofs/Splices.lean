import TextConsole.Proofs.Homing
import TextConsole.Proofs.Rows
import TextConsole.Proofs.Sequences

/-!
# Lines put in and taken out

Two commands splice the rows of a screen at the cursor: one puts blank rows in front of the
cursor's row, the other takes rows out from there on. The screen keeps its size, so rows are
lost at the end or blank rows come in there (`Splice.apply`).

Each of them is a copy of rows over themselves and a fill, of which both can be empty
(`Surface.rowsOf_splice`). The result does not depend on where the window lies in memory, and
the number of rows may be written with as many digits as one likes (`lines_spliced`). Inside an
unfinished escape sequence the same bytes are text (`lines_printed_oneScreen`).
-/

namespace TextConsole

open Escape (IsDigit decimal bracketed parameterLimit)

/-! ## Splices -/

/-- Whether a splice puts something in or takes something out. -/
inductive Splice where
  | insert
  | delete
deriving DecidableEq, Repr

namespace Splice

/-- Splices `n` elements at element `i` of a list, with `x` for those there are none for. -/
def apply {α : Type} (x : α) (i n : Nat) : Splice → List α → List α
  | insert, xs => openGap x i n xs
  | delete, xs => closeGap x i n xs

/-- The command that splices lines. -/
def lines (count : Nat) : Splice → Command
  | insert => .insertLines count
  | delete => .deleteLines count

/-- The final byte of that command: `L` or `M`. -/
def linesByte : Splice → UInt8
  | insert => 0x4C
  | delete => 0x4D

theorem isEdit_lines (splice : Splice) (count : Nat) : (splice.lines count).IsEdit := by
  cases splice <;> trivial

theorem ofSequence?_lines (splice : Splice) (digits : List UInt8) :
    Command.ofSequence? (.bracketed digits splice.linesByte) =
      some (splice.lines (max (min (decimal digits) parameterLimit) 1)) := by
  cases splice <;> rfl

end Splice

namespace Surface

variable {s : Surface} {row count k : Nat}

/-- Lines put in push down the rows from the cursor's on. -/
theorem applyAll_insertLines (blank : Cell) (shown : Nat → Cell) (hrow : row ≤ s.rows) (col : Nat)
    (hk : k < s.size) :
    Patch.applyAll blank shown ((Command.insertLines count).patches s row col) k =
      if k < row * s.columns then shown k
      else if k < (row + min count (s.rows - row)) * s.columns then blank
      else shown (k - min count (s.rows - row) * s.columns) := by
  have hsplit := s.rows_split hrow (Nat.min_le_right count (s.rows - row))
  simp only [Command.patches, Patch.applyAll, List.foldl_cons, List.foldl_nil, Patch.apply,
    Nat.add_mul]
  by_cases habove : k < row * s.columns
  · rw [if_neg (by omega), if_neg (by omega), if_pos habove]
  · rw [if_neg habove]
    by_cases hgap : k < row * s.columns + min count (s.rows - row) * s.columns
    · rw [if_pos ⟨by omega, hgap⟩, if_pos hgap]
    · rw [if_neg (by omega), if_pos (by omega), if_neg hgap]
      congr 1
      omega

/-- Lines taken out are closed up from below. -/
theorem applyAll_deleteLines (blank : Cell) (shown : Nat → Cell) (hrow : row ≤ s.rows) (col : Nat)
    (hk : k < s.size) :
    Patch.applyAll blank shown ((Command.deleteLines count).patches s row col) k =
      if k < row * s.columns then shown k
      else if k + min count (s.rows - row) * s.columns < s.size then
        shown (k + min count (s.rows - row) * s.columns)
      else blank := by
  have hsplit := s.rows_split hrow (Nat.min_le_right count (s.rows - row))
  simp only [Command.patches, Patch.applyAll, List.foldl_cons, List.foldl_nil, Patch.apply]
  by_cases habove : k < row * s.columns
  · rw [if_neg (by omega), if_neg (by omega), if_pos habove]
  · rw [if_neg habove]
    by_cases hkept : k + min count (s.rows - row) * s.columns < s.size
    · rw [if_neg (by omega), if_pos (by omega), if_pos hkept]
      congr 1
      omega
    · rw [if_pos (by omega), if_neg hkept]

/-- **Patched rows are spliced rows.** -/
theorem rowsOf_splice (s : Surface) (blank : Cell) (shown : Nat → Cell) (hrow : row ≤ s.rows)
    (col : Nat) (splice : Splice) (count : Nat) :
    s.rowsOf (Patch.applyAll blank shown ((splice.lines count).patches s row col)) =
      splice.apply (List.replicate s.columns blank) row (min count (s.rows - row))
        (s.rowsOf shown) := by
  have hroom : row + min count (s.rows - row) ≤ s.rows := by omega
  cases splice with
  | insert =>
      rw [Splice.apply, ← s.rowsOf_openGap blank shown hroom, rowsOf_eq_iff]
      exact fun k hk => applyAll_insertLines blank shown hrow col hk
  | delete =>
      rw [Splice.apply, ← s.rowsOf_closeGap blank shown hroom, rowsOf_eq_iff]
      exact fun k hk => applyAll_deleteLines blank shown hrow col hk

end Surface

namespace Seat

variable {config : Config} {s t : Seat} {c : Console} {id : Nat} {digits : List UInt8}

/-- **Inserted and deleted lines are splices** of the rows that a flush shows, for a console
outside any escape sequence. The number of lines is what the digits write, but at least one and
at most the number of rows from the cursor's on, and they come in the console's own blanks. The
window, the cursor and the pen stay as they are, and so does every word that the window does not
show, on this display and on any other. -/
theorem lines_spliced (h : Reached config s) (hc : s.consoles[id]? = some c)
    (hescape : c.escape = .ground) (hdigits : ∀ byte ∈ digits, IsDigit byte) (splice : Splice)
    (ht : t = s.sends id (bracketed digits splice.linesByte) ∨
      t = s.sendRun id (bracketed digits splice.linesByte)) :
    (∃ rows, (s.flush id).rows? id = some rows ∧ rows.length = config.screen.rows ∧
      t.rows? id = some
        (splice.apply (List.replicate config.screen.columns (Cell.blank c.blank)) c.row
          (min (max (decimal digits) 1) (config.screen.rows - c.row)) rows)) ∧
    (∃ c', t.consoles[id]? = some c' ∧ c'.origin = c.origin ∧ c'.row = c.row ∧ c'.col = c.col ∧
      c'.pen = c.pen) ∧
    ∀ k a, a < (s.displays.getD k default).capacity →
      (c.region.display = k → ∀ i < config.screen.size,
        (c.origin + i) % (s.displays.getD k default).capacity ≠ a) →
      (t.displays.getD k default).memory.cell a = (s.displays.getD k default).memory.cell a := by
  have hsound := h.sound
  have hplaced := hsound.placed hc
  have hrows_le := (hsound.holds hc).rows_le
  have hedited := hsound.edited hc hescape hdigits (splice.ofSequence?_lines digits)
    (splice.isEdit_lines _) ht
  -- No screen has as many rows as the limit of a parameter.
  have hcount : min (max (min (decimal digits) parameterLimit) 1)
      ((s.surface id c).rows - c.row) =
        min (max (decimal digits) 1) (config.screen.rows - c.row) := by
    rw [h.rows_surface] at hrows_le ⊢
    unfold parameterLimit
    omega
  refine ⟨⟨_, hsound.rows?_flush hc, ?_, ?_⟩, ⟨_, hedited.console, rfl, ?_, ?_, rfl⟩, ?_⟩
  · rw [Surface.length_rowsOf, h.rows_surface]
  · rw [hedited.rows, Surface.rowsOf_splice _ _ _ (Nat.le_of_lt hplaced.row_lt), hcount,
      h.columns_surface]
  · exact Console.confineRow_of_lt hplaced.row_lt
  · exact Console.confineColumn_of_le hplaced.col_le
  · rw [← h.size_surface id c]
    exact hedited.outside

/-- A window that fills all of a memory that wraps and starts in the middle, with a character in
the queue and the cursor in the first row: a line is put in with no number given, and lines are
taken out with a number that does not fit 32 bits. -/
theorem lines_spliced_wrappingScreen :
    ∃ s c, Reached wrappingScreen s ∧ s.consoles[0]? = some c ∧ c.origin = 2 ∧ c.row = 0 ∧
      (s.flush 0).rows? 0 = some [[⟨0x0744⟩, ⟨0x0742⟩], [⟨0x0743⟩, ⟨0x0720⟩]] ∧
      (s.sends 0 (bracketed [] 0x4C)).rows? 0 =
        some [[⟨0x0720⟩, ⟨0x0720⟩], [⟨0x0744⟩, ⟨0x0742⟩]] ∧
      (s.sendRun 0
        (bracketed [0x34, 0x32, 0x39, 0x34, 0x39, 0x36, 0x37, 0x32, 0x39, 0x37] 0x4D)).rows? 0 =
        some [[⟨0x0720⟩, ⟨0x0720⟩], [⟨0x0720⟩, ⟨0x0720⟩]] := by
  have hreached : Reached wrappingScreen _ :=
    ⟨_, [.scroll 0 .up, .sendRun 0 [0x41, 0x42, 0x43, 0x1B, 0x5B, 0x48], .send 0 0x44], rfl, rfl⟩
  obtain ⟨⟨rows, hrows, _, hinserted⟩, _⟩ := @lines_spliced _ _ _ _ 0 [] hreached rfl rfl
    (List.forall_mem_nil _) .insert (Or.inl rfl)
  obtain ⟨⟨rows', hrows', _, hdeleted⟩, _⟩ := @lines_spliced _ _ _ _ 0
    [0x34, 0x32, 0x39, 0x34, 0x39, 0x36, 0x37, 0x32, 0x39, 0x37] hreached rfl rfl
    (by decide +kernel) .delete (Or.inr rfl)
  have hshown : some rows = some [[⟨0x0744⟩, ⟨0x0742⟩], [⟨0x0743⟩, ⟨0x0720⟩]] :=
    hrows.symm.trans (by decide +kernel)
  obtain rfl := Option.some.inj (hrows'.symm.trans hrows)
  obtain rfl := Option.some.inj hshown
  exact ⟨_, _, hreached, rfl, by decide +kernel, by decide +kernel, hrows, hinserted, hdeleted⟩

/-- **An unfinished sequence takes the escape for itself.** After an escape that waits for the
rest of its sequence, the escape of another one ends it. What follows is printed, and no line is
put in. -/
theorem lines_printed_oneScreen :
    ∃ s c rows, Reached oneScreen s ∧ s.consoles[0]? = some c ∧ c.row = 0 ∧
      (s.flush 0).rows? 0 = some rows ∧
      (s.sendRun 0 (bracketed [] 0x4C)).rows? 0 =
        some [[⟨0x075B⟩, ⟨0x074C⟩], [⟨0x0720⟩, ⟨0x0720⟩]] ∧
      (s.sendRun 0 (bracketed [] 0x4C)).rows? 0 ≠
        some (Splice.insert.apply (List.replicate 2 (Cell.blank c.blank)) 0 1 rows) := by
  have hreached : Reached oneScreen _ := ⟨_, [.send 0 0x1B], rfl, rfl⟩
  exact ⟨_, _, [[⟨0x0720⟩, ⟨0x0720⟩], [⟨0x0720⟩, ⟨0x0720⟩]], hreached, rfl, rfl,
    by decide +kernel, by decide +kernel, by decide +kernel⟩

end Seat

end TextConsole
