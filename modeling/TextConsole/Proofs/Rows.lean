import TextConsole.Proofs.Screen

/-!
# Rows that move up and down

Inserted and deleted lines move the rows below them, and a scroll moves all rows. As lists, a
gap is opened in the rows and what is pushed past the end is lost (`openGap`), or rows are
taken out and those behind them close up (`closeGap`). The number of rows stays the same.

On the screen, rows move as all their cells move by whole rows (`Surface.rowsOf_openGap`,
`Surface.rowsOf_closeGap`).
-/

namespace TextConsole

/-! ## Gaps in lists -/

section

variable {α : Type} {x : α} {i n len : Nat}

/-- Puts `n` copies of `x` in front of element `i`, and drops as many elements at the end. -/
def openGap (x : α) (i n : Nat) (xs : List α) : List α :=
  xs.take i ++ List.replicate n x ++ xs.extract i (xs.length - n)

/-- Takes out `n` elements from element `i` on, and puts as many copies of `x` at the end. -/
def closeGap (x : α) (i n : Nat) (xs : List α) : List α :=
  xs.take i ++ xs.drop (i + n) ++ List.replicate n x

theorem openGap_map_range (f : Nat → α) (h : i + n ≤ len) :
    openGap x i n ((List.range len).map f) =
      (List.range len).map fun j => if j < i then f j else if j < i + n then x else f (j - n) := by
  apply List.ext_getElem
  · simp [openGap]
    omega
  · intro j hj _
    simp only [openGap, List.getElem_append, List.getElem_map, List.getElem_range,
      List.length_append, List.length_take, List.length_map, List.length_range,
      List.length_replicate, Nat.min_eq_left (Nat.le_of_add_right_le h)]
    by_cases hbefore : j < i
    · simp [hbefore, show j < i + n by omega]
    · by_cases hgap : j < i + n
      · simp [hbefore, hgap]
      · simp [hbefore, hgap]
        congr 1
        omega

theorem closeGap_map_range (f : Nat → α) (h : i + n ≤ len) :
    closeGap x i n ((List.range len).map f) =
      (List.range len).map fun j =>
        if j < i then f j else if j + n < len then f (j + n) else x := by
  apply List.ext_getElem
  · simp [closeGap]
    omega
  · intro j hj _
    simp only [closeGap, List.getElem_append, List.getElem_map, List.getElem_range,
      List.length_append, List.length_take, List.length_map, List.length_range,
      List.length_drop, Nat.min_eq_left (Nat.le_of_add_right_le h)]
    by_cases hbefore : j < i
    · simp [hbefore, show j < i + (len - (i + n)) by omega]
    · by_cases hkept : j + n < len
      · simp [hbefore, hkept, show j < i + (len - (i + n)) by omega]
        congr 1
        omega
      · simp [hbefore, hkept, show ¬ j < i + (len - (i + n)) by omega]

end

/-! ## Gaps between rows -/

namespace Surface

variable {s : Surface} {row n : Nat}

/-- A cell is above a row exactly if its own row is. -/
theorem offset_lt_iff {col : Nat} (hcol : col < s.columns) (i : Nat) :
    i * s.columns + col < row * s.columns ↔ i < row := by
  constructor
  · intro h
    by_contra hle
    have := Nat.mul_le_mul_right s.columns (Nat.le_of_not_lt hle)
    omega
  · intro h
    have := Nat.mul_le_mul_right s.columns (Nat.succ_le_of_lt h)
    rw [Nat.succ_mul] at this
    omega

/-- A cell is among those of a row exactly if it is its own row. -/
theorem offset_mem_row_iff {col : Nat} (hcol : col < s.columns) (i row : Nat) :
    row * s.columns ≤ i * s.columns + col ∧ i * s.columns + col < row * s.columns + s.columns ↔
      i = row := by
  rw [← Nat.not_lt, offset_lt_iff hcol, ← Nat.succ_mul, offset_lt_iff hcol]
  omega

/-- Each cell of the screen is in some column of some row. -/
theorem exists_offset (s : Surface) {k : Nat} (hk : k < s.size) :
    ∃ row < s.rows, ∃ col < s.columns, k = row * s.columns + col := by
  rw [s.size_eq] at hk
  have hcolumns : 0 < s.columns := Nat.pos_of_mul_pos_left (Nat.zero_lt_of_lt hk)
  exact ⟨k / s.columns, (Nat.div_lt_iff_lt_mul hcolumns).mpr hk, k % s.columns,
    Nat.mod_lt k hcolumns, (Nat.div_add_mod' k s.columns).symm⟩

/-- A cell that lies some cells behind the start of row `i`, in terms of its own row. -/
theorem offset_unique {row col i x : Nat} (hcol : col < s.columns)
    (h : row * s.columns + col = i * s.columns + x) :
    row = i + x / s.columns ∧ col = x % s.columns := by
  have hpos : 0 < s.columns := Nat.zero_lt_of_lt hcol
  have hunique := (Nat.div_mod_unique (a := x + i * s.columns) (c := col) (d := row) hpos).mpr
    ⟨by rw [Nat.mul_comm s.columns]; omega, hcol⟩
  rw [Nat.add_mul_div_right _ _ hpos, Nat.add_mul_mod_self_right] at hunique
  exact ⟨by omega, hunique.2.symm⟩

/-- A row of blanks is a row of the screen. -/
theorem map_const_columns (s : Surface) (x : Cell) :
    (List.range s.columns).map (fun _ => x) = List.replicate s.columns x := by
  rw [List.map_const', List.length_range]

/-- **Rows pushed down.** From a row on, cells are taken from `n` rows further up, and the rows
that this opens are blank. -/
theorem rowsOf_openGap (s : Surface) (blank : Cell) (shown : Nat → Cell) (h : row + n ≤ s.rows) :
    s.rowsOf (fun k =>
        if k < row * s.columns then shown k
        else if k < (row + n) * s.columns then blank
        else shown (k - n * s.columns)) =
      openGap (List.replicate s.columns blank) row n (s.rowsOf shown) := by
  rw [rowsOf, rowsOf, openGap_map_range _ h]
  apply List.map_inj_left.mpr
  intro i _
  have hcol : ∀ {col}, col ∈ List.range s.columns → col < s.columns := List.mem_range.mp
  by_cases habove : i < row
  · rw [if_pos habove]
    apply List.map_inj_left.mpr
    intro col hmem
    rw [if_pos ((offset_lt_iff (hcol hmem) i).mpr habove)]
  · rw [if_neg habove]
    by_cases hgap : i < row + n
    · rw [if_pos hgap, ← map_const_columns]
      apply List.map_inj_left.mpr
      intro col hmem
      rw [if_neg (mt (offset_lt_iff (hcol hmem) i).mp habove),
        if_pos ((offset_lt_iff (hcol hmem) i).mpr hgap)]
    · rw [if_neg hgap]
      apply List.map_inj_left.mpr
      intro col hmem
      have hle := Nat.mul_le_mul_right s.columns (show n ≤ i by omega)
      rw [if_neg (mt (offset_lt_iff (hcol hmem) i).mp habove),
        if_neg (mt (offset_lt_iff (hcol hmem) i).mp hgap), Nat.sub_mul, Nat.sub_add_comm hle]

/-- **Rows closed up.** From a row on, cells are taken from `n` rows further down, and the rows
for which there are none are blank. -/
theorem rowsOf_closeGap (s : Surface) (blank : Cell) (shown : Nat → Cell) (h : row + n ≤ s.rows) :
    s.rowsOf (fun k =>
        if k < row * s.columns then shown k
        else if k + n * s.columns < s.size then shown (k + n * s.columns)
        else blank) =
      closeGap (List.replicate s.columns blank) row n (s.rowsOf shown) := by
  rw [rowsOf, rowsOf, closeGap_map_range _ h]
  apply List.map_inj_left.mpr
  intro i _
  have hcol : ∀ {col}, col ∈ List.range s.columns → col < s.columns := List.mem_range.mp
  have hoffset : ∀ col, i * s.columns + col + n * s.columns = (i + n) * s.columns + col := by
    intro col
    rw [Nat.add_mul]
    omega
  by_cases habove : i < row
  · rw [if_pos habove]
    apply List.map_inj_left.mpr
    intro col hmem
    rw [if_pos ((offset_lt_iff (hcol hmem) i).mpr habove)]
  · rw [if_neg habove]
    by_cases hkept : i + n < s.rows
    · rw [if_pos hkept]
      apply List.map_inj_left.mpr
      intro col hmem
      rw [if_neg (mt (offset_lt_iff (hcol hmem) i).mp habove), hoffset, size_eq,
        if_pos ((offset_lt_iff (hcol hmem) (i + n)).mpr hkept)]
    · rw [if_neg hkept, ← map_const_columns]
      apply List.map_inj_left.mpr
      intro col hmem
      rw [if_neg (mt (offset_lt_iff (hcol hmem) i).mp habove), hoffset, size_eq,
        if_neg (mt (offset_lt_iff (hcol hmem) (i + n)).mp hkept)]

end Surface

end TextConsole
