import TextConsole.Proofs.Memory
import TextConsole.Proofs.Steps

/-!
# Windows

The part of video memory that a console shows, seen from its own start. A
`Patch` is an effect with offsets from the start of a window in place of
addresses. What a patch does to the cells that a window shows does not depend on
where the window lies, nor on whether it crosses the end of memory
(`cell_perform_effect`). The commands that rearrange cells are lists of patches
(`perform_edit`), which the size of the screen and the position of the cursor
determine.
-/

namespace TextConsole

/-! ## Windows in memory -/

/-- Whether a window of `size` words from `origin` on lies in memory, with no two
offsets at one word. -/
structure VideoMemory.HoldsWindow (m : VideoMemory) (origin size : Nat) : Prop where
  size_le : size ≤ m.capacity
  fits : m.Fits origin size

namespace VideoMemory.HoldsWindow

variable {m : VideoMemory} {origin size : Nat}

/-- A run inside a window lies in memory. -/
theorem fits_add (h : m.HoldsWindow origin size) {offset len : Nat}
    (hle : offset + len ≤ size) : m.Fits (origin + offset) len := by
  rcases h.fits with hw | hle'
  · exact Or.inl hw
  · exact Or.inr (by omega)

/-- Offsets of a window are at one word only if they are equal. -/
theorem offset_eq (h : m.HoldsWindow origin size) {j k : Nat} (hj : j < size) (hk : k < size)
    (heq : (origin + j) % m.capacity = (origin + k) % m.capacity) : j = k :=
  VideoMemory.offset_inj (Nat.lt_of_lt_of_le hj h.size_le) (Nat.lt_of_lt_of_le hk h.size_le) heq

/-- An offset of a window that is not one of a run in it has an address of its own. -/
theorem address_ne (h : m.HoldsWindow origin size) {offset len k : Nat} (hle : offset + len ≤ size)
    (hk : k < size) (hout : ¬ (offset ≤ k ∧ k < offset + len)) :
    ∀ i < len, (origin + offset + i) % m.capacity ≠ (origin + k) % m.capacity := by
  intro i hi heq
  rw [Nat.add_assoc] at heq
  have hoffset := h.offset_eq (by omega) hk heq
  exact hout ⟨by omega, by omega⟩

end VideoMemory.HoldsWindow

/-! ## What effects keep of a display -/

namespace Display

@[simp] theorem wraps_perform (d : Display) (e : Effect) :
    (d.perform e).memory.wraps = d.memory.wraps := by
  cases e with
  | write dest run => exact VideoMemory.wraps_write ..
  | fill dest len => exact VideoMemory.wraps_write ..
  | copy src dest len => exact VideoMemory.wraps_copy ..
  | setBlank | setRegister | ring => rfl

@[simp] theorem kind_perform (d : Display) (e : Effect) : (d.perform e).kind = d.kind := by
  cases e <;> rfl

/-- Only loading a rendition of blanks changes it. -/
theorem blank_perform (d : Display) {e : Effect} (he : ∀ r, e ≠ .setBlank r) :
    (d.perform e).memory.blank = d.memory.blank := by
  cases e with
  | write dest run => exact VideoMemory.blank_write ..
  | fill dest len => exact VideoMemory.blank_write ..
  | copy src dest len => exact VideoMemory.blank_copy ..
  | setBlank r => exact absurd rfl (he r)
  | setRegister | ring => rfl

/-- What each effect keeps of a display, several effects keep. -/
theorem performAll_induction {P : Display → Prop} {effects : Array Effect}
    (step : ∀ d, ∀ e ∈ effects, P d → P (d.perform e)) {d : Display} (h : P d) :
    P (d.performAll effects) := by
  unfold performAll
  exact Array.foldl_induction (fun _ d => P d) h fun i d hd => step d _ (by simp) hd

@[simp] theorem capacity_performAll (d : Display) (effects : Array Effect) :
    (d.performAll effects).capacity = d.capacity :=
  performAll_induction (P := fun d' => d'.capacity = d.capacity)
    (fun _ _ _ h => by rw [capacity_perform, h]) rfl

@[simp] theorem wraps_performAll (d : Display) (effects : Array Effect) :
    (d.performAll effects).memory.wraps = d.memory.wraps :=
  performAll_induction (P := fun d' => d'.memory.wraps = d.memory.wraps)
    (fun _ _ _ h => by rw [wraps_perform, h]) rfl

@[simp] theorem kind_performAll (d : Display) (effects : Array Effect) :
    (d.performAll effects).kind = d.kind :=
  performAll_induction (P := fun d' => d'.kind = d.kind)
    (fun _ _ _ h => by rw [kind_perform, h]) rfl

end Display

/-! ## Patches -/

/-- An effect on the cells of a window, with offsets from its start. -/
inductive Patch where
  | store (offset : Nat) (run : List Cell)
  | fill (offset len : Nat)
  | copy (src dest len : Nat)

namespace Patch

/-- Whether a patch stays within a window. -/
def Inside (size : Nat) : Patch → Prop
  | store offset run => offset + run.length ≤ size
  | fill offset len => offset + len ≤ size
  | copy src dest len => src + len ≤ size ∧ dest + len ≤ size

/-- A patch as an effect, for a window that starts at `origin`. -/
def effect (origin : Nat) : Patch → Effect
  | store offset run => .write (origin + offset) run
  | fill offset len => .fill (origin + offset) len
  | copy src dest len => .copy (origin + src) (origin + dest) len

/-- What a window shows after a patch, from what it showed before. -/
def apply (blank : Cell) (shown : Nat → Cell) : Patch → Nat → Cell
  | store offset run, k =>
      if offset ≤ k ∧ k < offset + run.length then run.getD (k - offset) default else shown k
  | fill offset len, k => if offset ≤ k ∧ k < offset + len then blank else shown k
  | copy src dest len, k =>
      if dest ≤ k ∧ k < dest + len then shown (src + (k - dest)) else shown k

/-- What a window shows after several patches. -/
def applyAll (blank : Cell) (shown : Nat → Cell) (patches : List Patch) : Nat → Cell :=
  patches.foldl (apply blank) shown

/-- A patch within a window only looks at the window. -/
theorem apply_congr {size : Nat} {blank : Cell} {shown shown' : Nat → Cell} {p : Patch}
    (hp : p.Inside size) (h : ∀ k < size, shown k = shown' k) {k : Nat} (hk : k < size) :
    p.apply blank shown k = p.apply blank shown' k := by
  cases p with
  | store offset run => simp only [apply, h k hk]
  | fill offset len => simp only [apply, h k hk]
  | copy src dest len =>
      simp only [apply, h k hk]
      split
      · exact h _ (by simp only [Inside] at hp; omega)
      · rfl

theorem applyAll_congr {size : Nat} {blank : Cell} {patches : List Patch} :
    ∀ {shown shown' : Nat → Cell}, (∀ p ∈ patches, p.Inside size) →
      (∀ k < size, shown k = shown' k) → ∀ k < size,
        applyAll blank shown patches k = applyAll blank shown' patches k := by
  induction patches with
  | nil => exact fun _ h => h
  | cons p patches ih =>
      intro shown shown' hp h
      obtain ⟨hp₁, hp₂⟩ := List.forall_mem_cons.mp hp
      exact ih hp₂ fun k hk => apply_congr hp₁ h hk

end Patch

/-- What a window that starts at `origin` shows. -/
def Display.shown (d : Display) (origin k : Nat) : Cell := d.memory.cell (origin + k)

/-- **Patches act on windows alike.** In terms of offsets a patch does the same to
every window, wherever it lies. -/
theorem cell_perform_effect {d : Display} {origin size k : Nat} {p : Patch}
    (hw : d.memory.HoldsWindow origin size) (hp : p.Inside size) (hk : k < size) :
    (d.perform (p.effect origin)).shown origin k =
      p.apply d.memory.blankCell (d.shown origin) k := by
  have hcap := hw.size_le
  cases p with
  | store offset run =>
      simp only [Patch.Inside] at hp
      simp only [Patch.effect, Display.perform, Display.shown, Patch.apply]
      by_cases hin : offset ≤ k ∧ k < offset + run.length
      · obtain ⟨i, rfl⟩ := Nat.exists_eq_add_of_le hin.1
        rw [if_pos hin, ← Nat.add_assoc,
          VideoMemory.cell_write_add (hw.fits_add hp) (by omega) (by omega)]
        simp [show i < run.length by omega]
      · rw [if_neg hin]
        exact VideoMemory.cell_write_of_ne (hw.address_ne hp hk hin)
  | fill offset len =>
      simp only [Patch.Inside] at hp
      simp only [Patch.effect, Display.perform, Display.shown, Patch.apply]
      by_cases hin : offset ≤ k ∧ k < offset + len
      · obtain ⟨i, rfl⟩ := Nat.exists_eq_add_of_le hin.1
        rw [if_pos hin, ← Nat.add_assoc,
          VideoMemory.cell_fill_add (hw.fits_add hp) (by omega) (by omega)]
      · rw [if_neg hin]
        exact VideoMemory.cell_fill_of_ne (hw.address_ne hp hk hin)
  | copy src dest len =>
      simp only [Patch.Inside] at hp
      simp only [Patch.effect, Display.perform, Display.shown, Patch.apply]
      by_cases hin : dest ≤ k ∧ k < dest + len
      · obtain ⟨i, rfl⟩ := Nat.exists_eq_add_of_le hin.1
        rw [if_pos hin, ← Nat.add_assoc,
          VideoMemory.cell_copy_add (hw.fits_add hp.1) (hw.fits_add hp.2) (by omega) (by omega)]
        rw [Nat.add_sub_cancel_left, Nat.add_assoc]
      · rw [if_neg hin]
        exact VideoMemory.cell_copy_of_ne (hw.fits_add hp.1) (hw.fits_add hp.2)
          (hw.address_ne hp.2 hk hin)

/-- No effect takes a window out of memory. -/
theorem VideoMemory.HoldsWindow.perform {d : Display} {origin size : Nat}
    (h : d.memory.HoldsWindow origin size) (e : Effect) :
    (d.perform e).memory.HoldsWindow origin size := by
  have hcap : (d.perform e).memory.capacity = d.memory.capacity := Display.capacity_perform d e
  refine ⟨by rw [hcap]; exact h.size_le, ?_⟩
  rw [VideoMemory.Fits, Display.wraps_perform, hcap]
  exact h.fits

theorem performAll_effects_cons (d : Display) (origin : Nat) (p : Patch) (patches : List Patch) :
    d.performAll ((p :: patches).map (Patch.effect origin)).toArray =
      (d.perform (p.effect origin)).performAll (patches.map (Patch.effect origin)).toArray := by
  simp [Display.performAll]

/-- Several patches in a row. -/
theorem cell_performAll_effects {origin size : Nat} {patches : List Patch} :
    ∀ {d : Display}, d.memory.HoldsWindow origin size → (∀ p ∈ patches, p.Inside size) →
      ∀ k < size, (d.performAll (patches.map (Patch.effect origin)).toArray).shown origin k =
        Patch.applyAll d.memory.blankCell (d.shown origin) patches k := by
  induction patches with
  | nil => exact fun _ _ _ _ => rfl
  | cons p patches ih =>
      intro d hw hp k hk
      obtain ⟨hp₁, hp₂⟩ := List.forall_mem_cons.mp hp
      have hblank : (d.perform (p.effect origin)).memory.blankCell = d.memory.blankCell := by
        rw [VideoMemory.blankCell, Display.blank_perform _ (by cases p <;> simp [Patch.effect])]
        rfl
      rw [performAll_effects_cons, ih (hw.perform _) hp₂ k hk, hblank]
      exact Patch.applyAll_congr hp₂ (fun j hj => cell_perform_effect hw hp₁ hj) k hk

/-- A patch changes no word outside its window. -/
theorem cell_perform_effect_outside {d : Display} {origin size a : Nat} {p : Patch}
    (hw : d.memory.HoldsWindow origin size) (hp : p.Inside size)
    (hout : ∀ k < size, (origin + k) % d.memory.capacity ≠ a % d.memory.capacity) :
    (d.perform (p.effect origin)).memory.cell a = d.memory.cell a := by
  have hrun : ∀ {offset len : Nat}, offset + len ≤ size →
      ∀ i < len, (origin + offset + i) % d.memory.capacity ≠ a % d.memory.capacity := by
    intro offset len hle i hi
    rw [Nat.add_assoc]
    exact hout _ (by omega)
  cases p with
  | store offset run => exact VideoMemory.cell_write_of_ne (hrun hp)
  | fill offset len => exact VideoMemory.cell_fill_of_ne (hrun hp)
  | copy src dest len =>
      exact VideoMemory.cell_copy_of_ne (hw.fits_add hp.1) (hw.fits_add hp.2) (hrun hp.2)

theorem cell_performAll_effects_outside {origin size a : Nat} {patches : List Patch} :
    ∀ {d : Display}, d.memory.HoldsWindow origin size → (∀ p ∈ patches, p.Inside size) →
      (∀ k < size, (origin + k) % d.memory.capacity ≠ a % d.memory.capacity) →
        (d.performAll (patches.map (Patch.effect origin)).toArray).memory.cell a =
          d.memory.cell a := by
  induction patches with
  | nil => exact fun _ _ _ => rfl
  | cons p patches ih =>
      intro d hw hp hout
      obtain ⟨hp₁, hp₂⟩ := List.forall_mem_cons.mp hp
      have hcap : (d.perform (p.effect origin)).memory.capacity = d.memory.capacity :=
        Display.capacity_perform d _
      rw [performAll_effects_cons, ih (hw.perform _) hp₂ (by rwa [hcap])]
      exact cell_perform_effect_outside hw hp₁ hout

/-! ## Commands as patches -/

namespace Surface

theorem size_eq (s : Surface) : s.size = s.rows * s.columns := Nat.mul_comm ..

/-- A position on the screen, counted through its rows, is within the screen. -/
theorem offset_le (s : Surface) {row col : Nat} (hrow : row < s.rows) (hcol : col ≤ s.columns) :
    row * s.columns + col ≤ s.size := by
  have := Nat.mul_le_mul_right s.columns (Nat.succ_le_of_lt hrow)
  rw [Nat.succ_mul] at this
  rw [size_eq]
  omega

/-- Some of the rows of a screen have no more cells than the screen. -/
theorem lines_le (s : Surface) {n : Nat} (h : n ≤ s.rows) : n * s.columns ≤ s.size := by
  rw [Nat.mul_comm]
  exact Nat.mul_le_mul_left s.columns h

theorem columns_le_size (s : Surface) (hrows : 0 < s.rows) : s.columns ≤ s.size := by
  simpa using s.offset_le hrows (Nat.le_refl _)

/-- Rows above a line, and two groups of rows below it, make up the screen. -/
theorem rows_split (s : Surface) {row n : Nat} (hrow : row ≤ s.rows) (hn : n ≤ s.rows - row) :
    row * s.columns + n * s.columns + (s.rows - row - n) * s.columns = s.size := by
  rw [← Nat.add_mul, ← Nat.add_mul, size_eq]
  congr 1
  omega

end Surface

/-- What a command does to the window, with the cursor at `row` and `col`. -/
def Command.patches (s : Surface) (row col : Nat) : Command → List Patch
  | .eraseInDisplay .toEnd => [.fill (row * s.columns + col) (s.size - (row * s.columns + col))]
  | .eraseInDisplay .toCursor => [.fill 0 (row * s.columns + col)]
  | .eraseInDisplay .all => [.fill 0 s.size]
  | .eraseInLine .toEnd => [.fill (row * s.columns + col) (s.columns - col)]
  | .eraseInLine .toCursor => [.fill (row * s.columns) col]
  | .eraseInLine .all => [.fill (row * s.columns) s.columns]
  | .insertLines count =>
      let n := min count (s.rows - row)
      [.copy (row * s.columns) (row * s.columns + n * s.columns)
        ((s.rows - row - n) * s.columns),
        .fill (row * s.columns) (n * s.columns)]
  | .deleteLines count =>
      let n := min count (s.rows - row)
      [.copy (row * s.columns + n * s.columns) (row * s.columns)
        ((s.rows - row - n) * s.columns),
        .fill (row * s.columns + (s.rows - row - n) * s.columns) (n * s.columns)]
  | .insertChars count =>
      let n := min count (s.columns - col)
      [.copy (row * s.columns + col) (row * s.columns + col + n) (s.columns - col - n),
        .fill (row * s.columns + col) n]
  | .deleteChars count =>
      let n := min count (s.columns - col)
      [.copy (row * s.columns + col + n) (row * s.columns + col) (s.columns - col - n),
        .fill (row * s.columns + col + (s.columns - col - n)) n]
  | _ => []

/-- No command reaches outside the screen. -/
theorem Command.inside_of_mem_patches {s : Surface} {row col : Nat} (hrow : row < s.rows)
    (hcol : col ≤ s.columns) (command : Command) :
    ∀ p ∈ command.patches s row col, p.Inside s.size := by
  have hcursor := s.offset_le hrow hcol
  have hline := s.offset_le hrow (Nat.le_refl _)
  cases command with
  | eraseInDisplay mode | eraseInLine mode =>
      cases mode <;> simp [patches, Patch.Inside] <;> omega
  | insertLines count | deleteLines count =>
      have hsplit := s.rows_split (Nat.le_of_lt hrow)
        (Nat.min_le_right count (s.rows - row))
      simp [patches, Patch.Inside]
      omega
  | insertChars count | deleteChars count =>
      simp [patches, Patch.Inside]
      omega
  | _ => simp [patches]

namespace Console

variable {s : Surface} {c : Console}

/-- **Edits are patches.** With its queue stored, a console turns a command that
rearranges cells into patches of its window. -/
theorem perform_edit {command : Command} (hedit : command.IsEdit)
    (haddr : c.cursorAddr = c.addressOf s c.row c.col) :
    c.perform s command =
      ⟨c, ((command.patches s c.row c.col).map (Patch.effect c.origin)).toArray⟩ := by
  rw [addressOf] at haddr
  cases command with
  | eraseInDisplay mode | eraseInLine mode =>
      cases mode
      all_goals
        ext1
        · rfl
        · simp [perform, eraseInDisplay, eraseInLine, Command.patches, Patch.effect, haddr]
          try omega
  | insertLines count | deleteLines count | insertChars count | deleteChars count =>
      ext1
      · rfl
      · simp [perform, insertLines, deleteLines, insertChars, deleteChars, Command.patches,
          Patch.effect, haddr, Nat.add_assoc]
  | _ => exact hedit.elim

end Console

end TextConsole
