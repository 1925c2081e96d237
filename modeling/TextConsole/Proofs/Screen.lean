import TextConsole.Proofs.Reachable
import TextConsole.Seat.Snapshot

/-!
# What the screen shows

The computations of a console seen through its window. A flush stores the queue in
front of the cursor (`shown_settle`). A scroll moves the kept rows on and leaves
blanks in the row that comes into view, whichever of the three ways it takes
(`shown_scroll`): where the rows are copied and where the window moves over them, each
kept offset shows what it showed one row away. The rows that a seat gives for a console
are the cells of its window (`Seat.Sound.rows?_eq`).
-/

namespace TextConsole

namespace VideoMemory

theorem write_nil (m : VideoMemory) (dest : Nat) : m.write dest [] = m := by
  unfold write
  split
  · rfl
  · split <;> rfl

/-- A store around the end only looks at its address modulo the size. -/
theorem storeAround_mod (cells : Array Cell) (dest : Nat) (run : List Cell) :
    storeAround cells (dest % cells.size) run = storeAround cells dest run := by
  induction run generalizing cells dest with
  | nil => rfl
  | cons c run ih =>
      have hnext : (dest % cells.size + 1) % cells.size = (dest + 1) % cells.size := by simp
      have hsize : (cells.setIfInBounds (dest % cells.size) c).size = cells.size := by simp
      have key : ∀ a b, a % cells.size = b % cells.size →
          storeAround (cells.setIfInBounds (dest % cells.size) c) a run =
            storeAround (cells.setIfInBounds (dest % cells.size) c) b run := by
        intro a b hab
        rw [← ih _ a, ← ih _ b, hsize, hab]
      rw [storeAround, storeAround, Nat.mod_mod]
      exact key _ _ hnext

/-- Blanks that fit may be stored at their address modulo the capacity. -/
theorem fill_mod {m : VideoMemory} {dest len : Nat} (h : m.Fits dest len) (hlen : 0 < len) :
    m.fill (dest % m.capacity) len = m.fill dest len := by
  rcases h with hw | hle
  · unfold fill write
    rw [if_pos hw, if_pos hw, capacity, storeAround_mod]
  · rw [Nat.mod_eq_of_lt (by omega)]

end VideoMemory

namespace Display

@[simp] theorem performAll_empty (d : Display) : d.performAll #[] = d := rfl

@[simp] theorem performAll_singleton (d : Display) (e : Effect) :
    d.performAll #[e] = d.perform e := rfl

/-- Registers are no part of video memory. -/
theorem performAll_ite_setRegister (d : Display) (p : Prop) [Decidable p] (r : Register)
    (addr : Nat) : d.performAll (if p then #[.setRegister r addr] else #[]) = d := by
  split <;> rfl

end Display

/-! ## The rows of a scroll -/

namespace Direction

/-- The offset of the first of the rows that a scroll keeps. -/
def source (s : Surface) : Direction → Nat
  | up => s.columns
  | down => 0

/-- The offset of the first kept row after the scroll. -/
def target (s : Surface) : Direction → Nat
  | up => 0
  | down => s.columns

/-- The offset of the row that comes into view. -/
def exposed (s : Surface) : Direction → Nat
  | up => s.size - s.columns
  | down => 0

/-- What a screen shows after a scroll. -/
def scrolled (s : Surface) (blank : Cell) (shown : Nat → Cell) (dir : Direction) (k : Nat) : Cell :=
  if dir.exposed s ≤ k ∧ k < dir.exposed s + s.columns then blank
  else shown (dir.source s + (k - dir.target s))

/-- Each offset is in the row that comes into view or in one that is kept. -/
theorem exposed_or_kept {s : Surface} (hcolumns : s.columns ≤ s.size) (dir : Direction) {k : Nat}
    (hk : k < s.size) (h : ¬(dir.exposed s ≤ k ∧ k < dir.exposed s + s.columns)) :
    ∃ i < s.size - s.columns, k = dir.target s + i := by
  cases dir with
  | up =>
      simp only [exposed, target] at *
      exact ⟨k, by omega, by omega⟩
  | down =>
      simp only [exposed, target] at *
      exact ⟨k - s.columns, by omega, by omega⟩

theorem source_le {s : Surface} (dir : Direction) : dir.source s ≤ s.columns := by
  cases dir <;> simp [source]

theorem target_le {s : Surface} (dir : Direction) : dir.target s ≤ s.columns := by
  cases dir <;> simp [target]

theorem exposed_inside {s : Surface} (hcolumns : s.columns ≤ s.size) (dir : Direction) :
    dir.exposed s + s.columns ≤ s.size := by
  cases dir <;> simp [exposed, hcolumns]

/-- A scroll only looks at the screen. -/
theorem scrolled_congr {s : Surface} (hcolumns : s.columns ≤ s.size) (dir : Direction)
    {blank : Cell} {shown shown' : Nat → Cell} (h : ∀ k < s.size, shown k = shown' k) {k : Nat}
    (hk : k < s.size) :
    dir.scrolled s blank shown k = dir.scrolled s blank shown' k := by
  have hsource := dir.source_le (s := s)
  unfold scrolled
  split
  · rfl
  · rename_i hnot
    obtain ⟨i, hi, rfl⟩ := dir.exposed_or_kept hcolumns hk hnot
    exact h _ (by omega)

end Direction

namespace Console

variable {s : Surface} {c : Console} {d : Display}

/-! ## Flushing -/

/-- A flush stores the queue, if only an empty one. -/
theorem performAll_settle (row col : Int) :
    d.performAll (c.settle s row col).effects = d.perform (.write c.cursorAddr c.queue) := by
  rw [effects_settle, Display.performAll_append, Display.performAll_ite_setRegister]
  by_cases hqueue : c.queue = []
  · rw [hqueue, if_neg (by simp), Display.performAll_empty, Display.perform,
      VideoMemory.write_nil]
  · rw [if_pos hqueue, Display.performAll_singleton]

theorem performAll_settle_of_queue_eq_nil (hqueue : c.queue = []) (row col : Int) :
    d.performAll (c.settle s row col).effects = d := by
  rw [performAll_settle, hqueue, Display.perform, VideoMemory.write_nil]

/-- The queue as a patch of the window. -/
def waiting (s : Surface) (c : Console) : Patch :=
  .store (c.row * s.columns + c.col - c.queue.length) c.queue

theorem WellPlaced.waiting_inside (hc : c.WellPlaced s) : (c.waiting s).Inside s.size :=
  hc.queue_inside

theorem WellPlaced.waiting_effect (hc : c.WellPlaced s) :
    (c.waiting s).effect c.origin = .write c.cursorAddr c.queue := by
  rw [waiting, Patch.effect, ← hc.cursorAddr_eq]

/-- **A flush stores the queue in front of the cursor.** -/
theorem shown_settle (hs : s.Holds c.region) (hc : c.WellPlaced s) (hd : s.Describes d)
    (row col : Int) {k : Nat} (hk : k < s.size) :
    (d.performAll (c.settle s row col).effects).shown c.origin k =
      (c.waiting s).apply d.memory.blankCell (d.shown c.origin) k := by
  rw [performAll_settle, ← hc.waiting_effect]
  exact cell_perform_effect (hc.origin_within.holdsWindow hs hd) hc.waiting_inside hk

/-! ## Scrolling -/

theorem moveKeptRows_eq (origin : Nat) (dir : Direction) :
    c.moveKeptRows s origin dir =
      .copy (c.origin + dir.source s) (origin + dir.target s) (s.size - s.columns) := by
  cases dir <;> rfl

/-- Shifted by a row, the window shows each kept cell at its new offset. -/
theorem shift_congr (hs : s.Holds c.region) (dir : Direction) (i : Nat) :
    (c.scrolledOrigin s dir .shift + (dir.target s + i)) % s.capacity =
      (c.origin + (dir.source s + i)) % s.capacity := by
  have hcolumns := hs.columns_le_size
  have hsize := hs.size_le_capacity
  cases dir with
  | up =>
      simp only [scrolledOrigin, Direction.target, Direction.source, Nat.mod_add_mod]
      congr 1
      omega
  | down =>
      simp only [scrolledOrigin, Direction.target, Direction.source, Nat.mod_add_mod]
      rw [show c.origin + s.capacity - s.columns + (s.columns + i) =
        c.origin + (0 + i) + s.capacity by omega, Nat.add_mod_right]

/-- The kept rows, before the row that comes into view is blanked. -/
theorem shown_kept (hs : s.Holds c.region) (h : c.OriginWithin s) (hd : s.Describes d)
    (dir : Direction) {method : ScrollMethod} {origin : Nat}
    (hmethod : method = .shift → origin = c.scrolledOrigin s dir .shift)
    (horigin : ({ c with origin := origin } : Console).OriginWithin s) {i : Nat}
    (hi : i < s.size - s.columns) :
    (d.performAll (if method ≠ .shift then #[c.moveKeptRows s origin dir] else #[])).shown origin
        (dir.target s + i) = d.shown c.origin (dir.source s + i) := by
  have hsource := dir.source_le (s := s)
  have htarget := dir.target_le (s := s)
  have hcap : d.memory.capacity = s.capacity := hd.capacity.symm
  by_cases hshift : method = .shift
  · rw [if_neg (by simpa using hshift), hmethod hshift, Display.performAll_empty]
    apply VideoMemory.cell_congr
    rw [hcap]
    exact shift_congr hs dir i
  · have hfrom := h.holdsWindow hs hd
    have hto := horigin.holdsWindow (c := { c with origin := origin }) hs hd
    have hsize := hfrom.size_le
    rw [if_pos hshift, Display.performAll_singleton, moveKeptRows_eq]
    simp only [Display.perform, Display.shown, ← Nat.add_assoc]
    exact VideoMemory.cell_copy_add (hfrom.fits_add (by omega)) (hto.fits_add (by omega))
      (by omega) hi

/-- Blanking the row that comes into view is a patch of the new window. -/
theorem perform_fill_exposedRow (hs : s.Holds c.region) (h : c.OriginWithin s)
    (hd : s.Describes d) (dir : Direction) :
    d.perform (.fill (exposedRow s c.origin dir) s.columns) =
      d.perform ((Patch.fill (dir.exposed s) s.columns).effect c.origin) := by
  have hfits := (h.holdsWindow hs hd).fits_add (dir.exposed_inside hs.columns_le_size)
  cases dir with
  | up =>
      simp only [exposedRow, Direction.exposed, Patch.effect, Display.perform] at *
      rw [hd.capacity, Display.capacity, VideoMemory.fill_mod hfits hs.columns_pos]
  | down => rfl

theorem shown_scrollEffects (hs : s.Holds c.region) (h : c.OriginWithin s)
    (hd : s.Describes d) (dir : Direction) {k : Nat} (hk : k < s.size) :
    (d.performAll (c.scrollEffects s dir)).shown (c.nextOrigin s dir) k =
      dir.scrolled s d.memory.blankCell (d.shown c.origin) k := by
  have horigin := originWithin_nextOrigin hs h dir
  have hcolumns := hs.columns_le_size
  rw [scrollEffects, Display.performAll_append, Display.performAll_append,
    Display.performAll_ite_setRegister, Display.performAll_singleton]
  generalize hmoves : (if (c.flushed s).scrollMethod s dir ≠ .shift
    then #[(c.flushed s).moveKeptRows s (c.nextOrigin s dir) dir] else #[]) = moves
  have hblank : (d.performAll moves).memory.blankCell = d.memory.blankCell := by
    rw [← hmoves, moveKeptRows_eq]
    split
    · rw [VideoMemory.blankCell, Display.performAll_singleton,
        Display.blank_perform _ (by simp)]
      rfl
    · rfl
  have hinside : (Patch.fill (dir.exposed s) s.columns).Inside s.size :=
    dir.exposed_inside hcolumns
  have hfill := perform_fill_exposedRow (c := { c.flushed s with origin := c.nextOrigin s dir }) hs
    horigin (hd.performAll moves) dir
  have hpatch := cell_perform_effect (horigin.holdsWindow hs (hd.performAll moves)) hinside hk
  rw [← hfill, hblank] at hpatch
  refine hpatch.trans ?_
  simp only [Patch.apply, Direction.scrolled]
  split
  · rfl
  · rename_i hnot
    obtain ⟨i, hi, rfl⟩ := dir.exposed_or_kept hcolumns hk hnot
    rw [← hmoves, shown_kept (c := c.flushed s) hs h hd dir _ horigin hi, Nat.add_sub_cancel_left]
    · rfl
    · intro hmethod
      rw [nextOrigin, hmethod]

/-- **A scroll shows the kept rows one row further on.** -/
theorem shown_scroll (hs : s.Holds c.region) (hc : c.WellPlaced s) (hd : s.Describes d)
    (dir : Direction) {k : Nat} (hk : k < s.size) :
    (d.performAll (c.scroll s dir).effects).shown (c.scroll s dir).value.origin k =
      dir.scrolled s d.memory.blankCell
        ((c.waiting s).apply d.memory.blankCell (d.shown c.origin)) k := by
  have hflushed : ∀ j < s.size, (d.performAll (c.flush s).effects).shown c.origin j =
      (c.waiting s).apply d.memory.blankCell (d.shown c.origin) j :=
    fun j hj => shown_settle hs hc hd _ _ hj
  have hblank : (d.performAll (c.flush s).effects).memory.blankCell = d.memory.blankCell := by
    rw [flush, performAll_settle, VideoMemory.blankCell, Display.blank_perform _ (by simp)]
    rfl
  have hlast : ∀ d : Display, d.performAll
      (flush s { c.flushed s with origin := c.nextOrigin s dir }).effects = d :=
    fun d => performAll_settle_of_queue_eq_nil (c := { c.flushed s with
      origin := c.nextOrigin s dir }) rfl _ _
  rw [effects_scroll, Display.performAll_append, Display.performAll_append, hlast]
  have hscroll := shown_scrollEffects hs hc.origin_within
    (hd.performAll (c.flush s).effects) dir hk
  rw [hblank] at hscroll
  exact hscroll.trans (dir.scrolled_congr hs.columns_le_size hflushed hk)

/-! ## Editing -/

/-- **An edit patches the screen**, wherever the window lies. -/
theorem shown_edit (hs : s.Holds c.region) (hc : c.WellPlaced s) (hd : s.Describes d)
    (hqueue : c.queue = []) {command : Command} (hedit : command.IsEdit) {k : Nat}
    (hk : k < s.size) :
    (d.performAll (c.perform s command).effects).shown c.origin k =
      Patch.applyAll d.memory.blankCell (d.shown c.origin) (command.patches s c.row c.col) k := by
  rw [perform_edit hedit (hc.cursorAddr_of_queue_eq_nil hqueue)]
  exact cell_performAll_effects (hc.origin_within.holdsWindow hs hd)
    (command.inside_of_mem_patches hc.row_lt hc.col_le) k hk

end Console

/-! ## Rows -/

/-- The rows of a screen, from what each offset shows. -/
def Surface.rowsOf (s : Surface) (shown : Nat → Cell) : List (List Cell) :=
  (List.range s.rows).map fun row =>
    (List.range s.columns).map fun col => shown (row * s.columns + col)

theorem Surface.rowsOf_congr {s s' : Surface} (h : s'.settings.screen = s.settings.screen)
    (shown : Nat → Cell) : s'.rowsOf shown = s.rowsOf shown := by
  rw [Surface.rowsOf, Surface.rowsOf, Surface.rows, Surface.columns, h]
  rfl

@[simp] theorem Surface.length_rowsOf (s : Surface) (shown : Nat → Cell) :
    (s.rowsOf shown).length = s.rows := by
  simp [rowsOf]

theorem Surface.length_of_mem_rowsOf {s : Surface} {shown : Nat → Cell} {row : List Cell}
    (h : row ∈ s.rowsOf shown) : row.length = s.columns := by
  obtain ⟨i, _, rfl⟩ := List.mem_map.mp h
  simp

/-- Screens have the same rows where each offset shows the same. -/
theorem Surface.rowsOf_eq_iff {s : Surface} {shown shown' : Nat → Cell} :
    s.rowsOf shown = s.rowsOf shown' ↔ ∀ k < s.size, shown k = shown' k := by
  constructor
  · intro h k hk
    have hcolumns : 0 < s.columns := by
      rw [s.size_eq] at hk
      exact Nat.pos_of_mul_pos_left (Nat.zero_lt_of_lt hk)
    have hrow : k / s.columns < s.rows := by
      rw [Nat.div_lt_iff_lt_mul hcolumns, ← s.size_eq]
      exact hk
    have hrows := List.map_inj_left.mp h (k / s.columns) (List.mem_range.mpr hrow)
    have hcell := List.map_inj_left.mp hrows (k % s.columns)
      (List.mem_range.mpr (Nat.mod_lt k hcolumns))
    rwa [Nat.div_add_mod'] at hcell
  · intro h
    apply List.map_inj_left.mpr
    intro row hrow
    apply List.map_inj_left.mpr
    intro col hcol
    have := s.offset_le (List.mem_range.mp hrow) (Nat.succ_le_of_lt (List.mem_range.mp hcol))
    exact h _ (by omega)

/-- **The rows of a console are the cells of its window.** -/
theorem Seat.Sound.rows?_eq {s : Seat} (h : s.Sound) {id : Nat} {c : Console}
    (hc : s.consoles[id]? = some c) :
    s.rows? id = some ((s.surface id c).rowsOf ((s.displayOf c).shown c.origin)) := by
  have hwindow := (h.placed hc).origin_within.holdsWindow (h.holds hc)
    (Seat.surface_describes id c)
  rw [Seat.rows?, hc]
  simp only [Option.map_some, Option.some.injEq]
  apply List.map_inj_left.mpr
  intro row hrow
  have hle := (s.surface id c).offset_le (List.mem_range.mp hrow) (Nat.le_refl _)
  rw [Console.windowRow, VideoMemory.read_eq]
  · apply List.map_inj_left.mpr
    intro col _
    rw [Display.shown, Nat.add_assoc]
    rfl
  · exact hwindow.fits_add hle

/-- The rows of a console that has run. -/
theorem Seat.Sound.rows?_run {s : Seat} (h : s.Sound) {id : Nat} {c : Console}
    {f : Surface → Console → Output Console} (hc : s.consoles[id]? = some c)
    (hf : Console.Stepwise f) :
    (s.run id f).rows? id =
      some ((s.surface id c).rowsOf
        ((((s.displayOf c).setBlank c.blank).performAll (f (s.surface id c) c).effects).shown
          (f (s.surface id c) c).value.origin)) := by
  have hregion := (h.outcome hc hf).1
  rw [(h.run id hf).rows?_eq (consoles_run_self hc), surface_run, surface_congr hregion,
    displayOf_run hc _ (by rw [hregion]) (h.display_lt hc)]

/-- A computation that leaves the window in its place, and does to the display what a flush does,
shows what a flush shows. -/
theorem Seat.Sound.rows?_run_eq_flush {s : Seat} (h : s.Sound) {id : Nat} {c : Console}
    {f : Surface → Console → Output Console} (hc : s.consoles[id]? = some c)
    (hf : Console.Stepwise f) (horigin : (f (s.surface id c) c).value.origin = c.origin)
    (heffects : ∀ d : Display, d.performAll (f (s.surface id c) c).effects =
      d.performAll (c.flush (s.surface id c)).effects) :
    (s.run id f).rows? id = (s.flush id).rows? id := by
  rw [flush, h.rows?_run hc hf, h.rows?_run hc stepwise_flush, heffects, horigin]
  rfl

end TextConsole
