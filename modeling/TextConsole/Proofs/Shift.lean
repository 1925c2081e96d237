import TextConsole.Proofs.Rows
import TextConsole.Proofs.Scrolling
import TextConsole.Proofs.Separation

/-!
# One scroll is one shift

A scroll stores the queue and moves the rows by one, whichever way it is done: copied within
the window, taken with it to the other end of the region, or left in memory under a window
that moves (`scroll_shifts_rows`). The row that comes into view is blank, also where it lies
over the one that has just left the screen because the window fills all of a memory that
wraps. Nothing outside the region changes.
-/

namespace TextConsole

/-- Rows one row further on, with a blank one where there was none. -/
def Direction.shiftRows (blank : List Cell) : Direction → List (List Cell) → List (List Cell)
  | up, rows => rows.tail ++ [blank]
  | down, rows => blank :: rows.dropLast

theorem Direction.shiftRows_up (blank : List Cell) (rows : List (List Cell)) :
    up.shiftRows blank rows = closeGap blank 0 1 rows := by
  simp [shiftRows, closeGap]

theorem Direction.shiftRows_down (blank : List Cell) (rows : List (List Cell)) :
    down.shiftRows blank rows = openGap blank 0 1 rows := by
  simp [shiftRows, openGap, List.dropLast_eq_take]

/-- **What a scroll shows are the rows, shifted by one.** -/
theorem Surface.rowsOf_scrolled {s : Surface} (hrows : 0 < s.rows) (dir : Direction) (blank : Cell)
    (shown : Nat → Cell) :
    s.rowsOf (dir.scrolled s blank shown) =
      dir.shiftRows (List.replicate s.columns blank) (s.rowsOf shown) := by
  cases dir with
  | up =>
      rw [Direction.shiftRows_up, ← s.rowsOf_closeGap blank shown (by omega), rowsOf_eq_iff]
      intro k hk
      simp [Direction.scrolled_up hk]
  | down =>
      rw [Direction.shiftRows_down, ← s.rowsOf_openGap blank shown (by omega), rowsOf_eq_iff]
      intro k _
      rw [Direction.scrolled_down]
      by_cases hkept : s.columns ≤ k
      · simp [hkept, Nat.not_lt.mpr hkept]
      · simp [hkept, Nat.lt_of_not_le hkept]

namespace Seat

variable {config : Config} {s : Seat} {c : Console} {id : Nat}

/-- **One scroll is one shift**, whatever the strategy and wherever the window lies. The rows
are those of a flush, shifted by one, with a row of the console's own blanks. The cursor stays
where it is on the screen, and its address follows the window. No word outside the region of the
console changes, on its display or on another. -/
theorem scroll_shifts_rows (h : Reached config s) (hc : s.consoles[id]? = some c)
    (dir : Direction) :
    (∃ rows, (s.flush id).rows? id = some rows ∧ rows.length = config.screen.rows ∧
      (s.scroll id dir).rows? id = some
        (dir.shiftRows (List.replicate config.screen.columns (Cell.blank c.blank)) rows)) ∧
    (∃ c', (s.scroll id dir).consoles[id]? = some c' ∧ c'.queue = [] ∧ c'.row = c.row ∧
      c'.col = c.col ∧
      c'.cursorAddr = c'.origin + c.row * config.screen.columns + c.col) ∧
    ∀ k a, a < (s.displays.getD k default).capacity →
      (c.region.display = k → a < c.region.start ∨ c.region.limit ≤ a) →
        ((s.scroll id dir).displays.getD k default).memory.cell a =
          (s.displays.getD k default).memory.cell a := by
  have hsound := h.sound
  have hs := hsound.holds hc
  have hscrolled := (Scrolled.refl hsound hc).scroll dir
  have hqueue := hscrolled.queue (by simp)
  have hcolumns := h.columns_surface id c
  refine ⟨⟨_, hsound.rows?_flush hc, ?_, ?_⟩, ⟨_, hscrolled.console, hqueue, hscrolled.row,
    hscrolled.col, ?_⟩, ?_⟩
  · rw [Surface.length_rowsOf, h.rows_surface]
  · rw [hscrolled.sound.rows?_of_queue_eq_nil hscrolled.console hqueue, hscrolled.surface,
      ← hcolumns, ← Surface.rowsOf_scrolled hs.rows_pos, Option.some.injEq,
      Surface.rowsOf_eq_iff]
    exact hscrolled.picture
  · have hplaced := hscrolled.sound.placed hscrolled.console
    rw [hplaced.cursorAddr_of_queue_eq_nil hqueue, Console.addressOf, hscrolled.surface,
      hscrolled.row, hscrolled.col, hcolumns]
  · intro k a ha hout
    exact h.whole.cell_run hsound hc (stepwise_scroll dir) ha hout

/-- A window that fills all of a memory that wraps and starts in the middle, with a character
in the queue, is shifted up; and one of two pages goes to its other end to be shifted down,
past the words of the other page. -/
theorem scroll_shifts_rows_wrappingScreen :
    (∃ s c, Reached wrappingScreen s ∧ s.consoles[0]? = some c ∧ c.queue = [⟨0x0744⟩] ∧
      c.origin = 2 ∧ (s.scroll 0 .up).rows? 0 =
        some [[⟨0x0743⟩, ⟨0x0744⟩], [⟨0x0720⟩, ⟨0x0720⟩]]) ∧
    ∃ s c c', Reached twoPages s ∧ s.consoles[1]? = some c ∧
      (s.scroll 1 .down).consoles[1]? = some c' ∧ c.origin = 8 ∧ c'.origin = 10 ∧
      c'.cursorAddr = 10 + 1 * 3 + 0 ∧
      ((s.scroll 1 .down).displays.getD 0 default).memory.cell 7 =
        (s.displays.getD 0 default).memory.cell 7 := by
  refine ⟨?_, ?_⟩
  · have hreached : Reached wrappingScreen _ :=
      ⟨_, [.scroll 0 .up, .sendRun 0 [0x41, 0x42, 0x43], .send 0 0x44], rfl, rfl⟩
    obtain ⟨⟨rows, hflushed, _, hrows⟩, _⟩ := @scroll_shifts_rows _ _ _ 0 hreached rfl .up
    have hshown : some rows = some [[⟨0x0741⟩, ⟨0x0742⟩], [⟨0x0743⟩, ⟨0x0744⟩]] :=
      hflushed.symm.trans (by decide +kernel)
    obtain rfl := Option.some.inj hshown
    exact ⟨_, _, hreached, rfl, by decide +kernel, by decide +kernel, hrows⟩
  · have hreached : Reached twoPages _ := ⟨_, [.send 1 0x0A], rfl, rfl⟩
    obtain ⟨_, ⟨c', hc', _, _, _, haddr⟩, hcells⟩ :=
      @scroll_shifts_rows _ _ _ 1 hreached rfl .down
    have horigin : c'.origin = 10 := by
      obtain rfl := Option.some.inj (hc'.symm.trans rfl)
      decide +kernel
    rw [horigin] at haddr
    exact ⟨_, _, c', hreached, rfl, hc', by decide +kernel, horigin, haddr,
      hcells 0 7 (by decide +kernel) (fun _ => Or.inl (by decide +kernel))⟩

end Seat

end TextConsole
