import TextConsole.Proofs.LineFeeds
import TextConsole.Proofs.Machine.Seat
import TextConsole.Proofs.Typesetting

/-!
# Tab stops

A tab takes the cursor to the next multiple of the tab width. A stop past the end of the line is
reached on the next line, as many columns from its start as the stop is past the end, or at the
end if the line is not that long. So a tab is a move within the row or a line feed
(`Seat.Sound.tabulated`), and what waited in the queue is stored where it belongs.

Stops are reckoned in words of 32 bits, and a configuration may have a power of two for its tab
width that is a multiple of all these words. Read as a word it is zero, which no configuration
may have, and a tab then takes the cursor to the start of its own row
(`Seat.tab_reaches_stop_iff`).
-/

namespace TextConsole

/-- The tab stop after a column: the next multiple of the width. -/
def tabStopAfter (width col : Nat) : Nat := (col / width + 1) * width

theorem le_tabStopAfter (width col : Nat) : width ≤ tabStopAfter width col :=
  Nat.le_mul_of_pos_left width (Nat.succ_pos _)

namespace Surface

variable {s : Surface}

/-- A width that fits in a word below its sign has its stops at its multiples. -/
theorem nextTabStop_of_lt (hpos : 0 < s.settings.behavior.tabWidth)
    (hlt : s.settings.behavior.tabWidth < 0x80000000) (col : Nat) :
    s.nextTabStop col = tabStopAfter s.settings.behavior.tabWidth col := by
  unfold nextTabStop tabStopAfter
  dsimp only
  rw [Nat.mod_eq_of_lt (by omega), if_pos hlt, Nat.add_div_right col hpos]

/-- A power of two that does not fit is zero as a word, and so are its stops. -/
theorem nextTabStop_of_le (hpow : s.settings.behavior.tabWidth.isPowerOfTwo)
    (hle : 0x100000000 ≤ s.settings.behavior.tabWidth) (col : Nat) : s.nextTabStop col = 0 := by
  obtain ⟨n, hn⟩ := hpow
  have hdvd : 0x100000000 ∣ s.settings.behavior.tabWidth := by
    rw [hn] at hle ⊢
    exact Nat.pow_dvd_pow 2 ((Nat.pow_le_pow_iff_right (by decide : 1 < 2)).mp hle : 32 ≤ n)
  unfold nextTabStop
  dsimp only
  rw [Nat.mod_eq_zero_of_dvd hdvd, if_pos (by decide), Nat.mul_zero]

end Surface

namespace Console

/-- A tab leaves nothing in the queue. -/
theorem queue_tabulate {s : Surface} {c : Console} : (c.tabulate s).value.queue = [] := by
  unfold tabulate lineFeed
  dsimp only
  split
  · rfl
  · split
    · rfl
    · rfl

end Console

namespace Seat

variable {config : Config} {s t : Seat} {c : Console} {id row col i : Nat}

/-! ## Where the queue is stored -/

/-- Rows that are shifted up show each cell a row higher. -/
theorem cellAt?_of_shiftRows_up {blank : List Cell} {rows : List (List Cell)}
    (hs : s.rows? id = some rows)
    (ht : t.rows? id = (s.rows? id).map (Direction.up.shiftRows blank))
    (hrow : row + 1 < rows.length) : t.cellAt? id row col = s.cellAt? id (row + 1) col := by
  rw [hs, Option.map_some, Direction.shiftRows] at ht
  have hkept : row < rows.tail.length := by
    rw [List.length_tail]
    omega
  simp only [cellAt?, hs, ht, Option.bind_some, List.getElem?_append_left hkept, List.getElem?_tail]

/-- What a line feed does to the queue: each cell is where the cursor was, or a row higher. -/
theorem LineFed.cellAt?_queue (hfed : LineFed s id c col t) (h : s.Sound)
    (hc : s.consoles[id]? = some c) (hi : i < c.queue.length) {up : Nat}
    (hup : up = if c.row + 1 < s.settings.screen.rows then 0 else 1) (hle : up ≤ c.row) :
    t.cellAt? id (c.row - up) (c.col - c.queue.length + i) = some c.queue[i] := by
  have hstored := h.cellAt?_flush hc hi
  have hrows := hfed.rows
  by_cases hlast : c.row + 1 < s.settings.screen.rows
  · rw [if_pos hlast] at hup hrows
    subst hup
    rw [cellAt?, hrows]
    exact hstored
  · rw [if_neg hlast] at hup hrows
    subst hup
    rw [cellAt?_of_shiftRows_up (h.rows?_flush hc) hrows, Nat.sub_add_cancel hle]
    · exact hstored
    · rw [Nat.sub_add_cancel hle, Surface.length_rowsOf]
      exact (h.placed hc).row_lt

/-! ## Tabs on a seat -/

/-- What a move to a row and a column leaves of a seat. -/
structure Settled (s : Seat) (id row col : Nat) (t : Seat) : Prop where
  cursor : ∃ c', t.consoles[id]? = some c' ∧ c'.row = row ∧ c'.col = col ∧ c'.queue = []
  rows : t.rows? id = (s.flush id).rows? id

/-- What a tab leaves of a seat, for a console that was `c` on `s`. -/
structure Tabbed (s : Seat) (id : Nat) (c : Console) (width : Nat) (t : Seat) : Prop where
  inside : tabStopAfter width c.col ≤ s.settings.screen.columns →
    Settled s id c.row (tabStopAfter width c.col) t
  past : s.settings.screen.columns < tabStopAfter width c.col →
    LineFed s id c (min (tabStopAfter width c.col - s.settings.screen.columns)
      s.settings.screen.columns) t
  /-- A cell that waited is where the cursor was when it was put into the queue, and a row
  higher if the screen has scrolled. The row of a screen with one row leaves it then. -/
  queued : ∀ i (hi : i < c.queue.length) (up : Nat),
    up = (if s.settings.screen.columns < tabStopAfter width c.col ∧
      ¬ c.row + 1 < s.settings.screen.rows then 1 else 0) → up ≤ c.row →
    t.cellAt? id (c.row - up) (c.col - c.queue.length + i) = some c.queue[i]

theorem stepwise_tabulate : Console.Stepwise fun surface c => c.tabulate surface := by
  intro surface c hs hc
  dsimp only [Console.tabulate, Console.lineFeed]
  split
  · exact .one (.settle ..)
  · split
    · exact .one (.settle ..)
    · exact (Console.Steps.one (.settle ..)).bind (.one (.scroll .up))

theorem Sound.settled (h : s.Sound) (hc : s.consoles[id]? = some c)
    (hcol : col ≤ s.settings.screen.columns) :
    Settled s id c.row col (s.run id fun surface c' => c'.settle surface c.row col) := by
  refine ⟨⟨_, consoles_run_self hc, ?_, ?_, rfl⟩, h.rows?_settle hc _ _⟩
  · exact Console.confineRow_of_lt (h.placed hc).row_lt
  · exact Console.confineColumn_of_le (s := s.surface id c) hcol

/-- **A tab moves the cursor within its row, or is a line feed.** -/
theorem Sound.tabulated (h : s.Sound) (hc : s.consoles[id]? = some c) {stop : Nat}
    (hstop : (s.surface id c).nextTabStop c.col = stop) :
    (stop ≤ s.settings.screen.columns →
      Settled s id c.row stop (s.run id fun surface c => c.tabulate surface)) ∧
    (s.settings.screen.columns < stop →
      LineFed s id c (min (stop - s.settings.screen.columns) s.settings.screen.columns)
        (s.run id fun surface c => c.tabulate surface)) := by
  refine ⟨fun hinside => ?_, fun hpast => ?_⟩
  · have hrun : (s.run id fun surface c => c.tabulate surface) =
        s.run id fun surface c' => c'.settle surface c.row stop := by
      refine run_congr hc ?_
      dsimp only [Console.tabulate]
      rw [hstop]
      exact if_pos hinside
    rw [hrun]
    exact h.settled hc hinside
  · have hrun : (s.run id fun surface c => c.tabulate surface) =
        s.run id fun surface c' =>
          c'.lineFeed surface ((stop : Int) - s.settings.screen.columns) := by
      refine run_congr hc ?_
      dsimp only [Console.tabulate]
      rw [hstop]
      exact if_neg (by exact Nat.not_le.mpr hpast)
    have hfed := h.lineFed hc ((stop : Int) - s.settings.screen.columns)
    have hcol : (s.surface id c).confineColumn ((stop : Int) - s.settings.screen.columns) =
        min (stop - s.settings.screen.columns) s.settings.screen.columns := by
      unfold Surface.confineColumn
      show (min ((stop : Int) - s.settings.screen.columns)
        (s.settings.screen.columns : Int)).toNat = _
      omega
    rwa [hrun, ← hcol]

/-- A tab makes a console outside any sequence tabulate, and leaves nothing more to store. -/
theorem Sound.sent_tab (h : s.Sound) (hc : s.consoles[id]? = some c) (hescape : c.escape = .ground)
    (ht : Sent s id [0x09] t) : t = s.run id fun surface c => c.tabulate surface := by
  have hsend : s.send id 0x09 = s.run id fun surface c => c.tabulate surface :=
    run_congr hc (Console.accept_eq_control .tab hescape rfl)
  rcases ht with rfl | rfl
  · exact hsend
  · calc s.sendRun id [0x09]
        = (s.send id 0x09).flush id := h.sendRun_eq id [0x09]
      _ = s.run id fun surface c => c.tabulate surface := by
          rw [hsend, h.flush_run hc stepwise_tabulate Console.queue_tabulate]

/-- **When a tab reaches its stop.** With a width that fits in a word of 32 bits it does, and
what waited is stored where it belongs. With a larger one, which a configuration may have, the
cursor goes to the start of its row. The one width that is excluded stops a machine. With any
other width a machine goes through with the tab, alone or as a run, and ends on the same seat. -/
theorem tab_reaches_stop_iff (h : Reached config s) (hhalf : config.behavior.tabWidth ≠ 0x80000000)
    (hc : s.consoles[id]? = some c) (hescape : c.escape = .ground) (ht : Sent s id [0x09] t) :
    (Tabbed s id c config.behavior.tabWidth t ↔ config.behavior.tabWidth < 0x100000000) ∧
      (0x100000000 ≤ config.behavior.tabWidth → Settled s id c.row 0 t) ∧
      s.carryOut? (.send id 0x09) = some t ∧ s.carryOut? (.sendRun id [0x09]) = some t := by
  have hsound := h.sound
  have hholds := hsound.holds hc
  obtain ⟨regions, hvalid, _, hmoves⟩ := h.moves
  have htabs := Moves.tabsFit hmoves (tabsFit_ofRegions hvalid hhalf)
  have hwidth : (s.surface id c).settings.behavior.tabWidth = config.behavior.tabWidth := h.tabWidth
  have hpos : 0 < (s.surface id c).settings.behavior.tabWidth :=
    Nat.pos_of_isPowerOfTwo htabs.pow
  -- However the tab is sent, it leads to the same seat.
  have hsent : ∀ {u}, Sent s id [0x09] u → u = t := fun hu =>
    (hsound.sent_tab hc hescape hu).trans (hsound.sent_tab hc hescape ht).symm
  have hwide : 0x100000000 ≤ config.behavior.tabWidth → Settled s id c.row 0 t := by
    intro hle
    rw [← hwidth] at hle
    rw [hsound.sent_tab hc hescape ht]
    exact (hsound.tabulated hc (Surface.nextTabStop_of_le htabs.pow hle c.col)).1 (Nat.zero_le _)
  refine ⟨⟨fun htabbed => ?_, fun hlt => ?_⟩, hwide, ?_, ?_⟩
  · -- The stop of a wide tab is past every line, and the cursor is not there.
    by_contra hle
    obtain ⟨c₁, hc₁, _, hcol₁, _⟩ := (hwide (by omega)).cursor
    have hcolumns : s.settings.screen.columns ≤ 0x10000 := hholds.columns_le
    have hcolumns_pos : 0 < s.settings.screen.columns := hholds.columns_pos
    have hstop := le_tabStopAfter config.behavior.tabWidth c.col
    obtain ⟨c₂, hc₂, _, hcol₂, _⟩ := (htabbed.past (by omega)).cursor
    rw [hc₁] at hc₂
    obtain rfl := Option.some.inj hc₂
    omega
  · rw [← hwidth] at hlt
    obtain ⟨hinside, hpast⟩ :=
      hsound.tabulated hc (Surface.nextTabStop_of_lt hpos (htabs.lt_half hlt) c.col)
    rw [hwidth, ← hsound.sent_tab hc hescape ht] at hinside hpast
    refine ⟨hinside, hpast, ?_⟩
    intro i hi up hup hle
    by_cases hover : s.settings.screen.columns < tabStopAfter config.behavior.tabWidth c.col
    · refine (hpast hover).cellAt?_queue hsound hc hi ?_ hle
      rw [hup]
      simp only [hover, true_and, ite_not]
    · rw [if_neg (fun hboth => hover hboth.1)] at hup
      subst hup
      rw [cellAt?, (hinside (Nat.le_of_not_lt hover)).rows]
      exact hsound.cellAt?_flush hc hi
  · rw [hsound.carryOut?_eq htabs]
    exact congrArg some (hsent (Or.inl rfl))
  · rw [hsound.carryOut?_eq htabs]
    exact congrArg some (hsent (Or.inr rfl))

/-- A display of sixteen words with one screen of six columns, and a stop in every fourth. -/
def fourTabs : Config where
  screen := ⟨6, 2⟩
  behavior := { maxConsoles := 1, tabWidth := 4 }
  displays := [{ capacity := 16 }]

/-- A tab behind the first character, and one past the end of the last row with a character in
the queue. -/
theorem tab_reaches_stop_fourTabs :
    (∃ s c, Reached fourTabs s ∧ s.consoles[0]? = some c ∧ c.row = 0 ∧ c.col = 1 ∧
      Tabbed s 0 c 4 (s.send 0 0x09) ∧ Settled s 0 0 4 (s.send 0 0x09)) ∧
    ∃ s c, Reached fourTabs s ∧ s.consoles[0]? = some c ∧ c.row = 1 ∧ c.col = 5 ∧
      c.queue = [⟨0x0745⟩] ∧ Tabbed s 0 c 4 (s.sendRun 0 [0x09]) ∧
      LineFed s 0 c 2 (s.sendRun 0 [0x09]) ∧
      (s.sendRun 0 [0x09]).cellAt? 0 0 4 = some ⟨0x0745⟩ := by
  refine ⟨?_, ?_⟩
  · have hreached : Reached fourTabs _ := ⟨_, [.send 0 0x41], rfl, rfl⟩
    have htab := @tab_reaches_stop_iff _ _ _ _ 0 hreached (by decide) rfl rfl (Or.inl rfl)
    have htabbed := htab.1.mpr (by decide)
    exact ⟨_, _, hreached, rfl, rfl, rfl, htabbed, htabbed.inside (by decide +kernel)⟩
  · have hreached : Reached fourTabs _ :=
      ⟨_, [.sendRun 0 [0x0A, 0x41, 0x42, 0x43, 0x44], .send 0 0x45], rfl, rfl⟩
    have htab := @tab_reaches_stop_iff _ _ _ _ 0 hreached (by decide) rfl rfl (Or.inr rfl)
    have htabbed := htab.1.mpr (by decide)
    exact ⟨_, _, hreached, rfl, rfl, rfl, rfl, htabbed, htabbed.past (by decide +kernel),
      htabbed.queued 0 (by decide +kernel) 1 (by decide +kernel) (by decide +kernel)⟩

/-- A display of eight words with one screen, and a tab width that does not fit in a word. -/
def wideTabs : Config where
  screen := ⟨2, 2⟩
  behavior := { maxConsoles := 1, tabWidth := 0x100000000 }
  displays := [{ capacity := 8 }]

/-- **A wide tab goes back.** Behind a character in the first row the next stop is far past the
end of the row, and the tab takes the cursor to where the row starts. -/
theorem tab_goes_back_wideTabs :
    ∃ s c c', Reached wideTabs s ∧ s.consoles[0]? = some c ∧ c.escape = .ground ∧ c.row = 0 ∧
      c.col = 1 ∧ (s.send 0 0x09).consoles[0]? = some c' ∧ c'.row = 0 ∧ c'.col = 0 ∧
      ¬ Tabbed s 0 c wideTabs.behavior.tabWidth (s.send 0 0x09) := by
  have hreached : Reached wideTabs _ := ⟨_, [.send 0 0x41], rfl, rfl⟩
  refine ⟨_, _, _, hreached, rfl, rfl, rfl, rfl, rfl, rfl, rfl, ?_⟩
  rintro ⟨_, hpast, _⟩
  obtain ⟨c', hc', hrow, _⟩ := (hpast (by decide +kernel)).cursor
  obtain rfl := Option.some.inj (hc'.symm.trans rfl)
  exact absurd hrow (by decide +kernel)

end Seat

end TextConsole
