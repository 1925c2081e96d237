import TextConsole.Proofs.Release
import TextConsole.Proofs.Sequences
import TextConsole.Proofs.Shift

/-!
# Line feeds

A line feed takes the cursor to some column of the next row. On the last row the screen scrolls
up by one line instead, so that the next row is the last one again. The queue is stored on the
way, and the rows are those of a flush, in their place or shifted by one (`Seat.LineFed`).

A new line of the kernel is a carriage return and a line feed, for the column not to depend on
what line feeds are set to do. Both are sent like any byte. An escape sequence that has been
left open ends with the carriage return, and the cursor stays in its column unless line feeds
return it by themselves (`Seat.message_feeds_line_iff`).
-/

namespace TextConsole

theorem Escape.State.isCollecting_of_ne_ground {state : State} (h : state ≠ .ground) :
    state.isCollecting = true := by
  cases state with
  | ground => exact absurd rfl h
  | afterEscape | inBracket => rfl

/-- A carriage return is the final byte of any sequence, and no command is spelled with it. -/
theorem Escape.State.advance_carriageReturn {state : State} (h : state ≠ .ground) :
    ∃ sequence, state.advance 0x0D = (.ground, some sequence) ∧ sequence.final = 0x0D ∧
      Command.ofSequence? sequence = none := by
  cases state with
  | ground => exact absurd rfl h
  | afterEscape => exact ⟨_, rfl, rfl, rfl⟩
  | inBracket first second slot => exact ⟨_, rfl, rfl, rfl⟩

namespace Console

variable {s : Surface} {c : Console}

/-- A carriage return inside a sequence only ends it. -/
theorem accept_carriageReturn_of_ne_ground (hc : c.WellPlaced s) (hescape : c.escape ≠ .ground) :
    c.accept s 0x0D = pure { c with escape := .ground } := by
  obtain ⟨sequence, hadvance, _, hnone⟩ := Escape.State.advance_carriageReturn hescape
  have hqueue := hc.quiet (Escape.State.isCollecting_of_ne_ground hescape)
  have hplaced : ({ c with escape := .ground } : Console).WellPlaced s :=
    ⟨hc.row_lt, hc.col_le, hc.queue_le_limit, hc.queue_le_col, hc.cursorAddr_add,
      fun _ => hqueue, hc.origin_within⟩
  rw [accept_of_isCollecting (Escape.State.isCollecting_of_ne_ground hescape), continueEscape,
    hadvance]
  dsimp only
  rw [execute_of_none hnone]
  exact flush_of_queue_eq_nil hplaced hqueue

end Console

namespace Seat

variable {config : Config} {s t t' : Seat} {c k : Console} {id col col' : Nat}

/-! ## The rows of a settled and of a scrolled console -/

theorem stepwise_settle (row col : Int) :
    Console.Stepwise fun surface c => c.settle surface row col := fun _ _ => .one (.settle ..)

/-- Wherever the cursor settles, the rows are those of a flush. -/
theorem Sound.rows?_settle (h : s.Sound) (hc : s.consoles[id]? = some c) (row col : Int) :
    (s.run id fun surface c => c.settle surface row col).rows? id = (s.flush id).rows? id := by
  refine h.rows?_run_eq_flush hc (stepwise_settle row col) rfl fun d => ?_
  rw [Console.flush, Console.performAll_settle, Console.performAll_settle]

/-- After a scroll they are shifted by one. -/
theorem Sound.rows?_scroll (h : s.Sound) (hc : s.consoles[id]? = some c) (dir : Direction) :
    (s.scroll id dir).rows? id = ((s.flush id).rows? id).map
      (dir.shiftRows (List.replicate s.settings.screen.columns (Cell.blank c.blank))) := by
  have hscrolled := (Scrolled.refl h hc).scroll dir
  rw [hscrolled.sound.rows?_of_queue_eq_nil hscrolled.console (hscrolled.queue (by simp)),
    hscrolled.surface, h.rows?_flush hc, Option.map_some]
  refine congrArg some (Eq.trans ?_ (Surface.rowsOf_scrolled (h.holds hc).rows_pos dir _ _))
  exact Surface.rowsOf_eq_iff.mpr hscrolled.picture

/-! ## Line feeds on a seat -/

/-- What a line feed to column `col` leaves of a seat, for a console that was `c` on `s`. -/
structure LineFed (s : Seat) (id : Nat) (c : Console) (col : Nat) (t : Seat) : Prop where
  cursor : ∃ c', t.consoles[id]? = some c' ∧
    c'.row = min (c.row + 1) (s.settings.screen.rows - 1) ∧ c'.col = col ∧ c'.queue = []
  /-- The rows are those of a flush, and one line further up if the cursor was in the last. -/
  rows : t.rows? id =
    if c.row + 1 < s.settings.screen.rows then (s.flush id).rows? id
    else ((s.flush id).rows? id).map (Direction.up.shiftRows
      (List.replicate s.settings.screen.columns (Cell.blank c.blank)))

theorem LineFed.col_unique (h : LineFed s id c col t) (h' : LineFed s id c col' t) :
    col = col' := by
  obtain ⟨c₁, hc₁, _, rfl, _⟩ := h.cursor
  obtain ⟨c₂, hc₂, _, rfl, _⟩ := h'.cursor
  rw [hc₁] at hc₂
  rw [Option.some.inj hc₂]

/-- A line feed of a console that has stored its queue is one from where it was before. -/
theorem LineFed.of_after {f : Surface → Console → Output Console} (hs : s.Sound)
    (hc : s.consoles[id]? = some c) (hf : Console.Stepwise f)
    (hvalue : (f (s.surface id c) c).value = k) (hrow : k.row = c.row) (hblank : k.blank = c.blank)
    (hqueue : k.queue = []) (hrows : (s.run id f).rows? id = (s.flush id).rows? id)
    (h : LineFed (s.run id f) id k col t) : LineFed s id c col t := by
  have hstored : (s.run id f).flush id = s.run id f := hs.flush_run hc hf (by rw [hvalue, hqueue])
  obtain ⟨hcursor, hshown⟩ := h
  rw [settings_run, hrow] at hcursor
  rw [settings_run, hrow, hblank, hstored, hrows] at hshown
  exact ⟨hcursor, hshown⟩

/-- **A line feed** moves the cursor to the next row, or the screen by one line. -/
theorem Sound.lineFed (h : s.Sound) (hc : s.consoles[id]? = some c) (target : Int) :
    LineFed s id c ((s.surface id c).confineColumn target)
      (s.run id fun surface c => c.lineFeed surface target) := by
  have hplaced := h.placed hc
  have hrow : c.row < s.settings.screen.rows := hplaced.row_lt
  by_cases hlast : c.row + 1 < s.settings.screen.rows
  · have hrun : (s.run id fun surface c => c.lineFeed surface target) =
        s.run id fun surface c' => c'.settle surface ((c.row : Int) + 1) target :=
      run_congr hc (if_pos hlast)
    rw [hrun]
    refine ⟨⟨_, consoles_run_self hc, ?_, rfl, rfl⟩, ?_⟩
    · have hnext : (s.surface id c).confineRow ((c.row + 1 : Nat) : Int) = c.row + 1 :=
        Console.confineRow_of_lt hlast
      exact hnext.trans (by omega)
    · rw [if_pos hlast, h.rows?_settle hc]
  · -- The cursor settles in its row before the screen scrolls.
    have hrun : (s.run id fun surface c => c.lineFeed surface target) =
        (s.run id fun surface c' => c'.settle surface c.row target).scroll id .up := by
      rw [scroll, h.run_run (stepwise_settle _ _)]
      exact run_congr hc (if_neg hlast)
    have hsettled := h.run id (stepwise_settle c.row target)
    have hscrolled := (Scrolled.refl hsettled (consoles_run_self hc)).scroll .up
    rw [hrun]
    refine ⟨⟨_, hscrolled.console, ?_, hscrolled.col, hscrolled.queue (by simp)⟩, ?_⟩
    · rw [hscrolled.row, Console.row_settle, Console.confineRow_of_lt hplaced.row_lt]
      omega
    · rw [if_neg hlast, hsettled.rows?_scroll (consoles_run_self hc), settings_run,
        h.flush_run hc (stepwise_settle _ _) rfl, h.rows?_settle hc]
      rfl

/-! ## New lines of the kernel -/

/-- A line feed sent to a console outside any sequence. -/
theorem Sound.send_lineFeed (h : s.Sound) (hc : s.consoles[id]? = some c)
    (hescape : c.escape = .ground) :
    LineFed s id c (if s.settings.behavior.newlineReturnsCarriage = true then 0 else c.col)
      (s.send id 0x0A) := by
  have hrun : s.send id 0x0A = s.run id fun surface c' => c'.lineFeed surface
      ((if s.settings.behavior.newlineReturnsCarriage = true then 0 else c.col : Nat) : Int) := by
    refine run_congr hc ?_
    rw [Console.accept_eq_control .lineFeed hescape rfl]
    show c.lineFeed _ (if s.settings.behavior.newlineReturnsCarriage = true then 0 else c.col) = _
    split <;> rfl
  have hfed := h.lineFed hc
    ((if s.settings.behavior.newlineReturnsCarriage = true then 0 else c.col : Nat) : Int)
  rw [Console.confineColumn_of_le] at hfed
  · rw [hrun]
    exact hfed
  · have hcol := (h.placed hc).col_le
    split
    · exact Nat.zero_le _
    · exact hcol

/-- What a carriage return leaves: the rows of a flush, and nothing that waits. -/
theorem Sound.send_carriageReturn (h : s.Sound) (hc : s.consoles[id]? = some c) :
    ∃ k, (c.accept (s.surface id c) 0x0D).value = k ∧ k.row = c.row ∧ k.blank = c.blank ∧
      k.queue = [] ∧ k.escape = .ground ∧ k.col = (if c.escape = .ground then 0 else c.col) ∧
      (s.send id 0x0D).rows? id = (s.flush id).rows? id := by
  have hplaced := h.placed hc
  by_cases hescape : c.escape = .ground
  · have hsettle : c.accept (s.surface id c) 0x0D = c.settle (s.surface id c) c.row 0 :=
      Console.accept_eq_control .carriageReturn hescape rfl
    have hsend : s.send id 0x0D = s.run id fun surface c' => c'.settle surface c.row 0 :=
      run_congr hc hsettle
    refine ⟨_, congrArg Output.value hsettle, Console.confineRow_of_lt hplaced.row_lt, rfl, rfl,
      hescape, ?_, ?_⟩
    · have hzero : (s.surface id c).confineColumn ((0 : Nat) : Int) = 0 :=
        Console.confineColumn_of_le (Nat.zero_le _)
      exact hzero.trans (if_pos hescape).symm
    · rw [hsend, h.rows?_settle hc]
  · -- The open sequence has left nothing to store.
    have hended := Console.accept_carriageReturn_of_ne_ground hplaced hescape
    have hqueue := hplaced.quiet (Escape.State.isCollecting_of_ne_ground hescape)
    refine ⟨_, congrArg Output.value hended, rfl, rfl, hqueue, rfl, (if_neg hescape).symm, ?_⟩
    refine h.rows?_run_eq_flush hc (stepwise_accept 0x0D) (by rw [hended]; rfl) fun d => ?_
    rw [hended, Console.flush_of_queue_eq_nil hplaced hqueue]
    rfl

/-- **When a new line of the kernel starts a fresh line.** The cursor of the first console goes
to the next row, or the screen scrolls up by one line, and nothing waits in the queue. That it
is in column 0 is certain only outside any escape sequence and where line feeds return it. The
new line is a carriage return and a line feed. An open sequence takes the carriage return for
its final byte and is over, and the cursor then stays in its column. -/
theorem message_feeds_line_iff (h : Reached config s) :
    ∃ c, s.consoles[0]? = some c ∧
      LineFed s 0 c
        (if c.escape = .ground ∨ config.behavior.newlineReturnsCarriage = true then 0 else c.col)
        (s.message 0x0A) ∧
      (LineFed s 0 c 0 (s.message 0x0A) ↔
        c.escape = .ground ∨ config.behavior.newlineReturnsCarriage = true ∨ c.col = 0) ∧
      s.message 0x0A = (s.send 0 0x0D).send 0 0x0A ∧
      (c.escape ≠ .ground →
        ∃ sequence, c.escape.advance 0x0D = (.ground, some sequence) ∧ sequence.final = 0x0D) ∧
      ∃ k, (s.send 0 0x0D).consoles[0]? = some k ∧ k.escape = .ground ∧ k.row = c.row ∧
        k.col = if c.escape = .ground then 0 else c.col := by
  have hsound := h.sound
  obtain ⟨c, hc, _⟩ := h.first
  obtain ⟨k, hvalue, hrow, hblank, hqueue, hescape, hcol, hrows⟩ := hsound.send_carriageReturn hc
  have hk : (s.send 0 0x0D).consoles[0]? = some k := by
    rw [← hvalue]
    exact consoles_run_self hc
  have hfed := (hsound.run 0 (stepwise_accept 0x0D)).send_lineFeed hk hescape
  have hline : LineFed s 0 c
      (if c.escape = .ground ∨ config.behavior.newlineReturnsCarriage = true then 0 else c.col)
      (s.message 0x0A) := by
    have hcolumn :
        (if (s.send 0 0x0D).settings.behavior.newlineReturnsCarriage = true then 0 else k.col) =
          if c.escape = .ground ∨ config.behavior.newlineReturnsCarriage = true then 0
          else c.col := by
      rw [send, settings_run, h.newlineReturnsCarriage, hcol]
      by_cases hground : c.escape = .ground
      · simp [hground]
      · simp [hground]
    rw [← hcolumn]
    exact .of_after hsound hc (stepwise_accept 0x0D) hvalue hrow hblank hqueue hrows hfed
  refine ⟨c, hc, hline, ⟨?_, ?_⟩, rfl, ?_, k, hk, hescape, hrow, hcol⟩
  · intro hfresh
    have hzero := hfresh.col_unique hline
    by_cases hreturns : c.escape = .ground ∨ config.behavior.newlineReturnsCarriage = true
    · exact hreturns.imp_right Or.inl
    · rw [if_neg hreturns] at hzero
      exact Or.inr (Or.inr hzero.symm)
  · intro hreturns
    have hzero : (if c.escape = .ground ∨ config.behavior.newlineReturnsCarriage = true then 0
        else c.col) = 0 := by
      split
      · rfl
      · rename_i hneither
        rcases hreturns with hground | hreturn | hcol
        · exact absurd (Or.inl hground) hneither
        · exact absurd (Or.inr hreturn) hneither
        · exact hcol
    rwa [hzero] at hline
  · intro hopen
    obtain ⟨sequence, hadvance, hfinal, _⟩ := Escape.State.advance_carriageReturn hopen
    exact ⟨sequence, hadvance, hfinal⟩

/-- A display of sixteen words with one screen, on which line feeds do not return the cursor. -/
def plainFeeds : Config where
  screen := ⟨3, 2⟩
  behavior := { maxConsoles := 1, newlineReturnsCarriage := false }
  displays := [{ capacity := 16 }]

/-- Outside any sequence the kernel starts a fresh line, below the row of the cursor or on a
screen that scrolls, and stores what waits in the queue. -/
theorem message_feeds_line_plainFeeds :
    (∃ s c, Reached plainFeeds s ∧ s.consoles[0]? = some c ∧ c.row = 0 ∧ c.col = 1 ∧
      c.queue = [⟨0x0741⟩] ∧ LineFed s 0 c 0 (s.message 0x0A)) ∧
    ∃ s c, Reached plainFeeds s ∧ s.consoles[0]? = some c ∧ c.row = 1 ∧ c.col = 2 ∧
      LineFed s 0 c 0 (s.message 0x0A) ∧
      (s.message 0x0A).rows? 0 =
        some [[⟨0x0720⟩, ⟨0x0742⟩, ⟨0x0720⟩], [⟨0x0720⟩, ⟨0x0720⟩, ⟨0x0720⟩]] := by
  refine ⟨?_, ?_⟩
  · have hreached : Reached plainFeeds _ := ⟨_, [.send 0 0x41], rfl, rfl⟩
    obtain ⟨c, hc, _, hfresh, _⟩ := message_feeds_line_iff hreached
    obtain rfl := Option.some.inj (hc.symm.trans rfl)
    exact ⟨_, _, hreached, hc, rfl, rfl, rfl, hfresh.mpr (Or.inl rfl)⟩
  · have hreached : Reached plainFeeds _ := ⟨_, [.sendRun 0 [0x41, 0x0A], .send 0 0x42], rfl, rfl⟩
    obtain ⟨c, hc, _, hfresh, _⟩ := message_feeds_line_iff hreached
    obtain rfl := Option.some.inj (hc.symm.trans rfl)
    exact ⟨_, _, hreached, hc, rfl, rfl, hfresh.mpr (Or.inl rfl), by decide +kernel⟩

/-- **A new line of the kernel can start in the middle of a line.** A program has sent a
character and an escape. The carriage return of the kernel ends that sequence, and its line
feed takes the cursor to the second column of the next row. -/
theorem message_strays_plainFeeds :
    ∃ s c c', Reached plainFeeds s ∧ s.consoles[0]? = some c ∧ c.escape = .afterEscape ∧
      (s.message 0x0A).consoles[0]? = some c' ∧ c'.row = 1 ∧ c'.col = 1 ∧
      ¬ LineFed s 0 c 0 (s.message 0x0A) := by
  have hreached : Reached plainFeeds _ := ⟨_, [.sendRun 0 [0x41, 0x1B]], rfl, rfl⟩
  refine ⟨_, _, _, hreached, rfl, rfl, rfl, rfl, rfl, ?_⟩
  rintro ⟨⟨c', hc', _, hcol, _⟩, _⟩
  obtain rfl := Option.some.inj (hc'.symm.trans rfl)
  exact absurd hcol (by decide +kernel)

end Seat

end TextConsole
