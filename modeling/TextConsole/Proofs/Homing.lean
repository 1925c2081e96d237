import TextConsole.Proofs.Isolation
import TextConsole.Proofs.Screen

/-!
# Going home with characters in the queue

When a window goes home it moves to the start of its region first, and the queue is
stored after that, at the address that it had before. `Console.strayed` is what the
screen then shows (`shown_goHome`). It is the screen of a flush if the queue is empty
or the window is at home already, and else only if the stray cells happen to change
nothing (`home_keeps_rows_iff`): a queued character appears as many cells further on as
the window has moved, or not at all.
-/

namespace TextConsole

namespace Console

variable {s : Surface} {c : Console} {d : Display}

/-! ## The screen of a window that went home -/

/-- What the window shows at home, after the queue was stored where it belonged before
the window moved. -/
def strayed (s : Surface) (c : Console) (shown : Nat → Cell) (k : Nat) : Cell :=
  let i := VideoMemory.ahead s.capacity c.cursorAddr (c.region.start + k)
  if i < c.queue.length then c.queue.getD i default else shown k

/-- The window shows at home what it showed before. -/
theorem shown_homeward (hs : s.Holds c.region) (h : c.OriginWithin s) (hd : s.Describes d)
    {k : Nat} (hk : k < s.size) :
    (d.performAll (if c.origin ≠ c.region.start then
      #[.copy c.origin c.region.start s.size] else #[])).shown c.region.start k =
        d.shown c.origin k := by
  split
  · have hfrom := h.holdsWindow hs hd
    have hto := (originWithin_start hs).holdsWindow (c := { c with origin := c.region.start })
      hs hd
    exact VideoMemory.cell_copy_add hfrom.fits hto.fits hfrom.size_le hk
  · rename_i heq
    rw [Display.performAll_empty, Classical.not_not.mp heq]

/-- **The queue strays** when a window goes home. -/
theorem shown_goHome (hs : s.Holds c.region) (hc : c.WellPlaced s) (hd : s.Describes d) {k : Nat}
    (hk : k < s.size) :
    (d.performAll (c.goHome s).effects).shown c.region.start k =
      c.strayed s (d.shown c.origin) k := by
  rw [effects_goHome hs hc.origin_within, Display.performAll_append]
  generalize hmoves : (if c.origin ≠ c.region.start then
    #[Effect.copy c.origin c.region.start s.size] else #[]) = moves
  have hmoved : (d.performAll moves).shown c.region.start k = d.shown c.origin k := by
    rw [← hmoves]
    exact shown_homeward hs hc.origin_within hd hk
  have hdm := hd.performAll moves
  have hflush : (d.performAll moves).performAll
      (flush s { c with origin := c.region.start }).effects =
        (d.performAll moves).perform (.write c.cursorAddr c.queue) :=
    performAll_settle (c := { c with origin := c.region.start }) _ _
  have hwindow := hc.origin_within.holdsWindow hs hdm
  have hfits : (d.performAll moves).memory.Fits c.cursorAddr c.queue.length := by
    rw [hc.cursorAddr_eq]
    exact hwindow.fits_add hc.queue_inside
  have hlen : c.queue.length ≤ (d.performAll moves).memory.capacity := by
    have := hc.queue_inside
    have := hwindow.size_le
    omega
  rw [hflush, Display.shown, Display.perform, VideoMemory.cell_write_eq hfits hlen]
  rw [strayed, ← hmoved, hdm.capacity]
  rfl

/-- A console after it went home. -/
theorem value_goHome_eq (hs : s.Holds c.region) (hc : c.WellPlaced s) :
    (c.goHome s).value =
      { c with
        origin := c.region.start
        cursorAddr := c.region.start + c.row * s.columns + c.col
        queue := []
        report := c.reportAt c.col } := by
  rw [value_goHome hs hc.origin_within]
  simp only [flushed, flush, settle, confineRow_of_lt hc.row_lt, confineColumn_of_le hc.col_le]
  rfl

/-! ## When nothing goes astray -/

/-- Whether a window that goes home shows what a flush would have shown. -/
def HomesIntact (s : Surface) (c : Console) (shown : Nat → Cell) : Prop :=
  ∀ k < s.size, c.strayed s shown k = (c.waiting s).apply (Cell.blank c.blank) shown k

theorem homesIntact_of_queue_eq_nil (hqueue : c.queue = []) (shown : Nat → Cell) :
    c.HomesIntact s shown := by
  intro k _
  simp [strayed, waiting, Patch.apply, hqueue]

/-- A window at home only stores its queue. -/
theorem homesIntact_of_origin_eq (hs : s.Holds c.region) (hc : c.WellPlaced s)
    (hd : s.Describes d) (horigin : c.origin = c.region.start) :
    c.HomesIntact s (d.shown c.origin) := by
  intro k hk
  have heffects : (c.goHome s).effects = (c.flush s).effects := by
    rw [effects_goHome hs hc.origin_within, if_neg (by simpa using horigin), ← horigin]
    simp
  rw [← shown_goHome hs hc hd hk, heffects, ← horigin]
  exact shown_settle hs hc hd _ _ hk

end Console

namespace Seat

variable {s s' s'' : Seat} {c : Console} {id : Nat}

/-! ## What happens to the screens after that -/

/-- Whether a change of a seat leaves the cursor and the screen of each console as they
are. Renditions and the focus may change. -/
def Steady (s s' : Seat) : Prop :=
  ∀ (id : Nat) (c : Console), s.consoles[id]? = some c →
    ∃ pen blank, s'.consoles[id]? = some { c with pen := pen, blank := blank } ∧
      ∀ a, (s'.displayOf c).memory.cell a = (s.displayOf c).memory.cell a

theorem Steady.trans (h : Steady s s') (h' : Steady s' s'') : Steady s s'' := by
  intro id c hc
  obtain ⟨pen, blank, hc', hcell⟩ := h id c hc
  obtain ⟨pen', blank', hc'', hcell'⟩ := h' id _ hc'
  exact ⟨pen', blank', hc'', fun a => (hcell' a).trans (hcell a)⟩

/-- Loading the registers changes no cell. -/
theorem cell_run_loadRegisters (id : Nat) (c : Console) (a : Nat) :
    ((s.run id fun _ c => loadRegisters c).displayOf c).memory.cell a =
      (s.displayOf c).memory.cell a := by
  cases hc : s.consoles[id]? with
  | none => rw [run_of_none hc]
  | some c₁ =>
      rw [displayOf_eq, displayOf_eq, displays_run hc]
      split
      · cases s.displays[c.region.display]? <;> rfl
      · rfl

/-- The focus changes no cell. -/
theorem cell_focus (id : Nat) (c : Console) (a : Nat) :
    ((s.focus id).displayOf c).memory.cell a = (s.displayOf c).memory.cell a := by
  unfold focus
  split
  · exact cell_run_loadRegisters (s := { s with focused := id }) id c a
  · rfl

theorem steady_focus (id : Nat) : Steady s (s.focus id) :=
  fun j c hc => ⟨c.pen, c.blank, (consoles_focus id j).trans hc, cell_focus id c⟩

theorem steady_setSoftwareScroll (on : Bool) : Steady s (s.setSoftwareScroll on) :=
  fun _ c hc => ⟨c.pen, c.blank, hc, fun _ => rfl⟩

/-- Neither does giving the first console its first renditions back. -/
theorem cell_resetFirst (c : Console) (a : Nat) :
    (s.resetFirst.displayOf c).memory.cell a = (s.displayOf c).memory.cell a := by
  rw [displayOf_eq, displayOf_eq, resetFirst, Array.getElem?_modify]
  split
  · cases s.displays[c.region.display]? <;> rfl
  · rfl

theorem steady_resetFirst : Steady s s.resetFirst := by
  intro id c hc
  by_cases hid : 0 = id
  · refine ⟨Rendition.normal, Rendition.normal, ?_, cell_resetFirst c⟩
    rw [resetFirst, Array.getElem?_modify, if_pos hid, hc]
    rfl
  · refine ⟨c.pen, c.blank, ?_, cell_resetFirst c⟩
    rw [resetFirst, Array.getElem?_modify, if_neg hid, hc]

/-- The operations that take every window home. -/
def Homes (op : Operation) : Prop := op = .homeAll ∨ op = .switchScrolling ∨ op = .release

/-- They change no screen once the windows are at home. -/
theorem steady_of_homes {op : Operation} (hop : Homes op) :
    Steady (s.runAll fun surface c => c.goHome surface) (s.apply op) := by
  have hhome : Steady (s.runAll fun surface c => c.goHome surface) s.homeAll := steady_focus _
  rcases hop with rfl | rfl | rfl
  · exact hhome
  · exact hhome.trans (steady_setSoftwareScroll _)
  · exact hhome.trans ((steady_setSoftwareScroll true).trans
      ((steady_focus 0).trans steady_resetFirst))

/-! ## The screen after an operation -/

/-- A console after its window was taken home, and what it then shows. -/
theorem Sound.homes (h : s.Sound) {op : Operation} (hop : Homes op)
    (hc : s.consoles[id]? = some c) :
    ∃ c', (s.apply op).consoles[id]? = some c' ∧ c'.row = c.row ∧ c'.col = c.col ∧
      c'.origin = c.region.start ∧
      c'.cursorAddr = c.region.start + c.row * (s.surface id c).columns + c.col ∧
      ∀ k < (s.surface id c).size, ((s.apply op).displayOf c').shown c'.origin k =
        c.strayed (s.surface id c) ((s.displayOf c).shown c.origin) k := by
  have hs := h.holds hc
  have hplaced := h.placed hc
  obtain ⟨hid, _⟩ := Array.getElem?_eq_some_iff.mp hc
  obtain ⟨s₁, hbefore, hsound, hafter⟩ := h.runAll_at stepwise_goHome hid
  have hc₁ : s₁.consoles[id]? = some c := hbefore.console.trans hc
  have hsurface := hbefore.surface c
  -- The console after its own turn, which nothing else touches.
  have hturn : ((s.runAll fun surface c => c.goHome surface).consoles[id]?) =
      some (c.goHome (s.surface id c)).value := by
    rw [hafter.console, consoles_run_self hc₁, hsurface]
  have hvalue := Console.value_goHome_eq hs hplaced
  rw [hvalue] at hturn
  obtain ⟨pen, blank, hlast, hcell⟩ := steady_of_homes hop id _ hturn
  refine ⟨_, hlast, rfl, rfl, rfl, rfl, ?_⟩
  intro k hk
  have hsize : k < s₁.settings.screen.size := by
    rw [← congrArg Surface.size hsurface] at hk
    exact hk
  have hrun := consoles_run_self (f := fun surface c => c.goHome surface) hc₁
  have hd : (s.surface id c).Describes ((s₁.displayOf c).setBlank c.blank) := by
    rw [← hsurface]
    exact ⟨rfl, rfl, rfl⟩
  have hlater := hafter.shown (hsound.run id stepwise_goHome) hrun (k := k) (by rwa [settings_run])
  have hdisplay := displayOf_run (f := fun surface c => c.goHome surface) hc₁
    (c.goHome (s.surface id c)).value (by rw [hvalue]) (hsound.display_lt hc₁)
  rw [hsurface, hdisplay, hsurface, hvalue] at hlater
  refine (hcell _).trans (hlater.trans ?_)
  rw [Console.shown_goHome hs hplaced hd hk, Console.strayed, Console.strayed,
    ← hbefore.shown h hc hk]
  rfl

/-- A console after a flush, and what it then shows. -/
theorem Sound.flushes (h : s.Sound) (hc : s.consoles[id]? = some c) :
    ∃ c', (s.flush id).consoles[id]? = some c' ∧ c'.row = c.row ∧ c'.col = c.col ∧
      ∀ k < (s.surface id c).size, ((s.flush id).displayOf c').shown c'.origin k =
        (c.waiting (s.surface id c)).apply (Cell.blank c.blank) ((s.displayOf c).shown c.origin)
          k := by
  have hs := h.holds hc
  have hplaced := h.placed hc
  have hd : (s.surface id c).Describes ((s.displayOf c).setBlank c.blank) := ⟨rfl, rfl, rfl⟩
  refine ⟨_, consoles_run_self hc, Console.confineRow_of_lt hplaced.row_lt,
    Console.confineColumn_of_le hplaced.col_le, ?_⟩
  intro k hk
  have hdisplay := displayOf_run (f := fun surface c => c.flush surface) hc
    (c.flush (s.surface id c)).value rfl (h.display_lt hc)
  rw [flush, hdisplay]
  exact Console.shown_settle hs hplaced hd _ _ hk

/-! ## The queue of a window that goes home -/

/-- **When homing keeps the screen.** Taking every window home leaves each cursor where it
was, with the origin and the cursor's address counted from the start of the region. The
rows are those of a flush exactly if the queue, stored where the window was before,
changes them as it would in its place: for one thing if there is no queue, for another
if the window is at home already. -/
theorem home_keeps_rows_iff {config : Config} (h : Reached config s) {op : Operation}
    (hop : Homes op) (hc : s.consoles[id]? = some c) :
    ∃ c' cf, (s.apply op).consoles[id]? = some c' ∧ (s.flush id).consoles[id]? = some cf ∧
      c'.row = cf.row ∧ c'.col = cf.col ∧ c'.origin = c.region.start ∧
      c'.cursorAddr = c.region.start + cf.row * config.screen.columns + cf.col ∧
      ((s.apply op).rows? id = (s.flush id).rows? id ↔
        c.HomesIntact (s.surface id c) ((s.displayOf c).shown c.origin)) ∧
      (c.queue = [] ∨ c.origin = c.region.start →
        (s.apply op).rows? id = (s.flush id).rows? id) := by
  have hsound := h.sound
  have hs := hsound.holds hc
  have hplaced := hsound.placed hc
  obtain ⟨c', hc', hrow, hcol, horigin, haddr, hshown⟩ := hsound.homes hop hc
  obtain ⟨cf, hcf, hrow', hcol', hshown'⟩ := hsound.flushes hc
  have hrows := (Moves.sound (moves_apply op) hsound).rows?_eq hc'
  have hrows' := (hsound.run id stepwise_flush).rows?_eq hcf
  rw [← flush] at hrows'
  have key : (s.apply op).rows? id = (s.flush id).rows? id ↔
      c.HomesIntact (s.surface id c) ((s.displayOf c).shown c.origin) := by
    have hscreen : ((s.apply op).surface id c').settings.screen =
        (s.surface id c).settings.screen := Moves.screen (moves_apply op)
    have hscreen' : ((s.flush id).surface id cf).settings.screen =
        (s.surface id c).settings.screen := congrArg Settings.screen settings_run
    rw [hrows, hrows', Option.some.injEq, Surface.rowsOf_congr hscreen,
      Surface.rowsOf_congr hscreen', Surface.rowsOf_eq_iff]
    -- Both screens are the one from before with the queue put in, here and there.
    refine forall₂_congr fun k hk => ?_
    rw [hshown k hk, hshown' k hk]
  refine ⟨c', cf, hc', hcf, hrow.trans hrow'.symm, hcol.trans hcol'.symm, horigin, ?_, key, ?_⟩
  · rw [haddr, hrow', hcol', ← h.screen]
    rfl
  · rintro (hqueue | hhome)
    · exact key.mpr (Console.homesIntact_of_queue_eq_nil hqueue _)
    · exact key.mpr (Console.homesIntact_of_origin_eq hs hplaced (surface_describes id c) hhome)

/-- The second of two windows goes home from the end of its page, while the first has a
character in its queue. -/
theorem home_keeps_rows_twoPages :
    ∃ s c, Reached twoPages s ∧ Homes .release ∧ s.consoles[1]? = some c ∧ c.origin = 10 ∧
      c.region.start = 8 ∧ (s.apply .release).rows? 1 = (s.flush 1).rows? 1 := by
  have hreached : Reached twoPages _ :=
    ⟨_, [.send 0 0x42, .scroll 1 .down, .sendRun 1 [0x41]], rfl, rfl⟩
  have hhomes : Homes .release := Or.inr (Or.inr rfl)
  obtain ⟨_, _, _, _, _, _, _, _, _, hrows⟩ := @home_keeps_rows_iff _ _ 1 _ hreached _ hhomes rfl
  exact ⟨_, _, hreached, hhomes, rfl, rfl, rfl, hrows (Or.inl rfl)⟩

/-- A display of eight words with one screen of two columns and two rows. -/
def oneScreen : Config where
  screen := ⟨2, 2⟩
  behavior := { maxConsoles := 1 }
  displays := [{ capacity := 8 }]

/-- **A queued character goes astray.** The window is one row away from home when a
character is queued for its first row. A flush shows it there; going home shows it in
the second row. -/
theorem home_strays_oneScreen :
    ∃ s, Reached oneScreen s ∧
      (s.flush 0).rows? 0 = some [[⟨0x0741⟩, ⟨0x0720⟩], [⟨0x0720⟩, ⟨0x0720⟩]] ∧
      ∀ op ∈ [Operation.homeAll, .switchScrolling, .release],
        (s.apply op).rows? 0 = some [[⟨0x0720⟩, ⟨0x0720⟩], [⟨0x0741⟩, ⟨0x0720⟩]] := by
  have hreached : Reached oneScreen _ := ⟨_, [.scroll 0 .up, .send 0 0x41], rfl, rfl⟩
  refine ⟨_, hreached, ?_, ?_⟩
  · decide +kernel
  · decide +kernel

end Seat

end TextConsole
