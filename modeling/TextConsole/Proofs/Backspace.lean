import TextConsole.Proofs.CursorMotion
import TextConsole.Proofs.Typesetting

/-!
# Walking back

A backspace takes the cursor back by one column, and from the start of a row to the last column
of the row before. Behind the last column the cursor is as good as in front of the next row.
So backspaces count back through the rows of the screen, one place each, and stop at the first
place (`Console.stoppedAt_backspaces`). The first of them stores the queue, where the cursor was
when the characters were sent. The others find nothing to store.

On lines that wrap, characters count forward through the same places. As many backspaces lead
back to where the first character was set, or as many rows above as the screen has moved
(`Seat.backspaces_walk_back`).
-/

namespace TextConsole

namespace Console

variable {s : Surface} {c c₀ : Console} {n place : Nat}

/-- **A backspace settles the cursor one place back**, counted through the rows. -/
theorem backspace_eq_settle (hs : s.Holds c.region) (hc : c.WellPlaced s) :
    ∃ row col : Int, c.backspace s = c.settle s row col ∧
      s.confineRow row = (c.row * s.columns + c.col - 1) / s.columns ∧
      s.confineColumn col = (c.row * s.columns + c.col - 1) % s.columns := by
  have hcolumns := hs.columns_pos
  have hrow := hc.row_lt
  have hcol := hc.col_le
  -- The place before is a row and a column in front of the end of that row.
  have hplace : ∀ {row col : Nat}, row < s.rows → col < s.columns →
      row * s.columns + col = c.row * s.columns + c.col - 1 →
      s.confineRow (row : Int) = (c.row * s.columns + c.col - 1) / s.columns ∧
      s.confineColumn (col : Int) = (c.row * s.columns + c.col - 1) % s.columns := by
    intro row col hrow hcol heq
    obtain ⟨hdiv, hmod⟩ := s.offset_unique (i := 0) hcol (by rw [heq, Nat.zero_mul, Nat.zero_add])
    rw [confineRow_of_lt hrow, confineColumn_of_le hcol.le]
    exact ⟨hdiv.trans (Nat.zero_add _), hmod⟩
  unfold backspace
  by_cases hin : 0 < c.col
  · rw [if_pos hin]
    refine ⟨_, _, rfl, ?_⟩
    rw [show (c.col : Int) - 1 = ((c.col - 1 : Nat) : Int) by omega]
    exact hplace hrow (by omega) (by omega)
  rw [if_neg hin]
  by_cases hbelow : 0 < c.row
  · rw [if_pos hbelow]
    refine ⟨_, _, rfl, ?_⟩
    have hlines : c.row * s.columns = (c.row - 1) * s.columns + s.columns := by
      rw [← Nat.succ_mul, Nat.succ_eq_add_one, Nat.sub_add_cancel hbelow]
    rw [show (c.row : Int) - 1 = ((c.row - 1 : Nat) : Int) by omega,
      show (s.columns : Int) - 1 = ((s.columns - 1 : Nat) : Int) by omega]
    exact hplace (by omega) (by omega) (by omega)
  · rw [if_neg hbelow]
    have hfirst : c.row = 0 := by omega
    refine ⟨_, _, rfl, hplace hrow (by omega) ?_⟩
    rw [hfirst, Nat.zero_mul]
    omega

/-- Whether a console is as `c₀` was, but for its cursor, which is at a place counted through the
rows, and for its queue, which is empty. -/
structure StoppedAt (s : Surface) (c₀ : Console) (place : Nat) (c : Console) : Prop where
  row : c.row = place / s.columns
  col : c.col = place % s.columns
  origin : c.origin = c₀.origin
  region : c.region = c₀.region
  escape : c.escape = c₀.escape
  queue : c.queue = []
  placed : c.WellPlaced s

theorem StoppedAt.place_eq (h : StoppedAt s c₀ place c) :
    c.row * s.columns + c.col = place := by
  rw [h.row, h.col]
  exact Nat.div_add_mod' place s.columns

theorem stoppedAt_backspace (hs : s.Holds c.region) (hc : c.WellPlaced s) :
    StoppedAt s c (c.row * s.columns + c.col - 1) (c.backspace s).value ∧
      ∀ d : Display, d.performAll (c.backspace s).effects =
        d.perform (.write c.cursorAddr c.queue) := by
  obtain ⟨row, col, heq, hrow, hcol⟩ := backspace_eq_settle hs hc
  rw [heq]
  exact ⟨⟨hrow, hcol, rfl, rfl, rfl, rfl, wellPlaced_settle hs hc.origin_within row col⟩,
    fun _ => performAll_settle row col⟩

theorem accept_backspace (hescape : c.escape = .ground) : c.accept s 0x08 = c.backspace s :=
  accept_eq_control .backspace hescape rfl

/-- **Backspaces walk back through the rows**, and store the queue once. -/
theorem stoppedAt_backspaces (hs : s.Holds c.region) (hc : c.WellPlaced s)
    (hescape : c.escape = .ground) (n : Nat) :
    StoppedAt s c (c.row * s.columns + c.col - (n + 1))
        (c.acceptAll s (List.replicate (n + 1) 0x08)).value ∧
      ∀ d : Display, d.performAll (c.acceptAll s (List.replicate (n + 1) 0x08)).effects =
        d.perform (.write c.cursorAddr c.queue) := by
  induction n with
  | zero =>
      have hone : c.acceptAll s (List.replicate 1 0x08) = c.backspace s := by
        rw [List.replicate_one, acceptAll, accept_backspace hescape]
        exact bind_pure _
      rw [hone]
      exact stoppedAt_backspace hs hc
  | succ n ih =>
      obtain ⟨hstopped, hstored⟩ := ih
      obtain ⟨hnext, hnothing⟩ := stoppedAt_backspace (by rw [hstopped.region]; exact hs)
        hstopped.placed
      rw [List.replicate_succ', acceptAll_concat, Output.value_bind, Output.effects_bind,
        accept_backspace (hstopped.escape.trans hescape)]
      rw [hstopped.place_eq, Nat.sub_sub] at hnext
      refine ⟨⟨hnext.row, hnext.col, hnext.origin.trans hstopped.origin,
        hnext.region.trans hstopped.region, hnext.escape.trans hstopped.escape, hnext.queue,
        hnext.placed⟩, fun d => ?_⟩
      rw [Display.performAll_append, hstored, hnothing, hstopped.queue, Display.perform,
        VideoMemory.write_nil]

/-- The flush at the end of a run finds nothing to store. -/
theorem acceptRun_backspaces (hs : s.Holds c.region) (hc : c.WellPlaced s)
    (hescape : c.escape = .ground) (n : Nat) :
    c.acceptRun s (List.replicate (n + 1) 0x08) = c.acceptAll s (List.replicate (n + 1) 0x08) := by
  obtain ⟨hstopped, _⟩ := stoppedAt_backspaces hs hc hescape n
  rw [acceptRun_eq]
  exact (Output.bind_congr (flush_of_queue_eq_nil hstopped.placed hstopped.queue)).trans
    (bind_pure _)

end Console

namespace Seat

variable {config : Config} {s t u : Seat} {c : Console} {id n : Nat} {bytes text : List UInt8}

/-! ## What has been sent -/

theorem Reached.sent (h : Reached config s) (ht : Sent s id bytes t) : Reached config t := by
  rcases ht with rfl | rfl
  · obtain ⟨seat, ops, hseat, rfl⟩ := h
    refine ⟨seat, ops ++ bytes.map (.send id), hseat, ?_⟩
    rw [applyAll_append, applyAll_sends]
  · exact h.apply (.sendRun id bytes)

/-- However bytes are sent, the cursor is where the last of them leaves it. -/
theorem Sound.cursor_sent (h : s.Sound) (hc : s.consoles[id]? = some c)
    (hplaced : (c.acceptAll (s.surface id c) bytes).value.WellPlaced (s.surface id c))
    (ht : Sent s id bytes t) :
    ∃ c', t.consoles[id]? = some c' ∧
      c'.row = (c.acceptAll (s.surface id c) bytes).value.row ∧
      c'.col = (c.acceptAll (s.surface id c) bytes).value.col ∧
      c'.escape = (c.acceptAll (s.surface id c) bytes).value.escape := by
  rcases ht with rfl | rfl
  · cases bytes with
    | nil => exact ⟨c, hc, rfl, rfl, rfl⟩
    | cons byte bytes =>
        rw [h.sends_eq_run (List.cons_ne_nil _ _)]
        exact ⟨_, consoles_run_self hc, rfl, rfl, rfl⟩
  · refine ⟨_, consoles_run_self hc, ?_⟩
    rw [Console.acceptRun_eq, Output.value_bind]
    exact ⟨Console.confineRow_of_lt hplaced.row_lt, Console.confineColumn_of_le hplaced.col_le, rfl⟩

/-! ## Backspaces on a seat -/

/-- What `n` backspaces leave of a seat with some columns, for a console that was `c` on `s`. -/
structure WalkedBack (columns : Nat) (s : Seat) (id : Nat) (c : Console) (n : Nat) (t : Seat) :
    Prop where
  /-- The cursor is `n` places back, or at the first place, and the window has not moved. -/
  cursor : ∃ c', t.consoles[id]? = some c' ∧
    c'.row = (c.row * columns + c.col - n) / columns ∧
    c'.col = (c.row * columns + c.col - n) % columns ∧
    c'.origin = c.origin ∧ c'.queue = [] ∧
    c'.cursorAddr = c.origin + (c.row * columns + c.col - n)
  others : ∀ j, id ≠ j → t.consoles[j]? = s.consoles[j]?
  /-- The queue is stored where the cursor was when the characters were sent. -/
  stored : ∀ j (hj : j < c.queue.length),
    t.cellAt? id c.row (c.col - c.queue.length + j) = some c.queue[j]
  /-- No other cell of any display has changed. -/
  kept : ∀ k a, a < (s.displays.getD k default).capacity →
    (c.region.display = k → ∀ j < c.queue.length,
      (c.origin + (c.row * columns + c.col - c.queue.length) + j) %
        (s.displays.getD k default).capacity ≠ a) →
    (t.displays.getD k default).memory.cell a = (s.displays.getD k default).memory.cell a

/-- A computation that only stores the queue changes no cell but those of the queue. -/
theorem Sound.cell_run_of_storing {f : Surface → Console → Output Console} (h : s.Sound)
    (hc : s.consoles[id]? = some c)
    (hstored : ∀ d : Display, d.performAll (f (s.surface id c) c).effects =
      d.perform (.write c.cursorAddr c.queue)) {k a : Nat}
    (ha : a < (s.displays.getD k default).capacity)
    (hfree : c.region.display = k → ∀ j < c.queue.length,
      (c.cursorAddr + j) % (s.displays.getD k default).capacity ≠ a) :
    ((s.run id f).displays.getD k default).memory.cell a =
      (s.displays.getD k default).memory.cell a := by
  by_cases hdisplay : c.region.display = k
  · subst hdisplay
    have hcell : (((s.displayOf c).setBlank c.blank).memory.write c.cursorAddr c.queue).cell a =
        (s.displayOf c).memory.cell a := by
      refine VideoMemory.cell_write_of_ne fun j hj => ?_
      have hne := hfree rfl j hj
      rw [← Nat.mod_eq_of_lt ha] at hne
      exact hne
    have hafter := displayOf_run (f := f) hc c rfl (h.display_lt hc)
    rw [hstored] at hafter
    exact (congrArg (fun d : Display => d.memory.cell a) hafter).trans hcell
  · rw [Array.getD_eq_getD_getElem?, Array.getD_eq_getD_getElem?, displays_run hc,
      if_neg hdisplay]

/-- Backspaces are sent as a run, or come to the same. -/
theorem Sound.sent_backspaces (h : s.Sound) (hc : s.consoles[id]? = some c)
    (hescape : c.escape = .ground) (ht : Sent s id (List.replicate (n + 1) 0x08) t) :
    t = s.sendRun id (List.replicate (n + 1) 0x08) := by
  rcases ht with rfl | rfl
  · rw [h.sends_eq_run (by simp)]
    exact run_congr hc (Console.acceptRun_backspaces (h.holds hc) (h.placed hc) hescape n).symm
  · rfl

/-- **A walk back stores the queue and moves the cursor**, and leaves all else alone. -/
theorem Sound.walkedBack (h : s.Sound) (hc : s.consoles[id]? = some c)
    (hescape : c.escape = .ground) (n : Nat) :
    WalkedBack (s.surface id c).columns s id c (n + 1)
      (s.sendRun id (List.replicate (n + 1) 0x08)) := by
  have hs := h.holds hc
  have hplaced := h.placed hc
  have hrun := Console.acceptRun_backspaces hs hplaced hescape n
  obtain ⟨hstopped, hstored⟩ := Console.stoppedAt_backspaces hs hplaced hescape n
  rw [← hrun] at hstopped hstored
  have hrows : (s.sendRun id (List.replicate (n + 1) 0x08)).rows? id = (s.flush id).rows? id := by
    refine h.rows?_run_eq_flush hc (stepwise_acceptRun _) hstopped.origin fun d => ?_
    rw [hstored, Console.flush, Console.performAll_settle]
  refine ⟨⟨_, consoles_run_self hc, hstopped.row, hstopped.col, hstopped.origin, hstopped.queue,
    ?_⟩, ?_, ?_, ?_⟩
  · rw [hstopped.placed.cursorAddr_of_queue_eq_nil hstopped.queue, Console.addressOf,
      hstopped.origin, Nat.add_assoc, hstopped.place_eq]
  · exact fun j hne => consoles_run_of_ne hne
  · intro j hj
    rw [cellAt?, hrows]
    exact h.cellAt?_flush hc hj
  · intro k a ha hfree
    rw [← hplaced.cursorAddr_eq] at hfree
    have hcell := h.cell_run_of_storing
      (f := fun surface c => c.acceptRun surface (List.replicate (n + 1) 0x08)) hc hstored ha hfree
    exact hcell

/-- Where any number of backspaces lead, also if there is none. -/
theorem Sound.place_backspaces (h : s.Sound) (hc : s.consoles[id]? = some c)
    (hescape : c.escape = .ground) (ht : Sent s id (List.replicate n 0x08) t) :
    ∃ c', t.consoles[id]? = some c' ∧
      c'.row * (s.surface id c).columns + c'.col =
        c.row * (s.surface id c).columns + c.col - n := by
  cases n with
  | zero =>
      obtain ⟨c', hc', hrow, hcol, _⟩ := h.cursor_sent hc (by exact h.placed hc) ht
      exact ⟨c', hc', by rw [hrow, hcol]; rfl⟩
  | succ n =>
      obtain ⟨hstopped, _⟩ := Console.stoppedAt_backspaces (h.holds hc) (h.placed hc) hescape n
      obtain ⟨c', hc', hrow, hcol, _⟩ := h.cursor_sent hc hstopped.placed ht
      exact ⟨c', hc', by rw [hrow, hcol, hstopped.place_eq]⟩

/-! ## Back to the start of a text -/

namespace Wrapped

variable {lines shift : Nat}

/-- The cursor behind a text, counted through the rows of the screen before it moved. -/
theorem place_eq (h : Wrapped config s id c text lines shift t) (hne : text ≠ []) :
    ∃ c', t.consoles[id]? = some c' ∧
      c'.row * config.screen.columns + c'.col + shift * config.screen.columns =
        c.row * config.screen.columns + c.col + text.length := by
  obtain ⟨c', hc', hrow, hcol⟩ := h.cursor
  have hlength := List.length_pos_iff.mpr hne
  have hlast := Nat.div_add_mod' (c.col + text.length - 1) config.screen.columns
  have hshown : c'.row + shift = c.row + lines := by
    rw [hrow, h.shift_eq]
    omega
  refine ⟨c', hc', ?_⟩
  rw [← h.lines_eq] at hlast
  rw [Nat.add_right_comm, ← Nat.add_mul, hshown, Nat.add_mul, hcol]
  omega

/-- The screen has not moved if all of the text has room below the cursor. -/
theorem shift_eq_zero_iff (h : Wrapped config s id c text lines shift t) (hne : text ≠ [])
    (hcolumns : 0 < config.screen.columns) (hrow : c.row < config.screen.rows) :
    shift = 0 ↔ c.row * config.screen.columns + c.col + text.length ≤ config.screen.size := by
  have hlength := List.length_pos_iff.mpr hne
  have hlines : lines < config.screen.rows - c.row ↔
      c.col + text.length - 1 < (config.screen.rows - c.row) * config.screen.columns := by
    rw [h.lines_eq]
    exact Nat.div_lt_iff_lt_mul hcolumns
  have hsize : config.screen.size =
      c.row * config.screen.columns + (config.screen.rows - c.row) * config.screen.columns := by
    rw [← Nat.add_mul, Nat.add_sub_cancel' hrow.le]
    exact Nat.mul_comm _ _
  rw [h.shift_eq, hsize]
  omega

end Wrapped

/-- Backspaces lead back from where other bytes have left the cursor. -/
theorem Reached.place_back (h : Reached config s) (hc : s.consoles[id]? = some c)
    (hplaced : (c.acceptAll (s.surface id c) bytes).value.WellPlaced (s.surface id c))
    (hground : (c.acceptAll (s.surface id c) bytes).value.escape = .ground)
    (hu : Sent s id bytes u) (ht : Sent u id (List.replicate n 0x08) t) :
    ∃ c', t.consoles[id]? = some c' ∧
      c'.row * config.screen.columns + c'.col =
        (c.acceptAll (s.surface id c) bytes).value.row * config.screen.columns +
          (c.acceptAll (s.surface id c) bytes).value.col - n := by
  obtain ⟨k, hk, hrow, hcol, hescape⟩ := h.sound.cursor_sent hc hplaced hu
  have hreached := Reached.sent h hu
  have hback := hreached.sound.place_backspaces hk (hescape.trans hground) ht
  rwa [hreached.columns_surface, hrow, hcol] at hback

/-- **Backspaces take back a text** on lines that wrap: as many as it has characters lead to
where the first one was set, in a row that has moved with the screen. -/
theorem Reached.place_taken_back (h : Reached config s) (hc : s.consoles[id]? = some c)
    (hescape : c.escape = .ground) (hwrap : config.behavior.lineWrap = true)
    (htext : ∀ byte ∈ text, byte ∉ controlBytes) {lines shift : Nat} (hne : text ≠ [])
    (hset : Wrapped config s id c text lines shift (s.sendRun id text)) (hu : Sent s id text u)
    (ht : Sent u id (List.replicate text.length 0x08) t) :
    ∃ c', t.consoles[id]? = some c' ∧
      c'.row * config.screen.columns + c'.col =
        c.row * config.screen.columns + c.col - shift * config.screen.columns := by
  have hsound := h.sound
  obtain ⟨_, htyped, _⟩ := Console.typed_acceptAll (h.lineWrap.trans hwrap) (hsound.drawn hc)
    hescape fun code hcode => ControlCode.ofByte?_eq_none_iff.mpr (htext code hcode)
  -- The text is set as a run would set it, so the cursor is where it is behind the run.
  obtain ⟨c₁, hc₁, hrow, hcol, _⟩ := hsound.cursor_sent hc htyped.drawn.placed
    (Or.inr (rfl : s.sendRun id text = _))
  obtain ⟨c₂, hc₂, hplace⟩ := hset.place_eq hne
  obtain rfl := Option.some.inj (hc₁.symm.trans hc₂)
  rw [hrow, hcol] at hplace
  obtain ⟨c', hc', hback⟩ := h.place_back hc htyped.drawn.placed htyped.escape hu ht
  exact ⟨c', hc', by omega⟩

/-- **Backspaces walk back through the screen**, for a console outside any escape sequence. Each
takes the cursor one place back, counted through the rows, until it is at the first place. The
queue is stored where it was sent, the window stays where it is, and nothing else changes. A
machine of 32 bits, on which rows and columns are negative in between, ends on the same seat.

On lines that wrap, as many backspaces as a text has characters lead back to where the text was
begun, if all of it had room on the screen. If the screen has moved up for it, they lead back as
many rows further. -/
theorem backspaces_walk_back (h : Reached config s) (hc : s.consoles[id]? = some c)
    (hescape : c.escape = .ground) :
    (∀ n ≠ 0, ∀ t, Sent s id (List.replicate n 0x08) t →
      WalkedBack config.screen.columns s id c n t ∧
      s.carryOutAll? ((List.replicate n 0x08).map (.send id)) = some t ∧
      s.carryOut? (.sendRun id (List.replicate n 0x08)) = some t) ∧
    (config.behavior.lineWrap = true → ∀ text : List UInt8,
      (∀ byte ∈ text, byte ∉ controlBytes) →
      ∃ shift,
        (text ≠ [] → ∃ lines, Wrapped config s id c text lines shift (s.sendRun id text)) ∧
        (shift = 0 ↔
          c.row * config.screen.columns + c.col + text.length ≤ config.screen.size) ∧
        ∀ u t, Sent s id text u → Sent u id (List.replicate text.length 0x08) t →
          ∃ c', t.consoles[id]? = some c' ∧
            c'.row * config.screen.columns + c'.col =
              c.row * config.screen.columns + c.col - shift * config.screen.columns) := by
  have hsound := h.sound
  have hplaced := hsound.placed hc
  have hcolumns := h.columns_surface id c
  refine ⟨?_, ?_⟩
  · intro n hn t ht
    obtain ⟨m, rfl⟩ := Nat.exists_eq_succ_of_ne_zero hn
    have htab : 0x09 ∉ List.replicate (m + 1) (0x08 : UInt8) := by simp
    have hback := hsound.walkedBack hc hescape m
    obtain rfl := hsound.sent_backspaces hc hescape ht
    refine ⟨hcolumns ▸ hback, ?_, hsound.carryOut?_sendRun id htab⟩
    rw [hsound.carryOutAll?_sends id htab, applyAll_sends,
      hsound.sent_backspaces hc hescape (Or.inl rfl)]
  · intro hwrap text htext
    by_cases hne : text = []
    · subst hne
      have hfits := (s.surface id c).offset_le hplaced.row_lt hplaced.col_le
      rw [hcolumns, h.size_surface id c] at hfits
      refine ⟨0, fun hne => absurd rfl hne, by simpa using hfits, ?_⟩
      intro u t hu ht
      obtain ⟨c', hc', hback⟩ := h.place_back hc (by exact hplaced) (by exact hescape) hu ht
      rw [Nat.zero_mul]
      exact ⟨c', hc', hback⟩
    · obtain ⟨lines, shift, hset⟩ := h.wrapped_sendRun hc hescape hne htext hwrap
      have hpos : 0 < config.screen.columns := by
        rw [← hcolumns]
        exact (hsound.holds hc).columns_pos
      have hrow : c.row < config.screen.rows := by
        rw [← h.rows_surface id c]
        exact hplaced.row_lt
      exact ⟨shift, fun _ => ⟨lines, hset⟩, hset.shift_eq_zero_iff hne hpos hrow,
        fun u t hu ht => h.place_taken_back hc hescape hwrap htext hne hset hu ht⟩

/-- Two letters wait in the second row, up to its end. Four backspaces store them and lead to the
end of the first row. Two more letters scroll the screen, and two backspaces lead from them to the
start of the row. -/
theorem backspaces_walk_back_twoPages :
    ∃ s c, Reached twoPages s ∧ s.consoles[1]? = some c ∧ c.row = 1 ∧ c.col = 3 ∧
      c.queue.length = 2 ∧
      (∃ c', (s.sends 1 (List.replicate 4 0x08)).consoles[1]? = some c' ∧ c'.row = 0 ∧
        c'.col = 2) ∧
      (s.sends 1 (List.replicate 4 0x08)).cellAt? 1 1 2 = some (Cell.ofCode 0x43 c.pen) ∧
      ∃ c', ((s.sends 1 [0x44, 0x45]).sends 1 (List.replicate 2 0x08)).consoles[1]? = some c' ∧
        c'.row * 3 + c'.col = 3 := by
  have hreached : Reached twoPages _ :=
    ⟨_, [.sendRun 1 [0x0A, 0x41], .send 1 0x42, .send 1 0x43], rfl, rfl⟩
  obtain ⟨hback, htext⟩ := @backspaces_walk_back _ _ _ 1 hreached rfl rfl
  obtain ⟨⟨⟨c', hc', hrow, hcol, _⟩, _, hstored, _⟩, _⟩ := hback 4 (by decide) _ (Or.inl rfl)
  obtain ⟨shift, hset, _, hplace⟩ := htext rfl [0x44, 0x45] (by decide +kernel)
  obtain ⟨_, hlines⟩ := hset (by decide)
  obtain ⟨c₁, hc₁, hplace⟩ := hplace _ _ (Or.inl rfl) (Or.inl rfl)
  have hshift : shift = 1 := by
    rw [hlines.shift_eq, hlines.lines_eq]
    rfl
  subst hshift
  exact ⟨_, _, hreached, rfl, rfl, rfl, rfl, ⟨c', hc', hrow, hcol⟩, hstored 1 (by decide),
    c₁, hc₁, hplace⟩

end Seat

end TextConsole
