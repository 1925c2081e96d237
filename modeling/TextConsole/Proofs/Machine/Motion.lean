import TextConsole.Proofs.Machine.Words
import TextConsole.Proofs.Placement

/-!
# Moving and scrolling on machine words

A flush, a scroll, a line feed and the way home of a console go through on machine words
(`RawConsole.flush_rawAt`, `RawConsole.scroll_raw`, `RawConsole.goHome_raw`). What they rest
on is that addresses, rows and columns are small: a window lies in memory of at most
`capacityLimit` words, and the cursor is on the screen once it is confined. So no sum or
product comes near the end of its range, and each difference is that of a size and a part
of it.

A flush only needs a window in its place, whatever row and column the cursor was given. The
computations that move the cursor therefore hand it over at any row and column
(`Console.rawAt`).
-/

namespace TextConsole

open Output

/-! ## The sizes of things -/

namespace Surface.Holds

variable {s : Surface} {r : Region}

theorem signedWord_columns (h : s.Holds r) : signedWord s.columns = s.columns :=
  signedWord_of_lt (Nat.lt_of_le_of_lt h.columns_le (by decide))

theorem signedWord_rows (h : s.Holds r) : signedWord s.rows = s.rows :=
  signedWord_of_lt (Nat.lt_of_le_of_lt h.rows_le (by decide))

theorem mul_screen (h : s.Holds r) : Checked.mul s.columns s.rows = pure s.size := by
  have hsize := h.size_le
  have hmul : s.columns * s.rows = s.size := rfl
  exact Checked.mul_of_lt (by omega)

/-- The mask of a memory keeps an address modulo its capacity. -/
theorem and_mask (h : s.Holds r) (addr : Nat) : addr &&& (s.capacity - 1) = addr % s.capacity := by
  obtain ⟨k, hk⟩ := h.capacity_pow
  rw [hk, Nat.and_two_pow_sub_one_eq_mod]

/-- The capacity of a memory divides the number of addresses. -/
theorem capacity_dvd (h : s.Holds r) : s.capacity ∣ sizeLimit := by
  obtain ⟨k, hk⟩ := h.capacity_pow
  have hle := h.capacity_le
  rw [hk] at hle ⊢
  have hk16 : k ≤ 16 := (Nat.pow_le_pow_iff_right (by decide)).mp hle
  exact Nat.pow_dvd_pow 2 (Nat.le_trans hk16 (by decide : 16 ≤ 64))

end Surface.Holds

namespace Console

variable {s : Surface} {c : Console}

@[simp] theorem row_raw : c.raw.row = (c.row : Int) := rfl

@[simp] theorem col_raw : c.raw.col = (c.col : Int) := rfl

/-- A window that moves on machine words is one that moves. -/
theorem raw_moved (origin : Nat) :
    ({ c.raw with origin := origin } : RawConsole) = ({ c with origin := origin } : Console).raw :=
  rfl

/-- A console on machine words with its cursor elsewhere. -/
def rawAt (c : Console) (row col : Int) : RawConsole := { c.raw with row := row, col := col }

@[simp] theorem row_rawAt (row col : Int) : (c.rawAt row col).row = row := rfl

/-- Where a cursor is brought to is all that matters of a target, once the queue is stored. -/
theorem settle_congr (hqueue : c.queue = []) {row row' col col' : Int}
    (hrow : s.confineRow row = s.confineRow row')
    (hcol : s.confineColumn col = s.confineColumn col') :
    c.settle s row col = c.settle s row' col' := by
  unfold settle
  rw [hrow, hcol, reportAt_of_queue_eq_nil hqueue, reportAt_of_queue_eq_nil hqueue]

end Console

/-! ## Flushing -/

namespace RawConsole

open Checked Console

variable {s : Surface} {c : Console}

theorem storeQueue_rawAt (row col : Int) :
    (c.rawAt row col).storeQueue =
      (do
        Checked.emitIf (c.queue ≠ []) (.write c.cursorAddr c.queue)
        pure { c.rawAt row col with queue := [], report := c.reportAt col }) := by
  unfold storeQueue reportAt Checked.emitIf Output.emitIf
  by_cases h : c.queue = []
  · rw [if_pos (show (c.rawAt row col).queue = [] from h), if_pos h, if_neg (by simpa using h)]
    rw [← show (c.rawAt row col).queue = [] from h]
    rfl
  · rw [if_neg (show (c.rawAt row col).queue ≠ [] from h), if_neg h, if_pos h]
    rfl

/-- Confining a cursor on words gives the nearest row and column of the screen. -/
theorem confine_eq {r : RawConsole} (hs : s.Holds c.region) :
    r.confine s =
      pure { r with row := (s.confineRow r.row : Nat), col := (s.confineColumn r.col : Nat) } := by
  have hcolumns := hs.columns_le
  have hrows := hs.rows_le
  have hpos := hs.rows_pos
  have hlast : InRange ((s.rows : Int) - 1) := by
    constructor <;> omega
  have hrow : max 0 (min r.row ((s.rows : Int) - 1)) = (s.confineRow r.row : Nat) := by
    unfold Surface.confineRow
    omega
  have hcol : max 0 (min r.col (s.columns : Int)) = (s.confineColumn r.col : Nat) := by
    unfold Surface.confineColumn
    omega
  unfold confine
  rw [hs.signedWord_columns, hs.signedWord_rows, clamp_of_le (by omega), pure_bind,
    subInt_of_inRange hlast, pure_bind, clamp_of_le (by omega), pure_bind, hrow, hcol]

theorem placeCursor_eq {r : RawConsole} {row col : Nat} (hs : s.Holds c.region)
    (horigin : r.origin ≤ 0x10000) (hrow : r.row = row) (hcol : r.col = col)
    (hlt : row < s.rows) (hle : col ≤ s.columns) :
    r.placeCursor s =
      (do
        Checked.emitIf
          (s.focused = true ∧ r.origin + row * s.columns + col ≠ r.cursorAddr)
          (.setRegister .cursor (r.origin + row * s.columns + col))
        pure { r with cursorAddr := r.origin + row * s.columns + col }) := by
  have hoffset := s.offset_le hlt hle
  have hsize := hs.size_le
  have hrows := hs.rows_le
  have hcolumns := hs.columns_le
  unfold placeCursor
  rw [hrow, hcol, unsignedWord_natCast (by omega), unsignedWord_natCast (by omega),
    mul_of_lt (by omega), pure_bind, add_of_lt (by omega), pure_bind, add_of_lt (by omega),
    pure_bind]

/-- **A flush goes through**, wherever the cursor has been put. -/
theorem flush_rawAt (hs : s.Holds c.region) (h : c.OriginWithin s) (row col : Int) :
    (c.rawAt row col).flush s = (c.settle s row col).checked := by
  unfold flush
  rw [storeQueue_rawAt, bind_assoc]
  simp only [pure_bind]
  rw [confine_eq hs]
  simp only [pure_bind]
  rw [placeCursor_eq hs (h.origin_le hs) rfl rfl (confineRow_lt hs row) (confineColumn_le col)]
  rfl

theorem flush_raw (hs : s.Holds c.region) (h : c.OriginWithin s) :
    c.raw.flush s = (c.flush s).checked := flush_rawAt hs h c.row c.col

/-- A flush after a computation that has left no queue does nothing. -/
theorem checked_flush {x : Output Console} (hs : s.Holds x.value.region)
    (hc : x.value.WellPlaced s) (hqueue : x.value.queue = []) :
    (x.checked >>= fun r => r.flush s) = x.checked := by
  have hflush : x >>= (fun c => c.flush s) = x := by
    have hnone := flush_of_queue_eq_nil hc hqueue
    ext1
    · rw [value_bind, hnone]
      rfl
    · rw [effects_bind, hnone]
      exact Array.append_empty
  rw [checked_bind (f := fun c => c.flush s) (flush_raw hs hc.origin_within), hflush]

/-! ## Scrolling -/

theorem scrollMethod_raw (hs : s.Holds c.region) (h : c.OriginWithin s) (d : Direction) :
    c.raw.scrollMethod s d = pure (c.scrollMethod s d) := by
  have horigin : c.raw.origin ≤ 0x10000 := h.origin_le hs
  have hsize := hs.size_le
  have hcolumns := hs.columns_le
  have hscreen : c.raw.region.start + s.size ≤ c.raw.region.limit := hs.screen_le
  have hlimit : c.raw.region.limit ≤ s.capacity := hs.limit_le
  have hcapacity : s.capacity ≤ 0x10000 := hs.capacity_le
  have hedge : c.raw.atEdge s d = pure (decide (c.AtEdge s d)) := by
    cases d with
    | up =>
        unfold atEdge
        dsimp only
        rw [hs.mul_screen, pure_bind, add_of_lt (by omega), pure_bind,
          add_of_lt (by omega), pure_bind]
        rfl
    | down =>
        unfold atEdge
        dsimp only
        rw [add_of_lt (by omega), pure_bind]
        rfl
  unfold scrollMethod Console.scrollMethod
  split
  · rfl
  · split
    · rfl
    · rw [hedge, pure_bind]
      by_cases hat : c.AtEdge s d
      · simp only [hat, decide_true, if_true]
      · simp only [hat, decide_false, if_false, Bool.false_eq_true]

theorem moveUp_raw (hs : s.Holds c.region) (h : c.OriginWithin s) (method : ScrollMethod) :
    c.raw.moveUp s (s.size - s.columns) (s.capacity - 1) method =
      (do
        Checked.emitIf (method ≠ .shift) (c.moveKeptRows s (c.scrolledOrigin s .up method) .up)
        pure (c.scrolledOrigin s .up method)) := by
  have horigin : c.raw.origin ≤ 0x10000 := h.origin_le hs
  have hcolumns := hs.columns_le
  unfold moveUp
  rw [add_of_lt (by omega), pure_bind]
  cases method with
  | copy => rfl
  | relocate => rfl
  | shift =>
      rw [hs.and_mask]
      rfl

/-- The difference of a shift down, taken around the end of the words and then masked, is
taken around the end of the memory. -/
theorem shiftDown_eq (hs : s.Holds c.region) :
    (c.origin + sizeLimit - s.columns) % sizeLimit &&& (s.capacity - 1) =
      (c.origin + s.capacity - s.columns) % s.capacity := by
  obtain ⟨q, hq⟩ := hs.capacity_dvd
  have hcolumns := Nat.le_trans hs.columns_le_size hs.size_le_capacity
  rw [hs.and_mask, Nat.mod_mod_of_dvd _ hs.capacity_dvd, hq]
  cases q with
  | zero => exact absurd hq (by rw [Nat.mul_zero]; decide)
  | succ q =>
      rw [Nat.mul_succ,
        show c.origin + (s.capacity * q + s.capacity) - s.columns =
          c.origin + s.capacity - s.columns + s.capacity * q by omega,
        Nat.add_mul_mod_self_left]

theorem moveDown_raw (hs : s.Holds c.region) (h : c.OriginWithin s) (method : ScrollMethod) :
    c.raw.moveDown s s.size (s.size - s.columns) (s.capacity - 1) method =
      (do
        Checked.emitIf (method ≠ .shift) (c.moveKeptRows s (c.scrolledOrigin s .down method) .down)
        pure (c.scrolledOrigin s .down method)) := by
  have horigin : c.raw.origin ≤ 0x10000 := h.origin_le hs
  have hcolumns := hs.columns_le
  have hscreen : c.raw.region.start + s.size ≤ c.raw.region.limit := hs.screen_le
  have hlimit : c.raw.region.limit ≤ s.capacity := hs.limit_le
  have hcapacity : s.capacity ≤ 0x10000 := hs.capacity_le
  unfold moveDown
  cases method with
  | copy =>
      dsimp only
      rw [add_of_lt (by omega), pure_bind]
      rfl
  | relocate =>
      dsimp only
      rw [sub_of_le (by omega), pure_bind, add_of_lt (by omega), pure_bind]
      rfl
  | shift =>
      dsimp only
      rw [show c.raw.origin = c.origin from rfl, shiftDown_eq hs]
      rfl

/-- **Scrolling goes through** once the queue is stored. -/
theorem scrollWindow_raw (hs : s.Holds c.region) (hc : c.WellPlaced s) (hqueue : c.queue = [])
    (d : Direction) : c.raw.scrollWindow s d = (c.scroll s d).checked := by
  have hwindow := hc.origin_within
  have hsize := hs.size_le
  have hcolumns := hs.columns_le_size
  -- The window is where it may be after the scroll too.
  have hscrolled := originWithin_scrolledOrigin hs hwindow d
  have hflush := flush_raw (c := { c with origin := c.scrolledOrigin s d (c.scrollMethod s d) })
    hs hscrolled
  have horigin : c.scrolledOrigin s d (c.scrollMethod s d) ≤ 0x10000 :=
    OriginWithin.origin_le hscrolled hs
  unfold scrollWindow Console.scroll
  rw [flush_of_queue_eq_nil hc hqueue, pure_bind, hs.mul_screen, pure_bind,
    sub_of_le hcolumns, pure_bind, sub_of_le hs.capacity_pos, pure_bind,
    scrollMethod_raw hs hwindow, pure_bind]
  cases d with
  | up =>
      dsimp only
      rw [moveUp_raw hs hwindow, bind_assoc]
      simp only [pure_bind]
      rw [add_of_lt (by omega)]
      simp only [pure_bind]
      rw [hs.and_mask, raw_moved, hflush]
      rfl
  | down =>
      dsimp only
      rw [moveDown_raw hs hwindow, bind_assoc]
      simp only [pure_bind]
      rw [raw_moved, hflush]
      rfl

/-- A scroll from wherever the cursor has been put. -/
theorem scroll_rawAt (hs : s.Holds c.region) (h : c.OriginWithin s) (d : Direction)
    (row col : Int) :
    (c.rawAt row col).scroll s d = (c.settle s row col >>= fun c => c.scroll s d).checked := by
  have hsettled := wellPlaced_settle hs h row col
  have hwindow := scrollWindow_raw (c := (c.settle s row col).value) hs hsettled rfl d
  unfold scroll
  rw [flush_rawAt hs h]
  exact checked_bind (f := fun c => c.scroll s d) hwindow

/-- The flush before a scroll is part of the scroll. -/
theorem flush_scroll (hs : s.Holds c.region) (hc : c.WellPlaced s) (d : Direction) :
    (c.flush s >>= fun c => c.scroll s d) = c.scroll s d := by
  have hflushed := wellPlaced_settle hs hc.origin_within c.row c.col
  have hnone := flush_of_queue_eq_nil (c := c.flushed s) hflushed rfl
  unfold Console.scroll
  ext1
  · rw [value_bind, value_bind, hnone]
    rfl
  · rw [effects_bind, effects_bind, hnone]
    simp

theorem scroll_raw (hs : s.Holds c.region) (hc : c.WellPlaced s) (d : Direction) :
    c.raw.scroll s d = (c.scroll s d).checked := by
  rw [← flush_scroll hs hc]
  exact scroll_rawAt hs hc.origin_within d c.row c.col

/-! ## Line feeds -/

/-- A line feed with the cursor put in any column of its row. -/
theorem lineFeed_rawAt (hs : s.Holds c.region) (hc : c.WellPlaced s) (col : Int) :
    (c.rawAt c.row col).lineFeed s =
      if c.row + 1 < s.rows then pure (c.rawAt (c.row + 1) col)
      else (c.settle s c.row col >>= fun c => c.scroll s .up).checked := by
  have hrows := hs.rows_le
  have hlt := hc.row_lt
  have hlast : InRange ((s.rows : Int) - 1) := by
    constructor <;> omega
  have hnext : InRange ((c.row : Int) + 1) := by
    constructor <;> omega
  unfold RawConsole.lineFeed
  rw [hs.signedWord_rows, subInt_of_inRange hlast, pure_bind, row_rawAt, addInt_of_inRange hnext,
    pure_bind]
  by_cases hrow : c.row + 1 < s.rows
  · rw [if_pos hrow, if_neg (show ¬ (s.rows : Int) - 1 ≤ c.row by omega)]
    rfl
  · rw [if_neg hrow, if_pos (show (s.rows : Int) - 1 ≤ c.row by omega),
      scroll_rawAt hs hc.origin_within]

/-- A line feed and the flush after it. -/
theorem lineFeed_flush_rawAt (hs : s.Holds c.region) (hc : c.WellPlaced s) (col : Int) :
    ((c.rawAt c.row col).lineFeed s >>= fun r => r.flush s) = (c.lineFeed s col).checked := by
  have hwindow := hc.origin_within
  unfold Console.lineFeed
  rw [lineFeed_rawAt hs hc]
  split
  · rw [pure_bind, flush_rawAt hs hwindow]
  · have hscrolled := wellPlaced_scroll (c := (c.settle s c.row col).value) hs hwindow .up
    exact checked_flush hs hscrolled rfl

/-- A line feed at the end of a line, which brings the cursor to the start of the next. -/
theorem wrapLine_raw (hs : s.Holds c.region) (hc : c.WellPlaced s) :
    (c.raw.lineFeed s >>= fun r => flush s { r with col := 0 }) = (c.wrapLine s).checked := by
  have hwindow := hc.origin_within
  have hfeed := lineFeed_rawAt hs hc c.col
  unfold Console.wrapLine
  rw [show c.raw = c.rawAt c.row c.col from rfl, hfeed]
  split
  · rw [pure_bind]
    exact flush_rawAt hs hwindow _ _
  · have hscrolled := wellPlaced_scroll hs hwindow .up
    have hback := flush_rawAt (c := (c.scroll s .up).value) hs hscrolled.origin_within
      (c.scroll s .up).value.row 0
    rw [show (c.settle s c.row c.col >>= fun c => c.scroll s .up) = c.scroll s .up from
      flush_scroll hs hc .up]
    exact checked_bind (f := fun c => c.settle s c.row 0) hback

/-! ## Going home -/

/-- On linear memory there is room enough outside of a window that one round takes it all the
way. -/
theorem descendOnce_linear {start origin : Nat} (hs : s.Holds c.region) (h : start ≤ origin)
    (hroom : origin + s.size ≤ s.capacity) :
    descendOnce s start origin = some ⟨start, #[.copy origin start s.size]⟩ := by
  have hmin : min (s.capacity - s.size) (origin - start) = origin - start := by omega
  unfold descendOnce
  rw [hs.mul_screen, pure_bind, sub_of_le hs.size_le_capacity, pure_bind, sub_of_le h, pure_bind,
    hmin, sub_of_le (by omega), pure_bind, show origin - (origin - start) = start by omega]
  rfl

theorem descend_linear {start origin : Nat} (hs : s.Holds c.region) (h : start ≤ origin)
    (hroom : origin + s.size ≤ s.capacity) :
    RawConsole.descend s start origin =
      some ⟨start, if origin ≠ start then #[.copy origin start s.size] else #[]⟩ := by
  have hrest : RawConsole.descend s start start = pure start := by
    rw [RawConsole.descend, if_neg (Nat.lt_irrefl start)]
  by_cases heq : origin = start
  · rw [if_neg (by simpa using heq), heq]
    exact hrest
  · rw [RawConsole.descend, if_pos (by omega), if_pos heq]
    refine bind_eq_some_iff.mpr ⟨_, ⟨start, #[]⟩, descendOnce_linear hs h hroom, ?_, rfl⟩
    exact (if_pos (show start < origin by omega)).trans hrest

theorem goHome_raw (hs : s.Holds c.region) (hc : c.WellPlaced s) :
    c.raw.goHome s = (c.goHome s).checked := by
  have hhome := flush_raw (c := { c with origin := c.region.start }) hs (originWithin_start hs)
  have hwindow := hc.origin_within
  rw [goHome_eq, homeward_eq hs hwindow]
  unfold RawConsole.goHome
  rw [hs.mul_screen, pure_bind]
  -- Either way the window arrives with one move at most, and the flush comes after it.
  split
  · rw [raw_moved, show c.raw.region.start = c.region.start from rfl, hhome]
    rfl
  · unfold OriginWithin at hwindow
    rw [if_neg ‹_›] at hwindow
    have hlimit := hs.limit_le
    have hdescend := descend_linear (c := c) hs hwindow.1 (by omega)
    rw [show RawConsole.descend s c.raw.region.start c.raw.origin = _ from hdescend]
    exact congrArg (fun r => Checked.andThen (some _) fun _ => r) hhome

end RawConsole

end TextConsole
