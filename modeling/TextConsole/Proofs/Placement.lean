import TextConsole.Proofs.Window

/-!
# Where a console keeps its window, its cursor and its queue

The representation invariant of a console, `Console.WellPlaced`: the cursor is on
the screen, the queue holds characters of the cursor's line only, the cursor's
address and the queue together end at the cell of the cursor, and the window lies
in the console's region. In the middle of an operation most of this is broken, and
it is restored by the flush at the end: a flush needs no more than a window in its
place (`wellPlaced_settle`).

Every step keeps the invariant (`Step.wellPlaced`) and has no effect outside the
region (`Step.effects_within`).
-/

namespace TextConsole

/-! ## Regions that hold a screen -/

/-- Whether a region lies on a display that hardware can have, and has room for a
screen. -/
structure Surface.Holds (s : Surface) (r : Region) : Prop where
  columns_pos : 0 < s.columns
  rows_pos : 0 < s.rows
  screen_le : r.start + s.size ≤ r.limit
  limit_le : r.limit ≤ s.capacity
  capacity_le : s.capacity ≤ capacityLimit
  capacity_pow : s.capacity.isPowerOfTwo

/-- Whether a surface tells the truth about a display. -/
structure Surface.Describes (s : Surface) (d : Display) : Prop where
  kind : s.kind = d.kind
  wraps : s.wraps = d.memory.wraps
  capacity : s.capacity = d.capacity

/-- Whether a run of words is no longer than a screen and, where memory does not
wrap, lies in a region. -/
def Surface.Within (s : Surface) (r : Region) (addr len : Nat) : Prop :=
  len ≤ s.size ∧ (s.wraps = true ∨ r.start ≤ addr ∧ addr + len ≤ r.limit)

/-- Whether an effect touches a region only. -/
def Effect.Within (s : Surface) (r : Region) : Effect → Prop
  | .write dest run => s.Within r dest run.length
  | .fill dest len => s.Within r dest len
  | .copy src dest len => s.Within r src len ∧ s.Within r dest len
  | .setBlank _ => True
  | .setRegister _ _ => True
  | .ring => True

theorem Surface.Describes.performAll {s : Surface} {d : Display} (h : s.Describes d)
    (effects : Array Effect) : s.Describes (d.performAll effects) where
  kind := by rw [Display.kind_performAll, h.kind]
  wraps := by rw [Display.wraps_performAll, h.wraps]
  capacity := by rw [Display.capacity_performAll, h.capacity]

namespace Surface.Holds

variable {s : Surface} {r : Region}

theorem size_le_capacity (h : s.Holds r) : s.size ≤ s.capacity := by
  have := h.screen_le
  have := h.limit_le
  omega

theorem columns_le_size (h : s.Holds r) : s.columns ≤ s.size := s.columns_le_size h.rows_pos

theorem size_pos (h : s.Holds r) : 0 < s.size :=
  Nat.lt_of_lt_of_le h.columns_pos h.columns_le_size

theorem capacity_pos (h : s.Holds r) : 0 < s.capacity :=
  Nat.lt_of_lt_of_le h.size_pos h.size_le_capacity

/-- Screens are small. -/
theorem size_le (h : s.Holds r) : s.size ≤ 0x10000 :=
  Nat.le_trans h.size_le_capacity h.capacity_le

theorem columns_le (h : s.Holds r) : s.columns ≤ 0x10000 :=
  Nat.le_trans h.columns_le_size h.size_le

theorem rows_le (h : s.Holds r) : s.rows ≤ 0x10000 := by
  have hle : s.rows ≤ s.size := Nat.le_mul_of_pos_left s.rows h.columns_pos
  exact Nat.le_trans hle h.size_le

end Surface.Holds

namespace Console

/-! ## The invariant -/

/-- Whether the window of a console is where it may be: anywhere on memory that
wraps, and otherwise inside the region. -/
def OriginWithin (s : Surface) (c : Console) : Prop :=
  if s.wraps = true then c.origin < s.capacity
  else c.region.start ≤ c.origin ∧ c.origin + s.size ≤ c.region.limit

/-- The representation invariant of a console. -/
structure WellPlaced (s : Surface) (c : Console) : Prop where
  row_lt : c.row < s.rows
  col_le : c.col ≤ s.columns
  queue_le_limit : c.queue.length ≤ queueLimit
  /-- The queue holds the characters before the cursor in its line. -/
  queue_le_col : c.queue.length ≤ c.col
  /-- The queue ends where the cursor is. No address is taken modulo the capacity
  here, also where memory wraps. -/
  cursorAddr_add : c.cursorAddr + c.queue.length = c.addressOf s c.row c.col
  quiet : c.Quiet
  origin_within : c.OriginWithin s

variable {s : Surface} {c : Console}

/-- The window of a console lies in the memory of its display. -/
theorem OriginWithin.holdsWindow {d : Display} (h : c.OriginWithin s) (hs : s.Holds c.region)
    (hd : s.Describes d) : d.memory.HoldsWindow c.origin s.size := by
  have hcap : d.memory.capacity = s.capacity := hd.capacity.symm
  refine ⟨by rw [hcap]; exact hs.size_le_capacity, ?_⟩
  rw [VideoMemory.Fits, ← hd.wraps, hcap]
  unfold OriginWithin at h
  split at h
  · exact Or.inl ‹_›
  · have := hs.limit_le
    exact Or.inr (by omega)

theorem OriginWithin.origin_le (h : c.OriginWithin s) (hs : s.Holds c.region) :
    c.origin ≤ 0x10000 := by
  have hcapacity : s.capacity ≤ 0x10000 := hs.capacity_le
  have hlimit := hs.limit_le
  unfold OriginWithin at h
  split at h <;> omega

namespace WellPlaced

/-- Where the queue belongs on the screen. -/
theorem cursorAddr_eq (h : c.WellPlaced s) :
    c.cursorAddr = c.origin + (c.row * s.columns + c.col - c.queue.length) := by
  have := h.cursorAddr_add
  have := h.queue_le_col
  rw [addressOf] at *
  omega

theorem cursorAddr_of_queue_eq_nil (h : c.WellPlaced s) (hqueue : c.queue = []) :
    c.cursorAddr = c.addressOf s c.row c.col := by
  have := h.cursorAddr_add
  rwa [hqueue] at this

/-- The queue ends within the screen. -/
theorem queue_inside (h : c.WellPlaced s) :
    c.row * s.columns + c.col - c.queue.length + c.queue.length ≤ s.size := by
  have := s.offset_le h.row_lt h.col_le
  have := h.queue_le_col
  omega

end WellPlaced

/-! ## Flushing -/

theorem confineRow_lt (hs : s.Holds c.region) (row : Int) : s.confineRow row < s.rows := by
  have := hs.rows_pos
  unfold Surface.confineRow
  omega

theorem confineColumn_le (row : Int) : s.confineColumn row ≤ s.columns := by
  unfold Surface.confineColumn
  omega

/-- A cursor on the screen is confined to where it is. -/
theorem confineRow_of_lt {row : Nat} (h : row < s.rows) : s.confineRow row = row := by
  unfold Surface.confineRow
  omega

theorem confineColumn_of_le {col : Nat} (h : col ≤ s.columns) : s.confineColumn col = col := by
  unfold Surface.confineColumn
  omega

/-- **A flush restores the invariant**, whatever the cursor was asked to do. -/
theorem wellPlaced_settle (hs : s.Holds c.region) (h : c.OriginWithin s) (row col : Int) :
    (c.settle s row col).value.WellPlaced s where
  row_lt := confineRow_lt hs row
  col_le := confineColumn_le col
  queue_le_limit := Nat.zero_le _
  queue_le_col := Nat.zero_le _
  cursorAddr_add := rfl
  quiet := fun _ => rfl
  origin_within := h

/-- A console in its place is only relieved of its queue by a flush. -/
theorem flushed_eq (h : c.WellPlaced s) :
    c.flushed s =
      { c with
        cursorAddr := c.addressOf s c.row c.col
        queue := []
        report := c.reportAt c.col } := by
  simp only [flushed, flush, settle, confineRow_of_lt h.row_lt, confineColumn_of_le h.col_le]
  rfl

/-- There is nothing left to flush of a console in its place without a queue. -/
theorem flush_of_queue_eq_nil (hc : c.WellPlaced s) (hqueue : c.queue = []) :
    c.flush s = pure c := by
  have haddr := hc.cursorAddr_of_queue_eq_nil hqueue
  ext1
  · show c.flushed s = c
    rw [flushed_eq hc, ← haddr, reportAt_of_queue_eq_nil hqueue]
    cases c
    cases hqueue
    rfl
  · show (c.settle s c.row c.col).effects = #[]
    rw [effects_settle, confineRow_of_lt hc.row_lt, confineColumn_of_le hc.col_le, ← haddr,
      if_neg (by simpa using hqueue), if_neg (by simp)]
    rfl

/-! ## Scrolling -/

/-- The window stays where it may be. -/
theorem originWithin_scrolledOrigin (hs : s.Holds c.region) (h : c.OriginWithin s)
    (d : Direction) :
    ({ c with origin := c.scrolledOrigin s d (c.scrollMethod s d) } : Console).OriginWithin s := by
  have hlimit := hs.limit_le
  have hscreen := hs.screen_le
  have hcolumns := hs.columns_pos
  have hsize := hs.size_pos
  unfold OriginWithin at h ⊢
  unfold scrollMethod
  by_cases hsoft : s.settings.behavior.softwareScroll = true
  · rw [if_pos hsoft]
    cases d <;> exact h
  rw [if_neg hsoft]
  by_cases hw : s.wraps = true
  · rw [if_pos hw] at h ⊢
    have hcap : 0 < s.capacity := Nat.zero_lt_of_lt h
    rw [if_pos hw]
    cases d <;> exact Nat.mod_lt _ hcap
  rw [if_neg hw] at h ⊢
  rw [if_neg hw]
  cases d with
  | up =>
      by_cases hedge : c.AtEdge s .up
      · rw [if_pos hedge]
        exact ⟨Nat.le_refl _, hscreen⟩
      · -- Away from the edge the window does not reach the end of memory.
        rw [if_neg hedge]
        simp only [AtEdge] at hedge
        simp only [scrolledOrigin]
        rw [Nat.mod_eq_of_lt (by omega)]
        omega
  | down =>
      by_cases hedge : c.AtEdge s .down
      · rw [if_pos hedge]
        simp only [scrolledOrigin]
        omega
      · rw [if_neg hedge]
        simp only [AtEdge] at hedge
        simp only [scrolledOrigin]
        rw [show c.origin + s.capacity - s.columns = c.origin - s.columns + s.capacity by omega,
          Nat.add_mod_right, Nat.mod_eq_of_lt (by omega)]
        omega

theorem originWithin_nextOrigin (hs : s.Holds c.region) (h : c.OriginWithin s) (d : Direction) :
    ({ c.flushed s with origin := c.nextOrigin s d } : Console).OriginWithin s :=
  originWithin_scrolledOrigin (c := c.flushed s) hs h d

theorem wellPlaced_scroll (hs : s.Holds c.region) (h : c.OriginWithin s) (d : Direction) :
    (c.scroll s d).value.WellPlaced s := by
  rw [value_scroll]
  exact wellPlaced_settle (c := { c.flushed s with origin := c.nextOrigin s d }) hs
    (originWithin_nextOrigin hs h d) _ _

/-! ## Going home -/

/-- Linear memory has room enough outside the window to go home at once. -/
theorem descend_eq {start origin : Nat} (h : start ≤ origin)
    (hroom : origin + s.size ≤ s.capacity) :
    descend s start origin =
      ⟨start, if origin ≠ start then #[.copy origin start s.size] else #[]⟩ := by
  have hrest : descend s start start = pure start := by
    rw [descend, Nat.sub_self, Nat.min_zero, if_pos rfl]
  have hmin : min (s.capacity - s.size) (origin - start) = origin - start := by omega
  rw [descend, hmin]
  by_cases heq : origin = start
  · rw [if_pos (by omega), if_neg (by simpa using heq), heq]
    rfl
  · rw [if_neg (by omega), if_pos heq, show origin - (origin - start) = start by omega, hrest]
    rfl

/-- **Going home is one move at most**, on either sort of memory. -/
theorem homeward_eq (hs : s.Holds c.region) (h : c.OriginWithin s) :
    c.homeward s =
      ⟨c.region.start, if c.origin ≠ c.region.start then
        #[.copy c.origin c.region.start s.size] else #[]⟩ := by
  unfold homeward
  split
  · rfl
  · unfold OriginWithin at h
    rw [if_neg ‹_›] at h
    have := hs.limit_le
    exact descend_eq h.1 (by omega)

/-- A window at the start of its region is where it may be. -/
theorem originWithin_start (hs : s.Holds c.region) :
    ({ c with origin := c.region.start } : Console).OriginWithin s := by
  have := hs.screen_le
  have := hs.limit_le
  have := hs.size_pos
  unfold OriginWithin
  split
  · show c.region.start < s.capacity
    omega
  · exact ⟨Nat.le_refl _, hs.screen_le⟩

theorem value_goHome (hs : s.Holds c.region) (h : c.OriginWithin s) :
    (c.goHome s).value = ({ c with origin := c.region.start } : Console).flushed s := by
  rw [goHome_eq, homeward_eq hs h]
  rfl

theorem effects_goHome (hs : s.Holds c.region) (h : c.OriginWithin s) :
    (c.goHome s).effects =
      (if c.origin ≠ c.region.start then #[.copy c.origin c.region.start s.size] else #[]) ++
        (flush s { c with origin := c.region.start }).effects := by
  rw [goHome_eq, homeward_eq hs h]
  rfl

/-! ## Every step keeps the invariant -/

theorem Step.region {y : Output Console} (h : Step s c y) (hs : s.Holds c.region)
    (hc : c.WellPlaced s) : y.value.region = c.region := by
  cases h with
  | place | settle | scroll | ring | collect | acknowledge | point | clear => rfl
  | edit hqueue hedit => rw [perform_edit hedit (hc.cursorAddr_of_queue_eq_nil hqueue)]
  | recolor change => rw [value_changeRendition]
  | home => rw [value_goHome hs hc.origin_within]; rfl

theorem Step.wellPlaced {y : Output Console} (h : Step s c y) (hs : s.Holds c.region)
    (hc : c.WellPlaced s) : y.value.WellPlaced s := by
  cases h with
  | place hcol hroom hescape hcode =>
      refine ⟨hc.row_lt, hcol, ?_, ?_, ?_, ?_, hc.origin_within⟩
      · simpa using Nat.succ_le_of_lt hroom
      · simpa using hc.queue_le_col
      · have := hc.cursorAddr_add
        show c.cursorAddr + (c.queue ++ [_]).length = c.origin + c.row * s.columns + (c.col + 1)
        rw [addressOf] at this
        simp only [List.length_append, List.length_singleton]
        omega
      · intro hcollect
        exact absurd hcollect (by simpa using hescape)
  | settle row col => exact wellPlaced_settle hs hc.origin_within row col
  | scroll d => exact wellPlaced_scroll hs hc.origin_within d
  | edit hqueue hedit =>
      rw [perform_edit hedit (hc.cursorAddr_of_queue_eq_nil hqueue)]
      exact hc
  | recolor change hqueue =>
      rw [value_changeRendition]
      exact ⟨hc.row_lt, hc.col_le, hc.queue_le_limit, hc.queue_le_col, hc.cursorAddr_add,
        hc.quiet, hc.origin_within⟩
  | collect escape hqueue =>
      exact ⟨hc.row_lt, hc.col_le, hc.queue_le_limit, hc.queue_le_col, hc.cursorAddr_add,
        fun _ => hqueue, hc.origin_within⟩
  | ring | point | clear => exact hc
  | acknowledge =>
      exact ⟨hc.row_lt, hc.col_le, hc.queue_le_limit, hc.queue_le_col, hc.cursorAddr_add,
        hc.quiet, hc.origin_within⟩
  | home =>
      rw [value_goHome hs hc.origin_within]
      exact wellPlaced_settle (c := { c with origin := c.region.start }) hs
        (originWithin_start hs) _ _

/-- **Every computation keeps the invariant**, and the region with it. -/
theorem Steps.wellPlaced {y : Output Console} (h : Steps s c y) (hs : s.Holds c.region)
    (hc : c.WellPlaced s) : y.value.region = c.region ∧ y.value.WellPlaced s := by
  refine h.induction_value (P := fun c' => c'.region = c.region ∧ c'.WellPlaced s) ?_ ⟨rfl, hc⟩
  rintro c' y' hstep ⟨hregion, hc'⟩
  rw [← hregion] at hs
  exact ⟨(hstep.region hs hc').trans hregion, hstep.wellPlaced hs hc'⟩

/-! ## No step reaches outside the region -/

/-- Where memory does not wrap, a run inside the window is inside the region. -/
theorem within_add (h : c.OriginWithin s) {offset len : Nat}
    (hle : offset + len ≤ s.size) : s.Within c.region (c.origin + offset) len := by
  refine ⟨by omega, ?_⟩
  unfold OriginWithin at h
  split at h
  · exact Or.inl ‹_›
  · exact Or.inr (by omega)

theorem within_origin (h : c.OriginWithin s) {len : Nat} (hle : len ≤ s.size) :
    s.Within c.region c.origin len :=
  within_add h (by omega : 0 + len ≤ s.size)

theorem effect_within (h : c.OriginWithin s) {p : Patch}
    (hp : p.Inside s.size) : (p.effect c.origin).Within s c.region := by
  cases p with
  | store offset run => exact within_add h hp
  | fill offset len => exact within_add h hp
  | copy src dest len => exact ⟨within_add h hp.1, within_add h hp.2⟩

theorem WellPlaced.queue_within (hc : c.WellPlaced s) :
    s.Within c.region c.cursorAddr c.queue.length := by
  rw [hc.cursorAddr_eq]
  exact within_add hc.origin_within hc.queue_inside

/-- A flush stores the queue and nothing else. -/
theorem effects_settle_within
    (hqueue : c.queue ≠ [] → s.Within c.region c.cursorAddr c.queue.length) (row col : Int) :
    ∀ e ∈ (c.settle s row col).effects, e.Within s c.region := by
  simp only [effects_settle, Array.mem_append, Output.mem_ite]
  rintro e (⟨hne, rfl⟩ | ⟨_, rfl⟩)
  · exact hqueue hne
  · trivial

/-- The row that comes into view lies in the window. -/
theorem exposedRow_within (hs : s.Holds c.region) (h : c.OriginWithin s) (d : Direction) :
    s.Within c.region (exposedRow s c.origin d) s.columns := by
  have hcolumns := hs.columns_le_size
  have hpos := hs.columns_pos
  have hlimit := hs.limit_le
  refine ⟨hcolumns, ?_⟩
  unfold OriginWithin at h
  split at h
  · exact Or.inl ‹_›
  · right
    cases d with
    | up =>
        simp only [exposedRow]
        rw [Nat.mod_eq_of_lt (by omega)]
        omega
    | down =>
        simp only [exposedRow]
        omega

theorem moveKeptRows_within (hs : s.Holds c.region) (h : c.OriginWithin s) {origin : Nat}
    (horigin : ({ c with origin := origin } : Console).OriginWithin s) (d : Direction) :
    (c.moveKeptRows s origin d).Within s c.region := by
  have hcolumns := hs.columns_le_size
  cases d with
  | up =>
      exact ⟨within_add h (by omega),
        within_origin (c := { c with origin := origin }) horigin (by omega)⟩
  | down =>
      exact ⟨within_origin h (by omega),
        within_add (c := { c with origin := origin }) horigin (by omega)⟩

theorem scrollEffects_within (hs : s.Holds c.region) (h : c.OriginWithin s) (d : Direction) :
    ∀ e ∈ c.scrollEffects s d, e.Within s c.region := by
  have horigin := originWithin_nextOrigin hs h d
  simp only [scrollEffects, Array.mem_append, Output.mem_ite, List.mem_toArray,
    List.mem_singleton]
  rintro e ((⟨_, rfl⟩ | rfl) | ⟨_, rfl⟩)
  · exact moveKeptRows_within (c := c.flushed s) hs h horigin d
  · exact exposedRow_within (c := { c.flushed s with origin := c.nextOrigin s d }) hs horigin d
  · trivial

theorem effects_scroll_within (hs : s.Holds c.region) (hc : c.WellPlaced s) (d : Direction) :
    ∀ e ∈ (c.scroll s d).effects, e.Within s c.region := by
  simp only [effects_scroll, Array.mem_append]
  rintro e ((he | he) | he)
  · exact effects_settle_within (fun _ => hc.queue_within) _ _ e he
  · exact scrollEffects_within hs hc.origin_within d e he
  · -- The second flush has nothing left to store.
    refine effects_settle_within (c := { c.flushed s with origin := c.nextOrigin s d })
      ?_ _ _ e he
    intro hne
    exact absurd rfl hne

theorem effects_goHome_within (hs : s.Holds c.region) (hc : c.WellPlaced s) :
    ∀ e ∈ (c.goHome s).effects, e.Within s c.region := by
  have hwindow := hc.origin_within
  simp only [effects_goHome hs hwindow, Array.mem_append, Output.mem_ite]
  rintro e (⟨_, rfl⟩ | he)
  · exact ⟨within_origin hwindow (by omega),
      within_origin (c := { c with origin := c.region.start }) (originWithin_start hs)
        (by omega)⟩
  · exact effects_settle_within (c := { c with origin := c.region.start })
      (fun _ => hc.queue_within) _ _ e he

theorem Step.effects_within {y : Output Console} (h : Step s c y) (hs : s.Holds c.region)
    (hc : c.WellPlaced s) : ∀ e ∈ y.effects, e.Within s c.region := by
  have hwindow := hc.origin_within
  cases h with
  | place | collect | acknowledge => simp
  | settle row col => exact effects_settle_within (fun _ => hc.queue_within) row col
  | scroll d => exact effects_scroll_within hs hc d
  | edit hqueue hedit =>
      rename_i command
      rw [perform_edit hedit (hc.cursorAddr_of_queue_eq_nil hqueue)]
      simp only [List.mem_toArray, List.mem_map]
      rintro e ⟨p, hp, rfl⟩
      exact effect_within hwindow (command.inside_of_mem_patches hc.row_lt hc.col_le p hp)
  | recolor change hqueue =>
      rw [effects_changeRendition]
      cases change.blank? c.blank with
      | none => simp
      | some blank =>
          simp only [Option.elim_some, List.mem_toArray, List.mem_singleton]
          rintro e rfl
          trivial
  | ring =>
      simp only [List.mem_toArray, List.mem_singleton]
      rintro e rfl
      trivial
  | point =>
      simp only [effects_loadRegisters, List.mem_toArray, List.mem_cons, List.not_mem_nil,
        or_false]
      rintro e (rfl | rfl)
      · trivial
      · trivial
  | clear =>
      simp only [effects_clearWindow, List.mem_toArray, List.mem_singleton]
      rintro e rfl
      exact within_origin hwindow (by omega)
  | home => exact effects_goHome_within hs hc

/-- **No computation reaches outside the region of its console.** -/
theorem Steps.effects_within {y : Output Console} (h : Steps s c y) (hs : s.Holds c.region)
    (hc : c.WellPlaced s) : ∀ e ∈ y.effects, e.Within s c.region := by
  refine (h.forall_effects (P := fun c' => c'.region = c.region ∧ c'.WellPlaced s)
    ?_ ⟨rfl, hc⟩).2
  rintro c' y' hstep ⟨hregion, hc'⟩
  rw [← hregion] at hs ⊢
  exact ⟨⟨hstep.region hs hc', hstep.wellPlaced hs hc'⟩, hstep.effects_within hs hc'⟩

end Console

end TextConsole
