import TextConsole.Proofs.Resting
import Mathlib.Logic.Function.Iterate

/-!
# Scrolling there and back

What a row of scrolls does to a console. Each moves the window (`Console.originAfter`) and the
picture (`Direction.scrolled`) in a way that the screen and the region decide, and the cursor
stays where it is (`Scrolled.scroll`).

As many scrolls down as up bring the picture back, below as many blank rows
(`Direction.iterate_scrolled_back`). The window comes back as well where it is copied in place
or memory wraps, and on linear memory while it stays clear of the limit
(`Console.iterate_originAfter_back`). Otherwise a scroll up takes it to the start of the
region, and it goes fewer rows from there than it is then scrolled down. So one of the scrolls
down takes it to the other end, and it stays whole rows away from that end
(`Console.iterate_originAfter_back_of_relocated`).
-/

namespace TextConsole

/-! ## Repeated steps -/

theorem foldl_replicate {α β : Type} (f : β → α → β) (a : α) (n : Nat) (b : β) :
    (List.replicate n a).foldl f b = (fun b => f b a)^[n] b := by
  induction n generalizing b with
  | zero => rfl
  | succ n ih => rw [List.replicate_succ, List.foldl_cons, ih, Function.iterate_succ_apply]

/-- Steps that can each be undone at once are undone one by one. -/
theorem iterate_undo {α : Type} {go back : α → α} {n : Nat} {a : α}
    (h : ∀ j < n, back (go (go^[j] a)) = go^[j] a) : back^[n] (go^[n] a) = a := by
  induction n with
  | zero => rfl
  | succ n ih =>
      rw [Function.iterate_succ_apply' go, Function.iterate_succ_apply back, h n (by omega)]
      exact ih fun j hj => h j (by omega)

/-! ## The picture -/

namespace Direction

variable {s : Surface} {blank : Cell} {shown : Nat → Cell}

theorem scrolled_up {k : Nat} (hk : k < s.size) :
    up.scrolled s blank shown k =
      if k + s.columns < s.size then shown (k + s.columns) else blank := by
  by_cases hkept : k + s.columns < s.size
  · rw [scrolled, if_neg (by simp only [exposed]; omega), if_pos hkept]
    show shown (s.columns + k) = shown (k + s.columns)
    rw [Nat.add_comm]
  · rw [scrolled, if_pos (by simp only [exposed]; omega), if_neg hkept]

theorem scrolled_down (k : Nat) :
    down.scrolled s blank shown k = if s.columns ≤ k then shown (k - s.columns) else blank := by
  by_cases hkept : s.columns ≤ k
  · rw [scrolled, if_neg (by simp only [exposed]; omega), if_pos hkept]
    show shown (0 + (k - s.columns)) = shown (k - s.columns)
    rw [Nat.zero_add]
  · rw [scrolled, if_pos (by simp only [exposed]; omega), if_neg hkept]

/-- After some scrolls up the screen shows what was that many rows further down, and blanks
below it. -/
theorem iterate_scrolled_up (n : Nat) {k : Nat} (hk : k < s.size) :
    (fun shown => up.scrolled s blank shown)^[n] shown k =
      if k + n * s.columns < s.size then shown (k + n * s.columns) else blank := by
  induction n generalizing k with
  | zero => simp [hk]
  | succ n ih =>
      rw [Function.iterate_succ_apply', Nat.succ_mul, scrolled_up hk]
      by_cases hkept : k + s.columns < s.size
      · rw [if_pos hkept, ih hkept, show k + s.columns + n * s.columns =
          k + (n * s.columns + s.columns) by omega]
      · rw [if_neg hkept, if_neg (by omega)]

/-- After some scrolls down it shows as many blank rows, and what it showed before below them. -/
theorem iterate_scrolled_down (n k : Nat) :
    (fun shown => down.scrolled s blank shown)^[n] shown k =
      if n * s.columns ≤ k then shown (k - n * s.columns) else blank := by
  induction n generalizing k with
  | zero => simp
  | succ n ih =>
      rw [Function.iterate_succ_apply', Nat.succ_mul, scrolled_down]
      by_cases hkept : n * s.columns + s.columns ≤ k
      · rw [if_pos (by omega), ih, if_pos (by omega), if_pos hkept, Nat.sub_sub,
          Nat.add_comm s.columns]
      · rw [if_neg hkept]
        split
        · rw [ih, if_neg (by omega)]
        · rfl

/-- **Scrolled up and down again**, a screen shows what it showed, below as many blank rows. -/
theorem iterate_scrolled_back (n : Nat) {k : Nat} (hk : k < s.size) :
    (fun shown => down.scrolled s blank shown)^[n]
        ((fun shown => up.scrolled s blank shown)^[n] shown) k =
      if n * s.columns ≤ k then shown k else blank := by
  rw [iterate_scrolled_down]
  by_cases hkept : n * s.columns ≤ k
  · rw [if_pos hkept, if_pos hkept, iterate_scrolled_up n (by omega), Nat.sub_add_cancel hkept,
      if_pos hk]
  · rw [if_neg hkept, if_neg hkept]

end Direction

/-- Rows of a screen after the first of them were blanked. -/
def blankTop (blank : Cell) (n : Nat) (rows : List (List Cell)) : List (List Cell) :=
  rows.mapIdx fun i row => if i < n then row.map fun _ => blank else row

theorem Surface.rowsOf_blankTop (s : Surface) (blank : Cell) (n : Nat) (shown : Nat → Cell) :
    s.rowsOf (fun k => if n * s.columns ≤ k then shown k else blank) =
      blankTop blank n (s.rowsOf shown) := by
  apply List.ext_getElem
  · simp [rowsOf, blankTop]
  · intro i _ _
    simp only [rowsOf, blankTop, List.getElem_mapIdx, List.getElem_map, List.getElem_range]
    by_cases hi : i < n
    · have hle := Nat.mul_le_mul_right s.columns (Nat.succ_le_of_lt hi)
      rw [Nat.succ_mul] at hle
      rw [if_pos hi, List.map_map]
      apply List.map_inj_left.mpr
      intro col hcol
      have := List.mem_range.mp hcol
      rw [if_neg (by omega)]
      rfl
    · have hle := Nat.mul_le_mul_right s.columns (Nat.le_of_not_lt hi)
      rw [if_neg hi]
      apply List.map_inj_left.mpr
      intro col _
      rw [if_pos (by omega)]

/-! ## The window -/

namespace Console

variable {s : Surface} {c : Console}

/-- Where the window starts after a scroll that finds it at `origin`. -/
def originAfter (s : Surface) (c : Console) (origin : Nat) (dir : Direction) : Nat :=
  ({ c with origin := origin } : Console).nextOrigin s dir

/-- A scroll moves the window of every console with the same region alike. -/
theorem nextOrigin_eq_originAfter {c' : Console} (hregion : c'.region = c.region)
    (dir : Direction) : c'.nextOrigin s dir = c.originAfter s c'.origin dir := by
  obtain ⟨⟩ := c
  obtain ⟨⟩ := c'
  obtain rfl := hregion
  cases dir <;> rfl

/-- A window that is copied in place is not moved. -/
theorem originAfter_of_copying (hcopying : s.settings.behavior.softwareScroll = true)
    (origin : Nat) (dir : Direction) : c.originAfter s origin dir = origin :=
  nextOrigin_of_copying (c := { c with origin := origin }) hcopying dir

theorem originAfter_eq (origin : Nat) (dir : Direction) :
    c.originAfter s origin dir =
      ({ c with origin := origin } : Console).scrolledOrigin s dir
        (({ c with origin := origin } : Console).scrollMethod s dir) := by
  cases dir <;> rfl

/-! ### Wrapping memory -/

section

variable (hcopying : ¬ s.settings.behavior.softwareScroll = true) (hwraps : s.wraps = true)
include hcopying hwraps

theorem originAfter_of_wraps (origin : Nat) (dir : Direction) :
    c.originAfter s origin dir =
      ({ c with origin := origin } : Console).scrolledOrigin s dir .shift := by
  rw [originAfter_eq, scrollMethod, if_neg hcopying, if_pos hwraps]

/-- A window that has been moved starts in memory. -/
theorem iterate_originAfter_lt {origin : Nat} (horigin : origin < s.capacity) (n : Nat) :
    (fun o => c.originAfter s o .up)^[n] origin < s.capacity := by
  refine Function.Iterate.rec (· < s.capacity) horigin ?_ n
  intro o ho
  rw [originAfter_of_wraps hcopying hwraps]
  exact Nat.mod_lt _ (Nat.zero_lt_of_lt ho)

/-- A scroll down undoes a scroll up. -/
theorem originAfter_back_of_wraps (hcolumns : s.columns ≤ s.capacity) {origin : Nat}
    (horigin : origin < s.capacity) :
    c.originAfter s (c.originAfter s origin .up) .down = origin := by
  rw [originAfter_of_wraps hcopying hwraps, originAfter_of_wraps hcopying hwraps]
  simp only [scrolledOrigin]
  by_cases hend : origin + s.columns < s.capacity
  · rw [Nat.mod_eq_of_lt hend, Nat.add_right_comm, Nat.add_sub_cancel, Nat.add_mod_right,
      Nat.mod_eq_of_lt horigin]
  · -- The window crosses the end, and comes back over it.
    have hnext : (origin + s.columns) % s.capacity = origin + s.columns - s.capacity := by
      rw [Nat.mod_eq_sub_mod (by omega), Nat.mod_eq_of_lt (by omega)]
    rw [hnext, Nat.sub_add_cancel (by omega), Nat.add_sub_cancel, Nat.mod_eq_of_lt horigin]

end

/-! ### Linear memory -/

section

variable (hcopying : ¬ s.settings.behavior.softwareScroll = true) (hlinear : ¬ s.wraps = true)
include hcopying hlinear

theorem originAfter_up_of_linear (hs : s.Holds c.region) (origin : Nat) :
    c.originAfter s origin .up =
      if c.region.limit ≤ origin + s.size + s.columns then c.region.start
      else origin + s.columns := by
  rw [originAfter_eq, scrollMethod, if_neg hcopying, if_neg hlinear]
  by_cases hedge : c.region.limit ≤ origin + s.size + s.columns
  · rw [if_pos hedge, if_pos (by exact hedge)]
    rfl
  · have hlimit := hs.limit_le
    have hsize := hs.size_pos
    rw [if_neg hedge, if_neg (by exact hedge)]
    show (origin + s.columns) % s.capacity = origin + s.columns
    exact Nat.mod_eq_of_lt (by omega)

theorem originAfter_down_of_linear (hs : s.Holds c.region) {origin : Nat}
    (horigin : origin + s.size ≤ c.region.limit) :
    c.originAfter s origin .down =
      if origin < c.region.start + s.columns then c.region.limit - s.size
      else origin - s.columns := by
  rw [originAfter_eq, scrollMethod, if_neg hcopying, if_neg hlinear]
  by_cases hedge : origin < c.region.start + s.columns
  · rw [if_pos hedge, if_pos (by exact hedge)]
    rfl
  · have hlimit := hs.limit_le
    have hsize := hs.size_pos
    rw [if_neg hedge, if_neg (by exact hedge)]
    show (origin + s.capacity - s.columns) % s.capacity = origin - s.columns
    rw [Nat.sub_add_comm (by omega), Nat.add_mod_right, Nat.mod_eq_of_lt (by omega)]

/-- Clear of the limit, scrolls up shift the window. -/
theorem iterate_originAfter_up_of_room (hs : s.Holds c.region) {origin : Nat} (n : Nat)
    (hroom : n = 0 ∨ origin + s.size + n * s.columns < c.region.limit) :
    (fun o => c.originAfter s o .up)^[n] origin = origin + n * s.columns := by
  induction n with
  | zero => simp
  | succ n ih =>
      rw [Nat.succ_mul] at hroom ⊢
      rw [Function.iterate_succ_apply', ih (Or.inr (by omega)),
        originAfter_up_of_linear hcopying hlinear hs, if_neg (by omega), Nat.add_assoc]

/-- Clear of the limit, a scroll down undoes a scroll up. -/
theorem originAfter_back_of_room (hs : s.Holds c.region) {origin : Nat}
    (horigin : c.region.start ≤ origin)
    (hroom : origin + s.size + s.columns < c.region.limit) :
    c.originAfter s (c.originAfter s origin .up) .down = origin := by
  rw [originAfter_up_of_linear hcopying hlinear hs, if_neg (by omega),
    originAfter_down_of_linear hcopying hlinear hs (by omega), if_neg (by omega),
    Nat.add_sub_cancel]

/-- Scrolls up shift the window all the way, or one of them takes it to the start of the
region, and it is fewer rows from there than it was scrolled. -/
theorem iterate_originAfter_up_cases (hs : s.Holds c.region) {origin : Nat}
    (horigin : origin + s.size ≤ c.region.limit) (n : Nat) :
    ((fun o => c.originAfter s o .up)^[n] origin = origin + n * s.columns ∧
        origin + n * s.columns + s.size ≤ c.region.limit) ∨
      ∃ r < n, (fun o => c.originAfter s o .up)^[n] origin = c.region.start + r * s.columns ∧
        c.region.start + r * s.columns + s.size ≤ c.region.limit := by
  have hscreen := hs.screen_le
  -- Each scroll up relocates the window anew, or keeps to the alternative it found.
  induction n with
  | zero => exact Or.inl ⟨by simp, by omega⟩
  | succ n ih =>
      rw [Function.iterate_succ_apply']
      rcases ih with ⟨hshifted, _⟩ | ⟨r, hr, hrelocated, _⟩
      · rw [hshifted, originAfter_up_of_linear hcopying hlinear hs]
        split
        · exact Or.inr ⟨0, by omega, by simp, by omega⟩
        · rw [Nat.succ_mul]
          exact Or.inl ⟨by omega, by omega⟩
      · rw [hrelocated, originAfter_up_of_linear hcopying hlinear hs]
        right
        split
        · exact ⟨0, by omega, by simp, by omega⟩
        · refine ⟨r + 1, by omega, ?_, ?_⟩
          · rw [Nat.succ_mul, Nat.add_assoc]
          · rw [Nat.succ_mul]
            omega

/-- A window that is whole rows away from the limit stays so when it is scrolled down. -/
theorem iterate_originAfter_down_of_aligned (hs : s.Holds c.region) {origin : Nat}
    (haligned : ∃ m, origin + s.size + m * s.columns = c.region.limit) (n : Nat) :
    ∃ m, (fun o => c.originAfter s o .down)^[n] origin + s.size + m * s.columns =
      c.region.limit := by
  refine Function.Iterate.rec
    (fun o => ∃ m, o + s.size + m * s.columns = c.region.limit) haligned ?_ n
  rintro o ⟨m, hm⟩
  have hscreen := hs.screen_le
  rw [originAfter_down_of_linear hcopying hlinear hs (by omega)]
  split
  · exact ⟨0, by omega⟩
  · exact ⟨m + 1, by rw [Nat.succ_mul]; omega⟩

/-- Scrolled down by more rows than it is away from the start of its region, a window ends
whole rows away from the limit. -/
theorem iterate_originAfter_down_of_lt (hs : s.Holds c.region) {n : Nat} :
    ∀ {r : Nat}, r < n → c.region.start + r * s.columns + s.size ≤ c.region.limit →
      ∃ m, (fun o => c.originAfter s o .down)^[n] (c.region.start + r * s.columns) + s.size +
        m * s.columns = c.region.limit := by
  have hscreen := hs.screen_le
  have hcolumns := hs.columns_pos
  induction n with
  | zero => exact fun h => absurd h (Nat.not_lt_zero _)
  | succ n ih =>
      intro r hr hinside
      rw [Function.iterate_succ_apply, originAfter_down_of_linear hcopying hlinear hs (by omega)]
      cases r with
      | zero =>
          -- At the start of the region the window has to go to the other end.
          rw [if_pos (by omega)]
          exact iterate_originAfter_down_of_aligned hcopying hlinear hs ⟨0, by omega⟩ n
      | succ r =>
          rw [Nat.succ_mul] at hinside ⊢
          rw [if_neg (by omega), ← Nat.add_assoc, Nat.add_sub_cancel]
          exact ih (by omega) (by omega)

end

/-! ### There and back -/

/-- **A window comes back** unless a scroll up had to take it to the start of its region. -/
theorem iterate_originAfter_back (hs : s.Holds c.region) (hc : c.OriginWithin s) {n : Nat}
    (h : s.settings.behavior.softwareScroll = true ∨ s.wraps = true ∨ n = 0 ∨
      c.origin + s.size + n * s.columns < c.region.limit) :
    (fun o => c.originAfter s o .down)^[n] ((fun o => c.originAfter s o .up)^[n] c.origin) =
      c.origin := by
  refine iterate_undo fun j hj => ?_
  by_cases hcopying : s.settings.behavior.softwareScroll = true
  · rw [originAfter_of_copying hcopying, originAfter_of_copying hcopying]
  by_cases hwraps : s.wraps = true
  · rw [OriginWithin, if_pos hwraps] at hc
    have hcolumns := hs.columns_le_size
    have hsize := hs.size_le_capacity
    exact originAfter_back_of_wraps hcopying hwraps (by omega)
      (iterate_originAfter_lt hcopying hwraps hc j)
  · rw [OriginWithin, if_neg hwraps] at hc
    have hroom : c.origin + s.size + n * s.columns < c.region.limit := by
      rcases h with h | h | h | h
      · exact absurd h hcopying
      · exact absurd h hwraps
      · omega
      · exact h
    have hnext := Nat.mul_le_mul_right s.columns (Nat.succ_le_of_lt hj)
    rw [Nat.succ_mul] at hnext
    rw [iterate_originAfter_up_of_room hcopying hwraps hs j (Or.inr (by omega))]
    exact originAfter_back_of_room hcopying hwraps hs (by omega) (by omega)

/-- **A window that was taken to the start of its region** ends whole rows away from the
limit. -/
theorem iterate_originAfter_back_of_relocated (hs : s.Holds c.region) (hc : c.OriginWithin s)
    {n : Nat} (hcopying : ¬ s.settings.behavior.softwareScroll = true)
    (hlinear : ¬ s.wraps = true)
    (hfar : c.region.limit < c.origin + s.size + n * s.columns) :
    ∃ m, (fun o => c.originAfter s o .down)^[n]
      ((fun o => c.originAfter s o .up)^[n] c.origin) + s.size + m * s.columns =
        c.region.limit := by
  rw [OriginWithin, if_neg hlinear] at hc
  rcases iterate_originAfter_up_cases hcopying hlinear hs hc.2 n with
    ⟨_, hinside⟩ | ⟨r, hr, hrelocated, hinside⟩
  · omega
  · rw [hrelocated]
    exact iterate_originAfter_down_of_lt hcopying hlinear hs hr hinside

end Console

/-! ## Screens -/

namespace Seat

variable {s s' : Seat} {c c' : Console} {id : Nat} {config : Config}

/-- What a console shows once its queue is stored. -/
def picture (s : Seat) (id : Nat) (c : Console) : Nat → Cell :=
  (c.waiting (s.surface id c)).apply (Cell.blank c.blank) ((s.displayOf c).shown c.origin)

/-- Without a queue that is what it shows now. -/
theorem picture_of_queue_eq_nil (hqueue : c.queue = []) (k : Nat) :
    s.picture id c k = (s.displayOf c).shown c.origin k := by
  simp [picture, Console.waiting, Patch.apply, hqueue]

theorem Sound.rows?_of_queue_eq_nil (h : s.Sound) (hc : s.consoles[id]? = some c)
    (hqueue : c.queue = []) :
    s.rows? id = some ((s.surface id c).rowsOf (s.picture id c)) := by
  rw [h.rows?_eq hc, Option.some.injEq, Surface.rowsOf_eq_iff]
  exact fun k _ => (picture_of_queue_eq_nil hqueue k).symm

theorem Sound.rows?_flush (h : s.Sound) (hc : s.consoles[id]? = some c) :
    (s.flush id).rows? id = some ((s.surface id c).rowsOf (s.picture id c)) := by
  obtain ⟨cf, hcf, _, _, hshown⟩ := h.flushes hc
  have hrows := (h.run id stepwise_flush).rows?_eq hcf
  have hscreen : ((s.flush id).surface id cf).settings.screen = (s.surface id c).settings.screen :=
    congrArg Settings.screen settings_run
  rw [← flush] at hrows
  rw [hrows, Surface.rowsOf_congr hscreen, Option.some.injEq, Surface.rowsOf_eq_iff]
  exact hshown

/-- What is known of a console some scrolls later, when it was `c` on `s` before them. -/
structure Scrolled (s : Seat) (id : Nat) (c : Console) (dirs : List Direction) (s' : Seat)
    (c' : Console) : Prop where
  sound : s'.Sound
  console : s'.consoles[id]? = some c'
  surface : s'.surface id c' = s.surface id c
  region : c'.region = c.region
  blank : c'.blank = c.blank
  row : c'.row = c.row
  col : c'.col = c.col
  queue : dirs ≠ [] → c'.queue = []
  origin : c'.origin = dirs.foldl (c.originAfter (s.surface id c)) c.origin
  picture : ∀ k < (s.surface id c).size, s'.picture id c' k =
    dirs.foldl (fun shown dir => dir.scrolled (s.surface id c) (Cell.blank c.blank) shown)
      (s.picture id c) k

theorem Scrolled.refl (h : s.Sound) (hc : s.consoles[id]? = some c) : Scrolled s id c [] s c :=
  ⟨h, hc, rfl, rfl, rfl, rfl, rfl, fun h => absurd rfl h, rfl, fun _ _ => rfl⟩

/-- **One more scroll** moves the window and the picture once more. -/
theorem Scrolled.scroll {dirs : List Direction} (h : Scrolled s id c dirs s' c')
    (dir : Direction) :
    Scrolled s id c (dirs ++ [dir]) (s'.scroll id dir)
      (c'.scroll (s'.surface id c') dir).value := by
  have hs := h.sound.holds h.console
  have hplaced := h.sound.placed h.console
  have hd : (s'.surface id c').Describes ((s'.displayOf c').setBlank c'.blank) := ⟨rfl, rfl, rfl⟩
  have hsurface : (s'.scroll id dir).surface id (c'.scroll (s'.surface id c') dir).value =
      s'.surface id c' := by
    rw [Seat.scroll, surface_run, surface_congr (Console.region_scroll dir)]
  refine ⟨h.sound.run id (stepwise_scroll dir), consoles_run_self h.console,
    hsurface.trans h.surface, h.region, h.blank, ?_, ?_, fun _ => rfl, ?_, ?_⟩
  · rw [Console.row_scroll, Console.confineRow_of_lt hplaced.row_lt,
      Console.confineRow_of_lt hplaced.row_lt, h.row]
  · rw [Console.col_scroll, Console.confineColumn_of_le hplaced.col_le,
      Console.confineColumn_of_le hplaced.col_le, h.col]
  · rw [List.foldl_append, ← h.origin, ← h.surface]
    exact Console.nextOrigin_eq_originAfter h.region dir
  · intro k hk
    have hsize : (s'.surface id c').size = (s.surface id c).size := congrArg _ h.surface
    have hdisplay := displayOf_run (f := fun surface c => c.scroll surface dir) h.console
      (c'.scroll (s'.surface id c') dir).value rfl (h.sound.display_lt h.console)
    rw [picture_of_queue_eq_nil rfl, Seat.scroll, hdisplay,
      Console.shown_scroll hs hplaced hd dir (by rwa [hsize]), List.foldl_append]
    have hcolumns := (h.surface ▸ hs).columns_le_size
    have hblank : ((s'.displayOf c').setBlank c'.blank).memory.blankCell = Cell.blank c.blank :=
      congrArg Cell.blank h.blank
    rw [hblank, h.surface]
    -- A queue is part of the picture before the scroll that stores it.
    refine dir.scrolled_congr hcolumns ?_ hk
    intro j hj
    rw [← h.picture j hj, Seat.picture, h.surface, h.blank]
    rfl

theorem Scrolled.applyAll (dirs : List Direction) :
    ∀ {done : List Direction} {s' : Seat} {c' : Console}, Scrolled s id c done s' c' →
      ∃ c'', Scrolled s id c (done ++ dirs) (s'.applyAll (dirs.map (.scroll id))) c'' := by
  induction dirs with
  | nil =>
      intro done s' c' h
      rw [List.append_nil]
      exact ⟨c', h⟩
  | cons dir dirs ih =>
      intro done s' c' h
      rw [List.append_cons]
      exact ih (h.scroll dir)

/-! ## There and back -/

/-- Some scrolls up and as many down. -/
def upAndDown (k : Nat) : List Direction := List.replicate k .up ++ List.replicate k .down

theorem foldl_upAndDown {β : Type} (f : β → Direction → β) (k : Nat) (b : β) :
    (upAndDown k).foldl f b = (fun b => f b .down)^[k] ((fun b => f b .up)^[k] b) := by
  rw [upAndDown, List.foldl_append, foldl_replicate, foldl_replicate]

/-- **Scrolling up and as far down again** keeps the cursor, and the rows of a flush but for
as many blank ones at the top, and leaves nothing in the queue. The window comes back where it
is copied in place, on memory that wraps, and while it stays clear of the limit of its region.
Where there is no room for all of the way up, it ends whole rows away from the limit; so a
window that was not at such a place does not come back. -/
theorem scroll_up_down_conserves (h : Reached config s) (hc : s.consoles[id]? = some c) (k : Nat) :
    ∃ c', (s.applyAll ((upAndDown k).map (.scroll id))).consoles[id]? = some c' ∧
      c'.row = c.row ∧ c'.col = c.col ∧
      ((s.applyAll ((upAndDown k).map (.scroll id))).flush id).rows? id =
        ((s.flush id).rows? id).map (blankTop (Cell.blank c.blank) k) ∧
      (0 < k → c'.queue = [] ∧ (s.applyAll ((upAndDown k).map (.scroll id))).rows? id =
        ((s.applyAll ((upAndDown k).map (.scroll id))).flush id).rows? id) ∧
      (s.Copying ∨ (s.displayOf c).memory.wraps = true ∨ k = 0 ∨
          c.origin + config.screen.size + k * config.screen.columns < c.region.limit →
        c'.origin = c.origin) ∧
      (¬ s.Copying → ¬ (s.displayOf c).memory.wraps = true →
          c.region.limit < c.origin + config.screen.size + k * config.screen.columns →
          ¬ config.screen.columns ∣ c.region.limit - config.screen.size - c.origin →
        c'.origin ≠ c.origin ∧
          ∃ m, c'.origin + config.screen.size + m * config.screen.columns = c.region.limit) := by
  have hsound := h.sound
  have hs := hsound.holds hc
  have hwithin := (hsound.placed hc).origin_within
  obtain ⟨c', hc'⟩ := Scrolled.applyAll (upAndDown k) (Scrolled.refl hsound hc)
  rw [List.nil_append] at hc'
  have horigin := hc'.origin
  rw [foldl_upAndDown] at horigin
  refine ⟨c', hc'.console, hc'.row, hc'.col, ?_, ?_, ?_, ?_⟩
  · rw [hc'.sound.rows?_flush hc'.console, hsound.rows?_flush hc, hc'.surface, Option.map_some,
      ← Surface.rowsOf_blankTop, Option.some.injEq, Surface.rowsOf_eq_iff]
    intro j hj
    rw [hc'.picture j hj, foldl_upAndDown, Direction.iterate_scrolled_back k hj]
  · intro hk
    have hqueue : c'.queue = [] := by
      apply hc'.queue
      rw [← List.length_pos_iff, upAndDown, List.length_append, List.length_replicate]
      omega
    refine ⟨hqueue, ?_⟩
    rw [hc'.sound.rows?_flush hc'.console, hc'.sound.rows?_of_queue_eq_nil hc'.console hqueue]
  · rw [horigin, ← h.screen]
    exact Console.iterate_originAfter_back hs hwithin
  · intro hcopying hwraps hover haway
    have hplace : ∃ m, c'.origin + config.screen.size + m * config.screen.columns =
        c.region.limit := by
      rw [← h.screen] at hover ⊢
      rw [horigin]
      exact Console.iterate_originAfter_back_of_relocated hs hwithin hcopying hwraps hover
    refine ⟨?_, hplace⟩
    intro hback
    obtain ⟨m, hm⟩ := hplace
    refine haway ⟨m, ?_⟩
    rw [Nat.mul_comm]
    omega

/-- A display of eight words with one screen of a single row of three columns. -/
def unevenScreen : Config where
  screen := ⟨3, 1⟩
  behavior := { maxConsoles := 1 }
  displays := [{ capacity := 8 }]

/-- A character waits in the second row. One row up and down leaves it there, and the window
where it was. On the uneven screen two rows up are more than there is room for. -/
theorem scroll_up_down_conserves_oneScreen :
    (∃ s c c', Reached oneScreen s ∧ s.consoles[0]? = some c ∧ c.queue = [⟨0x0741⟩] ∧
      (s.applyAll ((upAndDown 1).map (.scroll 0))).consoles[0]? = some c' ∧
      c'.origin = c.origin ∧ c'.queue = [] ∧
      (s.applyAll ((upAndDown 1).map (.scroll 0))).rows? 0 =
        some [[⟨0x0720⟩, ⟨0x0720⟩], [⟨0x0741⟩, ⟨0x0720⟩]]) ∧
    ∃ s c c', Reached unevenScreen s ∧ s.consoles[0]? = some c ∧
      (s.applyAll ((upAndDown 2).map (.scroll 0))).consoles[0]? = some c' ∧
      c'.origin ≠ c.origin ∧ ∃ m, c'.origin + 3 + m * 3 = c.region.limit := by
  refine ⟨?_, ?_⟩
  · have hreached : Reached oneScreen _ := ⟨_, [.send 0 0x0A, .send 0 0x41], rfl, rfl⟩
    obtain ⟨c', hc', _, _, hrows, hstored, hback, _⟩ :=
      @scroll_up_down_conserves _ _ 0 _ hreached rfl 1
    obtain ⟨hqueue, hflushed⟩ := hstored (by decide)
    refine ⟨_, _, c', hreached, rfl, by decide +kernel, hc', hback (by decide +kernel), hqueue, ?_⟩
    rw [hflushed, hrows]
    decide +kernel
  · have hreached : Reached unevenScreen _ := ⟨_, [], rfl, rfl⟩
    obtain ⟨c', hc', _, _, _, _, _, haway⟩ :=
      @scroll_up_down_conserves _ _ 0 _ hreached rfl 2
    exact ⟨_, _, c', hreached, rfl, hc', haway (by decide +kernel) (by decide +kernel)
      (by decide +kernel) (by decide +kernel)⟩

/-- **A window need not come back.** The second scroll up has no room for another row and
takes the window to the start of its region. From there the first scroll down takes it to the
other end, so the second one leaves it two words after where it was. -/
theorem scroll_strays_unevenScreen :
    ∃ s, Reached unevenScreen s ∧ s.consoles[0]?.map (·.origin) = some 0 ∧
      (s.applyAll ((upAndDown 2).map (.scroll 0))).consoles[0]?.map (·.origin) = some 2 := by
  have hreached : Reached unevenScreen _ := ⟨_, [], rfl, rfl⟩
  exact ⟨_, hreached, by decide +kernel, by decide +kernel⟩

end Seat

end TextConsole
