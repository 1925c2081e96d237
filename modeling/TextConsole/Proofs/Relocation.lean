import TextConsole.Proofs.Scrolling

/-!
# When a window is taken back

Scrolled up again and again on linear memory, a window shifts row by row from the start of its
region, and is taken back there when it comes too close to the limit. How many rows it shifts
depends on the words that its region has to spare, and the same rows are gone through over and
over (`Console.iterate_originAfter_up_of_start`).

The window is taken back already by a scroll after which it would end at the limit itself. So the
words to spare are used up by whole rows, except that a row that would just fit is left out: where
the spare words are a multiple of a row, a window is taken back one row early
(`relocation_period_iff`).
-/

namespace TextConsole

/-- How many rows a window shifts from the start of its region before it is taken back, with some
words to spare behind it. A row that ends at the limit does not count. -/
def shiftsOf (spare columns : Nat) : Nat := (spare - 1) / columns

/-- All the whole rows count, unless they leave nothing to spare. -/
theorem shiftsOf_eq_div_iff {spare columns : Nat} :
    shiftsOf spare columns = spare / columns ↔ spare = 0 ∨ ¬ columns ∣ spare := by
  unfold shiftsOf
  cases spare with
  | zero => simp
  | succ n =>
      rw [Nat.add_sub_cancel, Nat.succ_div]
      by_cases hdvd : columns ∣ n + 1
      · simp [hdvd]
      · simp [hdvd]

namespace Console

variable {s : Surface} {c : Console} {spare : Nat}

/-- A window that has shifted by `shifted` rows is too close to the limit once it has shifted by
as many as it may. -/
theorem atEdge_iff (hs : s.Holds c.region)
    (hspare : c.region.limit = c.region.start + s.size + spare) {shifted : Nat}
    (horigin : c.origin = c.region.start + s.columns * shifted)
    (hle : shifted ≤ shiftsOf spare s.columns) :
    c.AtEdge s .up ↔ shifted = shiftsOf spare s.columns := by
  have hcolumns := hs.columns_pos
  have hnext : shifted + 1 ≤ shiftsOf spare s.columns ↔ (shifted + 1) * s.columns ≤ spare - 1 :=
    Nat.le_div_iff_mul_le hcolumns
  have hrow : (shifted + 1) * s.columns = s.columns * shifted + s.columns := by
    rw [Nat.succ_mul, Nat.mul_comm]
  rw [hrow] at hnext
  show c.region.limit ≤ c.origin + s.size + s.columns ↔ _
  omega

section

variable (hcopying : ¬ s.settings.behavior.softwareScroll = true) (hlinear : ¬ s.wraps = true)
include hcopying hlinear

theorem scrollMethod_up_eq_relocate_iff :
    c.scrollMethod s .up = .relocate ↔ c.AtEdge s .up := by
  rw [scrollMethod, if_neg hcopying, if_neg hlinear]
  split
  · simp [*]
  · simp [*]

/-- **The window goes through the same rows over and over.** -/
theorem iterate_originAfter_up_of_start (hs : s.Holds c.region)
    (hspare : c.region.limit = c.region.start + s.size + spare) (k : Nat) :
    (fun o => c.originAfter s o .up)^[k] c.region.start =
      c.region.start + s.columns * (k % (shiftsOf spare s.columns + 1)) := by
  induction k with
  | zero => simp
  | succ k ih =>
      have hlt := Nat.mod_lt k (Nat.succ_pos (shiftsOf spare s.columns))
      rw [Function.iterate_succ_apply', ih, originAfter_up_of_linear hcopying hlinear hs,
        ← Nat.mod_add_mod]
      generalize k % (shiftsOf spare s.columns + 1) = shifted at hlt ⊢
      have hedge := atEdge_iff (c := { c with origin := c.region.start + s.columns * shifted }) hs
        hspare rfl (Nat.le_of_lt_succ hlt)
      simp only [AtEdge] at hedge
      by_cases hlast : shifted = shiftsOf spare s.columns
      · rw [if_pos (hedge.mpr hlast), hlast, Nat.mod_self, Nat.mul_zero, Nat.add_zero]
      · rw [if_neg (mt hedge.mp hlast), Nat.mod_eq_of_lt (by omega), Nat.mul_succ, Nat.add_assoc]

end

end Console

namespace Seat

variable {config : Config} {s : Seat} {c : Console} {id spare : Nat}

/-- Scrolled up from the start of its region, a window goes through the same rows over and over,
and the scroll after the last of them takes it back. -/
theorem Reached.scrolled_from_start (h : Reached config s) (hc : s.consoles[id]? = some c)
    (hcopying : ¬ s.Copying) (hlinear : (s.displayOf c).memory.wraps = false)
    (hstart : c.origin = c.region.start)
    (hspare : c.region.limit = c.region.start + config.screen.size + spare) (k : Nat) :
    ∃ c', (s.applyAll (List.replicate k (.scroll id .up))).consoles[id]? = some c' ∧
      c'.origin = c.region.start +
        config.screen.columns * (k % (shiftsOf spare config.screen.columns + 1)) ∧
      (c'.scrollMethod ((s.applyAll (List.replicate k (.scroll id .up))).surface id c') .up =
        .relocate ↔ (k + 1) % (shiftsOf spare config.screen.columns + 1) = 0) := by
  have hs := h.sound.holds hc
  have hcopying' : ¬ (s.surface id c).settings.behavior.softwareScroll = true := hcopying
  have hlinear' : ¬ (s.surface id c).wraps = true := by simp [surface, hlinear]
  rw [← h.size_surface id c] at hspare
  rw [← h.columns_surface id c]
  obtain ⟨c', hc'⟩ := Scrolled.applyAll (List.replicate k .up) (Scrolled.refl h.sound hc)
  have horigin := hc'.origin
  have hregion := hc'.region
  rw [List.nil_append, foldl_replicate, hstart,
    Console.iterate_originAfter_up_of_start hcopying' hlinear' hs hspare] at horigin
  rw [List.map_replicate] at hc'
  have hedge := Console.atEdge_iff (c := c') (by rw [hregion]; exact hs)
    (by rw [hregion]; exact hspare) (by rw [hregion]; exact horigin)
    (Nat.le_of_lt_succ (Nat.mod_lt k (Nat.succ_pos _)))
  refine ⟨c', hc'.console, horigin, ?_⟩
  rw [hc'.surface, Console.scrollMethod_up_eq_relocate_iff hcopying' hlinear', hedge,
    Nat.succ_mod_succ_eq_zero_iff]

/-- **When a window is taken back.** Scrolled up from the start of its region on linear memory, a
window shifts by one row at a time, by `shiftsOf` rows; the scroll after these takes it back to
the start, and no other does. It shifts by as many rows as there is room for exactly if these do
not take up all the words to spare, or there are none: a shift after which the window would end
at the limit is not made. -/
theorem relocation_period_iff (h : Reached config s) (hc : s.consoles[id]? = some c)
    (hcopying : ¬ s.Copying) (hlinear : (s.displayOf c).memory.wraps = false)
    (hstart : c.origin = c.region.start)
    (hspare : c.region.limit = c.region.start + config.screen.size + spare) :
    (∀ k, ∃ c', (s.applyAll (List.replicate k (.scroll id .up))).consoles[id]? = some c' ∧
      c'.origin = c.region.start +
        config.screen.columns * (k % (shiftsOf spare config.screen.columns + 1)) ∧
      (c'.scrollMethod ((s.applyAll (List.replicate k (.scroll id .up))).surface id c') .up =
        .relocate ↔ (k + 1) % (shiftsOf spare config.screen.columns + 1) = 0)) ∧
    ((∀ k, (s.applyAll (List.replicate k (.scroll id .up))).consoles[id]?.map (·.origin) =
      some (c.region.start +
        config.screen.columns * (k % (spare / config.screen.columns + 1)))) ↔
      spare = 0 ∨ ¬ config.screen.columns ∣ spare) := by
  have hpos : 0 < config.screen.columns := by
    rw [← h.columns_surface id c]
    exact (h.sound.holds hc).columns_pos
  have hscrolled := h.scrolled_from_start hc hcopying hlinear hstart hspare
  refine ⟨hscrolled, ?_⟩
  rw [← shiftsOf_eq_div_iff]
  constructor
  · intro hclosed
    -- After as many scrolls as whole rows fit, the window would have to be at the last of them.
    obtain ⟨c', hc', horigin, _⟩ := hscrolled (spare / config.screen.columns)
    have hlast := hclosed (spare / config.screen.columns)
    rw [hc', Option.map_some, Option.some.injEq, horigin, Nat.add_left_cancel_iff,
      Nat.mul_right_inj hpos.ne',
      Nat.mod_eq_of_lt (Nat.lt_succ_self (spare / config.screen.columns))] at hlast
    have hle : spare / config.screen.columns % (shiftsOf spare config.screen.columns + 1) ≤
        shiftsOf spare config.screen.columns :=
      Nat.le_of_lt_succ (Nat.mod_lt _ (Nat.succ_pos _))
    rw [hlast] at hle
    exact le_antisymm (Nat.div_le_div_right (Nat.sub_le _ _)) hle
  · intro hshifts k
    obtain ⟨c', hc', horigin, _⟩ := hscrolled k
    rw [hc', Option.map_some, horigin, hshifts]

/-- Two words are left behind the last row that fits, so the window shifts by one row and is
taken back by the next scroll. -/
theorem relocation_period_unevenScreen :
    ∃ s c, Reached unevenScreen s ∧ s.consoles[0]? = some c ∧ ¬ s.Copying ∧
      c.origin = c.region.start ∧ c.region.limit = c.region.start + 3 + 5 ∧
      ∀ k, (s.applyAll (List.replicate k (.scroll 0 .up))).consoles[0]?.map (·.origin) =
        some (3 * (k % 2)) := by
  have hreached : Reached unevenScreen _ := ⟨_, [.send 0 0x41], rfl, rfl⟩
  obtain ⟨_, hperiod⟩ := @relocation_period_iff _ _ _ 0 5 hreached rfl (by decide +kernel) rfl rfl
    rfl
  refine ⟨_, _, hreached, rfl, by decide +kernel, rfl, rfl, fun k => ?_⟩
  rw [hperiod.mpr (Or.inr (by decide)) k]
  exact congrArg some (Nat.zero_add _)

/-- **A window is taken back one row early.** The second scroll up would take it to the last two
rows of its region, but takes it back to the first two. -/
theorem relocation_early_oneScreen :
    ∃ s c, Reached oneScreen s ∧ s.consoles[0]? = some c ∧ ¬ s.Copying ∧
      (s.displayOf c).memory.wraps = false ∧ c.origin = c.region.start ∧
      c.region.limit = c.region.start + 4 + 4 ∧
      (s.applyAll (List.replicate 2 (.scroll 0 .up))).consoles[0]?.map (·.origin) = some 0 ∧
      c.region.start + 2 * (2 % (4 / 2 + 1)) = 4 := by
  have hreached : Reached oneScreen _ := ⟨_, [], rfl, rfl⟩
  exact ⟨_, _, hreached, rfl, by decide +kernel, by decide +kernel, rfl, rfl, by decide +kernel,
    rfl⟩

end Seat

end TextConsole
