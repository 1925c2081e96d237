import TextConsole.Seat.Basic

/-!
# The regions of a layout

What a valid configuration and its layout guarantee: there is a region for the
first console, every region has room for a screen on its display
(`Config.layout_region`), and no two regions of one display overlap
(`Config.layout_disjoint`). There is a layout exactly if the first display holds a
screen (`Config.layout_ok_iff`).
-/

namespace TextConsole

namespace Config

variable {config : Config}

/-! ## Valid configurations -/

/-- What validation has checked. -/
structure Valid (config : Config) : Prop where
  size_pos : 0 < config.screen.size
  tabWidth : config.behavior.tabWidth.isPowerOfTwo
  capacities : ∀ d ∈ config.displays, d.HasValidCapacity

theorem valid_of_validate (h : config.validate = .ok ()) : config.Valid := by
  unfold validate at h
  split at h
  · cases h
  rename_i hsize
  split at h
  · cases h
  rename_i htab
  split at h
  · cases h
  split at h
  · cases h
  rename_i hfind
  refine ⟨by omega, Classical.not_not.mp htab, ?_⟩
  intro d hd
  simpa using List.find?_eq_none.mp hfind d hd

theorem Valid.columns_pos (h : config.Valid) : 0 < config.screen.columns :=
  Nat.pos_of_mul_pos_right h.size_pos

theorem Valid.rows_pos (h : config.Valid) : 0 < config.screen.rows :=
  Nat.pos_of_mul_pos_left h.size_pos

/-! ## Pages -/

theorem mem_pages {count length : Nat} {r : Region} :
    r ∈ pages count length ↔ ∃ i < count, (⟨0, i * length, (i + 1) * length⟩ : Region) = r := by
  simp [pages]

/-- Pages lie one behind the other. -/
theorem pairwise_pages (count length : Nat) :
    (pages count length).Pairwise fun r r' => r.limit ≤ r'.start := by
  rw [pages, List.pairwise_map]
  refine List.Pairwise.imp ?_ List.pairwise_lt_range
  intro i j hij
  exact Nat.mul_le_mul_right length hij

/-- As many pages as hold a screen each share the words of a display. -/
theorem page_spec {count size capacity i : Nat} (hcount : count ≤ capacity / size)
    (hi : i < count) :
    i * (capacity / count) + size ≤ (i + 1) * (capacity / count) ∧
      (i + 1) * (capacity / count) ≤ capacity := by
  have hpos : 0 < count := by omega
  have hsize : size ≤ capacity / count := by
    rw [Nat.le_div_iff_mul_le hpos, Nat.mul_comm]
    exact Nat.le_trans (Nat.mul_le_mul_right size hcount) (Nat.div_mul_le_self capacity size)
  refine ⟨by rw [Nat.succ_mul]; omega, ?_⟩
  calc (i + 1) * (capacity / count) ≤ count * (capacity / count) :=
        Nat.mul_le_mul_right _ hi
    _ ≤ capacity := Nat.mul_div_le capacity count

/-! ## Layouts -/

/-- The parts of a layout: the pages of the first display, and the second display
if it is used. -/
theorem layout_eq {regions : List Region} (h : config.layout = .ok regions) :
    ∃ first rest, config.displays = first :: rest ∧
      0 < config.pageCount first.capacity ∧
      regions = pages (config.pageCount first.capacity)
          (first.capacity / config.pageCount first.capacity) ++
        config.secondDisplay?.toList.map fun d => ⟨1, 0, d.capacity⟩ := by
  unfold layout at h
  split at h
  · cases h
  · rename_i first rest hdisplays
    dsimp only at h
    split at h
    · cases h
    · rename_i hcount
      exact ⟨first, rest, hdisplays, Nat.pos_of_ne_zero hcount, (Except.ok.inj h).symm⟩

theorem secondDisplay?_eq_some {d : DisplayConfig} (h : config.secondDisplay? = some d) :
    ∃ first rest, config.displays = first :: d :: rest ∧ 1 < config.consoleLimit ∧
      config.screen.size ≤ d.capacity := by
  unfold secondDisplay? at h
  split at h
  · rename_i first d' rest hdisplays
    split at h
    · rename_i hfits
      obtain rfl := Option.some.inj h
      exact ⟨first, rest, hdisplays, hfits⟩
    · cases h
  · cases h

/-- The consoles that remain for the first display: one at least, since the second
display is only given away where two are allowed. -/
theorem consoleLimit_sub_pos :
    0 < config.consoleLimit - if config.secondDisplay?.isSome then 1 else 0 := by
  have hlimit : 1 ≤ config.consoleLimit := Nat.le_max_right _ _
  split
  · rename_i hsome
    obtain ⟨d, hd⟩ := Option.isSome_iff_exists.mp hsome
    obtain ⟨_, _, _, hone, _⟩ := secondDisplay?_eq_some hd
    omega
  · omega

/-- **The first display has a page exactly if it holds a screen.** -/
theorem pageCount_pos_iff {capacity : Nat} (hsize : 0 < config.screen.size) :
    0 < config.pageCount capacity ↔ config.screen.size ≤ capacity := by
  rw [pageCount, Nat.lt_min, and_iff_left consoleLimit_sub_pos, Nat.div_pos_iff,
    and_iff_right hsize]

/-- A first display that does not hold a screen is refused. -/
theorem layout_of_lt {first : DisplayConfig} {rest : List DisplayConfig}
    (hdisplays : config.displays = first :: rest) (hsize : 0 < config.screen.size)
    (hlt : first.capacity < config.screen.size) :
    config.layout = .error (.memoryTooSmall config.screen.size first.capacity) := by
  have hcount : ¬ 0 < config.pageCount first.capacity := by
    rw [pageCount_pos_iff hsize]
    omega
  rw [layout, hdisplays]
  exact if_pos (Nat.eq_zero_of_not_pos hcount)

/-- **There is a layout exactly if the first display holds a screen.** -/
theorem layout_ok_iff (hsize : 0 < config.screen.size) :
    (∃ regions, config.layout = .ok regions) ↔
      ∃ first rest, config.displays = first :: rest ∧ config.screen.size ≤ first.capacity := by
  constructor
  · rintro ⟨regions, h⟩
    obtain ⟨first, rest, hdisplays, hcount, _⟩ := layout_eq h
    exact ⟨first, rest, hdisplays, (pageCount_pos_iff hsize).mp hcount⟩
  · rintro ⟨first, rest, hdisplays, hfits⟩
    have hcount := (pageCount_pos_iff hsize).mpr hfits
    simp only [layout, hdisplays]
    rw [if_neg (Nat.ne_of_gt hcount)]
    exact ⟨_, rfl⟩

/-- The displays that a layout uses. -/
def keptDisplays (config : Config) (regions : List Region) : List DisplayConfig :=
  config.displays.take (if Seat.UsesSecondDisplay regions then 2 else 1)

/-- **Every region has room for a screen**, on a display that is kept. -/
theorem layout_region {regions : List Region} (h : config.layout = .ok regions) {r : Region}
    (hr : r ∈ regions) :
    ∃ d, (config.keptDisplays regions)[r.display]? = some d ∧
      r.start + config.screen.size ≤ r.limit ∧ r.limit ≤ d.capacity := by
  obtain ⟨first, rest, hdisplays, hcount, rfl⟩ := layout_eq h
  rcases List.mem_append.mp hr with hr' | hr'
  · obtain ⟨i, hi, rfl⟩ := mem_pages.mp hr'
    have hspec := @page_spec _ config.screen.size _ _ (Nat.min_le_left _ _) hi
    refine ⟨first, ?_, hspec.1, hspec.2⟩
    rw [keptDisplays, hdisplays]
    split <;> rfl
  · obtain ⟨d, hd, rfl⟩ := List.mem_map.mp hr'
    obtain ⟨first', rest', hdisplays', _, hfits⟩ :=
      secondDisplay?_eq_some (Option.mem_toList.mp hd)
    refine ⟨d, ?_, by simpa using hfits, Nat.le_refl _⟩
    rw [keptDisplays, if_pos ⟨_, hr, rfl⟩, hdisplays']
    rfl

/-- The first console has the start of the first display. -/
theorem layout_first {regions : List Region} (h : config.layout = .ok regions) :
    ∃ r, regions[0]? = some r ∧ r.display = 0 ∧ r.start = 0 := by
  obtain ⟨first, rest, _, hcount, rfl⟩ := layout_eq h
  refine ⟨⟨0, 0, first.capacity / config.pageCount first.capacity⟩, ?_, rfl, rfl⟩
  rw [List.getElem?_append_left (by simpa [pages] using hcount)]
  simp [pages, hcount]

/-- Any other display is the second one, given to one console as a whole. -/
theorem layout_second {regions : List Region} (h : config.layout = .ok regions) {r : Region}
    (hr : r ∈ regions) (hdisplay : r.display ≠ 0) : r.display = 1 ∧ r.start = 0 := by
  obtain ⟨first, rest, _, _, rfl⟩ := layout_eq h
  rcases List.mem_append.mp hr with hr' | hr'
  · obtain ⟨i, _, rfl⟩ := mem_pages.mp hr'
    exact absurd rfl hdisplay
  · obtain ⟨d, _, rfl⟩ := List.mem_map.mp hr'
    exact ⟨rfl, rfl⟩

/-- The second display is given to the last console, if it is given to one. -/
theorem layout_last {regions : List Region} (h : config.layout = .ok regions) {id : Nat}
    {r : Region} (hr : regions[id]? = some r) (hdisplay : r.display ≠ 0) :
    id + 1 = regions.length ∧
      ∃ d, (config.keptDisplays regions)[1]? = some d ∧ r = ⟨1, 0, d.capacity⟩ := by
  have huses : Seat.UsesSecondDisplay regions :=
    ⟨r, List.mem_of_getElem? hr, (layout_second h (List.mem_of_getElem? hr) hdisplay).1⟩
  obtain ⟨first, rest, _, _, hregions⟩ := layout_eq h
  cases hd : config.secondDisplay? with
  | none =>
      rw [hd, Option.toList_none, List.map_nil, List.append_nil] at hregions
      rw [hregions] at hr
      obtain ⟨i, _, rfl⟩ := mem_pages.mp (List.mem_of_getElem? hr)
      exact absurd rfl hdisplay
  | some d =>
      rw [hd, Option.toList_some, List.map_singleton] at hregions
      obtain ⟨first', rest', hdisplays', _, _⟩ := secondDisplay?_eq_some hd
      rw [hregions, List.getElem?_append] at hr
      split at hr
      · obtain ⟨i, _, rfl⟩ := mem_pages.mp (List.mem_of_getElem? hr)
        exact absurd rfl hdisplay
      · obtain ⟨hzero, hvalue⟩ := Option.ite_none_right_eq_some.mp (List.getElem?_singleton ▸ hr)
        refine ⟨?_, d, ?_, (Option.some.inj hvalue).symm⟩
        · rw [hregions, List.length_append, List.length_singleton]
          omega
        · rw [keptDisplays, if_pos huses, hdisplays']
          rfl

/-- There is a console, and there are no more than are allowed. -/
theorem layout_length {regions : List Region} (h : config.layout = .ok regions) :
    1 ≤ regions.length ∧ regions.length ≤ config.consoleLimit := by
  obtain ⟨first, rest, _, hcount, rfl⟩ := layout_eq h
  have hpages : config.pageCount first.capacity ≤
      config.consoleLimit - if config.secondDisplay?.isSome then 1 else 0 := Nat.min_le_right _ _
  have hremain := config.consoleLimit_sub_pos
  have hsecond : config.secondDisplay?.toList.length =
      if config.secondDisplay?.isSome then 1 else 0 := by
    cases config.secondDisplay? <;> rfl
  simp only [pages, List.length_append, List.length_map, List.length_range, hsecond]
  omega

/-- The pages of the first display are of one length. -/
theorem layout_pages {regions : List Region} (h : config.layout = .ok regions) :
    ∃ length, ∀ r ∈ regions, r.display = 0 → r.limit = r.start + length := by
  obtain ⟨first, rest, _, _, rfl⟩ := layout_eq h
  refine ⟨first.capacity / config.pageCount first.capacity, ?_⟩
  intro r hr hdisplay
  rcases List.mem_append.mp hr with hr' | hr'
  · obtain ⟨i, _, rfl⟩ := mem_pages.mp hr'
    exact Nat.succ_mul i _
  · obtain ⟨d, _, rfl⟩ := List.mem_map.mp hr'
    cases hdisplay

/-- The only console of a seat has the whole of the first display. -/
theorem layout_single {regions : List Region} (h : config.layout = .ok regions)
    (hlength : regions.length ≤ 1) {r : Region} (hr : r ∈ regions) :
    ∃ first rest, config.displays = first :: rest ∧ r = ⟨0, 0, first.capacity⟩ := by
  obtain ⟨first, rest, hdisplays, hcount, rfl⟩ := layout_eq h
  simp only [pages, List.length_append, List.length_map, List.length_range] at hlength
  have hone : config.pageCount first.capacity = 1 := by omega
  have hnone : (config.secondDisplay?.toList.map fun d => (⟨1, 0, d.capacity⟩ : Region)) = [] := by
    apply List.eq_nil_of_length_eq_zero
    rw [List.length_map]
    omega
  rw [hnone, List.append_nil, hone, Nat.div_one] at hr
  obtain ⟨i, hi, rfl⟩ := mem_pages.mp hr
  obtain rfl : i = 0 := by omega
  exact ⟨first, rest, hdisplays, by simp⟩

/-- Regions of one display lie one behind the other. -/
theorem layout_pairwise {regions : List Region} (h : config.layout = .ok regions) :
    regions.Pairwise fun r r' => r.display = r'.display → r.limit ≤ r'.start := by
  obtain ⟨first, rest, hdisplays, hcount, rfl⟩ := layout_eq h
  rw [List.pairwise_append]
  refine ⟨List.Pairwise.imp ?_ (pairwise_pages _ _), ?_, ?_⟩
  · exact fun hle _ => hle
  · cases config.secondDisplay? <;> simp
  · intro r hr r' hr' heq
    obtain ⟨i, _, rfl⟩ := mem_pages.mp hr
    obtain ⟨d, _, rfl⟩ := List.mem_map.mp hr'
    cases heq

/-- **No two regions overlap.** -/
theorem layout_disjoint {regions : List Region} (h : config.layout = .ok regions) {i j : Nat}
    {r r' : Region} (hij : i ≠ j) (hr : regions[i]? = some r) (hr' : regions[j]? = some r')
    (hdisplay : r.display = r'.display) : r.limit ≤ r'.start ∨ r'.limit ≤ r.start := by
  have hpair := List.pairwise_iff_getElem.mp (layout_pairwise h)
  obtain ⟨hi, rfl⟩ := List.getElem?_eq_some_iff.mp hr
  obtain ⟨hj, rfl⟩ := List.getElem?_eq_some_iff.mp hr'
  rcases Nat.lt_or_gt_of_ne hij with hlt | hlt
  · exact Or.inl (hpair i j hi hj hlt hdisplay)
  · exact Or.inr (hpair j i hj hi hlt hdisplay.symm)

end Config

end TextConsole
