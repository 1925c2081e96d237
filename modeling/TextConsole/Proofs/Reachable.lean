import TextConsole.Proofs.Layout
import TextConsole.Proofs.Placement
import Mathlib.Logic.Relation

/-!
# Reachable seats

What holds of a seat at any time, `Seat.Sound`: its consoles lie on its displays in
regions of their own, and each is well placed. Operations are made of a few kinds of
moves (`Seat.Move`): a console runs a computation that consists of steps, the focus
goes elsewhere, a switch is set, the first console gets its first renditions back,
the journal grows. Each move keeps a seat sound (`Move.sound`), and so does every
history (`Reached.sound`).
-/

namespace TextConsole

/-! ## Surfaces that are alike for memory -/

/-- Whether two surfaces have the same screen on memory of one sort and size. They
may differ in the focus and in behaviour. -/
structure Surface.Matches (s s' : Surface) : Prop where
  screen : s'.settings.screen = s.settings.screen
  wraps : s'.wraps = s.wraps
  capacity : s'.capacity = s.capacity

namespace Surface.Matches

variable {s s' s'' : Surface} {c : Console}

theorem refl (s : Surface) : s.Matches s := ⟨rfl, rfl, rfl⟩

theorem trans (h : s.Matches s') (h' : s'.Matches s'') : s.Matches s'' :=
  ⟨h'.screen.trans h.screen, h'.wraps.trans h.wraps, h'.capacity.trans h.capacity⟩

theorem columns (h : s.Matches s') : s'.columns = s.columns := congrArg Geometry.columns h.screen

theorem rows (h : s.Matches s') : s'.rows = s.rows := congrArg Geometry.rows h.screen

theorem size (h : s.Matches s') : s'.size = s.size := congrArg Geometry.size h.screen

theorem holds {r : Region} (h : s.Matches s') (hs : s.Holds r) : s'.Holds r where
  columns_pos := by rw [h.columns]; exact hs.columns_pos
  rows_pos := by rw [h.rows]; exact hs.rows_pos
  screen_le := by rw [h.size]; exact hs.screen_le
  limit_le := by rw [h.capacity]; exact hs.limit_le
  capacity_le := by rw [h.capacity]; exact hs.capacity_le
  capacity_pow := by rw [h.capacity]; exact hs.capacity_pow

theorem wellPlaced (h : s.Matches s') (hc : c.WellPlaced s) : c.WellPlaced s' where
  row_lt := by rw [h.rows]; exact hc.row_lt
  col_le := by rw [h.columns]; exact hc.col_le
  queue_le_limit := hc.queue_le_limit
  queue_le_col := hc.queue_le_col
  cursorAddr_add := by
    rw [Console.addressOf, h.columns]
    exact hc.cursorAddr_add
  quiet := hc.quiet
  origin_within := by
    unfold Console.OriginWithin
    rw [h.wraps, h.capacity, h.size]
    exact hc.origin_within

end Surface.Matches

/-- Whether a computation consists of steps, for a console in its place. -/
def Console.Stepwise (f : Surface → Console → Output Console) : Prop :=
  ∀ {s : Surface} {c : Console}, s.Holds c.region → c.WellPlaced s → Steps s c (f s c)

namespace Seat

variable {s : Seat} {c : Console} {id : Nat} {f : Surface → Console → Output Console}

/-! ## Running a console -/

theorem run_of_none (h : s.consoles[id]? = none) : s.run id f = s := by
  rw [run, h]

theorem run_of_some (h : s.consoles[id]? = some c) :
    s.run id f =
      { s with
        consoles := s.consoles.setIfInBounds id (f (s.surface id c) c).value
        displays := s.displays.modify c.region.display fun d =>
          (d.setBlank c.blank).performAll (f (s.surface id c) c).effects
        journal := s.journal.recordAll c.region.display (s.surface id c).capacity
          (f (s.surface id c) c).effects } := by
  rw [run, h]

@[simp] theorem settings_run : (s.run id f).settings = s.settings := by
  unfold run
  split <;> rfl

@[simp] theorem settings_focus (id : Nat) : (s.focus id).settings = s.settings := by
  unfold focus
  split
  · rw [settings_run]
  · rfl

/-- What every run keeps, a run of every console in turn keeps. -/
theorem runAll_induction {P : Seat → Prop} (step : ∀ {s : Seat} (id : Nat), P s → P (s.run id f))
    (h : P s) : P (s.runAll f) := by
  have key : ∀ ids : List Nat, ∀ {s : Seat}, P s → P (ids.foldl (fun s id => s.run id f) s) := by
    intro ids
    induction ids with
    | nil => exact fun h => h
    | cons id ids ih => exact fun h => ih (step id h)
  exact key _ h

theorem settings_runAll (f : Surface → Console → Output Console) :
    (s.runAll f).settings = s.settings :=
  runAll_induction (P := fun s' => s'.settings = s.settings)
    (fun _ h => by rw [settings_run, h]) rfl

@[simp] theorem focused_run : (s.run id f).focused = s.focused := by
  unfold run
  split <;> rfl

theorem focused_runAll (f : Surface → Console → Output Console) :
    (s.runAll f).focused = s.focused :=
  runAll_induction (P := fun s' => s'.focused = s.focused) (fun _ h => by rw [focused_run, h]) rfl

@[simp] theorem size_consoles_run : (s.run id f).consoles.size = s.consoles.size := by
  unfold run
  split <;> simp

@[simp] theorem size_displays_run : (s.run id f).displays.size = s.displays.size := by
  unfold run
  split <;> simp

/-- The console that ran has got the value of its computation. -/
theorem consoles_run_self (h : s.consoles[id]? = some c) :
    (s.run id f).consoles[id]? = some (f (s.surface id c) c).value := by
  obtain ⟨hlt, _⟩ := Array.getElem?_eq_some_iff.mp h
  rw [run_of_some h]
  simp [hlt]

/-- The others are as they were. -/
theorem consoles_run_of_ne {j : Nat} (h : id ≠ j) :
    (s.run id f).consoles[j]? = s.consoles[j]? := by
  unfold run
  split
  · rfl
  · simp [h]

theorem displays_run (h : s.consoles[id]? = some c) (k : Nat) :
    (s.run id f).displays[k]? =
      if c.region.display = k then
        s.displays[k]?.map fun d => (d.setBlank c.blank).performAll (f (s.surface id c) c).effects
      else s.displays[k]? := by
  rw [run_of_some h]
  exact Array.getElem?_modify

theorem displayOf_eq (c : Console) :
    s.displayOf c = s.displays[c.region.display]?.getD default := by
  rw [displayOf, Array.getD_eq_getD_getElem?]

/-- The display of a console after it has run. -/
theorem displayOf_run (h : s.consoles[id]? = some c) (c' : Console)
    (hdisplay : c'.region.display = c.region.display)
    (hlt : c.region.display < s.displays.size) :
    (s.run id f).displayOf c' =
      ((s.displayOf c).setBlank c.blank).performAll (f (s.surface id c) c).effects := by
  rw [displayOf_eq, displayOf_eq, hdisplay, displays_run h, if_pos rfl]
  simp [hlt]

/-- A console leaves the displays alone that it is not drawn on. -/
theorem displayOf_run_of_ne (h : s.consoles[id]? = some c) {c' : Console}
    (hne : c.region.display ≠ c'.region.display) :
    (s.run id f).displayOf c' = s.displayOf c' := by
  rw [displayOf_eq, displayOf_eq, displays_run h, if_neg hne]

/-- What consoles know of their displays does not change while consoles run. -/
theorem surface_run (j : Nat) (c' : Console) : (s.run id f).surface j c' = s.surface j c' := by
  cases h : s.consoles[id]? with
  | none => rw [run_of_none h]
  | some c =>
      have hdisplay : (s.run id f).displayOf c' = s.displayOf c' ∨
          (s.run id f).displayOf c' =
            ((s.displayOf c').setBlank c.blank).performAll (f (s.surface id c) c).effects := by
        rw [displayOf_eq, displayOf_eq, displays_run h]
        by_cases heq : c.region.display = c'.region.display
        · rw [if_pos heq]
          cases s.displays[c'.region.display]? with
          | none => exact Or.inl rfl
          | some d => exact Or.inr rfl
        · exact Or.inl (by rw [if_neg heq])
      unfold surface
      rcases hdisplay with hd | hd
      · rw [hd, settings_run, focused_run]
      · rw [hd, settings_run, focused_run, Display.kind_performAll, Display.wraps_performAll,
          Display.capacity_performAll]
        rfl

theorem surface_congr {c' : Console} (h : c'.region = c.region) (j : Nat) :
    s.surface j c' = s.surface j c := by
  unfold surface displayOf
  rw [h]

theorem surface_describes (id : Nat) (c : Console) :
    (s.surface id c).Describes (s.displayOf c) := ⟨rfl, rfl, rfl⟩

/-- The focus leaves the consoles as they are. -/
theorem consoles_focus (id j : Nat) : (s.focus id).consoles[j]? = s.consoles[j]? := by
  unfold focus
  split
  · rename_i hid
    have hc : s.consoles[id]? = some s.consoles[id] := Array.getElem?_eq_getElem hid
    by_cases hj : id = j
    · subst hj
      rw [consoles_run_self (s := { s with focused := id }) hc, hc]
      rfl
    · rw [consoles_run_of_ne hj]
  · rfl

theorem focused_focus (hid : id < s.consoles.size) : (s.focus id).focused = id := by
  rw [focus, if_pos hid, focused_run]

/-! ## Sound seats -/

/-- What holds of a seat at any time. -/
structure Sound (s : Seat) : Prop where
  focused_lt : s.focused < s.consoles.size
  display_lt : ∀ {id : Nat} {c : Console}, s.consoles[id]? = some c →
    c.region.display < s.displays.size
  holds : ∀ {id : Nat} {c : Console}, s.consoles[id]? = some c →
    (s.surface id c).Holds c.region
  placed : ∀ {id : Nat} {c : Console}, s.consoles[id]? = some c →
    c.WellPlaced (s.surface id c)
  /-- Consoles on one display have regions of their own, on memory that does not wrap. -/
  apart : ∀ {i j : Nat} {c c' : Console}, i ≠ j → s.consoles[i]? = some c →
    s.consoles[j]? = some c' → c.region.display = c'.region.display →
      (s.displayOf c).memory.wraps = false ∧
        (c.region.limit ≤ c'.region.start ∨ c'.region.limit ≤ c.region.start)

/-- Every console has a display. -/
theorem Sound.getElem?_display (h : s.Sound) (hc : s.consoles[id]? = some c) :
    s.displays[c.region.display]? = some (s.displayOf c) := by
  rw [displayOf_eq, Array.getElem?_eq_getElem (h.display_lt hc), Option.getD_some]

/-- A computation that consists of steps keeps the region of its console and puts it in
its place. -/
theorem Sound.outcome (h : s.Sound) (hc : s.consoles[id]? = some c) (hf : Console.Stepwise f) :
    (f (s.surface id c) c).value.region = c.region ∧
      (f (s.surface id c) c).value.WellPlaced (s.surface id c) :=
  (hf (h.holds hc) (h.placed hc)).wellPlaced (h.holds hc) (h.placed hc)

/-- A console after a run, found among those before it. -/
theorem Sound.console_run (h : s.Sound) (hf : Console.Stepwise f) {j : Nat} {c' : Console}
    (hc' : (s.run id f).consoles[j]? = some c') :
    ∃ c, s.consoles[j]? = some c ∧ c'.region = c.region ∧ c'.WellPlaced (s.surface j c') := by
  by_cases hj : id = j
  · subst hj
    cases hc : s.consoles[id]? with
    | none =>
        rw [run_of_none hc, hc] at hc'
        cases hc'
    | some c =>
        obtain ⟨hregion, hplaced⟩ := h.outcome hc hf
        rw [consoles_run_self hc] at hc'
        obtain rfl := Option.some.inj hc'
        refine ⟨c, rfl, hregion, ?_⟩
        rw [surface_congr hregion]
        exact hplaced
  · rw [consoles_run_of_ne hj] at hc'
    exact ⟨c', hc', rfl, h.placed hc'⟩

theorem Sound.run (h : s.Sound) (id : Nat) (hf : Console.Stepwise f) : (s.run id f).Sound where
  focused_lt := by simpa using h.focused_lt
  display_lt := by
    intro j c' hc'
    obtain ⟨c, hc, hregion, _⟩ := h.console_run hf hc'
    rw [hregion, size_displays_run]
    exact h.display_lt hc
  holds := by
    intro j c' hc'
    obtain ⟨c, hc, hregion, _⟩ := h.console_run hf hc'
    rw [surface_run, surface_congr hregion, hregion]
    exact h.holds hc
  placed := by
    intro j c' hc'
    obtain ⟨c, hc, hregion, hplaced⟩ := h.console_run hf hc'
    rw [surface_run]
    exact hplaced
  apart := by
    intro i j c₁ c₂ hij hc₁ hc₂ hdisplay
    obtain ⟨c, hc, hregion, _⟩ := h.console_run hf hc₁
    obtain ⟨c', hc', hregion', _⟩ := h.console_run hf hc₂
    rw [hregion, hregion'] at hdisplay ⊢
    have hwraps : ((s.run id f).displayOf c₁).memory.wraps = (s.displayOf c).memory.wraps := by
      have := congrArg Surface.wraps (@surface_run s id f i c₁)
      rw [surface_congr (s := s) hregion] at this
      exact this
    rw [hwraps]
    exact h.apart hij hc hc' hdisplay

/-! ## Moves -/

/-- Sets the two switches of the operator. -/
def setSwitches (s : Seat) (software bell : Bool) : Seat :=
  { s with
    settings := { s.settings with
      behavior := { s.settings.behavior with softwareScroll := software, bellEnabled := bell } } }

/-- Gives the first console its first renditions back. -/
def resetFirst (s : Seat) : Seat :=
  { s with
    consoles := s.consoles.modify 0 Console.resetRenditions
    displays := s.displays.modify 0 fun d => d.setBlank Rendition.normal }

/-- The kinds of moves that operations are made of. -/
inductive Move (s : Seat) : Seat → Prop
  | run (id : Nat) {f : Surface → Console → Output Console} (hf : Console.Stepwise f) :
      Move s (s.run id f)
  | refocus {id : Nat} (hid : id < s.consoles.size) : Move s { s with focused := id }
  | switch (software bell : Bool) : Move s (s.setSwitches software bell)
  | reset : Move s s.resetFirst
  | enter (journal : Journal) : Move s { s with journal := journal }

/-- A row of moves. -/
abbrev Moves : Seat → Seat → Prop := Relation.ReflTransGen Move

theorem sound_setSwitches (h : s.Sound) (software bell : Bool) :
    (s.setSwitches software bell).Sound := by
  have hmatch : ∀ id c, (s.surface id c).Matches ((s.setSwitches software bell).surface id c) :=
    fun _ _ => ⟨rfl, rfl, rfl⟩
  exact ⟨h.focused_lt, h.display_lt, fun hc => (hmatch _ _).holds (h.holds hc),
    fun hc => (hmatch _ _).wellPlaced (h.placed hc), h.apart⟩

theorem sound_refocus (h : s.Sound) {id : Nat} (hid : id < s.consoles.size) :
    ({ s with focused := id } : Seat).Sound := by
  have hmatch : ∀ j c, (s.surface j c).Matches (({ s with focused := id } : Seat).surface j c) :=
    fun _ _ => ⟨rfl, rfl, rfl⟩
  exact ⟨hid, h.display_lt, fun hc => (hmatch _ _).holds (h.holds hc),
    fun hc => (hmatch _ _).wellPlaced (h.placed hc), h.apart⟩

theorem consoles_resetFirst (j : Nat) :
    s.resetFirst.consoles[j]? =
      if 0 = j then s.consoles[j]?.map Console.resetRenditions else s.consoles[j]? :=
  Array.getElem?_modify

theorem displays_resetFirst (k : Nat) :
    s.resetFirst.displays[k]? =
      if 0 = k then s.displays[k]?.map fun d => d.setBlank Rendition.normal
      else s.displays[k]? :=
  Array.getElem?_modify

/-- A console after a reset, found among those before it. -/
theorem console_resetFirst {c' : Console} (h : s.resetFirst.consoles[id]? = some c') :
    ∃ c pen blank, s.consoles[id]? = some c ∧ c' = { c with pen := pen, blank := blank } := by
  rw [consoles_resetFirst] at h
  split at h
  · obtain ⟨c, hc, rfl⟩ := Option.map_eq_some_iff.mp h
    exact ⟨c, Rendition.normal, Rendition.normal, hc, rfl⟩
  · exact ⟨c', c'.pen, c'.blank, h, rfl⟩

theorem surface_resetFirst (id : Nat) (c : Console) :
    s.resetFirst.surface id c = s.surface id c := by
  have hdisplay : s.resetFirst.displayOf c = s.displayOf c ∨
      s.resetFirst.displayOf c = (s.displayOf c).setBlank Rendition.normal := by
    rw [displayOf_eq, displayOf_eq, displays_resetFirst]
    split
    · cases s.displays[c.region.display]? with
      | none => exact Or.inl rfl
      | some d => exact Or.inr rfl
    · exact Or.inl rfl
  unfold surface
  rcases hdisplay with hd | hd
  · rw [hd]
    rfl
  · rw [hd]
    rfl

theorem sound_resetFirst (h : s.Sound) : s.resetFirst.Sound where
  focused_lt := by simpa [resetFirst] using h.focused_lt
  display_lt := by
    intro id c' hc'
    obtain ⟨c, pen, blank, hc, rfl⟩ := console_resetFirst hc'
    simpa [resetFirst] using h.display_lt hc
  holds := by
    intro id c' hc'
    obtain ⟨c, pen, blank, hc, rfl⟩ := console_resetFirst hc'
    rw [surface_resetFirst]
    have hholds := h.holds hc
    exact hholds
  placed := by
    intro id c' hc'
    obtain ⟨c, pen, blank, hc, rfl⟩ := console_resetFirst hc'
    rw [surface_resetFirst]
    have hplaced := h.placed hc
    exact ⟨hplaced.row_lt, hplaced.col_le, hplaced.queue_le_limit, hplaced.queue_le_col,
      hplaced.cursorAddr_add, hplaced.quiet, hplaced.origin_within⟩
  apart := by
    intro i j c₁ c₂ hij hc₁ hc₂ hdisplay
    obtain ⟨c, pen, blank, hc, rfl⟩ := console_resetFirst hc₁
    obtain ⟨c', pen', blank', hc', rfl⟩ := console_resetFirst hc₂
    have hwraps := congrArg Surface.wraps
      (surface_resetFirst (s := s) i { c with pen := pen, blank := blank })
    obtain ⟨hlinear, hregions⟩ := h.apart hij hc hc' hdisplay
    exact ⟨hwraps.trans hlinear, hregions⟩

/-- **Every move keeps a seat sound.** -/
theorem Move.sound {s' : Seat} (h : Move s s') (hs : s.Sound) : s'.Sound := by
  cases h with
  | run id hf => exact hs.run id hf
  | refocus hid => exact sound_refocus hs hid
  | switch software bell => exact sound_setSwitches hs software bell
  | reset => exact sound_resetFirst hs
  | enter journal => exact ⟨hs.focused_lt, hs.display_lt, hs.holds, hs.placed, hs.apart⟩

theorem Moves.sound {s' : Seat} (h : Moves s s') (hs : s.Sound) : s'.Sound := by
  induction h with
  | refl => exact hs
  | tail _ hmove ih => exact hmove.sound ih

/-- No move changes the screen. -/
theorem Move.screen {s' : Seat} (h : Move s s') : s'.settings.screen = s.settings.screen := by
  cases h with
  | run id hf => rw [settings_run]
  | refocus | switch | reset | enter => rfl

/-- No move changes more of the settings than the two switches. -/
theorem Move.settings {s' : Seat} (h : Move s s') :
    ∃ software bell, s'.settings = (s.setSwitches software bell).settings := by
  cases h with
  | run id hf =>
      rw [settings_run]
      exact ⟨_, _, rfl⟩
  | refocus | switch | reset | enter => exact ⟨_, _, rfl⟩

/-- No move changes the region of a console. -/
theorem Move.region {s' : Seat} (h : Move s s') (hs : s.Sound) {c' : Console}
    (hc' : s'.consoles[id]? = some c') : ∃ c, s.consoles[id]? = some c ∧ c'.region = c.region := by
  cases h with
  | run j hf =>
      obtain ⟨c, hc, hregion, _⟩ := hs.console_run hf hc'
      exact ⟨c, hc, hregion⟩
  | reset =>
      obtain ⟨c, pen, blank, hc, rfl⟩ := console_resetFirst hc'
      exact ⟨c, hc, rfl⟩
  | refocus | switch | enter => exact ⟨c', hc', rfl⟩

/-- No move changes the sort or the size of memory. -/
theorem Move.matches {s' : Seat} (h : Move s s') (id : Nat) (c : Console) :
    (s.surface id c).Matches (s'.surface id c) := by
  cases h with
  | run j hf =>
      rw [surface_run]
      exact .refl _
  | reset =>
      rw [surface_resetFirst]
      exact .refl _
  | refocus | switch | enter => exact ⟨rfl, rfl, rfl⟩

/-- No move adds a console or a display. -/
theorem Move.sizes {s' : Seat} (h : Move s s') :
    s'.consoles.size = s.consoles.size ∧ s'.displays.size = s.displays.size := by
  cases h with
  | run j hf => exact ⟨size_consoles_run, size_displays_run⟩
  | reset => exact ⟨Array.size_modify, Array.size_modify⟩
  | refocus | switch | enter => exact ⟨rfl, rfl⟩

theorem Moves.matches {s' : Seat} (h : Moves s s') (id : Nat) (c : Console) :
    (s.surface id c).Matches (s'.surface id c) := by
  induction h with
  | refl => exact .refl _
  | tail _ hmove ih => exact ih.trans (hmove.matches id c)

/-- A console that has kept its region finds its display of the same sort and size. -/
theorem Moves.display {s' : Seat} (h : Moves s s') {c' : Console} (hregion : c'.region = c.region) :
    (s'.displayOf c').memory.wraps = (s.displayOf c).memory.wraps ∧
      (s'.displayOf c').capacity = (s.displayOf c).capacity := by
  have hmatch := h.matches 0 c'
  rw [surface_congr (s := s) hregion] at hmatch
  exact ⟨hmatch.wraps, hmatch.capacity⟩

theorem Moves.sizes {s' : Seat} (h : Moves s s') :
    s'.consoles.size = s.consoles.size ∧ s'.displays.size = s.displays.size := by
  induction h with
  | refl => exact ⟨rfl, rfl⟩
  | tail _ hmove ih => exact ⟨hmove.sizes.1.trans ih.1, hmove.sizes.2.trans ih.2⟩

theorem Moves.screen {s' : Seat} (h : Moves s s') : s'.settings.screen = s.settings.screen := by
  induction h with
  | refl => rfl
  | tail _ hmove ih => rw [hmove.screen, ih]

theorem Moves.settings {s' : Seat} (h : Moves s s') :
    ∃ software bell, s'.settings = (s.setSwitches software bell).settings := by
  induction h with
  | refl => exact ⟨_, _, rfl⟩
  | tail _ hmove ih =>
      -- Switches that have been set before do not count.
      obtain ⟨_, _, hbefore⟩ := ih
      obtain ⟨software, bell, hafter⟩ := hmove.settings
      refine ⟨software, bell, hafter.trans ?_⟩
      simp only [setSwitches, hbefore]

theorem Moves.region {s' : Seat} (h : Moves s s') (hs : s.Sound) {c' : Console}
    (hc' : s'.consoles[id]? = some c') : ∃ c, s.consoles[id]? = some c ∧ c'.region = c.region := by
  induction h generalizing c' with
  | refl => exact ⟨c', hc', rfl⟩
  | tail hmoves hmove ih =>
      obtain ⟨c₁, hc₁, hregion₁⟩ := hmove.region (Moves.sound hmoves hs) hc'
      obtain ⟨c, hc, hregion⟩ := ih hc₁
      exact ⟨c, hc, hregion₁.trans hregion⟩

/-! ## Operations as moves -/

theorem moves_run (id : Nat) (hf : Console.Stepwise f) : Moves s (s.run id f) :=
  .single (.run id hf)

/-- What clients do with a console consists of steps. -/
theorem stepwise_input (hf : Console.Input f) : Console.Stepwise f :=
  fun hs hc => Console.input_steps hs.columns_pos hc.quiet hf

theorem stepwise_accept (byte : UInt8) : Console.Stepwise fun surface c => c.accept surface byte :=
  stepwise_input (.accept byte)

theorem stepwise_acceptRun (bytes : List UInt8) :
    Console.Stepwise fun surface c => c.acceptRun surface bytes :=
  stepwise_input (.acceptRun bytes)

theorem stepwise_flush : Console.Stepwise fun surface c => c.flush surface :=
  stepwise_input .flush

theorem stepwise_echo (byte : UInt8) : Console.Stepwise fun surface c => c.echo surface byte :=
  stepwise_input (.echo byte)

theorem stepwise_acknowledge : Console.Stepwise fun _ c => pure c.acknowledge :=
  stepwise_input .acknowledge

theorem stepwise_scroll (d : Direction) : Console.Stepwise fun surface c => c.scroll surface d :=
  stepwise_input (.scroll d)

theorem stepwise_goHome : Console.Stepwise fun surface c => c.goHome surface :=
  fun _ _ => .one .home

theorem stepwise_loadRegisters : Console.Stepwise fun _ c => loadRegisters c :=
  fun _ _ => .one .point

theorem stepwise_clearWindow : Console.Stepwise clearWindow := fun _ _ => .one .clear

theorem moves_focus (id : Nat) : Moves s (s.focus id) := by
  unfold focus
  split
  · rename_i hid
    exact .tail (.single (.refocus hid)) (.run id stepwise_loadRegisters)
  · exact .refl

theorem moves_runAll (hf : Console.Stepwise f) : Moves s (s.runAll f) :=
  runAll_induction (P := Moves s) (fun id h => h.tail (.run id hf)) .refl

theorem moves_homeAll : Moves s s.homeAll :=
  (moves_runAll stepwise_goHome).trans (moves_focus _)

theorem moves_send (id : Nat) (byte : UInt8) : Moves s (s.send id byte) :=
  moves_run id (stepwise_accept byte)

theorem moves_message (byte : UInt8) : Moves s (s.message byte) := by
  unfold message
  split
  · exact moves_run 0 stepwise_flush
  · split
    · exact (moves_send 0 0x0D).trans (moves_send 0 0x0A)
    · exact moves_send 0 byte

theorem moves_setSoftwareScroll (on : Bool) : Moves s (s.setSoftwareScroll on) :=
  .single (.switch on s.settings.behavior.bellEnabled)

theorem moves_release : Moves s s.release :=
  (moves_homeAll.trans ((moves_setSoftwareScroll true).trans (moves_focus 0))).tail .reset

/-- A font only shows in the journal, if at all. -/
theorem apply_installFont (font : List UInt8) :
    ∃ fonts, s.apply (.installFont font) =
      { s with journal := { s.journal with fonts := fonts } } := by
  rw [apply]
  cases hfont : s.installFont font with
  | error e => exact ⟨s.journal.fonts, rfl⟩
  | ok loaded =>
      unfold installFont at hfont
      split at hfont
      · split at hfont
        · exact ⟨_, (Except.ok.inj hfont).symm⟩
        · cases hfont
      · cases hfont

/-- **Every operation is a row of moves.** -/
theorem moves_apply (op : Operation) : Moves s (s.apply op) := by
  cases op with
  | send id byte => exact moves_send id byte
  | sendRun id bytes =>
      have hrun := moves_run (s := s) id (stepwise_acceptRun bytes)
      exact hrun
  | flush id =>
      have hrun := moves_run (s := s) id stepwise_flush
      exact hrun
  | echo id byte =>
      have hrun := moves_run (s := s) id (stepwise_echo byte)
      exact hrun
  | message byte => exact moves_message byte
  | acknowledge id =>
      have hrun := moves_run (s := s) id stepwise_acknowledge
      exact hrun
  | scroll id direction =>
      have hrun := moves_run (s := s) id (stepwise_scroll direction)
      exact hrun
  | focus id => exact moves_focus id
  | homeAll => exact moves_homeAll
  | switchScrolling => exact moves_homeAll.trans (moves_setSoftwareScroll _)
  | switchBell => exact .single (.switch s.settings.behavior.softwareScroll _)
  | release => exact moves_release
  | installFont font =>
      obtain ⟨fonts, happly⟩ := apply_installFont (s := s) font
      rw [happly]
      exact .single (.enter _)

theorem moves_applyAll (ops : List Operation) : Moves s (s.applyAll ops) := by
  induction ops generalizing s with
  | nil => exact .refl
  | cons op ops ih => exact (moves_apply op).trans ih

/-! ## Seats of a configuration -/

/-- What a seat is made from. -/
theorem ofConfig_eq {config : Config} {seat : Seat} (h : ofConfig config = .ok seat) :
    ∃ regions, config.Valid ∧ config.layout = .ok regions ∧
      seat = ((ofRegions config regions).runAll clearWindow).focus 0 := by
  unfold ofConfig at h
  cases hvalid : config.validate with
  | error e => rw [hvalid] at h; cases h
  | ok _ =>
      cases hlayout : config.layout with
      | error e => rw [hvalid, hlayout] at h; cases h
      | ok regions =>
          rw [hvalid, hlayout] at h
          exact ⟨regions, Config.valid_of_validate hvalid, rfl, (Except.ok.inj h).symm⟩

variable {config : Config} {regions : List Region}

theorem consoles_ofRegions (id : Nat) :
    (ofRegions config regions).consoles[id]? =
      regions[id]?.map fun r => { region := r : Console } := by
  simp [ofRegions]

theorem displays_ofRegions (k : Nat) :
    (ofRegions config regions).displays[k]? =
      (config.keptDisplays regions)[k]?.map fun d => Display.ofConfig d (1 < regions.length) := by
  simp only [ofRegions, List.getElem?_toArray, List.getElem?_map]
  rfl

/-- The region of a new console, and the display that it is drawn on. -/
theorem console_ofRegions (hlayout : config.layout = .ok regions) {c : Console}
    (hc : (ofRegions config regions).consoles[id]? = some c) :
    ∃ r d, regions[id]? = some r ∧ d ∈ config.displays ∧ c = { region := r } ∧
      r.display < (ofRegions config regions).displays.size ∧
      (ofRegions config regions).displayOf c = Display.ofConfig d (1 < regions.length) ∧
      r.start + config.screen.size ≤ r.limit ∧ r.limit ≤ d.capacity := by
  rw [consoles_ofRegions] at hc
  obtain ⟨r, hr, rfl⟩ := Option.map_eq_some_iff.mp hc
  obtain ⟨d, hd, hscreen, hlimit⟩ := Config.layout_region hlayout (List.mem_of_getElem? hr)
  have hdisplay := @displays_ofRegions config regions r.display
  rw [hd] at hdisplay
  obtain ⟨hlt, _⟩ := Array.getElem?_eq_some_iff.mp hdisplay
  have hmem : d ∈ config.displays := List.mem_of_mem_take (List.mem_of_getElem? hd)
  refine ⟨r, d, hr, hmem, rfl, hlt, ?_, hscreen, hlimit⟩
  rw [displayOf_eq, hdisplay]
  rfl

/-- **A new seat is sound.** -/
theorem sound_ofRegions (hvalid : config.Valid) (hlayout : config.layout = .ok regions) :
    (ofRegions config regions).Sound where
  focused_lt := by
    obtain ⟨first, rest, _, hcount, hregions⟩ := Config.layout_eq hlayout
    have hlength : 0 < regions.length := by
      rw [hregions]
      simp [Config.pages]
      omega
    simpa [ofRegions] using hlength
  display_lt := by
    intro id c hc
    obtain ⟨r, d, _, _, rfl, hlt, _⟩ := console_ofRegions hlayout hc
    exact hlt
  holds := by
    intro id c hc
    obtain ⟨r, d, _, hd, rfl, _, hdisplay, hscreen, hlimit⟩ := console_ofRegions hlayout hc
    obtain ⟨hpow, hle⟩ := hvalid.capacities d hd
    have hcap : ((ofRegions config regions).surface id { region := r }).capacity = d.capacity := by
      simp [surface, hdisplay, Display.ofConfig, Display.capacity]
    refine ⟨hvalid.columns_pos, hvalid.rows_pos, hscreen, ?_, ?_, ?_⟩
    · rwa [hcap]
    · rwa [hcap]
    · rwa [hcap]
  placed := by
    intro id c hc
    obtain ⟨r, d, _, _, rfl, _, hdisplay, hscreen, hlimit⟩ := console_ofRegions hlayout hc
    have hpos := hvalid.size_pos
    refine ⟨hvalid.rows_pos, Nat.zero_le _, Nat.zero_le _, Nat.zero_le _, ?_, fun _ => rfl, ?_⟩
    · simp [Console.addressOf]
    · unfold Console.OriginWithin
      split
      · simp only [surface, hdisplay, Display.ofConfig, Display.capacity,
          VideoMemory.capacity_ofCapacity]
        omega
      · exact ⟨Nat.le_refl _, hscreen⟩
  apart := by
    intro i j c c' hij hc hc' hdisplay
    obtain ⟨r, d, hr, _, rfl, _, hof, _⟩ := console_ofRegions hlayout hc
    obtain ⟨r', d', hr', _, rfl, _⟩ := console_ofRegions hlayout hc'
    -- With more than one console, displays are made without wrapping.
    have hshared : 1 < regions.length := by
      obtain ⟨hi, _⟩ := List.getElem?_eq_some_iff.mp hr
      obtain ⟨hj, _⟩ := List.getElem?_eq_some_iff.mp hr'
      omega
    refine ⟨?_, Config.layout_disjoint hlayout hij hr hr' hdisplay⟩
    rw [hof]
    simp [Display.ofConfig, VideoMemory.ofCapacity, hshared]

theorem moves_ofRegions : Moves s ((s.runAll clearWindow).focus 0) :=
  (moves_runAll stepwise_clearWindow).trans (moves_focus 0)

/-- Whether a history of the seat of a configuration leads to a seat. -/
def Reached (config : Config) (s : Seat) : Prop :=
  ∃ seat ops, ofConfig config = .ok seat ∧ s = seat.applyAll ops

theorem Reached.apply (h : Reached config s) (op : Operation) : Reached config (s.apply op) := by
  obtain ⟨seat, ops, hseat, rfl⟩ := h
  refine ⟨seat, ops ++ [op], hseat, ?_⟩
  rw [applyAll_append]
  rfl

/-- Where a reached seat comes from, with its regions. -/
theorem Reached.moves (h : Reached config s) :
    ∃ regions, config.Valid ∧ config.layout = .ok regions ∧
      Moves (ofRegions config regions) s := by
  obtain ⟨seat, ops, hseat, rfl⟩ := h
  obtain ⟨regions, hvalid, hlayout, rfl⟩ := ofConfig_eq hseat
  exact ⟨regions, hvalid, hlayout, moves_ofRegions.trans (moves_applyAll ops)⟩

/-- **Reached seats are sound.** -/
theorem Reached.sound (h : Reached config s) : s.Sound := by
  obtain ⟨regions, hvalid, hlayout, hmoves⟩ := h.moves
  exact Moves.sound hmoves (sound_ofRegions hvalid hlayout)

theorem Reached.screen (h : Reached config s) : s.settings.screen = config.screen := by
  obtain ⟨regions, _, _, hmoves⟩ := h.moves
  exact Moves.screen hmoves

/-- Consoles of a reached seat know the configured screen. -/
theorem Reached.columns_surface (h : Reached config s) (id : Nat) (c : Console) :
    (s.surface id c).columns = config.screen.columns := congrArg Geometry.columns h.screen

theorem Reached.rows_surface (h : Reached config s) (id : Nat) (c : Console) :
    (s.surface id c).rows = config.screen.rows := congrArg Geometry.rows h.screen

theorem Reached.size_surface (h : Reached config s) (id : Nat) (c : Console) :
    (s.surface id c).size = config.screen.size := congrArg Geometry.size h.screen

/-- A reached seat has the configured behaviour, but for the two switches. -/
theorem Reached.behavior (h : Reached config s) :
    ∃ software bell, s.settings.behavior =
      { config.behavior with softwareScroll := software, bellEnabled := bell } := by
  obtain ⟨regions, _, _, hmoves⟩ := h.moves
  obtain ⟨software, bell, hsettings⟩ := Moves.settings hmoves
  exact ⟨software, bell, congrArg Settings.behavior hsettings⟩

theorem Reached.lineWrap (h : Reached config s) :
    s.settings.behavior.lineWrap = config.behavior.lineWrap := by
  obtain ⟨_, _, hbehavior⟩ := h.behavior
  rw [hbehavior]

theorem Reached.tabWidth (h : Reached config s) :
    s.settings.behavior.tabWidth = config.behavior.tabWidth := by
  obtain ⟨_, _, hbehavior⟩ := h.behavior
  rw [hbehavior]

theorem Reached.newlineReturnsCarriage (h : Reached config s) :
    s.settings.behavior.newlineReturnsCarriage = config.behavior.newlineReturnsCarriage := by
  obtain ⟨_, _, hbehavior⟩ := h.behavior
  rw [hbehavior]

/-- Consoles keep the regions that they were laid out in. -/
theorem Reached.region (h : Reached config s) (hlayout : config.layout = .ok regions)
    {c : Console} (hc : s.consoles[id]? = some c) : regions[id]? = some c.region := by
  obtain ⟨regions', hvalid, hlayout', hmoves⟩ := h.moves
  obtain rfl := Except.ok.inj (hlayout'.symm.trans hlayout)
  obtain ⟨c₀, hc₀, hregion⟩ := Moves.region hmoves (sound_ofRegions hvalid hlayout) hc
  obtain ⟨r, d, hr, _, rfl, _⟩ := console_ofRegions hlayout hc₀
  rw [hregion]
  exact hr

/-- Every region of the layout has its console. -/
theorem Reached.console (h : Reached config s) (hlayout : config.layout = .ok regions)
    {r : Region} (hr : regions[id]? = some r) :
    ∃ c, s.consoles[id]? = some c ∧ c.region = r := by
  obtain ⟨regions', _, hlayout', hmoves⟩ := h.moves
  obtain rfl := Except.ok.inj (hlayout'.symm.trans hlayout)
  obtain ⟨hid, _⟩ := List.getElem?_eq_some_iff.mp hr
  have hlt : id < s.consoles.size := by
    rw [(Moves.sizes hmoves).1]
    simpa [ofRegions] using hid
  have hc := Array.getElem?_eq_getElem hlt
  have hregion := h.region hlayout hc
  rw [hr] at hregion
  exact ⟨_, hc, (Option.some.inj hregion).symm⟩

/-! ## The representation invariant -/

/-- **The representation invariant of consoles.** After any history the cursor of any
console is on its screen, its queue holds characters of the cursor's line and ends where
the cursor is, an unfinished escape sequence finds the queue empty, and the window lies
in the region of its layout, or anywhere in memory that wraps. -/
theorem console_representation (h : Reached config s) (hc : s.consoles[id]? = some c) :
    c.row < config.screen.rows ∧ c.col ≤ config.screen.columns ∧
      c.queue.length ≤ min 80 c.col ∧
      c.cursorAddr + c.queue.length = c.origin + c.row * config.screen.columns + c.col ∧
      (c.escape ≠ .ground → c.queue = []) ∧
      ((s.displayOf c).memory.wraps = false →
        c.region.start ≤ c.origin ∧
          c.origin + config.screen.columns * config.screen.rows ≤ c.region.limit) ∧
      ((s.displayOf c).memory.wraps = true → c.origin < (s.displayOf c).capacity) ∧
      ∀ regions, config.layout = .ok regions → regions[id]? = some c.region := by
  have hplaced := h.sound.placed hc
  have hrow := hplaced.row_lt
  have hcol := hplaced.col_le
  have haddr := hplaced.cursorAddr_add
  have horigin := hplaced.origin_within
  unfold Console.OriginWithin at horigin
  simp only [Console.addressOf, Surface.rows, Surface.columns, Surface.size, surface,
    h.screen] at hrow hcol haddr horigin
  refine ⟨hrow, hcol, Nat.le_min.mpr ⟨hplaced.queue_le_limit, hplaced.queue_le_col⟩, haddr,
    ?_, ?_, ?_, fun regions hlayout => h.region hlayout hc⟩
  · intro hescape
    refine hplaced.quiet ?_
    cases hstate : c.escape with
    | ground => exact absurd hstate hescape
    | afterEscape | inBracket => rfl
  · intro hlinear
    rw [if_neg (by simp [hlinear])] at horigin
    exact horigin
  · intro hwraps
    rw [if_pos hwraps] at horigin
    exact horigin

/-- A display of sixteen words, shared by two screens of three columns and two rows. -/
def twoPages : Config where
  screen := ⟨3, 2⟩
  behavior := { maxConsoles := 2 }
  displays := [{ capacity := 16 }]

/-- The second console moves its window to the end of its page, which is the end of
memory, and wraps a line there with one character in the queue. -/
theorem console_representation_twoPages :
    ∃ s c, Reached twoPages s ∧ s.consoles[1]? = some c ∧
      c.cursorAddr + c.queue.length = c.origin + c.row * 3 + c.col ∧
      c.origin = 10 ∧ c.row = 1 ∧ c.queue.length = 1 := by
  have hreached : Reached twoPages _ :=
    ⟨_, [.scroll 1 .down, .sendRun 1 [0x41, 0x42, 0x43], .send 1 0x44], rfl, rfl⟩
  have hrepresentation := @console_representation _ _ 1 _ hreached rfl
  exact ⟨_, _, hreached, rfl, hrepresentation.2.2.2.1, rfl, rfl, rfl⟩

end Seat

end TextConsole
