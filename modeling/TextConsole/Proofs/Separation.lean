import TextConsole.Proofs.Attention
import TextConsole.Proofs.Homing

/-!
# Consoles do not disturb one another

Take a history of a new seat, and the same history without what was done with other
consoles, with the focus, with the bell and with fonts. Console `id` ends in the same state
after both, and the words of its region hold the same (`console_keeps_to_itself`). The
other consoles share its display, the display's rendition of blanks and the settings; but
they keep to their own regions, and a console always loads its own rendition of blanks
before it draws.

The proof compares two seats that are the same for one console (`Seat.SameFor`). What
concerns other consoles can be left out on one side (`Sound.sameFor_apply`), and what concerns
the console itself is done on both (`SameFor.apply`).
-/

namespace TextConsole

/-! ## Displays that agree on a region -/

/-- Whether two displays of one sort and size have the same rendition of blanks and hold
the same on the words of a region. -/
structure Display.AgreeOn (s : Surface) (r : Region) (d d' : Display) : Prop where
  left : s.Describes d
  right : s.Describes d'
  blank : d'.memory.blank = d.memory.blank
  cell : ∀ a, s.Covers r a → d'.memory.cell a = d.memory.cell a

namespace Display.AgreeOn

variable {s : Surface} {r : Region} {d d' : Display} {effects : Array Effect}

theorem write (h : AgreeOn s r d d') (hs : s.Holds r) {dest : Nat} {run : List Cell}
    (hin : s.Within r dest run.length) :
    AgreeOn s r (d.perform (.write dest run)) (d'.perform (.write dest run)) where
  left := h.left.performAll #[.write dest run]
  right := h.right.performAll #[.write dest run]
  blank := by
    rw [blank_perform d (by simp), blank_perform d' (by simp), h.blank]
  cell := by
    intro a ha
    have hcap : d.memory.capacity = s.capacity := h.left.capacity.symm
    have hcap' : d'.memory.capacity = s.capacity := h.right.capacity.symm
    have hlen : run.length ≤ s.capacity := Nat.le_trans hin.1 hs.size_le_capacity
    have hcell := VideoMemory.cell_write_eq (hin.fits hs.limit_le h.left) (by rwa [hcap]) a
    have hcell' := VideoMemory.cell_write_eq (hin.fits hs.limit_le h.right) (by rwa [hcap']) a
    simp only [perform]
    rw [hcell, hcell', hcap, hcap', h.cell a ha]

/-- Both displays read the same within the region. -/
theorem read (h : AgreeOn s r d d') (hs : s.Holds r) {addr len : Nat}
    (hin : s.Within r addr len) : d'.memory.read addr len = d.memory.read addr len := by
  rw [VideoMemory.read_eq (hin.fits hs.limit_le h.left),
    VideoMemory.read_eq (hin.fits hs.limit_le h.right)]
  apply List.map_inj_left.mpr
  intro i hi
  have hlt := List.mem_range.mp hi
  exact h.cell _ (hin.2.imp_right fun hle => by omega)

/-- Effects within the region keep the displays in agreement. -/
theorem perform (h : AgreeOn s r d d') (hs : s.Holds r) {e : Effect} (he : e.Within s r) :
    AgreeOn s r (d.perform e) (d'.perform e) := by
  cases e with
  | write dest run => exact h.write hs he
  | fill dest len =>
      have hblank : d'.memory.blankCell = d.memory.blankCell := by
        rw [VideoMemory.blankCell, VideoMemory.blankCell, h.blank]
      have hfill : d'.perform (.fill dest len) =
          d'.perform (.write dest (List.replicate len d.memory.blankCell)) := by
        rw [← hblank]
        rfl
      rw [hfill]
      exact h.write hs (by rw [List.length_replicate]; exact he)
  | copy src dest len =>
      obtain ⟨hsrc, hdest⟩ := he
      have hcopy : ∀ {d : Display}, s.Describes d →
          d.perform (.copy src dest len) = d.perform (.write dest (d.memory.read src len)) := by
        intro d hd
        rw [Display.perform, Display.perform, VideoMemory.copy_eq_write
          (hsrc.fits hs.limit_le hd) (hdest.fits hs.limit_le hd)]
      rw [hcopy h.left, hcopy h.right, h.read hs hsrc]
      refine h.write hs ?_
      rwa [VideoMemory.length_read (hsrc.fits hs.limit_le h.left)]
  | setBlank blank =>
      exact ⟨h.left.performAll #[.setBlank blank], h.right.performAll #[.setBlank blank], rfl,
        h.cell⟩
  | setRegister | ring => exact h

theorem performAll (h : AgreeOn s r d d') (hs : s.Holds r)
    (heffects : ∀ e ∈ effects, e.Within s r) :
    AgreeOn s r (d.performAll effects) (d'.performAll effects) := by
  have key : ∀ (es : List Effect), (∀ e ∈ es, e.Within s r) →
      ∀ {d d' : Display}, AgreeOn s r d d' →
        AgreeOn s r (es.foldl Display.perform d) (es.foldl Display.perform d') := by
    intro es
    induction es with
    | nil => exact fun _ _ _ h => h
    | cons e es ih =>
        intro hes d d' h
        obtain ⟨he, hes⟩ := List.forall_mem_cons.mp hes
        exact ih hes (h.perform hs he)
  have hlist := key effects.toList (by simpa using heffects) h
  rwa [Array.foldl_toList, Array.foldl_toList] at hlist

end Display.AgreeOn

/-- The operations that can change console `id` or the words of its region: those on
the console itself, and those that send every window home. -/
def Operation.Concerns (id : Nat) (op : Operation) : Prop := op.console? = some id ∨ Seat.Homes op

instance (id : Nat) (op : Operation) : Decidable (op.Concerns id) :=
  inferInstanceAs (Decidable (_ ∨ _ ∨ _ ∨ _))

namespace Seat

variable {s s' s'' : Seat} {c : Console} {id : Nat} {f : Surface → Console → Output Console}
  {config : Config}

/-! ## Seats that are the same for one console -/

/-- Whether two seats are the same for console `id`: it is in the same state, knows the
same but for the focus and the bell, and finds the same on the words of its region. -/
structure SameFor (id : Nat) (s s' : Seat) : Prop where
  console : s'.consoles[id]? = s.consoles[id]?
  surface : ∀ c, ∃ focused bell, s'.surface id c = (s.surface id c).attended focused bell
  cell : ∀ c, s.consoles[id]? = some c → ∀ a, (s.surface id c).Covers c.region a →
    (s'.displayOf c).memory.cell a = (s.displayOf c).memory.cell a

namespace SameFor

theorem refl (id : Nat) (s : Seat) : SameFor id s s :=
  ⟨rfl, fun c => ⟨(s.surface id c).focused, s.settings.behavior.bellEnabled, rfl⟩,
    fun _ _ _ _ => rfl⟩

theorem covers (h : SameFor id s s') (c : Console) (r : Region) (a : Nat) :
    (s'.surface id c).Covers r a ↔ (s.surface id c).Covers r a := by
  obtain ⟨focused, bell, hsurface⟩ := h.surface c
  rw [hsurface]
  exact Iff.rfl

theorem lt_size_iff (h : SameFor id s s') : id < s'.consoles.size ↔ id < s.consoles.size := by
  rw [← Nat.not_le, ← Nat.not_le, ← Array.getElem?_eq_none_iff, ← Array.getElem?_eq_none_iff,
    h.console]

theorem symm (h : SameFor id s s') : SameFor id s' s where
  console := h.console.symm
  surface := by
    intro c
    obtain ⟨focused, bell, hsurface⟩ := h.surface c
    refine ⟨(s.surface id c).focused, s.settings.behavior.bellEnabled, ?_⟩
    rw [hsurface]
    rfl
  cell := fun c hc a ha => (h.cell c (h.console.symm.trans hc) a ((h.covers ..).mp ha)).symm

theorem trans (h : SameFor id s s') (h' : SameFor id s' s'') : SameFor id s s'' where
  console := h'.console.trans h.console
  surface := by
    intro c
    obtain ⟨focused, bell, hsurface⟩ := h.surface c
    obtain ⟨focused', bell', hsurface'⟩ := h'.surface c
    refine ⟨focused', bell', ?_⟩
    rw [hsurface', hsurface]
    rfl
  cell := by
    intro c hc a ha
    rw [h'.cell c (h.console.trans hc) a ((h.covers ..).mpr ha), h.cell c hc a ha]

/-! ## What other consoles and the operator do -/

theorem of_spares (h : Spares id s s') : SameFor id s s' where
  console := h.console
  surface := by
    intro c
    refine ⟨(s.surface id c).focused, s.settings.behavior.bellEnabled, ?_⟩
    rw [h.surface]
    rfl
  cell := h.cell

theorem of_focus (id j : Nat) (s : Seat) : SameFor id s (s.focus j) where
  console := consoles_focus j id
  surface := by
    intro c
    unfold focus
    split
    · refine ⟨id = j, s.settings.behavior.bellEnabled, ?_⟩
      rw [surface_run]
      rfl
    · exact ⟨(s.surface id c).focused, s.settings.behavior.bellEnabled, rfl⟩
  cell := fun c _ a _ => cell_focus j c a

theorem of_switchBell (id : Nat) (s : Seat) : SameFor id s s.switchBell :=
  ⟨rfl, fun c => ⟨(s.surface id c).focused, _, rfl⟩, fun _ _ _ _ => rfl⟩

theorem of_installFont (id : Nat) (s : Seat) (font : List UInt8) :
    SameFor id s (s.apply (.installFont font)) := by
  obtain ⟨fonts, happly⟩ := apply_installFont (s := s) font
  rw [happly]
  exact ⟨rfl, (SameFor.refl id s).surface, fun _ _ _ _ => rfl⟩

/-! ## What is done on both sides -/

/-- **The same run leaves the seats the same for a console.** -/
theorem run (h : SameFor id s s') (hs : s.Sound) (hs' : s'.Sound) (hf : Console.Stepwise f)
    (hsteady : Console.Steadfast f) : SameFor id (s.run id f) (s'.run id f) := by
  cases hc : s.consoles[id]? with
  | none =>
      rw [run_of_none hc, run_of_none (h.console.trans hc)]
      exact h
  | some c =>
      have hc' : s'.consoles[id]? = some c := h.console.trans hc
      obtain ⟨focused, bell, hsurface⟩ := h.surface c
      have hsame := hsteady focused bell (hs.holds hc) (hs.placed hc)
      rw [← hsurface] at hsame
      have hregion := (hs.outcome hc hf).1
      refine ⟨?_, ?_, ?_⟩
      · rw [consoles_run_self hc, consoles_run_self hc', hsame.console]
      · intro k
        rw [surface_run, surface_run]
        exact h.surface k
      · intro k hk a ha
        rw [consoles_run_self hc] at hk
        obtain rfl := Option.some.inj hk
        rw [surface_run, surface_congr hregion, hregion] at ha
        have hstart : Display.AgreeOn (s.surface id c) c.region ((s.displayOf c).setBlank c.blank)
            ((s'.displayOf c).setBlank c.blank) := by
          refine ⟨⟨rfl, rfl, rfl⟩, ⟨?_, ?_, ?_⟩, rfl, h.cell c hc⟩
          · exact (congrArg Surface.kind hsurface).symm
          · exact (congrArg Surface.wraps hsurface).symm
          · exact (congrArg Surface.capacity hsurface).symm
        have heffects := (hf (hs.holds hc) (hs.placed hc)).effects_within (hs.holds hc)
          (hs.placed hc)
        have hend := (hstart.performAll (hs.holds hc) heffects).cell a ha
        rw [displayOf_run hc _ (by rw [hregion]) (hs.display_lt hc),
          displayOf_run hc' _ (by rw [hregion]) (hs'.display_lt hc'), ← Display.performAll_drawing _
            (f (s'.surface id c) c).effects, hsame.drawing, Display.performAll_drawing]
        exact hend

theorem runInputs (h : SameFor id s s') (hs : s.Sound) (hs' : s'.Sound)
    {fs : List (Surface → Console → Output Console)} (hfs : ∀ f ∈ fs, Console.Input f) :
    SameFor id (s.runInputs id fs) (s'.runInputs id fs) := by
  induction fs generalizing s s' with
  | nil => exact h
  | cons f fs ih =>
      obtain ⟨hf, hfs⟩ := List.forall_mem_cons.mp hfs
      have hstep : Console.Stepwise f := stepwise_input hf
      exact ih (h.run hs hs' hstep hf.steadfast) (hs.run id hstep) (hs'.run id hstep) hfs

theorem runAll (h : SameFor id s s') (hs : s.Sound) (hs' : s'.Sound) (hf : Console.Stepwise f)
    (hsteady : Console.Steadfast f) : SameFor id (s.runAll f) (s'.runAll f) := by
  by_cases hid : id < s.consoles.size
  · have hid' := h.lt_size_iff.mpr hid
    obtain ⟨s₁, hbefore, hs₁, hafter⟩ := hs.runAll_at hf hid
    obtain ⟨s₁', hbefore', hs₁', hafter'⟩ := hs'.runAll_at hf hid'
    have hturn : SameFor id s₁ s₁' := (of_spares hbefore).symm.trans (h.trans (of_spares hbefore'))
    exact (of_spares hafter).symm.trans ((hturn.run hs₁ hs₁' hf hsteady).trans (of_spares hafter'))
  · -- There is no such console, so every run is that of another.
    have hspares : ∀ {s : Seat}, s.Sound → ¬ id < s.consoles.size → Spares id s (s.runAll f) :=
      fun hs hid => (Sound.spares_runs hf (by simpa using hid) hs).1
    have hid' := mt h.lt_size_iff.mp hid
    exact (of_spares (hspares hs hid)).symm.trans (h.trans (of_spares (hspares hs' hid')))

theorem focus (h : SameFor id s s') (j j' : Nat) : SameFor id (s.focus j) (s'.focus j') :=
  (of_focus id j s).symm.trans (h.trans (of_focus id j' s'))

theorem setSoftwareScroll (h : SameFor id s s') (on : Bool) :
    SameFor id (s.setSoftwareScroll on) (s'.setSoftwareScroll on) := by
  refine ⟨h.console, ?_, h.cell⟩
  intro c
  obtain ⟨focused, bell, hsurface⟩ := h.surface c
  have hset := congrArg (fun u : Surface => { u with
    settings := { u.settings with
      behavior := { u.settings.behavior with softwareScroll := on } } }) hsurface
  exact ⟨focused, bell, hset⟩

theorem resetFirst (h : SameFor id s s') : SameFor id s.resetFirst s'.resetFirst := by
  refine ⟨?_, ?_, ?_⟩
  · rw [consoles_resetFirst, consoles_resetFirst, h.console]
  · intro c
    rw [surface_resetFirst, surface_resetFirst]
    exact h.surface c
  · intro c' hc' a ha
    obtain ⟨c, pen, blank, hc, rfl⟩ := console_resetFirst hc'
    rw [surface_resetFirst] at ha
    rw [cell_resetFirst, cell_resetFirst]
    exact h.cell c hc a ha

theorem homeAll (h : SameFor id s s') (hs : s.Sound) (hs' : s'.Sound) :
    SameFor id s.homeAll s'.homeAll :=
  (h.runAll hs hs' stepwise_goHome Console.steadfast_goHome).focus _ _

/-- **What concerns a console leaves seats the same for it**, if it is done on both. -/
theorem apply (h : SameFor id s s') (hs : s.Sound) (hs' : s'.Sound) {op : Operation}
    (hop : op.Concerns id) : SameFor id (s.apply op) (s'.apply op) := by
  rcases hop with hop | rfl | rfl | rfl
  · obtain ⟨fs, hfs, happly⟩ := apply_eq_runInputs hop
    rw [happly, happly]
    exact h.runInputs hs hs' hfs
  · exact h.homeAll hs hs'
  · obtain ⟨focused, bell, hsurface⟩ := h.surface default
    have hmode : s'.settings.behavior.softwareScroll = s.settings.behavior.softwareScroll :=
      congrArg (fun u : Surface => u.settings.behavior.softwareScroll) hsurface
    rw [Seat.apply, Seat.apply, switchScrolling, switchScrolling, hmode]
    exact (h.homeAll hs hs').setSoftwareScroll _
  · exact (((h.homeAll hs hs').setSoftwareScroll true).focus 0 0).resetFirst

end SameFor

/-- **What does not concern a console leaves the seat the same for it.** -/
theorem Sound.sameFor_apply (hs : s.Sound) {op : Operation} (hop : ¬ op.Concerns id) :
    SameFor id s (s.apply op) := by
  obtain ⟨hother, hhomes⟩ := not_or.mp hop
  cases hconsole : op.console? with
  | some j =>
      have hne : j ≠ id := by
        rintro rfl
        exact hother hconsole
      obtain ⟨fs, hfs, happly⟩ := apply_eq_runInputs hconsole
      rw [happly]
      have hstep : ∀ {s' : Seat} {f : Surface → Console → Output Console}, s'.Sound →
          Console.Input f → SameFor id s s' → SameFor id s (s'.run j f) :=
        fun hs' hf h => h.trans (.of_spares (hs'.spares_run (stepwise_input hf) hne))
      exact (hs.runInputs hstep hfs (.refl id s)).2
  | none =>
      cases op with
      | focus j => exact .of_focus id j s
      | switchBell => exact .of_switchBell id s
      | installFont font => exact .of_installFont id s font
      | homeAll => exact absurd (Or.inl rfl) hhomes
      | switchScrolling => exact absurd (Or.inr (Or.inl rfl)) hhomes
      | release => exact absurd (Or.inr (Or.inr rfl)) hhomes
      | send | sendRun | flush | echo | message | acknowledge | scroll => cases hconsole

/-- A history and what of it concerns a console. -/
theorem SameFor.applyAll (id : Nat) (ops : List Operation) :
    ∀ {s s' : Seat}, SameFor id s s' → s.Sound → s'.Sound →
      SameFor id (s.applyAll ops) (s'.applyAll (ops.filter (·.Concerns id))) := by
  induction ops with
  | nil => exact fun h _ _ => h
  | cons op ops ih =>
      intro s s' h hs hs'
      have hsound := Moves.sound (moves_apply op) hs
      by_cases hop : op.Concerns id
      · rw [List.filter_cons_of_pos (by simpa using hop)]
        exact ih (h.apply hs hs' hop) hsound (Moves.sound (moves_apply op) hs')
      · rw [List.filter_cons_of_neg (by simpa using hop)]
        exact ih ((hs.sameFor_apply hop).symm.trans h) hsound hs'

/-! ## Words of no console -/

/-- Whether a word of a display belongs to no console. -/
def Unowned (s : Seat) (k a : Nat) : Prop :=
  ∀ (id : Nat) (c : Console), s.consoles[id]? = some c → c.region.display = k →
    a < c.region.start ∨ c.region.limit ≤ a

/-- Whether consoles on memory that wraps have all of it. -/
def Whole (s : Seat) : Prop :=
  ∀ (id : Nat) (c : Console), s.consoles[id]? = some c → (s.displayOf c).memory.wraps = true →
    c.region.start = 0 ∧ c.region.limit = (s.displayOf c).capacity

theorem whole_ofRegions {regions : List Region} (hlayout : config.layout = .ok regions) :
    (ofRegions config regions).Whole := by
  intro id c hc hwraps
  rw [consoles_ofRegions] at hc
  obtain ⟨r, hr, rfl⟩ := Option.map_eq_some_iff.mp hc
  have hmem := List.mem_of_getElem? hr
  obtain ⟨d, hd, _, _⟩ := Config.layout_region hlayout hmem
  have hdisplay : (ofRegions config regions).displayOf { region := r } =
      Display.ofConfig d (1 < regions.length) := by
    rw [displayOf_eq, displays_ofRegions, hd]
    rfl
  -- Memory that is shared does not wrap.
  have hlength : regions.length ≤ 1 := by
    rw [hdisplay] at hwraps
    simp [Display.ofConfig, VideoMemory.ofCapacity] at hwraps
    omega
  obtain ⟨first, rest, hdisplays, rfl⟩ := Config.layout_single hlayout hlength hmem
  have hfirst : d = first := by
    rw [Config.keptDisplays, hdisplays] at hd
    split at hd
    · exact (Option.some.inj hd).symm
    · exact (Option.some.inj hd).symm
  refine ⟨rfl, ?_⟩
  rw [hdisplay, hfirst, Display.capacity, Display.ofConfig, VideoMemory.capacity_ofCapacity]

theorem Whole.moves (h : s.Whole) (hs : s.Sound) (hmoves : Moves s s') : s'.Whole := by
  intro id c' hc' hwraps
  obtain ⟨c, hc, hregion⟩ := Moves.region hmoves hs hc'
  obtain ⟨hsame, hcapacity⟩ := Moves.display hmoves hregion
  have hwhole := h id c hc (hsame.symm.trans hwraps)
  rw [hregion]
  exact ⟨hwhole.1, hwhole.2.trans hcapacity.symm⟩

theorem Reached.whole (h : Reached config s) : s.Whole := by
  obtain ⟨regions, hvalid, hlayout, hmoves⟩ := h.moves
  exact (whole_ofRegions hlayout).moves (sound_ofRegions hvalid hlayout) hmoves

theorem Unowned.moves {k a : Nat} (h : s.Unowned k a) (hs : s.Sound) (hmoves : Moves s s') :
    s'.Unowned k a := by
  intro id c' hc' hdisplay
  obtain ⟨c, hc, hregion⟩ := Moves.region hmoves hs hc'
  rw [hregion] at hdisplay ⊢
  exact h id c hc hdisplay

/-- **A run changes no word outside the region of its console**, on any display. -/
theorem Whole.cell_run (h : s.Whole) (hs : s.Sound) (hc : s.consoles[id]? = some c)
    (hf : Console.Stepwise f) {k a : Nat} (ha : a < (s.displays.getD k default).capacity)
    (hout : c.region.display = k → a < c.region.start ∨ c.region.limit ≤ a) :
    ((s.run id f).displays.getD k default).memory.cell a =
      (s.displays.getD k default).memory.cell a := by
  by_cases hdisplay : c.region.display = k
  · subst hdisplay
    have hlt : a < (s.displayOf c).capacity := ha
    have hlinear : (s.displayOf c).memory.wraps = false := by
      by_contra hwraps
      have hall := h id c hc (by simpa using hwraps)
      have hregion := hout rfl
      omega
    have heffects := (hf (hs.holds hc) (hs.placed hc)).effects_within (hs.holds hc) (hs.placed hc)
    have hd : (s.surface id c).Describes ((s.displayOf c).setBlank c.blank) := ⟨rfl, rfl, rfl⟩
    have hcell := Effect.Within.cell_performAll heffects hd hlinear (hs.holds hc).limit_le hlt
      (hout rfl)
    rw [← displayOf_run hc c rfl (hs.display_lt hc)] at hcell
    exact hcell
  · rw [Array.getD_eq_getD_getElem?, Array.getD_eq_getD_getElem?, displays_run hc,
      if_neg hdisplay]

/-- No move changes a word of no console. -/
theorem Unowned.cell_move {k a : Nat} (h : s.Unowned k a) (hs : s.Sound) (hwhole : s.Whole)
    (ha : a < (s.displays.getD k default).capacity) (hmove : Move s s') :
    (s'.displays.getD k default).memory.cell a = (s.displays.getD k default).memory.cell a := by
  cases hmove with
  | @run j f hf =>
      cases hc : s.consoles[j]? with
      | none => rw [run_of_none hc]
      | some c => exact hwhole.cell_run hs hc hf ha (h j c hc)
  | reset =>
      rw [Array.getD_eq_getD_getElem?, Array.getD_eq_getD_getElem?, displays_resetFirst]
      split
      · cases s.displays[k]? <;> rfl
      · rfl
  | refocus | switch | enter => rfl

theorem Unowned.cell_moves {k a : Nat} (h : s.Unowned k a) (hs : s.Sound) (hwhole : s.Whole)
    (ha : a < (s.displays.getD k default).capacity) (hmoves : Moves s s') :
    (s'.displays.getD k default).memory.cell a = (s.displays.getD k default).memory.cell a := by
  induction hmoves with
  | refl => rfl
  | tail hbefore hmove ih =>
      have hcapacity := (Moves.matches hbefore 0 { region := ⟨k, 0, 0⟩ }).capacity
      have hlast := (h.moves hs hbefore).cell_move (Moves.sound hbefore hs)
        (hwhole.moves hs hbefore) (Nat.lt_of_lt_of_eq ha hcapacity.symm) hmove
      exact hlast.trans ih

/-- **A console depends on its own operations only.** After any history it is in the state
in which the operations that concern it alone would have left it, and so are the words of
its region. The words of no console hold at any time what they held at the start. -/
theorem console_keeps_to_itself {seat : Seat} (hseat : ofConfig config = .ok seat)
    (ops : List Operation) (id : Nat) :
    (seat.applyAll (ops.filter (·.Concerns id))).consoles[id]? =
        (seat.applyAll ops).consoles[id]? ∧
      (∀ c, (seat.applyAll ops).consoles[id]? = some c →
        ∀ a, c.region.start ≤ a → a < c.region.limit →
          ((seat.applyAll (ops.filter (·.Concerns id))).displayOf c).memory.cell a =
            ((seat.applyAll ops).displayOf c).memory.cell a) ∧
      ∀ k a, a < (seat.displays.getD k default).capacity →
        (∀ (j : Nat) (c : Console), seat.consoles[j]? = some c → c.region.display = k →
          a < c.region.start ∨ c.region.limit ≤ a) →
        ((seat.applyAll ops).displays.getD k default).memory.cell a =
          (seat.displays.getD k default).memory.cell a := by
  obtain ⟨regions, hvalid, hlayout, rfl⟩ := ofConfig_eq hseat
  have hfirst := sound_ofRegions hvalid hlayout
  have hsound := Moves.sound moves_ofRegions hfirst
  have hsame := SameFor.applyAll id ops (.refl id _) hsound hsound
  refine ⟨hsame.console, ?_, ?_⟩
  · intro c hc a hstart hlimit
    exact hsame.cell c hc a (Or.inr ⟨hstart, hlimit⟩)
  · intro k a ha hunowned
    exact Unowned.cell_moves hunowned hsound
      ((whole_ofRegions hlayout).moves hfirst moves_ofRegions) ha (moves_applyAll ops)

/-- Three screens of two columns and two rows share sixteen words, and leave the last. -/
def threePages : Config where
  screen := ⟨2, 2⟩
  behavior := { maxConsoles := 3 }
  displays := [{ capacity := 16 }]

/-- What is done with three consoles in turn, with colours, scrolls and the focus. -/
def threeClients : List Operation :=
  [.sendRun 0 [0x1B, 0x5B, 0x34, 0x31, 0x6D, 0x41], .send 1 0x42, .focus 2, .scroll 1 .down,
    .sendRun 2 [0x0A, 0x0A, 0x43], .switchBell, .message 0x44, .echo 1 0x07, .homeAll, .send 1 0x45]

/-- The second console, and the word that belongs to none of the three. -/
theorem console_keeps_to_itself_threePages :
    ∃ seat, ofConfig threePages = .ok seat ∧
      (seat.applyAll (threeClients.filter (·.Concerns 1))).consoles[1]? =
        (seat.applyAll threeClients).consoles[1]? ∧
      ((seat.applyAll threeClients).displays.getD 0 default).memory.cell 15 =
        (seat.displays.getD 0 default).memory.cell 15 := by
  refine ⟨_, rfl, ?_⟩
  obtain ⟨hconsole, _, hunowned⟩ := @console_keeps_to_itself threePages _ rfl threeClients 1
  refine ⟨hconsole, hunowned 0 15 (by decide +kernel) fun j c hc _ => Or.inr ?_⟩
  exact (by decide +kernel : ∀ c ∈ _, c.region.limit ≤ 15) c (Array.mem_of_getElem? hc)

end Seat

end TextConsole
