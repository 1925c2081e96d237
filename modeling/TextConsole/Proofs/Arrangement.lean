import TextConsole.Proofs.Independence
import TextConsole.Proofs.Release
import TextConsole.Proofs.Separation

/-!
# How a seat is arranged

What the layout of a configuration comes to in a seat. `Seat.Arranged` lists it: how many
consoles there are, what room each region has, how regions share a display, and which
displays are kept. It holds at any time, since no operation moves a region
(`Reached.arranged`). At the start all windows are blank, and no two of them ever share a
cell (`Sound.windows_apart`).

Not every valid configuration makes a seat. Validation adds up the memory of all displays,
while a layout needs a first display that holds a screen by itself
(`usable_iff_first_holds_screen`).
-/

namespace TextConsole

namespace Seat

variable {s : Seat} {c c' : Console} {id i j : Nat} {config : Config} {regions : List Region}

/-! ## Regions and displays -/

/-- The arrangement of consoles and displays that a configuration leads to. -/
structure Arranged (config : Config) (s : Seat) : Prop where
  consoles_pos : 1 ≤ s.consoles.size
  consoles_le : s.consoles.size ≤ max 1 config.behavior.maxConsoles
  /-- The displays are those of the configuration, from the first one on. -/
  display : ∀ {k : Nat} {d : Display}, s.displays[k]? = some d →
    ∃ d', config.displays[k]? = some d' ∧ d.capacity = d'.capacity
  /-- Each region has room for a screen and lies on its display. -/
  room : ∀ {id : Nat} {c : Console}, s.consoles[id]? = some c →
    c.region.display < s.displays.size ∧
      c.region.start + config.screen.columns * config.screen.rows ≤ c.region.limit ∧
      c.region.limit ≤ (s.displayOf c).capacity
  apart : ∀ {i j : Nat} {c c' : Console}, i ≠ j → s.consoles[i]? = some c →
    s.consoles[j]? = some c' → c.region.display = c'.region.display →
      c.region.limit ≤ c'.region.start ∨ c'.region.limit ≤ c.region.start
  /-- The pages of the first display are of one length. -/
  pages : ∀ {i j : Nat} {c c' : Console}, s.consoles[i]? = some c → s.consoles[j]? = some c' →
    c.region.display = 0 → c'.region.display = 0 →
      c.region.limit - c.region.start = c'.region.limit - c'.region.start
  /-- Another display is the second one, and the last console has all of it. -/
  second : ∀ {id : Nat} {c : Console}, s.consoles[id]? = some c → c.region.display ≠ 0 →
    id + 1 = s.consoles.size ∧ c.region = ⟨1, 0, (s.displayOf c).capacity⟩
  kept : ∀ {k : Nat}, k < s.displays.size →
    ∃ (id : Nat) (c : Console), s.consoles[id]? = some c ∧ c.region.display = k
  /-- Several consoles have no display that wraps. -/
  linear : 1 < s.consoles.size → ∀ d ∈ s.displays, d.memory.wraps = false
  /-- A display that wraps belongs to one console, from its start to its end. -/
  whole : ∀ {k : Nat} {d : Display}, s.displays[k]? = some d → d.memory.wraps = true →
    s.consoles.size = 1 ∧ ∃ c, s.consoles[0]? = some c ∧ c.region = ⟨k, 0, d.capacity⟩

theorem Reached.size_consoles (h : Reached config s) (hlayout : config.layout = .ok regions) :
    s.consoles.size = regions.length := by
  obtain ⟨regions', _, hlayout', hmoves⟩ := h.moves
  obtain rfl := Except.ok.inj (hlayout'.symm.trans hlayout)
  rw [(Moves.sizes hmoves).1]
  simp [ofRegions]

/-- The display of a console, as it is configured. -/
theorem Reached.displayOf (h : Reached config s) (hlayout : config.layout = .ok regions)
    (hc : s.consoles[id]? = some c) :
    ∃ d, (config.keptDisplays regions)[c.region.display]? = some d ∧
      (s.displayOf c).capacity = d.capacity ∧
      (s.displayOf c).memory.wraps = (d.wraps && !decide (1 < regions.length)) := by
  obtain ⟨regions', _, hlayout', hmoves⟩ := h.moves
  obtain rfl := Except.ok.inj (hlayout'.symm.trans hlayout)
  obtain ⟨d, hd, _, _⟩ := Config.layout_region hlayout
    (List.mem_of_getElem? (h.region hlayout hc))
  have hstart : (ofRegions config regions').displayOf c =
      Display.ofConfig d (1 < regions'.length) := by
    rw [displayOf_eq, displays_ofRegions, hd]
    rfl
  obtain ⟨hwraps, hcapacity⟩ := Moves.display hmoves (rfl : c.region = c.region)
  refine ⟨d, hd, ?_, ?_⟩
  · rw [hcapacity, hstart, Display.ofConfig, Display.capacity, VideoMemory.capacity_ofCapacity]
  · rw [hwraps, hstart]
    rfl

/-- A display that is kept is the display of some console. -/
theorem Reached.display_of_console (h : Reached config s) {k : Nat} {d : Display}
    (hd : s.displays[k]? = some d) :
    ∃ (id : Nat) (c : Console), s.consoles[id]? = some c ∧ c.region.display = k ∧
      s.displayOf c = d := by
  obtain ⟨hk, _⟩ := Array.getElem?_eq_some_iff.mp hd
  obtain ⟨id, c, hc, hdisplay, _⟩ := h.console_at_start hk
  refine ⟨id, c, hc, hdisplay, ?_⟩
  rw [displayOf_eq, hdisplay, hd, Option.getD_some]

/-- Memory wraps for a console by itself only. -/
theorem Reached.single_of_wraps (h : Reached config s) (hc : s.consoles[id]? = some c)
    (hwraps : (s.displayOf c).memory.wraps = true) : s.consoles.size = 1 := by
  obtain ⟨regions, _, hlayout, _⟩ := h.moves
  obtain ⟨_, _, _, hwraps'⟩ := h.displayOf hlayout hc
  rw [hwraps, eq_comm, Bool.and_eq_true, Bool.not_eq_true', decide_eq_false_iff_not] at hwraps'
  have hsize := h.size_consoles hlayout
  obtain ⟨hid, _⟩ := Array.getElem?_eq_some_iff.mp hc
  omega

/-- **Reached seats are arranged as configured.** -/
theorem Reached.arranged (h : Reached config s) : s.Arranged config := by
  obtain ⟨regions, hvalid, hlayout, hmoves⟩ := h.moves
  have hsound := h.sound
  have hsize := h.size_consoles hlayout
  obtain ⟨hone, hlimit⟩ := Config.layout_length hlayout
  exact
    { consoles_pos := by rwa [hsize]
      consoles_le := by rwa [hsize, Nat.max_comm]
      display := by
        intro k d hd
        obtain ⟨id, c, hc, rfl, rfl⟩ := h.display_of_console hd
        obtain ⟨d', hd', hcapacity, _⟩ := h.displayOf hlayout hc
        obtain ⟨hlt, _⟩ := List.getElem?_eq_some_iff.mp hd'
        rw [Config.keptDisplays, List.length_take] at hlt
        rw [Config.keptDisplays, List.getElem?_take_of_lt (by omega)] at hd'
        exact ⟨d', hd', hcapacity⟩
      room := by
        intro id c hc
        have hholds := hsound.holds hc
        have hscreen := hholds.screen_le
        rw [h.size_surface] at hscreen
        exact ⟨hsound.display_lt hc, hscreen, hholds.limit_le⟩
      apart := fun hij hc hc' hdisplay => (hsound.apart hij hc hc' hdisplay).2
      pages := by
        intro i j c c' hc hc' hzero hzero'
        obtain ⟨length, hlength⟩ := Config.layout_pages hlayout
        rw [hlength _ (List.mem_of_getElem? (h.region hlayout hc)) hzero,
          hlength _ (List.mem_of_getElem? (h.region hlayout hc')) hzero',
          Nat.add_sub_cancel_left, Nat.add_sub_cancel_left]
      second := by
        intro id c hc hdisplay
        obtain ⟨hlast, d, hd, hregion⟩ := Config.layout_last hlayout (h.region hlayout hc) hdisplay
        obtain ⟨d', hd', hcapacity, _⟩ := h.displayOf hlayout hc
        rw [hregion, hd] at hd'
        obtain rfl := Option.some.inj hd'
        exact ⟨hlast.trans hsize.symm, by rw [hcapacity, ← hregion]⟩
      kept := by
        intro k hk
        obtain ⟨id, c, hc, hdisplay, _⟩ := h.console_at_start hk
        exact ⟨id, c, hc, hdisplay⟩
      linear := by
        intro hseveral d hd
        obtain ⟨k, hk⟩ := Array.getElem?_of_mem hd
        obtain ⟨id, c, hc, _, rfl⟩ := h.display_of_console hk
        rw [Bool.eq_false_iff]
        intro hwraps
        have hsingle := h.single_of_wraps hc hwraps
        omega
      whole := by
        intro k d hd hwraps
        obtain ⟨id, c, hc, hdisplay, rfl⟩ := h.display_of_console hd
        have hsingle := h.single_of_wraps hc hwraps
        obtain ⟨hstart, hlimit⟩ := (whole_ofRegions hlayout).moves
          (sound_ofRegions hvalid hlayout) hmoves id c hc hwraps
        obtain ⟨hid, _⟩ := Array.getElem?_eq_some_iff.mp hc
        obtain rfl : id = 0 := by omega
        refine ⟨hsingle, c, hc, ?_⟩
        rw [← hdisplay, ← hlimit, ← hstart] }

/-! ## Windows -/

/-- **No two windows share a cell**, wherever they have been moved. -/
theorem Sound.windows_apart (hs : s.Sound) (hij : i ≠ j) (hc : s.consoles[i]? = some c)
    (hc' : s.consoles[j]? = some c') (hdisplay : c.region.display = c'.region.display) {a b : Nat}
    (ha : a < s.settings.screen.size) (hb : b < s.settings.screen.size) :
    (c.origin + a) % (s.displayOf c).capacity ≠ (c'.origin + b) % (s.displayOf c).capacity := by
  obtain ⟨hlinear, hregions⟩ := hs.apart hij hc hc' hdisplay
  have hsame : s.displayOf c' = s.displayOf c := by
    rw [displayOf_eq, displayOf_eq, hdisplay]
  have hin := (hs.placed hc).origin_within
  have hin' := (hs.placed hc').origin_within
  have hlimit : c.region.limit ≤ (s.displayOf c).capacity := (hs.holds hc).limit_le
  have hlimit' : c'.region.limit ≤ (s.displayOf c').capacity := (hs.holds hc').limit_le
  unfold Console.OriginWithin at hin hin'
  simp only [surface, hsame, hlinear, Surface.size, Bool.false_eq_true, if_false] at hin hin'
  rw [hsame] at hlimit'
  rw [Nat.mod_eq_of_lt (by omega), Nat.mod_eq_of_lt (by omega)]
  omega

/-- A new seat shows blanks. -/
theorem rows?_ofConfig {seat : Seat} (h : ofConfig config = .ok seat)
    (hc : seat.consoles[id]? = some c) :
    seat.rows? id = some (List.replicate config.screen.rows
      (List.replicate config.screen.columns (Cell.blank Rendition.normal))) := by
  obtain ⟨hfresh, hsound, hsettings⟩ := fresh_ofConfig h
  have hshown : (seat.displayOf c).shown c.origin = fun _ => Cell.blank Rendition.normal :=
    funext fun k => hfresh.cell hc _
  rw [hsound.rows?_eq hc, hshown]
  simp only [Surface.rowsOf, Surface.rows, Surface.columns, surface, hsettings, List.map_const',
    List.length_range]

/-- **How a new seat is arranged.** Its consoles are as many as the configuration allows and
memory holds, each with a region for a screen and more. Pages of the first display are of one
length; the second display goes to the last console as a whole; only a console by itself has
memory that wraps. All windows are blank, and no two share a cell. -/
theorem seat_arranged {seat : Seat} (h : ofConfig config = .ok seat) :
    seat.Arranged config ∧
      (∀ id < seat.consoles.size, seat.rows? id = some (List.replicate config.screen.rows
        (List.replicate config.screen.columns (Cell.blank ⟨0x0700⟩)))) ∧
      ∀ (i j : Nat) (c c' : Console), i ≠ j → seat.consoles[i]? = some c →
        seat.consoles[j]? = some c' → c.region.display = c'.region.display →
          ∀ a < config.screen.size, ∀ b < config.screen.size,
            (c.origin + a) % (seat.displayOf c).capacity ≠
              (c'.origin + b) % (seat.displayOf c).capacity := by
  have hreached : Reached config seat := ⟨seat, [], h, rfl⟩
  refine ⟨hreached.arranged, ?_, ?_⟩
  · intro id hid
    exact rows?_ofConfig h (Array.getElem?_eq_getElem hid)
  · intro i j c c' hij hc hc' hdisplay a ha b hb
    rw [← hreached.screen] at ha hb
    exact hreached.sound.windows_apart hij hc hc' hdisplay ha hb

/-- Sixteen words for two screens of two columns and two rows, and a second display that
one screen fills. -/
def threeWindows : Config where
  screen := ⟨2, 2⟩
  behavior := { maxConsoles := 3 }
  displays := [{ capacity := 16, wraps := true }, { capacity := 4 }]

/-- The first display is halved and does not wrap; the second belongs to the third console. -/
theorem seat_arranged_threeWindows :
    ∃ seat, ofConfig threeWindows = .ok seat ∧ seat.Arranged threeWindows ∧
      seat.consoles.size = 3 ∧ seat.consoles.map (·.region) = #[⟨0, 0, 8⟩, ⟨0, 8, 16⟩, ⟨1, 0, 4⟩] ∧
      seat.rows? 2 = some [[⟨0x0720⟩, ⟨0x0720⟩], [⟨0x0720⟩, ⟨0x0720⟩]] := by
  obtain ⟨harranged, hrows, _⟩ := @seat_arranged threeWindows _ rfl
  exact ⟨_, rfl, harranged, rfl, by decide +kernel, hrows 2 (by decide)⟩

/-! ## Which configurations make a seat -/

/-- A configuration that does not validate is refused for the same fault. -/
theorem ofConfig_of_invalid {e : ConfigError} (h : config.validate = .error e) :
    ofConfig config = .error e := by
  rw [ofConfig, h]
  rfl

theorem ofConfig_of_refused {e : ConfigError} (hvalid : config.validate = .ok ())
    (h : config.layout = .error e) : ofConfig config = .error e := by
  rw [ofConfig, hvalid, h]
  rfl

/-- A layout is all that a valid configuration needs. -/
theorem ofConfig_ok_iff (hvalid : config.validate = .ok ()) :
    (∃ seat, ofConfig config = .ok seat) ↔ ∃ regions, config.layout = .ok regions := by
  constructor
  · rintro ⟨seat, h⟩
    obtain ⟨regions, _, hlayout, _⟩ := ofConfig_eq h
    exact ⟨regions, hlayout⟩
  · rintro ⟨regions, hlayout⟩
    refine ⟨((ofRegions config regions).runAll clearWindow).focus 0, ?_⟩
    rw [ofConfig, hvalid, hlayout]
    rfl

/-- **When a configuration makes a seat.** It has to be valid, and its first display has to
hold a screen. One that is not valid is refused for its fault; one that is valid with a
first display that is too small is refused all the same, for want of memory. -/
theorem usable_iff_first_holds_screen (config : Config) :
    ((∃ seat, ofConfig config = .ok seat) ↔
      config.validate = .ok () ∧
        ∃ first rest, config.displays = first :: rest ∧ config.screen.size ≤ first.capacity) ∧
      (∀ e, config.validate = .error e → ofConfig config = .error e) ∧
      ∀ first rest, config.validate = .ok () → config.displays = first :: rest →
        first.capacity < config.screen.size →
          ofConfig config = .error (.memoryTooSmall config.screen.size first.capacity) := by
  refine ⟨?_, fun e he => ofConfig_of_invalid he, ?_⟩
  · cases hvalid : config.validate with
    | error e =>
        rw [ofConfig_of_invalid hvalid]
        simp
    | ok _ =>
        rw [ofConfig_ok_iff hvalid, Config.layout_ok_iff (Config.valid_of_validate hvalid).size_pos]
        simp
  · intro first rest hvalid hdisplays hlt
    exact ofConfig_of_refused hvalid
      (Config.layout_of_lt hdisplays (Config.valid_of_validate hvalid).size_pos hlt)

/-- Screens of six words, on a first display of four words and a second one of eight. -/
def shortFirst : Config where
  screen := ⟨3, 2⟩
  displays := [{ capacity := 4 }, { capacity := 8 }]

/-- **Valid and yet of no use.** The displays hold two screens together, and the second
one holds one by itself. -/
theorem valid_refused_shortFirst :
    shortFirst.validate = .ok () ∧ ofConfig shortFirst = .error (.memoryTooSmall 6 4) ∧
      ¬ ∀ config : Config,
        (∃ seat, ofConfig config = .ok seat) ↔ config.validate = .ok () := by
  refine ⟨rfl, rfl, ?_⟩
  intro hall
  obtain ⟨seat, hseat⟩ := (hall shortFirst).mpr rfl
  cases hseat

end Seat

end TextConsole
