import TextConsole.Proofs.Homing
import TextConsole.Proofs.Registers

/-!
# The origin registers of released hardware

Releasing the hardware sends every window home and is meant to leave every origin register
at the start of a region. Two are written on the way: that of the display in focus, when
the registers are loaded anew, and that of the first display, when the first console gets
the focus. A window that goes home without the focus writes nothing, so the register of a
second display goes on holding what it held before (`Sound.origin_release`), and is right
only if the focus was there or the register was never away from the start
(`release_resets_origin_iff`).
-/

namespace TextConsole

/-- A register is untouched by effects that do not name it. -/
theorem Journal.register?_recordAll_of_ne {j : Journal} {k capacity : Nat} {es : Array Effect}
    {r : Register} (h : ∀ e ∈ es, ∀ addr, e ≠ .setRegister r addr) (k' : Nat) :
    (j.recordAll k capacity es).register? k' r = j.register? k' r := by
  unfold recordAll
  refine Array.foldl_induction
    (fun _ (j' : Journal) => j'.register? k' r = j.register? k' r) rfl ?_
  intro i j' hj'
  have he := h _ (Array.getElem_mem i.2)
  revert he
  cases es[i] with
  | setRegister r' addr =>
      intro he
      have hne : ¬ (k = k' ∧ r' = r) := by
        rintro ⟨_, rfl⟩
        exact he addr rfl
      have hone : (record k capacity j' (.setRegister r' addr)).register? k' r = _ :=
        register?_setRegister r' r addr k'
      rw [hone, if_neg hne, hj']
  | write | fill | copy | setBlank | ring => exact fun _ => hj'

namespace Seat

variable {s : Seat} {c c₀ : Console} {id : Nat} {config : Config}

/-! ## Windows that go home -/

/-- A window that goes home does not say where it is. -/
theorem Sound.origin_goHome (hs : s.Sound) (id k : Nat) :
    (s.run id fun surface c => c.goHome surface).journal.register? k .origin =
      s.journal.register? k .origin := by
  cases hc : s.consoles[id]? with
  | none => rw [run_of_none hc]
  | some c =>
      rw [journal_run hc]
      apply Journal.register?_recordAll_of_ne
      rw [Console.effects_goHome (hs.holds hc) (hs.placed hc).origin_within, Console.flush,
        Console.effects_settle]
      simp only [Array.mem_append, Output.mem_ite]
      rintro e (⟨_, rfl⟩ | ⟨_, rfl⟩ | ⟨_, rfl⟩) addr heq
      · cases heq
      · cases heq
      · cases heq

theorem Sound.origin_runAll_goHome (hs : s.Sound) (k : Nat) :
    (s.runAll fun surface c => c.goHome surface).journal.register? k .origin =
      s.journal.register? k .origin :=
  (runAll_induction (P := fun s' => s'.Sound ∧
      s'.journal.register? k .origin = s.journal.register? k .origin)
    (fun id h => ⟨h.1.run id stepwise_goHome, by rw [h.1.origin_goHome, h.2]⟩) ⟨hs, rfl⟩).2

/-- A console once every window is at home. -/
theorem Sound.console_homeAll (hs : s.Sound) (hc : s.consoles[id]? = some c) :
    ∃ c', s.homeAll.consoles[id]? = some c' ∧ c'.region = c.region ∧
      c'.origin = c.region.start := by
  obtain ⟨c', hc', _, _, horigin, _⟩ := hs.homes (Or.inl rfl) hc
  have hc'' : s.homeAll.consoles[id]? = some c' := hc'
  obtain ⟨c₀, hc₀, hregion⟩ := Moves.region moves_homeAll hs hc''
  rw [hc] at hc₀
  obtain rfl := Option.some.inj hc₀
  exact ⟨c', hc'', hregion, horigin⟩

/-! ## Registers that are loaded anew -/

/-- The origin registers once every window is at home: only the display in focus knows. -/
theorem Sound.origin_homeAll (hs : s.Sound) (hc : s.consoles[s.focused]? = some c) (k : Nat) :
    s.homeAll.journal.register? k .origin =
      if c.region.display = k then
        some (Display.registerWord (s.displayOf c).capacity c.region.start)
      else s.journal.register? k .origin := by
  obtain ⟨c', hc', hregion, horigin⟩ := hs.console_homeAll hc
  rw [homeAll, consoles_focus] at hc'
  have hcapacity := (Moves.display (s := s) (moves_runAll stepwise_goHome) hregion).2
  rw [homeAll, register?_focus hc', hregion, horigin, hcapacity, hs.origin_runAll_goHome]

theorem release_eq :
    s.release = ((s.homeAll.setSoftwareScroll true).focus 0).resetFirst := rfl

theorem journal_resetFirst : s.resetFirst.journal = s.journal := rfl

theorem journal_setSoftwareScroll (on : Bool) : (s.setSoftwareScroll on).journal = s.journal := rfl

/-- The origin registers of released hardware. -/
theorem Sound.origin_release (hs : s.Sound) (hc₀ : s.consoles[0]? = some c₀)
    (hc : s.consoles[s.focused]? = some c) (k : Nat) :
    s.release.journal.register? k .origin =
      if c₀.region.display = k then
        some (Display.registerWord (s.displayOf c₀).capacity c₀.region.start)
      else if c.region.display = k then
        some (Display.registerWord (s.displayOf c).capacity c.region.start)
      else s.journal.register? k .origin := by
  obtain ⟨c', hc', hregion, horigin⟩ := hs.console_homeAll hc₀
  have hmoves : Moves s (s.homeAll.setSoftwareScroll true) :=
    moves_homeAll.trans (moves_setSoftwareScroll true)
  have hcapacity := (Moves.display hmoves hregion).2
  rw [release_eq, journal_resetFirst, register?_focus (s := s.homeAll.setSoftwareScroll true) hc',
    journal_setSoftwareScroll, hregion, horigin, hcapacity, hs.origin_homeAll hc k]

/-! ## The first display and the second -/

/-- A display that is kept has a console at its start. -/
theorem Reached.console_at_start (h : Reached config s) {k : Nat} (hk : k < s.displays.size) :
    ∃ (id : Nat) (c : Console), s.consoles[id]? = some c ∧ c.region.display = k ∧
      c.region.start = 0 := by
  obtain ⟨regions, _, hlayout, hmoves⟩ := h.moves
  rw [(Moves.sizes hmoves).2] at hk
  obtain ⟨id, r, hr, hdisplay, hstart⟩ :
      ∃ (id : Nat) (r : Region), regions[id]? = some r ∧ r.display = k ∧ r.start = 0 := by
    by_cases hzero : k = 0
    · subst hzero
      obtain ⟨r, hr⟩ := Config.layout_first hlayout
      exact ⟨0, r, hr⟩
    · -- A display but the first is only kept for a console.
      have huses : UsesSecondDisplay regions ∧ k < 2 := by
        simp only [ofRegions, List.size_toArray, List.length_map, List.length_take] at hk
        split at hk
        · exact ⟨‹_›, by omega⟩
        · omega
      obtain ⟨r, hmem, hdisplay⟩ := huses.1
      obtain ⟨id, hr⟩ := List.getElem?_of_mem hmem
      have hsecond := Config.layout_second hlayout hmem (by omega)
      exact ⟨id, r, hr, by omega, hsecond.2⟩
  obtain ⟨c, hc, rfl⟩ := h.console hlayout hr
  exact ⟨id, c, hc, hdisplay, hstart⟩

/-- A console that is not on the first display starts where its display does. -/
theorem Reached.start_of_ne (h : Reached config s) (hc : s.consoles[id]? = some c)
    (hdisplay : c.region.display ≠ 0) : c.region.start = 0 := by
  obtain ⟨regions, _, hlayout, _⟩ := h.moves
  exact (Config.layout_second hlayout (List.mem_of_getElem? (h.region hlayout hc)) hdisplay).2

theorem Reached.first (h : Reached config s) :
    ∃ c, s.consoles[0]? = some c ∧ c.region.display = 0 ∧ c.region.start = 0 := by
  obtain ⟨regions, _, hlayout, _⟩ := h.moves
  obtain ⟨r, hr, hdisplay, hstart⟩ := Config.layout_first hlayout
  obtain ⟨c, hc, rfl⟩ := h.console hlayout hr
  exact ⟨c, hc, hdisplay, hstart⟩

/-- Two origin registers of released hardware hold 0, and any other what it held. -/
theorem Reached.origin_release (h : Reached config s) (hc : s.consoles[s.focused]? = some c)
    (k : Nat) :
    s.release.journal.register? k .origin =
      if k = 0 ∨ c.region.display = k then some 0 else s.journal.register? k .origin := by
  have hzero : ∀ capacity, Display.registerWord capacity 0 = 0 := by
    intro capacity
    rw [Display.registerWord, Nat.zero_mod]
    rfl
  obtain ⟨c₀, hc₀, hdisplay, hstart⟩ := h.first
  rw [h.sound.origin_release hc₀ hc, hdisplay, hstart, hzero]
  by_cases hfirst : k = 0
  · simp [hfirst]
  · rw [if_neg (Ne.symm hfirst)]
    by_cases hfocus : c.region.display = k
    · rw [if_pos hfocus, if_pos (Or.inr hfocus), h.start_of_ne hc (by omega), hzero]
    · rw [if_neg hfocus, if_neg (by omega)]

/-- **When released hardware has its origin registers at a start.** Those of the first
display and of the display in focus are at the start. Any other holds what it held, and so
it names the start of a region, if anything, exactly if it did not name another word. -/
theorem release_resets_origin_iff (h : Reached config s) (hc : s.consoles[s.focused]? = some c)
    {k : Nat} (hk : k < s.displays.size) :
    s.release.journal.register? k .origin =
        (if k = 0 ∨ c.region.display = k then some 0 else s.journal.register? k .origin) ∧
      ((∀ v, s.release.journal.register? k .origin = some v →
          ∃ (id : Nat) (c' : Console), s.release.consoles[id]? = some c' ∧
            c'.region.display = k ∧ v.toNat = c'.region.start) ↔
        (k = 0 ∨ c.region.display = k ∨
          ∀ v, s.journal.register? k .origin = some v → v = 0)) := by
  have hreleased : Reached config s.release := h.apply .release
  refine ⟨h.origin_release hc k, ?_⟩
  rw [h.origin_release hc k]
  constructor
  · intro hstarts
    by_cases hwritten : k = 0 ∨ c.region.display = k
    · exact hwritten.imp_right Or.inl
    · right; right
      intro v hv
      rw [if_neg hwritten] at hstarts
      obtain ⟨id, c', hc', hdisplay, hstart⟩ := hstarts v hv
      rw [hreleased.start_of_ne hc' (by omega)] at hstart
      exact UInt16.toNat_inj.mp hstart
  · intro hcases v hv
    obtain ⟨id, c', hc', hdisplay, hstart⟩ := hreleased.console_at_start
      (by rwa [(Moves.sizes moves_release).2])
    refine ⟨id, c', hc', hdisplay, ?_⟩
    have hv0 : v = 0 := by
      split at hv
      · exact (Option.some.inj hv).symm
      · rename_i hwritten
        rcases hcases with hfirst | hfocus | hheld
        · exact absurd (Or.inl hfirst) hwritten
        · exact absurd (Or.inr hfocus) hwritten
        · exact hheld v hv
    rw [hv0, hstart]
    rfl

/-- Two displays of eight words, each with one screen of two columns and two rows. -/
def twoDisplays : Config where
  screen := ⟨2, 2⟩
  behavior := { maxConsoles := 2 }
  displays := [{ capacity := 8 }, { capacity := 8 }]

/-- Released while the second display has the focus, its register is reset. -/
theorem release_resets_origin_twoDisplays :
    ∃ s c, Reached twoDisplays s ∧ s.consoles[s.focused]? = some c ∧ c.region.display = 1 ∧
      1 < s.displays.size ∧ s.journal.register? 1 .origin = some 2 ∧
      s.release.journal.register? 1 .origin = some 0 := by
  have hreached : Reached twoDisplays _ := ⟨_, [.focus 1, .scroll 1 .up], rfl, rfl⟩
  have hiff := release_resets_origin_iff hreached (k := 1) rfl (by decide +kernel)
  exact ⟨_, _, hreached, rfl, rfl, by decide +kernel, by decide +kernel,
    hiff.1.trans (if_pos (Or.inr rfl))⟩

/-- **A display that lost the focus keeps a stale origin.** Its console scrolled by a row
while it had the focus. Released later, its window is at the start of memory, and the
register still names the third word. -/
theorem release_keeps_stale_origin :
    ∃ s, Reached twoDisplays s ∧ s.release.journal.register? 1 .origin = some 2 ∧
      ¬ ∀ k < s.release.displays.size, ∀ v, s.release.journal.register? k .origin = some v →
        ∃ (id : Nat) (c : Console), s.release.consoles[id]? = some c ∧
          c.region.display = k ∧ v.toNat = c.region.start := by
  have hreached : Reached twoDisplays _ := ⟨_, [.focus 1, .scroll 1 .up, .focus 0], rfl, rfl⟩
  refine ⟨_, hreached, by decide +kernel, ?_⟩
  intro hall
  obtain ⟨id, c, hc, hdisplay, hv⟩ := hall 1 (by decide +kernel) 2 (by decide +kernel)
  have hstart := (hreached.apply .release).start_of_ne hc (by omega)
  rw [hstart] at hv
  exact absurd hv (by decide)

end Seat

end TextConsole
