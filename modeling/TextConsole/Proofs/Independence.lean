import TextConsole.Proofs.Mirror

/-!
# What a console shows does not depend on how memory is organised

Take a console of each of two new seats, on screens of the same size with displays of
the same kind, and do the same with both. Memory may differ in size, in sort and in how
it is divided among consoles, and one seat may scroll by copying where the other shifts
its windows. The two consoles start as mirrors (`Twins.of_fresh`), every action keeps
them so (`Twins.apply`), and so they show the same rows after all of them
(`rows_independent`).
-/

namespace TextConsole

theorem Display.setBlank_self {d : Display} {r : Rendition} (h : d.memory.blank = r) :
    d.setBlank r = d := by
  subst h
  rfl

/-- A journal counts how often the bell is rung. -/
theorem Journal.bells_recordAll (display capacity : Nat) (j : Journal) (effects : Array Effect) :
    (j.recordAll display capacity effects).bells = j.bells + rings effects := by
  have key : ∀ (es : List Effect) (j : Journal),
      (es.foldl (record display capacity) j).bells = j.bells + es.count .ring := by
    intro es
    induction es with
    | nil => exact fun _ => rfl
    | cons e es ih =>
        intro j
        rw [List.foldl_cons, ih, List.count_cons]
        cases e with
        | ring => simp [record]; omega
        | write | fill | copy | setBlank | setRegister => simp [record]
  rw [recordAll, ← Array.foldl_toList, key, rings, Array.count_toList]

namespace Seat

variable {s s' : Seat} {c c' : Console} {id id' : Nat} {f : Surface → Console → Output Console}

/-! ## New seats -/

/-- Whether nothing has been written yet. -/
structure Fresh (s : Seat) : Prop where
  console : ∀ {id : Nat} {c : Console}, s.consoles[id]? = some c → c = { region := c.region }
  cell : ∀ {id : Nat} {c : Console}, s.consoles[id]? = some c →
    ∀ a, (s.displayOf c).memory.cell a = default
  bells : s.journal.bells = 0

theorem bells_run (hc : s.consoles[id]? = some c) :
    (s.run id f).journal.bells = s.journal.bells + rings (f (s.surface id c) c).effects := by
  rw [run_of_some hc]
  exact Journal.bells_recordAll ..

/-- Blanks among blanks cannot be told apart. -/
theorem cell_fill_of_blank {m : VideoMemory} {dest len : Nat} (hw : m.HoldsWindow dest len)
    (h : ∀ a, m.cell a = m.blankCell) (a : Nat) : (m.fill dest len).cell a = m.blankCell := by
  have hfits := hw.fits
  have hle := hw.size_le
  rw [VideoMemory.fill, VideoMemory.cell_write_eq (by simpa using hfits) (by simpa using hle)]
  split
  · rename_i hlt
    rw [List.length_replicate] at hlt
    rw [List.getD_eq_getElem?_getD, List.getElem?_replicate, if_pos hlt, Option.getD_some]
  · exact h a

/-- Blanking a window of a new seat, and loading the registers, leaves it as new. -/
theorem Fresh.run (h : s.Fresh) (hs : s.Sound)
    (hvalue : ∀ surface c, (f surface c).value = c)
    (hplain : ∀ surface c, ∀ e ∈ (f surface c).effects, e.IsPlain)
    (hcell : ∀ {surface : Surface} {c : Console} {d : Display}, c.Drawn surface d →
      (∀ a, d.memory.cell a = d.memory.blankCell) →
        ∀ a, (d.performAll (f surface c).effects).memory.cell a = d.memory.blankCell) :
    (s.run id f).Fresh := by
  cases hc : s.consoles[id]? with
  | none =>
      rw [run_of_none hc]
      exact h
  | some c =>
      have hdrawn : c.Drawn (s.surface id c) ((s.displayOf c).setBlank c.blank) :=
        ⟨hs.holds hc, hs.placed hc, ⟨rfl, rfl, rfl⟩, rfl⟩
      have hblank : ((s.displayOf c).setBlank c.blank).memory.blankCell = default := by
        rw [hdrawn.blankCell, h.console hc]
        rfl
      -- The console itself does not change, so the consoles are those from before.
      have hsame : ∀ {j : Nat} {c' : Console}, (s.run id f).consoles[j]? = some c' →
          s.consoles[j]? = some c' := by
        intro j c' hc'
        by_cases hj : id = j
        · subst hj
          rw [consoles_run_self hc, hvalue] at hc'
          rw [hc, hc']
        · rwa [consoles_run_of_ne hj] at hc'
      refine ⟨fun hc' => h.console (hsame hc'), ?_, ?_⟩
      · intro j c' hc' a
        by_cases hdisplay : c.region.display = c'.region.display
        · rw [displayOf_run hc c' hdisplay.symm (hs.display_lt hc), ← hblank]
          apply hcell hdrawn
          intro b
          rw [hblank]
          exact h.cell hc b
        · rw [displayOf_run_of_ne hc hdisplay]
          exact h.cell (hsame hc') a
      · rw [bells_run hc, rings_eq_zero (hplain _ _), h.bells]

theorem Fresh.clearWindow (h : s.Fresh) (hs : s.Sound) : (s.run id Seat.clearWindow).Fresh := by
  refine h.run hs (fun _ _ => rfl) (fun _ _ => Console.plain_clearWindow) ?_
  intro surface c d hdrawn hcell a
  exact cell_fill_of_blank
    (hdrawn.placed.origin_within.holdsWindow hdrawn.holds hdrawn.describes) hcell a

theorem Fresh.loadRegisters (h : s.Fresh) (hs : s.Sound) :
    (s.run id fun _ c => Seat.loadRegisters c).Fresh :=
  h.run hs (fun _ _ => rfl) (fun _ _ => Console.plain_loadRegisters) fun _ hcell => hcell

theorem Fresh.focus (h : s.Fresh) (hs : s.Sound) (id : Nat) : (s.focus id).Fresh := by
  unfold Seat.focus
  split
  · rename_i hid
    have hfresh : ({ s with focused := id } : Seat).Fresh := ⟨h.console, h.cell, h.bells⟩
    exact hfresh.loadRegisters (sound_refocus hs hid)
  · exact h

theorem Fresh.clearAll (h : s.Fresh) (hs : s.Sound) : (s.runAll Seat.clearWindow).Fresh :=
  (runAll_induction (P := fun s => s.Fresh ∧ s.Sound)
    (fun id h => ⟨h.1.clearWindow h.2, h.2.run id stepwise_clearWindow⟩) ⟨h, hs⟩).1

theorem fresh_ofRegions {config : Config} {regions : List Region} :
    (ofRegions config regions).Fresh where
  console := by
    intro id c hc
    rw [consoles_ofRegions] at hc
    obtain ⟨r, _, rfl⟩ := Option.map_eq_some_iff.mp hc
    rfl
  cell := by
    intro id c _ a
    rw [displayOf_eq, displays_ofRegions]
    cases (config.keptDisplays regions)[c.region.display]? with
    | none => rfl
    | some d =>
        simp only [Option.map_some, Option.getD_some, Display.ofConfig, VideoMemory.cell,
          VideoMemory.ofCapacity, Array.getD_eq_getD_getElem?, Array.getElem?_replicate]
        split <;> rfl
  bells := rfl

/-- **A new seat is fresh and sound**, and behaves as configured. -/
theorem fresh_ofConfig {config : Config} {seat : Seat} (h : ofConfig config = .ok seat) :
    seat.Fresh ∧ seat.Sound ∧ seat.settings = config.toSettings := by
  obtain ⟨regions, hvalid, hlayout, rfl⟩ := ofConfig_eq h
  have hsound := sound_ofRegions hvalid hlayout
  have hcleared : ((ofRegions config regions).runAll Seat.clearWindow).Sound :=
    Moves.sound (moves_runAll stepwise_clearWindow) hsound
  refine ⟨(fresh_ofRegions.clearAll hsound).focus hcleared 0,
    Moves.sound moves_ofRegions hsound, ?_⟩
  rw [settings_focus, settings_runAll]
  rfl

/-! ## Twins -/

/-- Whether a console of one seat and a console of another show the same. -/
structure Twins (id id' : Nat) (s s' : Seat) (c c' : Console) : Prop where
  sound : s.Sound
  sound' : s'.Sound
  console : s.consoles[id]? = some c
  console' : s'.consoles[id']? = some c'
  alike : (s.surface id c).Alike (s'.surface id' c')
  mirror : Mirror (s.surface id c) (s'.surface id' c') c ((s.displayOf c).setBlank c.blank)
    c' ((s'.displayOf c').setBlank c'.blank)
  bells : s'.journal.bells = s.journal.bells

/-- A console of a sound seat is in its place on its display. -/
theorem Sound.drawn (h : s.Sound) (hc : s.consoles[id]? = some c) :
    c.Drawn (s.surface id c) ((s.displayOf c).setBlank c.blank) :=
  ⟨h.holds hc, h.placed hc, ⟨rfl, rfl, rfl⟩, rfl⟩

/-- The display after a run has the console's own rendition of blanks loaded. -/
theorem displayOf_run_setBlank (h : s.Sound) (hc : s.consoles[id]? = some c)
    (hf : Console.Stepwise f) :
    ((s.run id f).displayOf (f (s.surface id c) c).value).setBlank
        (f (s.surface id c) c).value.blank =
      ((s.displayOf c).setBlank c.blank).performAll (f (s.surface id c) c).effects := by
  have hdrawn := (hf (h.holds hc) (h.placed hc)).drawn (h.drawn hc)
  rw [displayOf_run hc _ (by rw [(h.outcome hc hf).1]) (h.display_lt hc)]
  exact Display.setBlank_self hdrawn.blank

/-- **Mirrored computations keep consoles twins.** -/
theorem Twins.run (h : Twins id id' s s' c c') (hf : Console.Stepwise f)
    (hmirrored : Mirrored (s.surface id c) (s'.surface id' c') ((s.displayOf c).setBlank c.blank)
      ((s'.displayOf c').setBlank c'.blank) (f (s.surface id c) c) (f (s'.surface id' c') c')) :
    ∃ k k', Twins id id' (s.run id f) (s'.run id' f) k k' := by
  have hregion := (h.sound.outcome h.console hf).1
  have hregion' := (h.sound'.outcome h.console' hf).1
  have hsurface : (s.run id f).surface id (f (s.surface id c) c).value = s.surface id c := by
    rw [surface_run, surface_congr hregion]
  have hsurface' : (s'.run id' f).surface id' (f (s'.surface id' c') c').value =
      s'.surface id' c' := by
    rw [surface_run, surface_congr hregion']
  refine ⟨_, _, h.sound.run id hf, h.sound'.run id' hf, consoles_run_self h.console,
    consoles_run_self h.console', ?_, ?_, ?_⟩
  · rw [hsurface, hsurface']
    exact h.alike
  · rw [hsurface, hsurface', displayOf_run_setBlank h.sound h.console hf,
      displayOf_run_setBlank h.sound' h.console' hf]
    exact hmirrored.mirror
  · rw [bells_run h.console, bells_run h.console', h.bells, hmirrored.rings]

/-- It makes no difference which consoles have the focus. -/
theorem Twins.refocus (h : Twins id id' s s' c c') {n n' : Nat} (hn : n < s.consoles.size)
    (hn' : n' < s'.consoles.size) :
    Twins id id' { s with focused := n } { s' with focused := n' } c c' := by
  have hsound := sound_refocus h.sound hn
  have hsound' := sound_refocus h.sound' hn'
  refine ⟨hsound, hsound', h.console, h.console', ?_, ?_, h.bells⟩
  · obtain ⟨hscreen, hkind, htab, hwrap, hbell, hreturns⟩ := h.alike
    exact ⟨hscreen, hkind, htab, hwrap, hbell, hreturns⟩
  · have hm := h.mirror
    exact ⟨hsound.drawn h.console, hsound'.drawn h.console', hm.row, hm.col, hm.pen, hm.blank,
      hm.queue, hm.escape, hm.report, hm.shown⟩

end Seat

/-! ## Actions -/

/-- What is done with one console. -/
inductive Action where
  | send (byte : UInt8)
  | sendRun (bytes : List UInt8)
  | flush
  | echo (byte : UInt8)
  | acknowledge
  | scroll (direction : Direction)
  | focus
deriving DecidableEq, Repr

/-- The operation that does it with console `id` of a seat. -/
def Action.on (id : Nat) : Action → Operation
  | send byte => .send id byte
  | sendRun bytes => .sendRun id bytes
  | flush => .flush id
  | echo byte => .echo id byte
  | acknowledge => .acknowledge id
  | scroll direction => .scroll id direction
  | focus => .focus id

namespace Seat

variable {s s' : Seat} {c c' : Console} {id id' : Nat}

theorem Twins.focus (h : Twins id id' s s' c c') :
    ∃ k k', Twins id id' (s.focus id) (s'.focus id') k k' := by
  obtain ⟨hid, _⟩ := Array.getElem?_eq_some_iff.mp h.console
  obtain ⟨hid', _⟩ := Array.getElem?_eq_some_iff.mp h.console'
  have hfocused := h.refocus hid hid'
  have hrun := hfocused.run stepwise_loadRegisters hfocused.mirror.point
  rw [Seat.focus, if_pos hid, Seat.focus, if_pos hid']
  exact hrun

/-- Every action keeps consoles twins. -/
theorem Twins.apply (h : Twins id id' s s' c c') (action : Action) :
    ∃ k k', Twins id id' (s.apply (action.on id)) (s'.apply (action.on id')) k k' := by
  cases action with
  | send byte =>
      have hrun := h.run (stepwise_accept byte) (h.mirror.accept h.alike byte)
      exact hrun
  | sendRun bytes =>
      have hrun := h.run (stepwise_acceptRun bytes) (h.mirror.acceptRun h.alike bytes)
      exact hrun
  | flush =>
      have hrun := h.run stepwise_flush (h.mirror.flush h.alike)
      exact hrun
  | echo byte =>
      have hrun := h.run (stepwise_echo byte) (h.mirror.echo h.alike byte)
      exact hrun
  | acknowledge =>
      have hrun := h.run stepwise_acknowledge h.mirror.acknowledge
      exact hrun
  | scroll direction =>
      have hrun := h.run (stepwise_scroll direction) (h.mirror.scroll h.alike direction)
      exact hrun
  | focus => exact h.focus

theorem Twins.applyAll (actions : List Action) :
    ∀ {s s' : Seat} {c c' : Console}, Twins id id' s s' c c' →
      ∃ k k', Twins id id' (s.applyAll (actions.map (Action.on id)))
        (s'.applyAll (actions.map (Action.on id'))) k k' := by
  induction actions with
  | nil => exact fun h => ⟨_, _, h⟩
  | cons action actions ih =>
      intro s s' c c' h
      obtain ⟨k, k', hk⟩ := h.apply action
      exact ih hk

/-- Twins show the same rows. -/
theorem Twins.rows?_eq (h : Twins id id' s s' c c') : s'.rows? id' = s.rows? id := by
  have hshown : ∀ k < (s.surface id c).size,
      (s'.displayOf c').shown c'.origin k = (s.displayOf c).shown c.origin k := h.mirror.shown
  rw [h.sound.rows?_eq h.console, h.sound'.rows?_eq h.console',
    Surface.rowsOf_congr h.alike.screen]
  exact congrArg some (Surface.rowsOf_eq_iff.mpr hshown)

/-- Consoles of new seats are twins. -/
theorem Twins.of_fresh (hfresh : s.Fresh) (hfresh' : s'.Fresh) (hs : s.Sound) (hs' : s'.Sound)
    (hc : s.consoles[id]? = some c) (hc' : s'.consoles[id']? = some c')
    (halike : (s.surface id c).Alike (s'.surface id' c')) : Twins id id' s s' c c' := by
  have hnew := hfresh.console hc
  have hnew' := hfresh'.console hc'
  refine ⟨hs, hs', hc, hc', halike, ?_, ?_⟩
  · refine ⟨hs.drawn hc, hs'.drawn hc', ?_, ?_, ?_, ?_, ?_, ?_, ?_, ?_⟩
    · rw [hnew, hnew']
    · rw [hnew, hnew']
    · rw [hnew, hnew']
    · rw [hnew, hnew']
    · rw [hnew, hnew']
    · rw [hnew, hnew']
    · rw [hnew, hnew']
    · intro k _
      exact (hfresh'.cell hc' _).trans (hfresh.cell hc _).symm
  · rw [hfresh.bells, hfresh'.bells]

/-! ## Independence -/

/-- **What a console shows does not depend on how memory is organised.** -/
theorem rows_independent {config config' : Config} (hseat : ofConfig config = .ok s)
    (hseat' : ofConfig config' = .ok s') (hscreen : config'.screen = config.screen)
    (htab : config'.behavior.tabWidth = config.behavior.tabWidth)
    (hwrap : config'.behavior.lineWrap = config.behavior.lineWrap)
    (hreturns :
      config'.behavior.newlineReturnsCarriage = config.behavior.newlineReturnsCarriage)
    (hbell : config'.behavior.bellEnabled = config.behavior.bellEnabled)
    (hc : s.consoles[id]? = some c) (hc' : s'.consoles[id']? = some c')
    (hkind : (s'.displayOf c').kind = (s.displayOf c).kind) (actions : List Action) :
    ∃ k k', (s.applyAll (actions.map (Action.on id))).consoles[id]? = some k ∧
      (s'.applyAll (actions.map (Action.on id'))).consoles[id']? = some k' ∧
      (s'.applyAll (actions.map (Action.on id'))).rows? id' =
        (s.applyAll (actions.map (Action.on id))).rows? id ∧
      k'.row = k.row ∧ k'.col = k.col ∧ k'.pen = k.pen ∧ k'.blank = k.blank ∧
      k'.queue = k.queue ∧ k'.escape = k.escape ∧ k'.report = k.report ∧
      (s'.applyAll (actions.map (Action.on id'))).journal.bells =
        (s.applyAll (actions.map (Action.on id))).journal.bells := by
  obtain ⟨hfresh, hsound, hsettings⟩ := fresh_ofConfig hseat
  obtain ⟨hfresh', hsound', hsettings'⟩ := fresh_ofConfig hseat'
  have halike : (s.surface id c).Alike (s'.surface id' c') := by
    refine ⟨?_, hkind, ?_, ?_, ?_, ?_⟩
    · show s'.settings.screen = s.settings.screen
      rw [hsettings, hsettings', hscreen]
    · show s'.settings.behavior.tabWidth = s.settings.behavior.tabWidth
      rw [hsettings, hsettings', htab]
    · show s'.settings.behavior.lineWrap = s.settings.behavior.lineWrap
      rw [hsettings, hsettings', hwrap]
    · show s'.settings.behavior.bellEnabled = s.settings.behavior.bellEnabled
      rw [hsettings, hsettings', hbell]
    · show s'.settings.behavior.newlineReturnsCarriage =
        s.settings.behavior.newlineReturnsCarriage
      rw [hsettings, hsettings', hreturns]
  have htwins := Twins.of_fresh hfresh hfresh' hsound hsound' hc hc' halike
  obtain ⟨k, k', hk⟩ := Twins.applyAll actions htwins
  have hm := hk.mirror
  exact ⟨k, k', hk.console, hk.console', hk.rows?_eq, hm.row, hm.col, hm.pen, hm.blank,
    hm.queue, hm.escape, hm.report, hk.bells⟩

/-- Two screens of two columns and two rows that scroll by copying, on eight words. -/
def copyingPages : Config where
  screen := ⟨2, 2⟩
  behavior := { maxConsoles := 2, softwareScroll := true }
  displays := [{ capacity := 8 }]

/-- One such screen that fills memory of four words and scrolls around its end. -/
def wrappingScreen : Config where
  screen := ⟨2, 2⟩
  behavior := { maxConsoles := 1 }
  displays := [{ capacity := 4, wraps := true }]

/-- The second page of the one seat and the only screen of the other. -/
theorem rows_independent_copyingPages :
    ∃ s s', ofConfig copyingPages = .ok s ∧ ofConfig wrappingScreen = .ok s' ∧
      (s'.applyAll ([.sendRun [0x41, 0x42, 0x43], .scroll .up, .echo 0x44].map (Action.on 0))).rows?
          0 =
        (s.applyAll ([.sendRun [0x41, 0x42, 0x43], .scroll .up, .echo 0x44].map (Action.on 1))).rows?
          1 := by
  refine ⟨_, _, rfl, rfl, ?_⟩
  have hrows := @rows_independent _ _ _ _ 1 0 copyingPages wrappingScreen rfl rfl rfl rfl rfl rfl
    rfl rfl rfl (by decide +kernel) [.sendRun [0x41, 0x42, 0x43], .scroll .up, .echo 0x44]
  obtain ⟨_, _, _, _, hrows, _⟩ := hrows
  exact hrows

end Seat

end TextConsole
