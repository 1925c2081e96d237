import TextConsole.Proofs.Homing
import TextConsole.Proofs.Independence
import TextConsole.Proofs.Registers
import Mathlib.Data.List.Infix

/-!
# Windows at rest

While screens scroll by being copied, every window rests at the start of its region. The
mode is only ever turned on with all windows at home: by a configuration, whose consoles
start there, or by an operation that sends them home first (`Sound.atHome_of_homes`). From
then on no step moves a window, and an origin register that is written names the start of a
region (`Step.rests`).

`Seat.Resting` is what is known of a seat some time later, as long as the mode stays on.
Every operation keeps it (`Resting.apply`), so between two moments with the mode on no origin
moves, and the registers are told nothing but where regions start (`software_scrolling_rests`).
-/

namespace TextConsole

/-- Whether an effect on an origin register, if it is one, points it at `start`. -/
def Effect.PointsOriginAt (start : Nat) : Effect → Prop
  | .setRegister .origin addr => addr = start
  | _ => True

/-! ## The steps of a console that copies -/

namespace Console

variable {s : Surface} {c : Console} {y : Output Console}

/-- Whether a window is at the start of its region. -/
def AtHome (c : Console) : Prop := c.origin = c.region.start

/-- Scrolled by copying, a window stays where it is. -/
theorem nextOrigin_of_copying (hcopying : s.settings.behavior.softwareScroll = true)
    (d : Direction) : c.nextOrigin s d = c.origin := by
  rw [nextOrigin, scrollMethod, if_pos hcopying]
  cases d <;> rfl

/-- A flush does not touch the origin register. -/
theorem pointsOriginAt_settle (start : Nat) (row col : Int) :
    ∀ e ∈ (c.settle s row col).effects, e.PointsOriginAt start := by
  simp only [effects_settle, Array.mem_append, Output.mem_ite]
  rintro e (⟨_, rfl⟩ | ⟨_, rfl⟩)
  · trivial
  · trivial

theorem pointsOriginAt_scroll {start : Nat} (hcopying : s.settings.behavior.softwareScroll = true)
    (hstart : c.origin = start) (d : Direction) :
    ∀ e ∈ (c.scroll s d).effects, e.PointsOriginAt start := by
  simp only [effects_scroll, scrollEffects, Array.mem_append, Output.mem_ite, List.mem_toArray,
    List.mem_singleton]
  rintro e ((he | (⟨_, rfl⟩ | rfl) | ⟨_, rfl⟩) | he)
  · exact pointsOriginAt_settle start _ _ e he
  · cases d <;> trivial
  · trivial
  · exact (nextOrigin_of_copying hcopying d).trans hstart
  · exact pointsOriginAt_settle (c := { c.flushed s with origin := c.nextOrigin s d }) _ _ _ e he

/-- **No step of a console that copies moves its window**, and the origin register is
pointed at it if at anything. -/
theorem Step.rests (h : Step s c y) (hs : s.Holds c.region) (hc : c.WellPlaced s)
    (hcopying : s.settings.behavior.softwareScroll = true) (hhome : c.AtHome) :
    y.value.AtHome ∧ ∀ e ∈ y.effects, e.PointsOriginAt c.region.start := by
  cases h with
  | place | collect | acknowledge => exact ⟨hhome, by simp⟩
  | settle row col => exact ⟨hhome, pointsOriginAt_settle _ row col⟩
  | scroll d =>
      exact ⟨(nextOrigin_of_copying hcopying d).trans hhome,
        pointsOriginAt_scroll hcopying hhome d⟩
  | edit hqueue hedit =>
      rw [perform_edit hedit (hc.cursorAddr_of_queue_eq_nil hqueue)]
      refine ⟨hhome, ?_⟩
      simp only [List.mem_toArray, List.mem_map]
      rintro e ⟨p, _, rfl⟩
      cases p <;> trivial
  | recolor change hqueue =>
      rw [value_changeRendition, effects_changeRendition]
      refine ⟨hhome, ?_⟩
      cases change.blank? c.blank with
      | none => simp
      | some blank =>
          simp only [Option.elim_some, List.mem_toArray, List.mem_singleton]
          rintro e rfl
          trivial
  | ring =>
      refine ⟨hhome, ?_⟩
      simp only [List.mem_toArray, List.mem_singleton]
      rintro e rfl
      trivial
  | home =>
      rw [value_goHome hs hc.origin_within, effects_goHome hs hc.origin_within]
      refine ⟨rfl, ?_⟩
      simp only [Array.mem_append, Output.mem_ite]
      rintro e (⟨_, rfl⟩ | he)
      · trivial
      · exact pointsOriginAt_settle (c := { c with origin := c.region.start }) _ _ _ e he
  | point =>
      refine ⟨hhome, ?_⟩
      simp only [effects_loadRegisters, List.mem_toArray, List.mem_cons, List.not_mem_nil,
        or_false]
      rintro e (rfl | rfl)
      · exact hhome
      · trivial
  | clear =>
      refine ⟨hhome, ?_⟩
      simp only [effects_clearWindow, List.mem_toArray, List.mem_singleton]
      rintro e rfl
      trivial

theorem Steps.rests (h : Steps s c y) (hs : s.Holds c.region) (hc : c.WellPlaced s)
    (hcopying : s.settings.behavior.softwareScroll = true) (hhome : c.AtHome) :
    y.value.AtHome ∧ ∀ e ∈ y.effects, e.PointsOriginAt c.region.start := by
  have hsteps : ∀ {c' : Console} {y' : Output Console}, Step s c' y' →
      ((c'.region = c.region ∧ c'.WellPlaced s) ∧ c'.AtHome) →
        ((y'.value.region = c.region ∧ y'.value.WellPlaced s) ∧ y'.value.AtHome) ∧
          ∀ e ∈ y'.effects, e.PointsOriginAt c.region.start := by
    rintro c' y' hstep ⟨⟨hregion, hc'⟩, hhome'⟩
    rw [← hregion] at hs ⊢
    obtain ⟨hrest, hpoints⟩ := hstep.rests hs hc' hcopying hhome'
    exact ⟨⟨⟨hstep.region hs hc', hstep.wellPlaced hs hc'⟩, hrest⟩, hpoints⟩
  obtain ⟨hvalue, heffects⟩ := h.forall_effects
    (P := fun c' => (c'.region = c.region ∧ c'.WellPlaced s) ∧ c'.AtHome) hsteps ⟨⟨rfl, hc⟩, hhome⟩
  exact ⟨hvalue.2, heffects⟩

end Console

/-! ## What a journal gets -/

/-- A journal gets one write for each effect on a register. -/
theorem Journal.writes_recordAll_append (j : Journal) (k capacity : Nat) (es : Array Effect) :
    ∃ new, (j.recordAll k capacity es).writes = j.writes ++ new ∧
      ∀ w ∈ new, w.display = k ∧ ∃ addr, .setRegister w.register addr ∈ es ∧
        w.value = Display.registerWord capacity addr := by
  unfold recordAll
  refine Array.foldl_induction (fun _ (j' : Journal) => ∃ new, j'.writes = j.writes ++ new ∧
    ∀ w ∈ new, w.display = k ∧ ∃ addr, .setRegister w.register addr ∈ es ∧
      w.value = Display.registerWord capacity addr) ⟨#[], (Array.append_empty).symm, by simp⟩ ?_
  rintro i j' ⟨new, hwrites, hnew⟩
  have hmem : es[i] ∈ es := Array.getElem_mem i.2
  revert hmem
  cases es[i] with
  | setRegister r addr =>
      intro hmem
      refine ⟨new.push ⟨k, r, Display.registerWord capacity addr⟩, ?_, ?_⟩
      · rw [Array.append_push, ← hwrites]
        rfl
      · intro w hw
        rcases Array.mem_push.mp hw with hw | rfl
        · exact hnew w hw
        · exact ⟨rfl, addr, hmem, rfl⟩
  | write | fill | copy | setBlank | ring => exact fun _ => ⟨new, hwrites, hnew⟩

namespace Seat

variable {s s' : Seat} {c : Console} {id : Nat} {f : Surface → Console → Output Console}
  {config : Config}

/-! ## Seats at rest -/

/-- Whether screens scroll by being copied. -/
def Copying (s : Seat) : Prop := s.settings.behavior.softwareScroll = true

instance (s : Seat) : Decidable s.Copying := inferInstanceAs (Decidable (_ = true))

/-- Whether every window is at the start of its region. -/
def AtHome (s : Seat) : Prop :=
  ∀ (id : Nat) (c : Console), s.consoles[id]? = some c → c.AtHome

/-- Whether a register write, if it is one to an origin, carries the start of the region of a
console on its display. -/
def NamesHome (s : Seat) (w : RegisterWrite) : Prop :=
  w.register = .origin → ∃ c ∈ s.consoles, c.region.display = w.display ∧
    w.value.toNat = c.region.start

/-- What is known of a seat that has gone on copying since it was `s`: it got there by moves,
its windows are at home, and all that the registers were told of origins is where regions
start. -/
structure Resting (s s' : Seat) : Prop where
  moves : Moves s s'
  copying : s'.Copying
  atHome : s'.AtHome
  told : ∃ new, s'.journal.writes = s.journal.writes ++ new ∧ ∀ w ∈ new, s.NamesHome w

theorem Resting.refl (hcopying : s.Copying) (hhome : s.AtHome) : Resting s s where
  moves := .refl
  copying := hcopying
  atHome := hhome
  told := ⟨#[], by simp, by simp⟩

/-- The start of a region is told in full. -/
theorem toNat_registerWord_start (hs : s.Sound) (hc : s.consoles[id]? = some c) :
    (Display.registerWord (s.surface id c).capacity c.region.start).toNat = c.region.start := by
  have hholds := hs.holds hc
  have hscreen := hholds.screen_le
  have hlimit := hholds.limit_le
  have hpos := hholds.size_pos
  rw [toNat_registerWord (by omega) hholds.capacity_le, Nat.mod_eq_of_lt (by omega)]

/-- **A run leaves a seat at rest.** -/
theorem Resting.run (h : Resting s s') (hs : s.Sound) (hf : Console.Stepwise f) (id : Nat) :
    Resting s (s'.run id f) := by
  have hs' := h.moves.sound hs
  have hmoves := h.moves.tail (.run id hf)
  cases hc : s'.consoles[id]? with
  | none => rwa [run_of_none hc]
  | some c =>
      obtain ⟨hrest, hpoints⟩ := (hf (hs'.holds hc) (hs'.placed hc)).rests (hs'.holds hc)
        (hs'.placed hc) h.copying (h.atHome id c hc)
      refine ⟨hmoves, ?_, ?_, ?_⟩
      · rw [Copying, settings_run]
        exact h.copying
      · intro j c' hc'
        by_cases hj : id = j
        · subst hj
          rw [consoles_run_self hc] at hc'
          obtain rfl := Option.some.inj hc'
          exact hrest
        · rw [consoles_run_of_ne hj] at hc'
          exact h.atHome j c' hc'
      · obtain ⟨new, hwrites, hnew⟩ := h.told
        obtain ⟨more, hmore, hall⟩ := s'.journal.writes_recordAll_append c.region.display
          (s'.surface id c).capacity (f (s'.surface id c) c).effects
        refine ⟨new ++ more, ?_, ?_⟩
        · rw [journal_run hc, hmore, hwrites, Array.append_assoc]
        · intro w hw horigin
          rcases Array.mem_append.mp hw with hw | hw
          · exact hnew w hw horigin
          · obtain ⟨hdisplay, addr, hmem, hvalue⟩ := hall w hw
            rw [horigin] at hmem
            obtain rfl : addr = c.region.start := hpoints _ hmem
            -- The console had the same region when the mode was found on.
            obtain ⟨c₀, hc₀, hregion⟩ := h.moves.region hs hc
            refine ⟨c₀, Array.mem_of_getElem? hc₀, ?_, ?_⟩
            · rw [← hregion, hdisplay]
            · rw [hvalue, toNat_registerWord_start hs' hc, hregion]

theorem Resting.runAll (h : Resting s s') (hs : s.Sound) (hf : Console.Stepwise f) :
    Resting s (s'.runAll f) :=
  runAll_induction (P := Resting s) (fun id h => h.run hs hf id) h

theorem Resting.focus (h : Resting s s') (hs : s.Sound) (id : Nat) : Resting s (s'.focus id) := by
  unfold Seat.focus
  split
  · rename_i hid
    have hrefocused : Resting s { s' with focused := id } :=
      ⟨h.moves.tail (.refocus hid), h.copying, h.atHome, h.told⟩
    exact hrefocused.run hs stepwise_loadRegisters id
  · exact h

theorem Resting.homeAll (h : Resting s s') (hs : s.Sound) : Resting s s'.homeAll :=
  (h.runAll hs stepwise_goHome).focus hs _

theorem Resting.resetFirst (h : Resting s s') : Resting s s'.resetFirst where
  moves := h.moves.tail .reset
  copying := h.copying
  atHome := by
    intro id c' hc'
    obtain ⟨c, pen, blank, hc, rfl⟩ := console_resetFirst hc'
    exact h.atHome id c hc
  told := h.told

theorem Resting.release (h : Resting s s') (hs : s.Sound) : Resting s s'.release := by
  have hhome := h.homeAll hs
  have hset : Resting s (s'.homeAll.setSoftwareScroll true) :=
    ⟨hhome.moves.trans (moves_setSoftwareScroll true), rfl, hhome.atHome, hhome.told⟩
  exact (hset.focus hs 0).resetFirst

/-- **Every operation leaves a seat at rest**, unless it turns the mode off. -/
theorem Resting.apply (h : Resting s s') (hs : s.Sound) {op : Operation}
    (hon : (s'.apply op).Copying) : Resting s (s'.apply op) := by
  cases hop : op.console? with
  | some id =>
      obtain ⟨fs, hfs, happly⟩ := apply_eq_runInputs hop
      rw [happly]
      exact ((h.moves.sound hs).runInputs (P := Resting s)
        (fun _ hf h => h.run hs (stepwise_input hf) id) hfs h).2
  | none =>
      cases op with
      | focus id => exact h.focus hs id
      | homeAll => exact h.homeAll hs
      | switchScrolling =>
          -- The mode is on, so that it would be off after this.
          have hcopying : s'.settings.behavior.softwareScroll = true := h.copying
          have hoff : (!s'.settings.behavior.softwareScroll) = true := hon
          rw [hcopying] at hoff
          cases hoff
      | switchBell => exact ⟨h.moves.tail (.switch _ _), h.copying, h.atHome, h.told⟩
      | release => exact h.release hs
      | installFont font =>
          obtain ⟨fonts, happly⟩ := apply_installFont (s := s') font
          rw [happly]
          exact ⟨h.moves.tail (.enter _), h.copying, h.atHome, h.told⟩
      | send | sendRun | flush | echo | message | acknowledge | scroll => cases hop

/-- A seat rests as long as the mode stays on. -/
theorem Resting.applyAll (hs : s.Sound) (ops : List Operation) :
    ∀ {s' : Seat}, Resting s s' → (∀ before, before <+: ops → (s'.applyAll before).Copying) →
      Resting s (s'.applyAll ops) := by
  induction ops with
  | nil => exact fun h _ => h
  | cons op ops ih =>
      intro s' h hon
      have hfirst : (s'.apply op).Copying := hon [op] (by simp)
      exact ih (h.apply hs hfirst) fun before hbefore =>
        hon (op :: before) ((List.prefix_cons_inj op).mpr hbefore)

/-! ## Turning the mode on -/

/-- An operation that sends windows home leaves them there. -/
theorem Sound.atHome_of_homes (hs : s.Sound) {op : Operation} (hop : Homes op) :
    (s.apply op).AtHome := by
  intro id c' hc'
  obtain ⟨c, hc, hregion⟩ := (moves_apply op).region hs hc'
  obtain ⟨c'', hc'', _, _, horigin, _⟩ := hs.homes hop hc
  rw [hc'] at hc''
  obtain rfl := Option.some.inj hc''
  rw [Console.AtHome, horigin, hregion]

/-- No other operation changes the mode. -/
theorem copying_apply {op : Operation} (hs : s.Sound) (hop : ¬ Homes op) :
    (s.apply op).Copying ↔ s.Copying := by
  cases hconsole : op.console? with
  | some id =>
      obtain ⟨fs, hfs, happly⟩ := apply_eq_runInputs hconsole
      have hsettings : (s.runInputs id fs).settings = s.settings :=
        (hs.runInputs (P := fun s' => s'.settings = s.settings)
          (fun _ _ h => by rw [settings_run, h]) hfs rfl).2
      rw [happly, Copying, hsettings, Copying]
  | none =>
      cases op with
      | focus id => rw [Seat.apply, Copying, settings_focus, Copying]
      | homeAll => exact absurd (Or.inl rfl) hop
      | switchScrolling => exact absurd (Or.inr (Or.inl rfl)) hop
      | release => exact absurd (Or.inr (Or.inr rfl)) hop
      | switchBell => exact Iff.rfl
      | installFont font =>
          obtain ⟨fonts, happly⟩ := apply_installFont (s := s) font
          rw [happly]
          exact Iff.rfl
      | send | sendRun | flush | echo | message | acknowledge | scroll => cases hconsole

/-- An operation after which the mode is on leaves every window at home, if they were there
with the mode on before. -/
theorem Sound.atHome_apply (hs : s.Sound) {op : Operation} (hhome : s.Copying → s.AtHome)
    (hon : (s.apply op).Copying) : (s.apply op).AtHome := by
  by_cases hop : Homes op
  · exact hs.atHome_of_homes hop
  · -- No other operation turns the mode on.
    have hbefore := (copying_apply hs hop).mp hon
    exact ((Resting.refl hbefore (hhome hbefore)).apply hs hon).atHome

theorem Sound.atHome_applyAll (ops : List Operation) :
    ∀ {s : Seat}, s.Sound → (s.Copying → s.AtHome) →
      (s.applyAll ops).Copying → (s.applyAll ops).AtHome := by
  induction ops with
  | nil => exact fun _ h => h
  | cons op ops ih =>
      intro s hs hhome
      exact ih (Moves.sound (moves_apply op) hs) (hs.atHome_apply hhome)

/-- **Where screens scroll by being copied, every window is at home.** -/
theorem Reached.atHome (h : Reached config s) (hon : s.Copying) : s.AtHome := by
  obtain ⟨seat, ops, hseat, rfl⟩ := h
  obtain ⟨hfresh, hsound, _⟩ := fresh_ofConfig hseat
  refine Sound.atHome_applyAll ops hsound ?_ hon
  intro _ id c hc
  rw [hfresh.console hc]
  rfl

/-- **Software scrolling keeps every console at home.** Where screens scroll by being copied,
each window is at the start of its region. As long as that stays so, no operation moves a
window, and a write to an origin register carries the start of the region of a console on
that display. -/
theorem software_scrolling_rests (h : Reached config s) (hon : s.Copying) :
    (∀ (id : Nat) (c : Console), s.consoles[id]? = some c → c.origin = c.region.start) ∧
      ∀ ops : List Operation, (∀ before, before <+: ops → (s.applyAll before).Copying) →
        (∀ id : Nat, (s.applyAll ops).consoles[id]?.map (·.origin) =
          s.consoles[id]?.map (·.origin)) ∧
        ∃ new, (s.applyAll ops).journal.writes = s.journal.writes ++ new ∧
          ∀ w ∈ new, w.register = .origin → ∃ c ∈ s.consoles,
            c.region.display = w.display ∧ w.value.toNat = c.region.start := by
  have hsound := h.sound
  have hhome := h.atHome hon
  refine ⟨hhome, ?_⟩
  intro ops hstays
  have hrests := (Resting.refl hon hhome).applyAll hsound ops hstays
  refine ⟨?_, hrests.told⟩
  intro id
  cases hc' : (s.applyAll ops).consoles[id]? with
  | none =>
      have hsize := (Moves.sizes hrests.moves).1
      have hc : s.consoles[id]? = none := by
        rw [Array.getElem?_eq_none_iff] at hc' ⊢
        omega
      rw [hc]
  | some c' =>
      obtain ⟨c, hc, hregion⟩ := hrests.moves.region hsound hc'
      have horigin : c'.origin = c'.region.start := hrests.atHome id c' hc'
      have horigin₀ : c.origin = c.region.start := hhome id c hc
      rw [hc, Option.map_some, Option.map_some, horigin, horigin₀, hregion]

/-- Both pages have scrolled before the mode is turned on, and scroll a good deal after it.
The register gets the starts of both. -/
theorem software_scrolling_rests_twoPages :
    ∃ s, Reached twoPages s ∧ s.Copying ∧
      ∃ t, t = s.applyAll [.sendRun 0 [0x0A, 0x0A, 0x41], .focus 1, .scroll 1 .down] ∧
        t.consoles[1]?.map (·.origin) = s.consoles[1]?.map (·.origin) ∧
        t.journal.register? 0 .origin = some 8 := by
  have hreached : Reached twoPages _ :=
    ⟨_, [.scroll 0 .up, .scroll 1 .down, .switchScrolling], rfl, rfl⟩
  obtain ⟨_, hrests⟩ := software_scrolling_rests hreached (by decide +kernel)
  have hstays := hrests [.sendRun 0 [0x0A, 0x0A, 0x41], .focus 1, .scroll 1 .down] ?_
  · exact ⟨_, hreached, by decide +kernel, _, rfl, hstays.1 1, by decide +kernel⟩
  · intro before hbefore
    revert before
    simp only [← List.mem_inits]
    decide +kernel

end Seat

end TextConsole
