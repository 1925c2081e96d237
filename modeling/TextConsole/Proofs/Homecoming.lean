import TextConsole.Proofs.Machine.Seat
import TextConsole.Proofs.Resting

/-!
# Windows come home

On linear memory a window goes home in rounds. Each takes it as far down as the display has
words outside of the window, which is nowhere if the screen is as large as the display. `Rounds`
are the rounds of a loop that ends, and there are none for a loop that goes on for ever: the
computation on machine words has a result exactly if there are (`descend_eq_some_iff`).

A window lies in its region, so it is no further from home than there are words outside of it.
One round takes it all the way, within the region, and none is needed at home (`rounds_iff`).
Homing all the windows of a seat a second time finds each of them at home, with nothing in its
queue, and changes nothing (`windows_come_home`).
-/

namespace TextConsole

open Checked

variable {s : Surface} {start origin last n : Nat} {effects : Array Effect}

/-! ## Rounds -/

/-- The rounds that take a window from `origin` towards `start` until it is there: how many they
are, where they end, and what they ask for. -/
inductive Rounds (s : Surface) (start : Nat) : Nat → Nat → Nat → Array Effect → Prop
  | done {origin : Nat} (h : origin ≤ start) : Rounds s start origin 0 origin #[]
  | round {origin n last : Nat} {once : Output Nat} {rest : Array Effect} (h : start < origin)
      (honce : RawConsole.descendOnce s start origin = some once)
      (hrest : Rounds s start once.value n last rest) :
      Rounds s start origin (n + 1) last (once.effects ++ rest)

namespace RawConsole

/-- No round takes a window up. -/
theorem descendOnce_le {once : Output Nat} (h : descendOnce s start origin = some once) :
    once.value ≤ origin := by
  unfold descendOnce at h
  simp only [bind_eq_some_iff] at h
  obtain ⟨_, _, _, ⟨_, _, _, ⟨_, _, _, ⟨next, _, hnext, ⟨_, _, _, hlast, rfl⟩, rfl⟩, rfl⟩, rfl⟩,
    rfl⟩ := h
  obtain rfl := Option.some.inj hlast
  unfold sub at hnext
  split at hnext
  · obtain rfl := Option.some.inj hnext
    exact Nat.sub_le _ _
  · cases hnext

/-- **The loop has a result exactly if its rounds come to an end.** -/
theorem descend_eq_some_iff :
    descend s start origin = some ⟨last, effects⟩ ↔ ∃ n, Rounds s start origin n last effects := by
  constructor
  · intro h
    induction origin using Nat.strong_induction_on generalizing effects with
    | _ origin ih =>
        rw [descend] at h
        split at h
        · rename_i hlt
          obtain ⟨once, rest, honce, hrest, heq⟩ := bind_eq_some_iff.mp h
          obtain ⟨rfl, rfl⟩ := Output.mk.inj heq
          split at hrest
          · rename_i hnext
            obtain ⟨n, hn⟩ := ih _ hnext hrest
            exact ⟨n + 1, .round hlt honce hn⟩
          · cases hrest
        · obtain ⟨rfl, rfl⟩ := Output.mk.inj (Option.some.inj h)
          exact ⟨0, .done (by omega)⟩
  · rintro ⟨n, h⟩
    induction h with
    | done h =>
        rw [descend, if_neg (Nat.not_lt.mpr h)]
        rfl
    | @round origin n last once rest hlt honce _ ih =>
        rw [descend, if_pos hlt]
        refine bind_eq_some_iff.mpr ⟨once, ⟨last, rest⟩, honce, ?_, rfl⟩
        by_cases hnext : once.value < origin
        · rw [if_pos hnext]
          exact ih
        · -- A round that stays where it is would come to an end only if it did so before.
          have hstay : once.value = origin := by
            have := descendOnce_le honce
            omega
          rw [hstay, descend, if_pos hlt] at ih
          obtain ⟨once', _, honce', hstop, _⟩ := bind_eq_some_iff.mp ih
          obtain rfl := Option.some.inj (honce.symm.trans honce')
          rw [if_neg hnext] at hstop
          cases hstop

/-- **One round is enough**, and none is needed at home. -/
theorem rounds_iff {r : Region} (hs : s.Holds r) (h : start ≤ origin)
    (hroom : origin + s.size ≤ s.capacity) :
    Rounds s start origin n last effects ↔
      n = (if start < origin then 1 else 0) ∧ last = start ∧
        effects = if start < origin then #[.copy origin start s.size] else #[] := by
  by_cases hlt : start < origin
  · have honce := descendOnce_linear (c := { region := r }) hs h hroom
    rw [if_pos hlt, if_pos hlt]
    constructor
    · intro hrounds
      cases hrounds with
      | done hdone => omega
      | @round _ _ _ once _ _ honce' hrest =>
          obtain rfl := Option.some.inj (honce.symm.trans honce')
          cases hrest with
          | done => exact ⟨rfl, rfl, by simp⟩
          | round hback => exact absurd hback (Nat.lt_irrefl start)
    · rintro ⟨rfl, rfl, rfl⟩
      have hrounds := Rounds.round hlt honce (.done (Nat.le_refl last))
      exact hrounds
  · obtain rfl : origin = start := by omega
    rw [if_neg hlt, if_neg hlt]
    constructor
    · intro hrounds
      cases hrounds with
      | done => exact ⟨rfl, rfl, rfl⟩
      | round hlt' => exact absurd hlt' hlt
    · rintro ⟨rfl, rfl, rfl⟩
      exact .done (Nat.le_refl _)

end RawConsole

namespace Console

variable {c : Console}

/-- At home with nothing in its queue, a console has nothing to do. -/
theorem goHome_of_atHome (hs : s.Holds c.region) (hc : c.WellPlaced s) (hhome : c.AtHome)
    (hqueue : c.queue = []) : c.goHome s = pure c := by
  have horigin : c.origin = c.region.start := hhome
  have hsame : ({ c with origin := c.region.start } : Console) = c := by rw [← horigin]
  have hstay : c.homeward s = pure c.region.start := by
    rw [homeward_eq hs hc.origin_within, if_neg (not_not.mpr horigin)]
    rfl
  rw [goHome_eq, hstay, pure_bind, hsame, flush_of_queue_eq_nil hc hqueue]

end Console

/-! ## The second time -/

namespace Seat

variable {config : Config} {s s' s'' : Seat} {c : Console} {id : Nat}

/-- Whether a seat has the consoles and the cells of another one. -/
structure Kept (s s' : Seat) : Prop where
  consoles : s'.consoles = s.consoles
  cells : ∀ k : Nat, (s'.displays[k]?).map (·.memory.cells) = (s.displays[k]?).map (·.memory.cells)

theorem Kept.trans (h : Kept s s') (h' : Kept s' s'') : Kept s s'' :=
  ⟨h'.consoles.trans h.consoles, fun k => (h'.cells k).trans (h.cells k)⟩

/-- A computation that gives the console back and asks for nothing but registers keeps all. -/
theorem kept_run {f : Surface → Console → Output Console} (hc : s.consoles[id]? = some c)
    (hvalue : (f (s.surface id c) c).value = c)
    (heffects : ∀ d : Display, d.performAll (f (s.surface id c) c).effects = d) :
    Kept s (s.run id f) where
  consoles := by
    obtain ⟨hid, heq⟩ := Array.getElem?_eq_some_iff.mp hc
    rw [run_of_some hc]
    show s.consoles.setIfInBounds id (f (s.surface id c) c).value = s.consoles
    rw [hvalue, ← heq, Array.setIfInBounds, dif_pos hid]
    exact Array.set_getElem_self hid
  cells := by
    intro k
    rw [displays_run hc]
    split
    · rw [Option.map_map]
      refine congrArg (fun g => s.displays[k]?.map g) (funext fun d => ?_)
      show ((d.setBlank c.blank).performAll _).memory.cells = d.memory.cells
      rw [heffects]
      rfl
    · rfl

theorem kept_focus (id : Nat) : Kept s (s.focus id) := by
  unfold focus
  split
  · rename_i hid
    have hc : ({ s with focused := id } : Seat).consoles[id]? = some s.consoles[id] :=
      Array.getElem?_eq_getElem hid
    have hrun := kept_run (f := fun _ c => loadRegisters c) hc rfl (fun _ => rfl)
    exact ⟨hrun.consoles, hrun.cells⟩
  · exact ⟨rfl, fun _ => rfl⟩

/-- **Windows at home stay as they are** when they are all sent home. -/
theorem Sound.kept_homeAll (h : s.Sound)
    (hhome : ∀ (id : Nat) (c : Console), s.consoles[id]? = some c → c.AtHome ∧ c.queue = []) :
    Kept s s.homeAll := by
  have hturns : Kept s (s.runAll fun surface c => c.goHome surface) := by
    refine (runAll_induction (P := fun s' => s'.Sound ∧ Kept s s') ?_
      ⟨h, rfl, fun _ => rfl⟩).2
    rintro s' id ⟨hs', hkept⟩
    refine ⟨hs'.run id stepwise_goHome, hkept.trans ?_⟩
    cases hc : s'.consoles[id]? with
    | none =>
        rw [run_of_none hc]
        exact ⟨rfl, fun _ => rfl⟩
    | some c =>
        obtain ⟨hat, hqueue⟩ := hhome id c (by rw [← hkept.consoles]; exact hc)
        have hrest := Console.goHome_of_atHome (hs'.holds hc) (hs'.placed hc) hat hqueue
        exact kept_run hc (by rw [hrest]; rfl) (fun d => by rw [hrest]; rfl)
  exact hturns.trans (kept_focus _)

/-- A console after it was sent home with all the others. -/
theorem Sound.consoles_homeAll (h : s.Sound) (hc : s.consoles[id]? = some c) :
    s.homeAll.consoles[id]? = some (c.goHome (s.surface id c)).value := by
  obtain ⟨hid, _⟩ := Array.getElem?_eq_some_iff.mp hc
  obtain ⟨s₁, hbefore, _, hafter⟩ := h.runAll_at stepwise_goHome hid
  have hc₁ : s₁.consoles[id]? = some c := hbefore.console.trans hc
  rw [homeAll, consoles_focus, hafter.console, consoles_run_self hc₁, hbefore.surface c]

/-- **Windows come home**, each in one round at most. On machine words the way home has a
result, at the start of the region. On linear memory a round that is made is as long as the way,
so that it is the last one, and moves the window within its region. Sending all windows home a
second time changes no console and no cell. -/
theorem windows_come_home (h : Reached config s) (hc : s.consoles[id]? = some c) :
    (c.raw.goHome (s.surface id c) =
        some ⟨(c.goHome (s.surface id c)).value.raw, (c.goHome (s.surface id c)).effects⟩ ∧
      (c.goHome (s.surface id c)).value.origin = c.region.start) ∧
    ((s.displayOf c).memory.wraps = false →
      (c.region.start < c.origin →
        0 < min ((s.displayOf c).capacity - config.screen.size) (c.origin - c.region.start) ∧
        min ((s.displayOf c).capacity - config.screen.size) (c.origin - c.region.start) =
          c.origin - c.region.start) ∧
      (∀ n last effects, Rounds (s.surface id c) c.region.start c.origin n last effects ↔
        n = (if c.region.start < c.origin then 1 else 0) ∧ last = c.region.start ∧
        effects = if c.region.start < c.origin then
          #[.copy c.origin c.region.start config.screen.size] else #[]) ∧
      c.region.start ≤ c.origin ∧ c.origin + config.screen.size ≤ c.region.limit) ∧
    (∃ c', s.homeAll.consoles[id]? = some c' ∧ c'.origin = c.region.start) ∧
    s.homeAll.homeAll.consoles = s.homeAll.consoles ∧
    ∀ k : Nat, (s.homeAll.homeAll.displays[k]?).map (·.memory.cells) =
      (s.homeAll.displays[k]?).map (·.memory.cells) := by
  have hsound := h.sound
  have hs := hsound.holds hc
  have hplaced := hsound.placed hc
  have horigin : (c.goHome (s.surface id c)).value.origin = c.region.start := by
    rw [Console.value_goHome_eq hs hplaced]
  have hagain : Kept s.homeAll s.homeAll.homeAll := by
    refine (Moves.sound moves_homeAll hsound).kept_homeAll fun j c₁ hc₁ => ?_
    obtain ⟨c₀, hc₀, _⟩ := Moves.region moves_homeAll hsound hc₁
    obtain rfl := Option.some.inj (hc₁.symm.trans (hsound.consoles_homeAll hc₀))
    rw [Console.value_goHome_eq (hsound.holds hc₀) (hsound.placed hc₀)]
    exact ⟨rfl, rfl⟩
  refine ⟨⟨RawConsole.goHome_raw hs hplaced, horigin⟩, ?_,
    ⟨_, hsound.consoles_homeAll hc, horigin⟩, hagain.consoles, hagain.cells⟩
  intro hlinear
  have hwithin := hplaced.origin_within
  rw [Console.OriginWithin, if_neg (by simp [surface, hlinear])] at hwithin
  have hlimit : c.region.limit ≤ (s.displayOf c).capacity := hs.limit_le
  have hsize := h.size_surface id c
  obtain ⟨hstart, hend⟩ := hwithin
  rw [hsize] at hend
  have hrounds := fun n last effects => @RawConsole.rounds_iff (s.surface id c) c.region.start
    c.origin last n effects _ hs hstart (by rw [hsize]; exact hend.trans hlimit)
  rw [hsize] at hrounds
  refine ⟨?_, hrounds, hstart, hend⟩
  intro hlt
  omega

/-- The second of two windows comes home from the end of its page in one round, and stays there. -/
theorem windows_come_home_twoPages :
    ∃ s c, Reached twoPages s ∧ s.consoles[1]? = some c ∧ c.origin = 10 ∧ c.region.start = 8 ∧
      Rounds (s.surface 1 c) 8 10 1 8 #[.copy 10 8 6] ∧
      s.homeAll.homeAll.consoles = s.homeAll.consoles := by
  have hreached : Reached twoPages _ := ⟨_, [.scroll 1 .down, .send 1 0x41], rfl, rfl⟩
  obtain ⟨_, hlinear, _, hagain, _⟩ := @windows_come_home _ _ _ 1 hreached rfl
  exact ⟨_, _, hreached, rfl, rfl, rfl, ((hlinear rfl).2.1 _ _ _).mpr ⟨rfl, rfl, rfl⟩, hagain⟩

end Seat

end TextConsole
