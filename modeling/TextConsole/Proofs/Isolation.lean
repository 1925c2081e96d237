import TextConsole.Proofs.Reachable

/-!
# Consoles on one display

Several consoles may share a display, each with a region of its own. What one of them
does stays in its region, so a run of one spares all the others (`Sound.spares_run`).
Where every console runs in turn, what happens to a console happens in its own turn
(`Sound.runAll_at`).
-/

namespace TextConsole

/-! ## The words of a region -/

/-- Whether a word belongs to a region. Where memory wraps, there is no other region and
every word does. -/
def Surface.Covers (s : Surface) (r : Region) (a : Nat) : Prop :=
  s.wraps = true ∨ r.start ≤ a ∧ a < r.limit

/-- A window lies on words of its region. -/
theorem Console.covers_window {s : Surface} {c : Console} (h : c.OriginWithin s) {k : Nat}
    (hk : k < s.size) : s.Covers c.region (c.origin + k) := by
  unfold OriginWithin at h
  split at h
  · exact Or.inl ‹_›
  · exact Or.inr ⟨by omega, by omega⟩

/-! ## Effects within a region -/

/-- A run within a region lies in memory. -/
theorem Surface.Within.fits {s : Surface} {r : Region} {d : Display} {addr len : Nat}
    (h : s.Within r addr len) (hlimit : r.limit ≤ s.capacity) (hd : s.Describes d) :
    d.memory.Fits addr len := by
  have hcap : d.memory.capacity = s.capacity := hd.capacity.symm
  rw [VideoMemory.Fits, ← hd.wraps, hcap]
  exact h.2.imp_right fun hin => by omega

/-- An effect within one region of linear memory leaves the words outside it alone. -/
theorem Effect.Within.cell_perform {s : Surface} {r : Region} {d : Display} {e : Effect} {a : Nat}
    (h : e.Within s r) (hd : s.Describes d) (hlinear : s.wraps = false)
    (hlimit : r.limit ≤ s.capacity) (ha : a < s.capacity) (hout : a < r.start ∨ r.limit ≤ a) :
    (d.perform e).memory.cell a = d.memory.cell a := by
  have hcap : d.memory.capacity = s.capacity := hd.capacity.symm
  have apart : ∀ {addr len : Nat}, s.Within r addr len → ∀ i < len,
      (addr + i) % d.memory.capacity ≠ a % d.memory.capacity := by
    rintro addr len ⟨_, hw | hin⟩ i hi
    · rw [hlinear] at hw
      cases hw
    · rw [hcap, Nat.mod_eq_of_lt (by omega), Nat.mod_eq_of_lt ha]
      omega
  cases e with
  | write dest run => exact VideoMemory.cell_write_of_ne (apart h)
  | fill dest len => exact VideoMemory.cell_fill_of_ne (apart h)
  | copy src dest len =>
      exact VideoMemory.cell_copy_of_ne (h.1.fits hlimit hd) (h.2.fits hlimit hd) (apart h.2)
  | setBlank | setRegister | ring => rfl

theorem Effect.Within.cell_performAll {s : Surface} {r : Region} {effects : Array Effect} {a : Nat}
    (h : ∀ e ∈ effects, e.Within s r) {d : Display} (hd : s.Describes d)
    (hlinear : s.wraps = false) (hlimit : r.limit ≤ s.capacity) (ha : a < s.capacity)
    (hout : a < r.start ∨ r.limit ≤ a) :
    (d.performAll effects).memory.cell a = d.memory.cell a := by
  have key : s.Describes (d.performAll effects) ∧
      (d.performAll effects).memory.cell a = d.memory.cell a := by
    refine Display.performAll_induction
      (P := fun d' => s.Describes d' ∧ d'.memory.cell a = d.memory.cell a) ?_ ⟨hd, rfl⟩
    rintro d' e he ⟨hd', hcell⟩
    refine ⟨hd'.performAll #[e], ?_⟩
    rw [(h e he).cell_perform hd' hlinear hlimit ha hout, hcell]
  exact key.2

/-! ## Operations on one console -/

/-- The console that an operation is addressed to, if it is addressed to one. -/
def Operation.console? : Operation → Option Nat
  | .send id _ => some id
  | .sendRun id _ => some id
  | .flush id => some id
  | .echo id _ => some id
  | .message _ => some 0
  | .acknowledge id => some id
  | .scroll id _ => some id
  | .focus _ => none
  | .homeAll => none
  | .switchScrolling => none
  | .switchBell => none
  | .release => none
  | .installFont _ => none

namespace Seat

variable {s s' s'' : Seat} {c : Console} {id : Nat} {f : Surface → Console → Output Console}

/-- Runs of one console, one after the other. -/
def runInputs (s : Seat) (id : Nat) (fs : List (Surface → Console → Output Console)) : Seat :=
  fs.foldl (fun s f => s.run id f) s

/-- **An operation on one console is a row of runs of it.** -/
theorem apply_eq_runInputs {op : Operation} (h : op.console? = some id) :
    ∃ fs, (∀ f ∈ fs, Console.Input f) ∧ ∀ s : Seat, s.apply op = s.runInputs id fs := by
  have one : ∀ {f}, Console.Input f → ∀ f' ∈ [f], Console.Input f' := by
    intro f hf f' hf'
    rwa [List.mem_singleton.mp hf']
  cases op with
  | send j byte =>
      obtain rfl := Option.some.inj h
      exact ⟨[_], one (.accept byte), fun _ => rfl⟩
  | sendRun j bytes =>
      obtain rfl := Option.some.inj h
      exact ⟨[_], one (.acceptRun bytes), fun _ => rfl⟩
  | flush j =>
      obtain rfl := Option.some.inj h
      exact ⟨[_], one .flush, fun _ => rfl⟩
  | echo j byte =>
      obtain rfl := Option.some.inj h
      exact ⟨[_], one (.echo byte), fun _ => rfl⟩
  | acknowledge j =>
      obtain rfl := Option.some.inj h
      exact ⟨[_], one .acknowledge, fun _ => rfl⟩
  | scroll j d =>
      obtain rfl := Option.some.inj h
      exact ⟨[_], one (.scroll d), fun _ => rfl⟩
  | message byte =>
      obtain rfl := Option.some.inj h
      simp only [apply, message]
      split
      · exact ⟨[_], one .flush, fun _ => rfl⟩
      · split
        · refine ⟨[fun surface c => c.accept surface 0x0D, fun surface c => c.accept surface 0x0A],
            ?_, fun _ => rfl⟩
          simp only [List.forall_mem_cons]
          exact ⟨.accept 0x0D, .accept 0x0A, by simp⟩
        · exact ⟨[_], one (.accept byte), fun _ => rfl⟩
  | focus | homeAll | switchScrolling | switchBell | release | installFont => cases h

/-- What every such run keeps of a sound seat, a row of them keeps. -/
theorem Sound.runInputs {P : Seat → Prop}
    (step : ∀ {s : Seat} {f}, s.Sound → Console.Input f → P s → P (s.run id f))
    {fs : List (Surface → Console → Output Console)} (hfs : ∀ f ∈ fs, Console.Input f) :
    ∀ {s : Seat}, s.Sound → P s → (s.runInputs id fs).Sound ∧ P (s.runInputs id fs) := by
  induction fs with
  | nil => exact fun hs h => ⟨hs, h⟩
  | cons f fs ih =>
      intro s hs h
      obtain ⟨hf, hfs⟩ := List.forall_mem_cons.mp hfs
      exact ih hfs (hs.run id (stepwise_input hf)) (step hs hf h)

/-! ## Sparing a console -/

/-- Whether a change of a seat spares a console: it is as it was, knows what it knew
of its display, and each word of its region holds what it held. -/
structure Spares (id : Nat) (s s' : Seat) : Prop where
  console : s'.consoles[id]? = s.consoles[id]?
  surface : ∀ c, s'.surface id c = s.surface id c
  cell : ∀ c, s.consoles[id]? = some c → ∀ a, (s.surface id c).Covers c.region a →
    (s'.displayOf c).memory.cell a = (s.displayOf c).memory.cell a

theorem Spares.refl (id : Nat) (s : Seat) : Spares id s s :=
  ⟨rfl, fun _ => rfl, fun _ _ _ _ => rfl⟩

theorem Spares.trans (h : Spares id s s') (h' : Spares id s' s'') : Spares id s s'' where
  console := h'.console.trans h.console
  surface := fun c => (h'.surface c).trans (h.surface c)
  cell := by
    intro c hc a ha
    have ha' : (s'.surface id c).Covers c.region a := by rwa [h.surface c]
    rw [h'.cell c (h.console.trans hc) a ha', h.cell c hc a ha]

/-- The window of a console that is spared shows what it showed. -/
theorem Spares.shown (h : Spares id s s') (hs : s.Sound) (hc : s.consoles[id]? = some c) {k : Nat}
    (hk : k < s.settings.screen.size) :
    (s'.displayOf c).shown c.origin k = (s.displayOf c).shown c.origin k :=
  h.cell c hc _ (Console.covers_window (hs.placed hc).origin_within hk)

/-- The words of a console lie outside the regions of the others on its display. -/
theorem Sound.covers_outside (h : s.Sound) {j : Nat} {c' : Console} (hne : j ≠ id)
    (hc' : s.consoles[j]? = some c') (hc : s.consoles[id]? = some c)
    (hdisplay : c'.region.display = c.region.display) {a : Nat}
    (ha : (s.surface id c).Covers c.region a) :
    a < (s.displayOf c').capacity ∧ (a < c'.region.start ∨ c'.region.limit ≤ a) := by
  obtain ⟨hlinear, hapart⟩ := h.apart hne hc' hc hdisplay
  have hsame : s.displayOf c = s.displayOf c' := by
    rw [displayOf_eq, displayOf_eq, hdisplay]
  have hlimit := (h.holds hc).limit_le
  simp only [Surface.Covers, surface, hsame, hlinear] at ha hlimit
  rw [or_iff_right (by simp)] at ha
  omega

/-- **A run of one console spares the others.** -/
theorem Sound.spares_run (h : s.Sound) (hf : Console.Stepwise f) {j : Nat} (hne : j ≠ id) :
    Spares id s (s.run j f) := by
  refine ⟨consoles_run_of_ne hne, fun c => surface_run id c, ?_⟩
  intro c hc a ha
  cases hc' : s.consoles[j]? with
  | none => rw [run_of_none hc']
  | some c' =>
      by_cases hdisplay : c'.region.display = c.region.display
      · obtain ⟨hlinear, _⟩ := h.apart hne hc' hc hdisplay
        obtain ⟨hlt, hout⟩ := h.covers_outside hne hc' hc hdisplay ha
        have heffects := (hf (h.holds hc') (h.placed hc')).effects_within (h.holds hc')
          (h.placed hc')
        have hd : (s.surface j c').Describes ((s.displayOf c').setBlank c'.blank) :=
          ⟨rfl, rfl, rfl⟩
        have hcell := Effect.Within.cell_performAll heffects hd hlinear (h.holds hc').limit_le
          hlt hout
        have hsame : s.displayOf c = s.displayOf c' := by
          rw [displayOf_eq, displayOf_eq, hdisplay]
        rw [displayOf_run hc' c hdisplay.symm (h.display_lt hc'), hcell, hsame]
        rfl
      · rw [displayOf_run_of_ne hc' hdisplay]

/-- Runs of other consoles, one after the other, spare a console. -/
theorem Sound.spares_runs (hf : Console.Stepwise f) {ids : List Nat} (hid : id ∉ ids) :
    ∀ {s : Seat}, s.Sound → Spares id s (ids.foldl (fun s id => s.run id f) s) ∧
      (ids.foldl (fun s id => s.run id f) s).Sound := by
  induction ids with
  | nil => exact fun h => ⟨Spares.refl _ _, h⟩
  | cons j ids ih =>
      intro s h
      obtain ⟨hne, hids⟩ := not_or.mp (mt List.mem_cons.mpr hid)
      obtain ⟨hspares, hsound⟩ := ih hids (h.run j hf)
      exact ⟨(h.spares_run hf (Ne.symm hne)).trans hspares, hsound⟩

/-- **Where every console runs in turn, each has a turn of its own.** -/
theorem Sound.runAll_at (h : s.Sound) (hf : Console.Stepwise f) (hid : id < s.consoles.size) :
    ∃ s₁, Spares id s s₁ ∧ s₁.Sound ∧ Spares id (s₁.run id f) (s.runAll f) := by
  obtain ⟨before, after, hrange⟩ := List.append_of_mem (List.mem_range.mpr hid)
  have hnodup : (before ++ id :: after).Nodup := by
    rw [← hrange]
    exact List.nodup_range
  have hbefore : id ∉ before := by
    intro hmem
    have := List.nodup_append.mp hnodup
    exact this.2.2 id hmem id List.mem_cons_self rfl
  have hafter : id ∉ after := (List.nodup_cons.mp (List.nodup_append.mp hnodup).2.1).1
  obtain ⟨hspares, hsound⟩ := Sound.spares_runs hf hbefore h
  obtain ⟨hspares', _⟩ := Sound.spares_runs hf hafter (hsound.run id hf)
  refine ⟨_, hspares, hsound, ?_⟩
  rw [runAll, hrange, List.foldl_append, List.foldl_cons]
  exact hspares'

end Seat

end TextConsole
