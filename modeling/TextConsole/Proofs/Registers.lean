import TextConsole.Proofs.Isolation

/-!
# The registers follow the focus

The registers of a display hold what was written to them last, and a console only says
something when its window or its cursor has moved. So what they hold at any time depends
on all the steps before. `Console.Follows` is what one console owes them: with the focus,
that they point at its window and its cursor, and without it, that they are left alone.
Every kind of step keeps that (`follows_law`), except for a window that goes home; an
operation that sends windows home loads the registers anew.

So the registers always show the console in focus (`registers_mirror_focus`), and other
consoles write none. The same rule leaves the second display behind when the hardware is
released: its window goes home, but a console without the focus does not say so.
-/

namespace TextConsole

/-- Whether an effect leaves the registers alone. -/
def Effect.IsSilent : Effect → Prop
  | .setRegister _ _ => False
  | _ => True

/-! ## What a register holds -/

namespace Journal

variable {j j' : Journal} {k capacity : Nat} {es : Array Effect}

/-- The element found from the end of an array that has got one more. -/
theorem findRev?_push {α : Type} (xs : Array α) (x : α) (p : α → Bool) :
    (xs.push x).findRev? p = if p x then some x else xs.findRev? p := by
  have hsome : ∀ ys : Array α,
      ys.findRev? p = ys.findSomeRev? fun a => if p a then some a else none := fun _ => rfl
  rw [hsome, hsome, Array.findSomeRev?_push]
  split <;> rfl

theorem register?_congr (h : j'.writes = j.writes) (r : Register) :
    j'.register? k r = j.register? k r := by
  rw [register?, register?, h]

/-- A register holds what was written to it last. -/
theorem register?_setRegister (r r' : Register) (addr k' : Nat) :
    (j.recordAll k capacity #[.setRegister r addr]).register? k' r' =
      if k = k' ∧ r = r' then some (Display.registerWord capacity addr)
      else j.register? k' r' := by
  show Option.map _ ((j.writes.push _).findRev? _) = _
  rw [findRev?_push]
  simp only [decide_eq_true_eq]
  split <;> rfl

/-- Silent effects are not entered among the writes. -/
theorem writes_recordAll (h : ∀ e ∈ es, e.IsSilent) :
    (j.recordAll k capacity es).writes = j.writes := by
  unfold recordAll
  refine Array.foldl_induction (fun _ (j' : Journal) => j'.writes = j.writes) rfl ?_
  intro i j' hj'
  have he := h _ (Array.getElem_mem i.2)
  revert he
  cases es[i] with
  | setRegister => exact False.elim
  | write | fill | copy | setBlank | ring => exact fun _ => hj'

/-- Whether the registers of a console's display point at its window and its cursor. -/
structure PointsAt (j : Journal) (capacity : Nat) (c : Console) : Prop where
  origin : j.register? c.region.display .origin = some (Display.registerWord capacity c.origin)
  cursor : j.register? c.region.display .cursor = some (Display.registerWord capacity c.cursorAddr)

/-- Only the writes count, and where the console keeps its window and its cursor. -/
theorem PointsAt.congr {c c' : Console} (h : j.PointsAt capacity c) (hwrites : j'.writes = j.writes)
    (hdisplay : c'.region.display = c.region.display) (horigin : c'.origin = c.origin)
    (haddr : c'.cursorAddr = c.cursorAddr) : j'.PointsAt capacity c' := by
  constructor
  · rw [register?_congr hwrites, hdisplay, horigin, h.origin]
  · rw [register?_congr hwrites, hdisplay, haddr, h.cursor]

end Journal

namespace Console

variable {s : Surface} {c c' : Console} {j : Journal} {es es' : Array Effect}

theorem silent_edit {command : Command} (hedit : command.IsEdit)
    (haddr : c.cursorAddr = c.addressOf s c.row c.col) :
    ∀ e ∈ (c.perform s command).effects, e.IsSilent := by
  rw [perform_edit hedit haddr]
  simp only [List.mem_toArray, List.mem_map]
  rintro e ⟨p, _, rfl⟩
  cases p <;> trivial

/-! ## What a console owes to the registers -/

/-- Whether the registers follow a console that has asked for some effects: they point at
its window and its cursor if it has the focus, and are left alone if it has not. -/
def Follows (s : Surface) (j : Journal) (c : Console) (es : Array Effect) : Prop :=
  if s.focused = true then
    (j.recordAll c.region.display s.capacity es).PointsAt s.capacity c
  else (j.recordAll c.region.display s.capacity es).writes = j.writes

/-- Nothing is owed for silent effects that leave the window and the cursor in place. -/
theorem Follows.silent (h : c.Follows s j es) (hsilent : ∀ e ∈ es', e.IsSilent)
    (hdisplay : c'.region.display = c.region.display) (horigin : c'.origin = c.origin)
    (haddr : c'.cursorAddr = c.cursorAddr) : c'.Follows s j (es ++ es') := by
  have hwrites : (j.recordAll c'.region.display s.capacity (es ++ es')).writes =
      (j.recordAll c.region.display s.capacity es).writes := by
    rw [Journal.recordAll_append, Journal.writes_recordAll hsilent, hdisplay]
  unfold Follows at h ⊢
  split
  · rw [if_pos ‹_›] at h
    exact h.congr hwrites hdisplay horigin haddr
  · rw [if_neg ‹_›] at h
    rw [hwrites, h]

/-- Only where the window and the cursor are counts. -/
theorem Follows.congr (h : c.Follows s j es) (hdisplay : c'.region.display = c.region.display)
    (horigin : c'.origin = c.origin) (haddr : c'.cursorAddr = c.cursorAddr) :
    c'.Follows s j es := by
  have hsilent : c'.Follows s j (es ++ #[]) := h.silent (by simp) hdisplay horigin haddr
  rwa [Array.append_empty] at hsilent

/-- A console with the focus that writes one register to where it now points. -/
theorem Follows.point (h : c.Follows s j es) {r : Register} {addr : Nat}
    (hdisplay : c'.region.display = c.region.display)
    (horigin : c'.origin = if r = .origin then addr else c.origin)
    (haddr : c'.cursorAddr = if r = .cursor then addr else c.cursorAddr) :
    c'.Follows s j (es ++ if s.focused = true then #[.setRegister r addr] else #[]) := by
  by_cases hfocused : s.focused = true
  · unfold Follows at h ⊢
    rw [if_pos hfocused] at h ⊢
    rw [if_pos hfocused, Journal.recordAll_append, hdisplay]
    constructor
    · rw [Journal.register?_setRegister, hdisplay, horigin, h.origin]
      cases r <;> simp
    · rw [Journal.register?_setRegister, hdisplay, haddr, h.cursor]
      cases r <;> simp
  · unfold Follows at h ⊢
    rw [if_neg hfocused] at h ⊢
    rw [if_neg hfocused, Array.append_empty, hdisplay, h]

/-! ## Steps that the registers follow -/

theorem Follows.settle (h : c.Follows s j es) (row col : Int) :
    (c.settle s row col).value.Follows s j (es ++ (c.settle s row col).effects) := by
  have hstored : c.Follows s j
      (es ++ if c.queue ≠ [] then #[.write c.cursorAddr c.queue] else #[]) := by
    refine h.silent ?_ rfl rfl rfl
    simp only [Output.mem_ite]
    rintro e ⟨_, rfl⟩
    trivial
  rw [effects_settle, ← Array.append_assoc]
  generalize haddr : c.addressOf s (s.confineRow row) (s.confineColumn col) = addr
  by_cases hsame : addr = c.cursorAddr
  · have hdone : (c.settle s row col).value.Follows s j _ :=
      hstored.congr rfl rfl (haddr.trans hsame)
    simpa [hsame] using hdone
  · have hpointed : (c.settle s row col).value.Follows s j _ :=
      hstored.point (r := .cursor) rfl rfl haddr
    simpa [hsame] using hpointed

theorem Follows.scroll (h : c.Follows s j es) (d : Direction) :
    (c.scroll s d).value.Follows s j (es ++ (c.scroll s d).effects) := by
  have hmoved : ({ c.flushed s with origin := c.nextOrigin s d } : Console).Follows s j
      (es ++ (c.flush s).effects ++ c.scrollEffects s d) := by
    have hflushed : (c.flushed s).Follows s j (es ++ (c.flush s).effects) := h.settle _ _
    rw [scrollEffects, ← Array.append_assoc]
    refine Follows.point (c := c.flushed s) (hflushed.silent ?_ rfl rfl rfl) rfl rfl rfl
    simp only [moveKeptRows, Array.mem_append, Output.mem_ite, List.mem_toArray,
      List.mem_singleton]
    rintro e (⟨_, rfl⟩ | rfl)
    · cases d <;> trivial
    · trivial
  have hlast := hmoved.settle (c.flushed s).row (c.flushed s).col
  rw [effects_scroll, ← Array.append_assoc, ← Array.append_assoc]
  exact hlast

/-- **Every kind of step keeps the registers up to date.** -/
theorem follows_law {r : Region} (hs : s.Holds r) (j : Journal) :
    Law s fun c es => c.region = r ∧ c.WellPlaced s ∧ c.Follows s j es where
  columns_pos := hs.columns_pos
  quiet := fun ⟨_, hplaced, _⟩ => hplaced.quiet
  enqueue := by
    rintro c es code ⟨rfl, hplaced, h⟩ hcol hescape hcode
    have hsteps := enqueue_steps (s := s) hcol hescape hcode
    obtain ⟨hregion, hplaced'⟩ := hsteps.wellPlaced hs hplaced
    refine ⟨hregion, hplaced', ?_⟩
    have hroom : (c.makeRoom s).value.Follows s j (es ++ (c.makeRoom s).effects) := by
      unfold makeRoom
      split
      · exact h.silent (by simp) rfl rfl rfl
      · exact h.settle _ _
    have hplace : ((c.makeRoom s).value.place code).Follows s j _ := hroom.congr rfl rfl rfl
    simpa [enqueue] using hplace
  settle := by
    rintro c es row col ⟨rfl, hplaced, h⟩
    exact ⟨rfl, (Step.settle row col).wellPlaced hs hplaced, h.settle row col⟩
  scroll := by
    rintro c es d ⟨rfl, hplaced, h⟩
    exact ⟨rfl, (Step.scroll d).wellPlaced hs hplaced, h.scroll d⟩
  edit := by
    rintro c es command ⟨rfl, hplaced, h⟩ hqueue hedit
    have haddr := hplaced.cursorAddr_of_queue_eq_nil hqueue
    have hvalue : (c.perform s command).value = c := by rw [perform_edit hedit haddr]
    rw [hvalue]
    exact ⟨rfl, hplaced, h.silent (silent_edit hedit haddr) rfl rfl rfl⟩
  recolor := by
    rintro c es change ⟨rfl, hplaced, h⟩ hqueue
    have hstep : Step s c (c.changeRendition s change) := .recolor change hqueue
    refine ⟨hstep.region hs hplaced, hstep.wellPlaced hs hplaced, ?_⟩
    rw [value_changeRendition, effects_changeRendition]
    refine h.silent ?_ rfl rfl rfl
    cases change.blank? c.blank with
    | none => simp
    | some blank =>
        simp only [Option.elim_some, List.mem_toArray, List.mem_singleton]
        rintro e rfl
        trivial
  chime := by
    rintro c es ⟨rfl, hplaced, h⟩
    refine ⟨rfl, hplaced, h.silent ?_ rfl rfl rfl⟩
    simp only [chime, Output.effects_bind, Output.effects_emitIf, Output.effects_pure,
      Array.append_empty, Output.mem_ite]
    rintro e ⟨_, rfl⟩
    trivial
  collect := by
    rintro c es escape ⟨rfl, hplaced, h⟩ hqueue
    exact ⟨rfl, (Step.collect escape hqueue).wellPlaced hs hplaced, h.congr rfl rfl rfl⟩
  acknowledge := by
    rintro c es ⟨rfl, hplaced, h⟩
    exact ⟨rfl, Step.acknowledge.wellPlaced hs hplaced, h.congr rfl rfl rfl⟩

/-- What clients do with a console keeps the registers up to date. -/
theorem Input.follows {f : Surface → Console → Output Console} (hf : Input f)
    (hs : s.Holds c.region) (hc : c.WellPlaced s) (h : c.Follows s j #[]) :
    (f s c).value.Follows s j (f s c).effects := by
  have hlaw := (follows_law hs j).input hf ⟨rfl, hc, h⟩
  simpa using hlaw.2.2

end Console

namespace Seat

variable {s : Seat} {c : Console} {id : Nat} {f : Surface → Console → Output Console}
  {config : Config}

/-! ## The console in focus -/

/-- Whether the registers show the console in focus. -/
def Pointed (s : Seat) : Prop :=
  ∀ c, s.consoles[s.focused]? = some c → s.journal.PointsAt (s.displayOf c).capacity c

theorem journal_run (hc : s.consoles[id]? = some c) :
    (s.run id f).journal = s.journal.recordAll c.region.display (s.surface id c).capacity
      (f (s.surface id c) c).effects := by
  rw [run_of_some hc]

/-- A console without the focus has nothing to show. -/
theorem follows_of_ne (hid : id ≠ s.focused) : c.Follows (s.surface id c) s.journal #[] := by
  unfold Console.Follows
  rw [if_neg (by simpa [surface] using hid)]
  rfl

theorem Pointed.follows (h : s.Pointed) (hc : s.consoles[id]? = some c) :
    c.Follows (s.surface id c) s.journal #[] := by
  by_cases hid : id = s.focused
  · subst hid
    unfold Console.Follows
    rw [if_pos (by simp [surface])]
    exact h c hc
  · exact follows_of_ne hid

/-- **A console without the focus writes no register**, whatever clients do with it. -/
theorem Sound.writes_run (hs : s.Sound) (hf : Console.Input f) (hid : id ≠ s.focused) :
    (s.run id f).journal.writes = s.journal.writes := by
  cases hc : s.consoles[id]? with
  | none => rw [run_of_none hc]
  | some c =>
      have hfollows := hf.follows (hs.holds hc) (hs.placed hc) (follows_of_ne hid)
      unfold Console.Follows at hfollows
      rw [if_neg (by simpa [surface] using hid), (hs.outcome hc (stepwise_input hf)).1] at hfollows
      rw [journal_run hc, hfollows]

/-- Nor does an operation on a console without the focus. -/
theorem Sound.writes_apply (hs : s.Sound) {op : Operation} (hop : op.console? = some id)
    (hid : id ≠ s.focused) : (s.apply op).journal.writes = s.journal.writes := by
  obtain ⟨fs, hfs, happly⟩ := apply_eq_runInputs hop
  have hstep : ∀ {s' : Seat} {f : Surface → Console → Output Console}, s'.Sound →
      Console.Input f →
      s'.focused = s.focused ∧ s'.journal.writes = s.journal.writes →
        (s'.run id f).focused = s.focused ∧ (s'.run id f).journal.writes = s.journal.writes := by
    rintro s' f hs' hf ⟨hfocused, hwrites⟩
    exact ⟨focused_run.trans hfocused, (hs'.writes_run hf (by rwa [hfocused])).trans hwrites⟩
  rw [happly, (hs.runInputs hstep hfs ⟨rfl, rfl⟩).2.2]

/-- The registers go on showing the console in focus. -/
theorem Pointed.run (h : s.Pointed) (hs : s.Sound) (hf : Console.Input f) (id : Nat) :
    (s.run id f).Pointed := by
  intro c' hc'
  rw [focused_run] at hc'
  have hcapacity : ((s.run id f).displayOf c').capacity = (s.displayOf c').capacity :=
    congrArg Surface.capacity (surface_run id c')
  rw [hcapacity]
  by_cases hid : id = s.focused
  · subst hid
    obtain ⟨c, hc, hregion, _⟩ := hs.console_run (stepwise_input hf) hc'
    rw [consoles_run_self hc] at hc'
    obtain rfl := Option.some.inj hc'
    have hfollows := hf.follows (hs.holds hc) (hs.placed hc) (h.follows hc)
    have hsame : (s.displayOf (f (s.surface s.focused c) c).value).capacity =
        (s.surface s.focused c).capacity :=
      congrArg Surface.capacity (surface_congr hregion s.focused)
    unfold Console.Follows at hfollows
    rw [if_pos (by simp [surface]), hregion, ← journal_run hc] at hfollows
    rwa [hsame]
  · rw [consoles_run_of_ne hid] at hc'
    exact (h c' hc').congr (hs.writes_run hf hid) rfl rfl rfl

/-- The registers after the focus went to a console. -/
theorem register?_focus (hc : s.consoles[id]? = some c) (k : Nat) (r : Register) :
    (s.focus id).journal.register? k r =
      if c.region.display = k then
        some (Display.registerWord (s.displayOf c).capacity
          (match r with | .origin => c.origin | .cursor => c.cursorAddr))
      else s.journal.register? k r := by
  obtain ⟨hid, _⟩ := Array.getElem?_eq_some_iff.mp hc
  rw [focus, if_pos hid, journal_run (s := { s with focused := id }) hc,
    Console.effects_loadRegisters,
    show #[Effect.setRegister .origin c.origin, .setRegister .cursor c.cursorAddr] =
      #[.setRegister .origin c.origin] ++ #[.setRegister .cursor c.cursorAddr] from rfl,
    Journal.recordAll_append, Journal.register?_setRegister, Journal.register?_setRegister]
  by_cases hk : c.region.display = k
  · cases r <;> simp [hk] <;> rfl
  · simp [hk]

theorem pointed_focus (hid : id < s.consoles.size) : (s.focus id).Pointed := by
  intro c hc
  rw [focused_focus hid, consoles_focus] at hc
  have hcapacity : ((s.focus id).displayOf c).capacity = (s.displayOf c).capacity := by
    rw [focus, if_pos hid]
    exact congrArg Surface.capacity (surface_run (s := { s with focused := id }) id c)
  constructor
  · rw [register?_focus hc, if_pos rfl, hcapacity]
  · rw [register?_focus hc, if_pos rfl, hcapacity]

theorem Pointed.runInputs (h : s.Pointed) (hs : s.Sound)
    {fs : List (Surface → Console → Output Console)} (hfs : ∀ f ∈ fs, Console.Input f) :
    (s.runInputs id fs).Pointed :=
  (hs.runInputs (fun hs hf h => h.run hs hf id) hfs h).2

/-- Windows that went home are followed by loading the registers anew. -/
theorem Sound.pointed_homeAll (hs : s.Sound) : s.homeAll.Pointed := by
  have hlt := (Moves.sound (moves_runAll stepwise_goHome) hs).focused_lt
  rw [focused_runAll] at hlt
  exact pointed_focus hlt

theorem Pointed.resetFirst (h : s.Pointed) : s.resetFirst.Pointed := by
  intro c' hc'
  have hcapacity : (s.resetFirst.displayOf c').capacity = (s.displayOf c').capacity :=
    congrArg Surface.capacity (surface_resetFirst 0 c')
  obtain ⟨c, pen, blank, hc, rfl⟩ := console_resetFirst hc'
  rw [hcapacity]
  exact (h c hc).congr rfl rfl rfl rfl

theorem Sound.pointed_release (hs : s.Sound) : s.release.Pointed := by
  have hsound : (s.homeAll.setSoftwareScroll true).Sound :=
    Moves.sound (moves_homeAll.trans (moves_setSoftwareScroll true)) hs
  have hfocused : ((s.homeAll.setSoftwareScroll true).focus 0).Pointed :=
    pointed_focus (Nat.zero_lt_of_lt hsound.focused_lt)
  exact hfocused.resetFirst

/-- **Every operation leaves the registers with the console in focus.** -/
theorem Pointed.apply (h : s.Pointed) (hs : s.Sound) (op : Operation) : (s.apply op).Pointed := by
  cases hop : op.console? with
  | some id =>
      obtain ⟨fs, hfs, happly⟩ := apply_eq_runInputs hop
      rw [happly]
      exact h.runInputs hs hfs
  | none =>
      cases op with
      | focus id =>
          by_cases hid : id < s.consoles.size
          · exact pointed_focus hid
          · rw [Seat.apply, focus, if_neg hid]
            exact h
      | homeAll => exact hs.pointed_homeAll
      | switchScrolling => exact hs.pointed_homeAll
      | switchBell => exact h
      | release => exact hs.pointed_release
      | installFont font =>
          obtain ⟨fonts, happly⟩ := apply_installFont (s := s) font
          rw [happly]
          exact fun c hc => (h c hc).congr rfl rfl rfl rfl
      | send | sendRun | flush | echo | message | acknowledge | scroll => cases hop

theorem Pointed.applyAll (ops : List Operation) :
    ∀ {s : Seat}, s.Pointed → s.Sound → (s.applyAll ops).Pointed := by
  induction ops with
  | nil => exact fun h _ => h
  | cons op ops ih => exact fun h hs => ih (h.apply hs op) (Moves.sound (moves_apply op) hs)

theorem Reached.pointed (h : Reached config s) : s.Pointed := by
  obtain ⟨seat, ops, hseat, rfl⟩ := h
  obtain ⟨regions, hvalid, hlayout, rfl⟩ := ofConfig_eq hseat
  have hsound := sound_ofRegions hvalid hlayout
  have hcleared := Moves.sound (moves_runAll stepwise_clearWindow) hsound
  exact Pointed.applyAll ops (pointed_focus (Nat.zero_lt_of_lt hcleared.focused_lt))
    (Moves.sound moves_ofRegions hsound)

/-- A register has bits enough for any address of memory. -/
theorem toNat_registerWord {capacity : Nat} (hpos : 0 < capacity) (hle : capacity ≤ capacityLimit)
    (addr : Nat) : (Display.registerWord capacity addr).toNat = addr % capacity := by
  have hlt := Nat.mod_lt addr hpos
  have hlimit : addr % capacity < 2 ^ 16 := Nat.lt_of_lt_of_le hlt hle
  exact UInt16.toNat_ofNat_of_lt hlimit

/-- **The registers mirror the console in focus.** After any history its display's
registers hold its origin and the address of its cursor, each modulo the capacity and
otherwise in full. What is done with another console writes no register at all. -/
theorem registers_mirror_focus (h : Reached config s) :
    s.focused < s.consoles.size ∧
      (∃ c origin cursor, s.consoles[s.focused]? = some c ∧
        s.journal.register? c.region.display .origin = some origin ∧
        s.journal.register? c.region.display .cursor = some cursor ∧
        origin.toNat = c.origin % (s.displayOf c).capacity ∧
        cursor.toNat = c.cursorAddr % (s.displayOf c).capacity) ∧
      ∀ op id, op.console? = some id → id ≠ s.focused →
        (s.apply op).journal.writes = s.journal.writes := by
  have hsound := h.sound
  refine ⟨hsound.focused_lt, ?_, ?_⟩
  · obtain ⟨c, hc⟩ : ∃ c, s.consoles[s.focused]? = some c :=
      ⟨_, Array.getElem?_eq_getElem hsound.focused_lt⟩
    obtain ⟨horigin, hcursor⟩ := h.pointed c hc
    have hholds := hsound.holds hc
    have hpos : 0 < (s.displayOf c).capacity :=
      Nat.lt_of_lt_of_le hholds.size_pos hholds.size_le_capacity
    exact ⟨_, _, _, hc, horigin, hcursor, toNat_registerWord hpos hholds.capacity_le _,
      toNat_registerWord hpos hholds.capacity_le _⟩
  · exact fun op id hop hid => hsound.writes_apply hop hid

/-- The second page has the focus and its window at the end of memory. The first page
scrolls without a word. -/
theorem registers_mirror_focus_twoPages :
    ∃ s, Reached twoPages s ∧ s.focused = 1 ∧ s.journal.register? 0 .origin = some 10 ∧
      s.journal.register? 0 .cursor = some 14 ∧
      (s.apply (.sendRun 0 [0x0A, 0x0A, 0x41])).journal.writes = s.journal.writes := by
  have hreached : Reached twoPages _ :=
    ⟨_, [.focus 1, .scroll 1 .down, .sendRun 1 [0x41, 0x42, 0x43, 0x44]], rfl, rfl⟩
  obtain ⟨_, _, hquiet⟩ := registers_mirror_focus hreached
  refine ⟨_, hreached, rfl, ?_, ?_, hquiet (.sendRun 0 [0x0A, 0x0A, 0x41]) 0 rfl (by decide)⟩
  · decide +kernel
  · decide +kernel

end Seat

end TextConsole
