import TextConsole.Proofs.Attention
import TextConsole.Proofs.Independence

/-!
# Batching is invisible

Bytes can be sent to a console one at a time, in runs or as echoes, with flushes, taken
reports and changes of focus in between. Once the queue is stored it makes no difference
(`batching_invisible`): memory holds the same, the console differs at most in its report,
and the bell has rung as often.

Every schedule is compared with the console that takes the same bytes one after the other
(`Console.acceptAll`). A flush on one side only keeps both the same up to what waits in
their queues (`SameStored.flush_right`), so a step may find different queues on the two
sides: it stores both before it moves the window or rearranges cells
(`sameStored_simulation`).
-/

namespace TextConsole

/-- The display once the queue of a console is stored. -/
def Display.storing (d : Display) (c : Console) : Display := d.perform (.write c.cursorAddr c.queue)

theorem Display.storing_of_queue_eq_nil (d : Display) {c : Console} (hqueue : c.queue = []) :
    d.storing c = d := by
  rw [storing, hqueue, perform, VideoMemory.write_nil]

namespace Console

variable {s : Surface} {c c' : Console} {d : Display} {es es' : Array Effect}
  {x x' : Output Console}

theorem performAll_flush : d.performAll (c.flush s).effects = d.storing c := performAll_settle _ _

/-- A character in the queue is stored behind those that are already there. -/
theorem storing_place (hd : c.Drawn s d) {code : UInt8} (hplaced : (c.place code).WellPlaced s) :
    d.storing (c.place code) =
      (d.storing c).perform (.write (c.addressOf s c.row c.col) [Cell.ofCode code c.pen]) := by
  have hfits : d.memory.Fits c.cursorAddr (c.queue ++ [Cell.ofCode code c.pen]).length := by
    have hwindow := hd.placed.origin_within.holdsWindow hd.holds hd.describes
    have haddr : (c.place code).cursorAddr = _ := hplaced.cursorAddr_eq
    have hrun := hwindow.fits_add hplaced.queue_inside
    exact haddr ▸ hrun
  have hwrite := VideoMemory.write_append hfits
  rw [hd.placed.cursorAddr_add] at hwrite
  simp only [Display.storing, Display.perform, queue_place]
  rw [← hwrite]
  rfl

/-! ## The same up to what waits -/

/-- A console without its queue, the address where that goes, and the report. -/
def core (c : Console) : Console := { c with cursorAddr := 0, queue := [], report := {} }

/-- Whether two consoles differ at most in their queues and reports, and their displays
not at all once the queues are stored. -/
structure SameStored (s : Surface) (d : Display) (c : Console) (es : Array Effect)
    (c' : Console) (es' : Array Effect) : Prop where
  left : c.Drawn s (d.performAll es)
  right : c'.Drawn s (d.performAll es')
  core : c'.core = c.core
  stored : (d.performAll es').storing c' = (d.performAll es).storing c
  rings : rings es' = rings es

namespace SameStored

theorem symm (h : SameStored s d c es c' es') : SameStored s d c' es' c es :=
  ⟨h.right, h.left, h.core.symm, h.stored.symm, h.rings.symm⟩

theorem trans {c'' : Console} {es'' : Array Effect} (h : SameStored s d c es c' es')
    (h' : SameStored s d c' es' c'' es'') : SameStored s d c es c'' es'' :=
  ⟨h.left, h'.right, h'.core.trans h.core, h'.stored.trans h.stored, h'.rings.trans h.rings⟩

theorem origin (h : SameStored s d c es c' es') : c'.origin = c.origin :=
  (congrArg Console.origin h.core :)

theorem row (h : SameStored s d c es c' es') : c'.row = c.row := (congrArg Console.row h.core :)

theorem col (h : SameStored s d c es c' es') : c'.col = c.col := (congrArg Console.col h.core :)

theorem pen (h : SameStored s d c es c' es') : c'.pen = c.pen := (congrArg Console.pen h.core :)

theorem escape (h : SameStored s d c es c' es') : c'.escape = c.escape :=
  (congrArg Console.escape h.core :)

theorem addressOf (h : SameStored s d c es c' es') (row col : Nat) :
    c'.addressOf s row col = c.addressOf s row col := by
  rw [Console.addressOf, Console.addressOf, h.origin]

/-- With nothing in their queues only the reports can differ, and the displays not at all. -/
theorem of_queue_eq_nil (h : SameStored s d c es c' es') (hqueue : c.queue = [])
    (hqueue' : c'.queue = []) :
    c' = { c with report := c'.report } ∧ d.performAll es' = d.performAll es := by
  have haddr : c'.cursorAddr = c.cursorAddr := by
    rw [h.left.placed.cursorAddr_of_queue_eq_nil hqueue,
      h.right.placed.cursorAddr_of_queue_eq_nil hqueue', h.row, h.col, h.addressOf]
  have hstored := h.stored
  rw [Display.storing_of_queue_eq_nil _ hqueue,
    Display.storing_of_queue_eq_nil _ hqueue'] at hstored
  refine ⟨?_, hstored⟩
  have hcore := congrArg (fun k : Console =>
    { k with cursorAddr := c.cursorAddr, queue := [], report := c'.report }) h.core
  calc c' = { c' with cursorAddr := c.cursorAddr, queue := [] } := by rw [← haddr, ← hqueue']
    _ = { c with queue := [], report := c'.report } := hcore
    _ = { c with report := c'.report } := by rw [← hqueue]

/-- A step after which nothing waits. -/
theorem ends (h : SameStored s d c es c' es') (hx : Step s c x) (hx' : Step s c' x')
    (hcore : x'.value.core = x.value.core) (hqueue : x.value.queue = [])
    (hqueue' : x'.value.queue = [])
    (hdisplay : (d.performAll es').performAll x'.effects =
      (d.performAll es).performAll x.effects)
    (hrings : TextConsole.rings x'.effects = TextConsole.rings x.effects) :
    Link.Ends (SameStored s d) es es' x x' where
  left := by
    rw [Display.performAll_append]
    exact hx.drawn h.left
  right := by
    rw [Display.performAll_append]
    exact hx'.drawn h.right
  core := hcore
  stored := by
    rw [Display.storing_of_queue_eq_nil _ hqueue, Display.storing_of_queue_eq_nil _ hqueue',
      Display.performAll_append, Display.performAll_append, hdisplay]
  rings := by rw [rings_append, rings_append, h.rings, hrings]

/-! ## Steps that store both queues -/

theorem settle (h : SameStored s d c es c' es') (row col : Int) :
    Link.Ends (SameStored s d) es es' (c.settle s row col) (c'.settle s row col) := by
  refine h.ends (.settle row col) (.settle row col) ?_ rfl rfl ?_ ?_
  · exact (congrArg (fun k : Console =>
      { k with row := s.confineRow row, col := s.confineColumn col }) h.core :)
  · rw [performAll_settle, performAll_settle]
    exact h.stored
  · rw [rings_eq_zero (plain_settle row col), rings_eq_zero (plain_settle row col)]

/-- Flushed consoles only differ in their reports. -/
theorem flushed (h : SameStored s d c es c' es') :
    c'.flushed s = { c.flushed s with report := (c'.flushed s).report } := by
  have hends := h.settle c.row c.col
  rw [Link.Ends] at hends
  have hflush : c'.flushed s = (c'.settle s c.row c.col).value := by
    rw [Console.flushed, flush, h.row, h.col]
  rw [hflush]
  exact (hends.of_queue_eq_nil rfl rfl).1

theorem scroll (h : SameStored s d c es c' es') (dir : Direction) :
    Link.Ends (SameStored s d) es es' (c.scroll s dir) (c'.scroll s dir) := by
  have hflushed := h.flushed
  have horigin : c'.nextOrigin s dir = c.nextOrigin s dir := by
    rw [nextOrigin, nextOrigin, hflushed]
    cases dir <;> rfl
  have heffects : c'.scrollEffects s dir = c.scrollEffects s dir := by
    rw [scrollEffects, scrollEffects, horigin, hflushed]
    cases dir <;> rfl
  refine h.ends (.scroll dir) (.scroll dir) ?_ rfl rfl ?_ ?_
  · rw [value_scroll, value_scroll, horigin, hflushed]
    rfl
  · have hlast : ∀ (d : Display) (k : Console) (origin : Nat),
        d.performAll (flush s { k.flushed s with origin := origin }).effects = d :=
      fun d k origin => performAll_settle_of_queue_eq_nil rfl _ _
    rw [effects_scroll, effects_scroll]
    simp only [Display.performAll_append, hlast]
    rw [performAll_flush, performAll_flush, heffects, h.stored]
  · rw [rings_eq_zero (plain_scroll dir), rings_eq_zero (plain_scroll dir)]

/-! ## Steps of consoles with nothing in their queues -/

theorem edit (h : SameStored s d c es c' es') (hqueue : c.queue = []) (hqueue' : c'.queue = [])
    {command : Command} (hedit : command.IsEdit) :
    Link.Ends (SameStored s d) es es' (c.perform s command) (c'.perform s command) := by
  have haddr := h.left.placed.cursorAddr_of_queue_eq_nil hqueue
  have haddr' := h.right.placed.cursorAddr_of_queue_eq_nil hqueue'
  have heffects : (c'.perform s command).effects = (c.perform s command).effects := by
    rw [perform_edit hedit haddr, perform_edit hedit haddr', h.row, h.col, h.origin]
  refine h.ends (.edit hqueue hedit) (.edit hqueue' hedit) ?_ ?_ ?_ ?_ ?_
  · rw [perform_edit hedit haddr, perform_edit hedit haddr']
    exact h.core
  · rw [perform_edit hedit haddr, hqueue]
  · rw [perform_edit hedit haddr', hqueue']
  · rw [heffects, (h.of_queue_eq_nil hqueue hqueue').2]
  · rw [heffects]

theorem recolor (h : SameStored s d c es c' es') (hqueue : c.queue = [])
    (hqueue' : c'.queue = []) (change : RenditionChange) :
    Link.Ends (SameStored s d) es es' (c.changeRendition s change)
      (c'.changeRendition s change) := by
  obtain ⟨hvalue, hdisplay⟩ := h.of_queue_eq_nil hqueue hqueue'
  have heffects : (c'.changeRendition s change).effects = (c.changeRendition s change).effects := by
    rw [effects_changeRendition, effects_changeRendition, hvalue]
  refine h.ends (.recolor change hqueue) (.recolor change hqueue') ?_ ?_ ?_ ?_ ?_
  · rw [value_changeRendition, value_changeRendition, hvalue]
    rfl
  · rw [value_changeRendition, hqueue]
  · rw [value_changeRendition, hqueue']
  · rw [heffects, hdisplay]
  · rw [heffects]

theorem collect (h : SameStored s d c es c' es') (hqueue : c.queue = [])
    (hqueue' : c'.queue = []) (escape : Escape.State) :
    SameStored s d { c with escape := escape } es { c' with escape := escape } es' where
  left := (Step.collect (s := s) escape hqueue).drawn h.left
  right := (Step.collect (s := s) escape hqueue').drawn h.right
  core := (congrArg (fun k : Console => { k with escape := escape }) h.core :)
  stored := h.stored
  rings := h.rings

theorem chime (h : SameStored s d c es c' es') :
    Link.Ends (SameStored s d) es es' (c.chime s) (c'.chime s) := by
  unfold Console.chime
  rw [emitIf_bell, emitIf_bell]
  split
  · have hring : ∀ (d : Display) (es : Array Effect),
        d.performAll (es ++ #[.ring]) = d.performAll es := by
      intro d es
      rw [Display.performAll_append]
      rfl
    refine ⟨?_, ?_, h.core, ?_, ?_⟩
    · rw [hring]
      exact h.left
    · rw [hring]
      exact h.right
    · rw [hring, hring]
      exact h.stored
    · rw [rings_append, rings_append, h.rings]
  · exact Link.done h

/-! ## Steps on one side only -/

/-- **Storing one queue makes no difference.** -/
theorem flush_right (h : SameStored s d c es c' es') :
    SameStored s d c es (c'.flush s).value (es' ++ (c'.flush s).effects) where
  left := h.left
  right := by
    rw [Display.performAll_append]
    exact (Step.settle _ _).drawn h.right
  core := by
    rw [← Console.flushed, flushed_eq h.right.placed]
    exact h.core
  stored := by
    rw [Display.storing_of_queue_eq_nil _ rfl, Display.performAll_append, performAll_flush,
      h.stored]
  rings := by
    rw [rings_append, flush, rings_eq_zero (plain_settle _ _)]
    exact h.rings

theorem acknowledge_right (h : SameStored s d c es c' es') :
    SameStored s d c es c'.acknowledge es' :=
  ⟨h.left, (Step.acknowledge (s := s)).drawn h.right, h.core, h.stored, h.rings⟩

/-! ## Characters -/

theorem makeRoom_right (h : SameStored s d c es c' es') :
    SameStored s d c es (c'.makeRoom s).value (es' ++ (c'.makeRoom s).effects) := by
  unfold Console.makeRoom
  split
  · simpa using h
  · exact h.flush_right

/-- Each side makes room as soon as its own queue is full. -/
theorem makeRoom (h : SameStored s d c es c' es') :
    Link.Ends (SameStored s d) es es' (c.makeRoom s) (c'.makeRoom s) :=
  h.makeRoom_right.symm.makeRoom_right.symm

theorem place (h : SameStored s d c es c' es') {code : UInt8} (hcol : c.col < s.columns)
    (hescape : c.escape.isCollecting = false) (hcode : ControlCode.ofByte? code = none)
    (hroom : c.queue.length < queueLimit) (hroom' : c'.queue.length < queueLimit) :
    SameStored s d (c.place code) es (c'.place code) es' := by
  have hleft := (Step.place hcol hroom hescape hcode).drawn h.left
  have hright := (Step.place (by rwa [h.col]) hroom' (by rwa [h.escape]) hcode).drawn h.right
  refine ⟨hleft, hright, ?_, ?_, h.rings⟩
  · exact (congrArg (fun k : Console => { k with col := k.col + 1 }) h.core :)
  · rw [storing_place h.left hleft.placed, storing_place h.right hright.placed, h.stored,
      h.addressOf, h.row, h.col, h.pen]

theorem enqueue (h : SameStored s d c es c' es') {code : UInt8} (hcol : c.col < s.columns)
    (hescape : c.escape.isCollecting = false) (hcode : ControlCode.ofByte? code = none) :
    Link.Ends (SameStored s d) es es' (c.enqueue s code) (c'.enqueue s code) := by
  refine h.makeRoom.bind fun h => Link.done ?_
  refine h.place ?_ ?_ hcode length_queue_makeRoom length_queue_makeRoom
  · rwa [col_makeRoom hcol]
  · rwa [escape_makeRoom]

end SameStored

/-- **Consoles that are the same up to what waits remain so**, whatever clients do. -/
theorem sameStored_simulation (hcolumns : 0 < s.columns) : Simulation s s (SameStored s d) where
  columns_pos := hcolumns
  columns := rfl
  rows := rfl
  nextTabStop := fun _ => rfl
  lineWrap := rfl
  newlineReturnsCarriage := rfl
  row := SameStored.row
  col := SameStored.col
  escape := SameStored.escape
  quiet := fun h => ⟨h.left.placed.quiet, h.right.placed.quiet⟩
  enqueue := fun h hcol hescape hcode => h.enqueue hcol hescape hcode
  settle := fun row col h => h.settle row col
  scroll := fun dir h => h.scroll dir
  edit := fun h hqueue hqueue' hedit => h.edit hqueue hqueue' hedit
  recolor := fun change h hqueue hqueue' => h.recolor hqueue hqueue' change
  chime := SameStored.chime
  collect := fun escape h hqueue hqueue' => h.collect hqueue hqueue' escape
  acknowledge := fun h => h.symm.acknowledge_right.symm.acknowledge_right

/-- A flush at the end of one side makes no difference. -/
theorem Link.Ends.flush_right (h : Link.Ends (SameStored s d) es es' x x') :
    Link.Ends (SameStored s d) es es' x (x' >>= fun c => c.flush s) := by
  have hflush := SameStored.flush_right h
  rw [Array.append_assoc] at hflush
  exact hflush

end Console

namespace Seat

variable {s s' s'' : Seat} {c c' : Console} {id j : Nat} {f : Surface → Console → Output Console}
  {es : Array Effect}

/-! ## What draws nothing -/

/-- Whether nothing has been drawn and the bell has not been rung. Displays may have got
another rendition of blanks. -/
structure Undrawn (s s' : Seat) : Prop where
  settings : s'.settings = s.settings
  display : ∀ n : Nat, ∃ blank, s'.displays[n]? = s.displays[n]?.map (·.setBlank blank)
  bells : s'.journal.bells = s.journal.bells

theorem Undrawn.refl (s : Seat) : Undrawn s s where
  settings := rfl
  display := by
    intro n
    cases hd : s.displays[n]? with
    | none => exact ⟨default, rfl⟩
    | some d => exact ⟨d.memory.blank, rfl⟩
  bells := rfl

theorem Undrawn.trans (h : Undrawn s s') (h' : Undrawn s' s'') : Undrawn s s'' where
  settings := h'.settings.trans h.settings
  display := by
    intro n
    obtain ⟨blank, hdisplay⟩ := h.display n
    obtain ⟨blank', hdisplay'⟩ := h'.display n
    refine ⟨blank', ?_⟩
    rw [hdisplay', hdisplay]
    cases s.displays[n]? <;> rfl
  bells := h'.bells.trans h.bells

theorem Undrawn.cells (h : Undrawn s s') (n : Nat) :
    s'.displays[n]?.map (·.memory.cells) = s.displays[n]?.map (·.memory.cells) := by
  obtain ⟨blank, hdisplay⟩ := h.display n
  rw [hdisplay]
  cases s.displays[n]? <;> rfl

theorem Undrawn.memory (h : Undrawn s s') :
    s'.displays.map (·.memory.cells) = s.displays.map (·.memory.cells) := by
  apply Array.ext_getElem?
  intro n
  rw [Array.getElem?_map, Array.getElem?_map, h.cells]

theorem Undrawn.displayOf (h : Undrawn s s') (c : Console) :
    ∃ blank, s'.displayOf c = (s.displayOf c).setBlank blank := by
  obtain ⟨blank, hdisplay⟩ := h.display c.region.display
  rw [displayOf_eq, displayOf_eq, hdisplay]
  cases s.displays[c.region.display]? with
  | none => exact ⟨(default : Display).memory.blank, rfl⟩
  | some d => exact ⟨blank, rfl⟩

theorem Undrawn.surface (h : Undrawn s s') (id : Nat) (c : Console) :
    ∃ focused, s'.surface id c =
      (s.surface id c).attended focused s.settings.behavior.bellEnabled := by
  obtain ⟨blank, hdisplay⟩ := h.displayOf c
  refine ⟨id = s'.focused, ?_⟩
  unfold Seat.surface
  rw [hdisplay, h.settings]
  rfl

/-- Effects on registers only. -/
theorem Undrawn.run (h : ∀ c, s.consoles[j]? = some c →
    ∀ e ∈ (f (s.surface j c) c).effects, ∃ register addr, e = .setRegister register addr) :
    Undrawn s (s.run j f) := by
  cases hc : s.consoles[j]? with
  | none =>
      rw [run_of_none hc]
      exact .refl s
  | some c =>
      have hregisters := h c hc
      have hsame : ∀ d : Display, d.performAll (f (s.surface j c) c).effects = d := by
        intro d
        refine Display.performAll_induction (P := fun d' => d' = d) ?_ rfl
        rintro _ e he rfl
        obtain ⟨register, addr, rfl⟩ := hregisters e he
        rfl
      refine ⟨settings_run, ?_, ?_⟩
      · intro n
        rw [displays_run hc]
        split
        · exact ⟨c.blank, by simp only [hsame]⟩
        · exact (Undrawn.refl s).display n
      · have hplain : ∀ e ∈ (f (s.surface j c) c).effects, e.IsPlain := by
          intro e he
          obtain ⟨register, addr, rfl⟩ := hregisters e he
          trivial
        rw [bells_run hc, rings_eq_zero hplain, Nat.add_zero]

theorem undrawn_focus (j : Nat) : Undrawn s (s.focus j) := by
  unfold Seat.focus
  split
  · have hrefocus : Undrawn { s with focused := j }
        (({ s with focused := j } : Seat).run j fun _ c => loadRegisters c) := by
      refine Undrawn.run fun c _ e he => ?_
      simp only [Console.effects_loadRegisters, List.mem_toArray, List.mem_cons, List.not_mem_nil,
        or_false] at he
      rcases he with rfl | rfl
      · exact ⟨_, _, rfl⟩
      · exact ⟨_, _, rfl⟩
    exact ⟨hrefocus.settings, hrefocus.display, hrefocus.bells⟩
  · exact .refl s

/-- Whether nothing waits in the queue of a console. -/
def Idle (s : Seat) (id : Nat) : Prop := ∀ c, s.consoles[id]? = some c → c.queue = []

theorem Idle.run (h : s.Idle id)
    (hqueue : ∀ c, s.consoles[j]? = some c → c.queue = [] →
      (f (s.surface j c) c).value.queue = []) : (s.run j f).Idle id := by
  intro c' hc'
  by_cases hj : j = id
  · subst hj
    cases hc : s.consoles[j]? with
    | none =>
        rw [run_of_none hc] at hc'
        exact h c' hc'
    | some c =>
        rw [consoles_run_self hc] at hc'
        obtain rfl := Option.some.inj hc'
        exact hqueue c hc (h c hc)
  · rw [consoles_run_of_ne hj] at hc'
    exact h c' hc'

/-- A flush of a console with nothing in its queue only points the cursor. -/
theorem Idle.undrawn_flush (h : s.Idle j) :
    Undrawn s (s.run j fun surface c => c.flush surface) := by
  refine Undrawn.run fun c hc e he => ?_
  simp only [Console.flush, Console.effects_settle, h c hc, Array.mem_append, Output.mem_ite] at he
  rcases he with ⟨hne, _⟩ | ⟨_, rfl⟩
  · exact absurd rfl hne
  · exact ⟨_, _, rfl⟩

/-- Whether nothing has been drawn, console `id` is as it was, and no queue has filled. -/
structure Aside (id : Nat) (s s' : Seat) : Prop where
  sound : s'.Sound
  console : s'.consoles[id]? = s.consoles[id]?
  undrawn : Undrawn s s'
  idle : ∀ j, s.Idle j → s'.Idle j

theorem Aside.refl (hs : s.Sound) (id : Nat) : Aside id s s := ⟨hs, rfl, .refl s, fun _ h => h⟩

theorem Aside.trans (h : Aside id s s') (h' : Aside id s' s'') : Aside id s s'' where
  sound := h'.sound
  console := h'.console.trans h.console
  undrawn := h.undrawn.trans h'.undrawn
  idle := fun j hj => h'.idle j (h.idle j hj)

/-- A console that does not exist does nothing. -/
theorem Aside.absent (h : Aside id s s') (hc : s.consoles[id]? = none)
    (f : Surface → Console → Output Console) : Aside id s (s'.run id f) := by
  rw [run_of_none (h.console.trans hc)]
  exact h

theorem aside_flush (hs : s.Sound) (hj : j ≠ id) (hidle : s.Idle j) :
    Aside id s (s.apply (.flush j)) where
  sound := hs.run j stepwise_flush
  console := consoles_run_of_ne hj
  undrawn := hidle.undrawn_flush
  idle := fun _ h => h.run fun _ _ _ => rfl

theorem aside_acknowledge (hs : s.Sound) (hj : j ≠ id) :
    Aside id s (s.apply (.acknowledge j)) where
  sound := hs.run j stepwise_acknowledge
  console := consoles_run_of_ne hj
  undrawn := Undrawn.run (f := fun _ c => pure c.acknowledge) fun _ _ e he => by simp at he
  idle := fun _ h => h.run fun _ _ hqueue => hqueue

theorem aside_focus (hs : s.Sound) (j : Nat) : Aside id s (s.apply (.focus j)) where
  sound := Moves.sound (moves_focus j) hs
  console := consoles_focus j id
  undrawn := undrawn_focus j
  idle := by
    intro i hi c hc
    have hc' := (consoles_focus j i).symm.trans hc
    exact hi c hc'

/-! ## A seat whose console has gone on -/

/-- Whether a seat has become another by what console `id` has done, with these effects,
and by nothing else that could be seen. -/
structure Advanced (id : Nat) (s : Seat) (c : Console) (s' : Seat) (c' : Console)
    (es : Array Effect) : Prop where
  sound : s'.Sound
  console : s'.consoles[id]? = some c'
  region : c'.region = c.region
  surface : ∀ k, ∃ focused, s'.surface id k =
    (s.surface id k).attended focused s.settings.behavior.bellEnabled
  display : (s'.displayOf c').setBlank c'.blank =
    ((s.displayOf c).setBlank c.blank).performAll es
  cells : ∀ n, n ≠ c.region.display →
    s'.displays[n]?.map (·.memory.cells) = s.displays[n]?.map (·.memory.cells)
  bells : s'.journal.bells = s.journal.bells + rings es
  idle : ∀ j, j ≠ id → s.Idle j → s'.Idle j

theorem Advanced.refl (hs : s.Sound) (hc : s.consoles[id]? = some c) : Advanced id s c s c #[] where
  sound := hs
  console := hc
  region := rfl
  surface := (Undrawn.refl s).surface id
  display := rfl
  cells := fun _ _ => rfl
  bells := rfl
  idle := fun _ _ h => h

namespace Advanced

/-- What is done with the console, seen from where it started. -/
theorem run (h : Advanced id s c s' c' es) (hf : Console.Input f) :
    Advanced id s c (s'.run id f) (f (s.surface id c) c').value
      (es ++ (f (s.surface id c) c').effects) := by
  obtain ⟨focused, hsurface⟩ := h.surface c'
  rw [surface_congr (s := s) h.region] at hsurface
  have hstep : Console.Stepwise f := stepwise_input hf
  have hregion := (h.sound.outcome h.console hstep).1
  -- With the focus as it was at the start the console does the same.
  have hsame := hf.steadfast (s.surface id c).focused s.settings.behavior.bellEnabled
    (h.sound.holds h.console) (h.sound.placed h.console)
  have hstart : (s'.surface id c').attended (s.surface id c).focused
      s.settings.behavior.bellEnabled = s.surface id c := by
    rw [hsurface]
    rfl
  rw [hstart] at hsame
  have hbell : s.settings.behavior.bellEnabled =
      (s'.surface id c').settings.behavior.bellEnabled := by
    rw [hsurface]
    rfl
  rw [hsame.console]
  refine ⟨h.sound.run id hstep, consoles_run_self h.console, hregion.trans h.region, ?_, ?_, ?_,
    ?_, ?_⟩
  · intro k
    rw [surface_run]
    exact h.surface k
  · rw [displayOf_run_setBlank h.sound h.console hstep, h.display, Display.performAll_append,
      ← Display.performAll_drawing _ (f (s.surface id c) c').effects, hsame.drawing,
      Display.performAll_drawing]
  · intro n hn
    rw [displays_run h.console, if_neg (by rw [h.region]; exact hn.symm)]
    exact h.cells n hn
  · rw [bells_run h.console, h.bells, rings_append, hsame.rings hbell, Nat.add_assoc]
  · intro j hj hidle k hk
    rw [consoles_run_of_ne hj.symm] at hk
    exact h.idle j hj hidle k hk

/-- Nothing that is drawn, and nothing that is seen of the console. -/
theorem aside (h : Advanced id s c s' c' es) (ha : Aside id s' s'') :
    Advanced id s c s'' c' es where
  sound := ha.sound
  console := ha.console.trans h.console
  region := h.region
  surface := by
    intro k
    obtain ⟨focused, hsurface⟩ := h.surface k
    obtain ⟨focused', hsurface'⟩ := ha.undrawn.surface id k
    have hsettings : s'.settings = (s.surface id k).settings :=
      (congrArg Surface.settings hsurface :)
    refine ⟨focused', ?_⟩
    rw [hsurface', hsurface, hsettings]
    rfl
  display := by
    obtain ⟨blank, hdisplay⟩ := ha.undrawn.displayOf c'
    rw [hdisplay]
    exact h.display
  cells := fun n hn => (ha.undrawn.cells n).trans (h.cells n hn)
  bells := ha.undrawn.bells.trans h.bells
  idle := fun j hj hj' => ha.idle j (h.idle j hj hj')

end Advanced

/-! ## Schedules -/

/-- Whether operations send the given bytes, in their order, to console `id`: one at a
time, as echoes or in runs, with flushes of the console, taken reports and changes of the
focus anywhere between them. Another console may be flushed as well, if nothing waits in
its queue; what waits there would be drawn. -/
inductive Delivers (s : Seat) (id : Nat) : List Operation → List UInt8 → Prop
  | nil : Delivers s id [] []
  | send (byte : UInt8) {ops : List Operation} {bytes : List UInt8} :
      Delivers s id ops bytes → Delivers s id (.send id byte :: ops) (byte :: bytes)
  | echo (byte : UInt8) {ops : List Operation} {bytes : List UInt8} :
      Delivers s id ops bytes → Delivers s id (.echo id byte :: ops) (byte :: bytes)
  | sendRun (run : List UInt8) {ops : List Operation} {bytes : List UInt8} :
      Delivers s id ops bytes → Delivers s id (.sendRun id run :: ops) (run ++ bytes)
  | flush {j : Nat} (hj : j ≠ id → s.Idle j) {ops : List Operation} {bytes : List UInt8} :
      Delivers s id ops bytes → Delivers s id (.flush j :: ops) bytes
  | acknowledge (j : Nat) {ops : List Operation} {bytes : List UInt8} :
      Delivers s id ops bytes → Delivers s id (.acknowledge j :: ops) bytes
  | focus (j : Nat) {ops : List Operation} {bytes : List UInt8} :
      Delivers s id ops bytes → Delivers s id (.focus j :: ops) bytes

/-- Whether console `id` of a seat is, up to what waits, the console that has gone from `c`
to `k` with these effects. -/
def Beside (id : Nat) (s : Seat) (c k : Console) (es : Array Effect) (s' : Seat) : Prop :=
  ∃ c' es', Advanced id s c s' c' es' ∧
    Console.SameStored (s.surface id c) ((s.displayOf c).setBlank c.blank) k es c' es'

namespace Beside

variable {k k' : Console} {es' : Array Effect}

theorem refl (hs : s.Sound) (hc : s.consoles[id]? = some c) : Beside id s c c #[] s :=
  ⟨c, #[], .refl hs hc, hs.drawn hc, hs.drawn hc, rfl, rfl, rfl⟩

theorem run (h : Beside id s c k es s') (hf : Console.Input f)
    (hsame : ∀ {c' : Console} {effects : Array Effect},
      Console.SameStored (s.surface id c) ((s.displayOf c).setBlank c.blank) k es c' effects →
        Console.SameStored (s.surface id c) ((s.displayOf c).setBlank c.blank) k' es'
          (f (s.surface id c) c').value (effects ++ (f (s.surface id c) c').effects)) :
    Beside id s c k' es' (s'.run id f) := by
  obtain ⟨c', effects, hadvanced, h⟩ := h
  exact ⟨_, _, hadvanced.run hf, hsame h⟩

theorem aside (h : Beside id s c k es s') (ha : Aside id s' s'') : Beside id s c k es s'' := by
  obtain ⟨c', effects, hadvanced, h⟩ := h
  exact ⟨c', effects, hadvanced.aside ha, h⟩

theorem sound (h : Beside id s c k es s') : s'.Sound := by
  obtain ⟨_, _, hadvanced, _⟩ := h
  exact hadvanced.sound

theorem idle (h : Beside id s c k es s') (hid : j ≠ id) (hj : s.Idle j) : s'.Idle j := by
  obtain ⟨_, _, hadvanced, _⟩ := h
  exact hadvanced.idle j hid hj

theorem flush (h : Beside id s c k es s') (hj : j ≠ id → s.Idle j) :
    Beside id s c k es (s'.apply (.flush j)) := by
  by_cases hid : j = id
  · subst hid
    have hrun := h.run .flush fun h => h.flush_right
    exact hrun
  · exact h.aside (aside_flush h.sound hid (h.idle hid (hj hid)))

theorem acknowledge (h : Beside id s c k es s') (j : Nat) :
    Beside id s c k es (s'.apply (.acknowledge j)) := by
  by_cases hid : j = id
  · subst hid
    have hrun := h.run .acknowledge fun h => by simpa using h.acknowledge_right
    exact hrun
  · exact h.aside (aside_acknowledge h.sound hid)

/-- **A schedule does what its bytes do**, but for what waits. -/
theorem deliver {ops : List Operation} {bytes : List UInt8} (hdelivers : Delivers s id ops bytes)
    (hcolumns : 0 < (s.surface id c).columns) :
    ∀ {k : Console} {es : Array Effect} {s' : Seat}, Beside id s c k es s' →
      Beside id s c (k.acceptAll (s.surface id c) bytes).value
        (es ++ (k.acceptAll (s.surface id c) bytes).effects) (s'.applyAll ops) := by
  have sim := Console.sameStored_simulation (s := s.surface id c)
    (d := (s.displayOf c).setBlank c.blank) hcolumns
  induction hdelivers with
  | nil =>
      intro k es s' h
      simpa [Console.acceptAll] using h
  | send byte _ ih =>
      intro k es s' h
      have hnext := ih (h.run (.accept byte) fun h => sim.accept h byte)
      rwa [Array.append_assoc] at hnext
  | echo byte _ ih =>
      intro k es s' h
      have hnext := ih (h.run (.echo byte) fun h => (sim.accept h byte).flush_right)
      rwa [Array.append_assoc] at hnext
  | sendRun run _ ih =>
      intro k es s' h
      have hrun := h.run (.acceptRun run) fun h => by
        rw [Console.acceptRun_eq]
        exact (sim.acceptAll run h).flush_right
      have hnext := ih hrun
      rw [Array.append_assoc] at hnext
      rw [Console.acceptAll_append]
      exact hnext
  | flush hj _ ih => exact fun h => ih (h.flush hj)
  | acknowledge j _ ih => exact fun h => ih (h.acknowledge j)
  | focus j _ ih => exact fun h => ih (h.aside (aside_focus h.sound j))

end Beside

/-- The memory of the console's display is as its effects left it. -/
theorem Advanced.memory (h : Advanced id s c s' c' es) :
    s'.displays[c.region.display]?.map (·.memory.cells) =
      some (((s.displayOf c).setBlank c.blank).performAll es).memory.cells := by
  rw [← h.region, h.sound.getElem?_display h.console, ← h.display]
  rfl

/-- Two advances with the same memory on the console's display have the same on all. -/
theorem Advanced.cells_eq {t : Seat} {k : Console} {es' : Array Effect}
    (h : Advanced id s c s' c' es) (h' : Advanced id s c t k es')
    (hdisplay : ((s.displayOf c).setBlank c.blank).performAll es' =
      ((s.displayOf c).setBlank c.blank).performAll es) :
    t.displays.map (·.memory.cells) = s'.displays.map (·.memory.cells) := by
  apply Array.ext_getElem?
  intro n
  rw [Array.getElem?_map, Array.getElem?_map]
  by_cases hn : n = c.region.display
  · rw [hn, h.memory, h'.memory, hdisplay]
  · rw [h.cells n hn, h'.cells n hn]

/-- Where a schedule and a flush lead. -/
theorem Delivers.settled {ops : List Operation} {bytes : List UInt8}
    (h : Delivers s id ops bytes) (hs : s.Sound) (hc : s.consoles[id]? = some c) :
    ∃ k es, Advanced id s c ((s.applyAll ops).flush id) k es ∧ k.queue = [] ∧
      Console.SameStored (s.surface id c) ((s.displayOf c).setBlank c.blank)
        (c.acceptAll (s.surface id c) bytes).value (c.acceptAll (s.surface id c) bytes).effects
        k es := by
  obtain ⟨k, es, hadvanced, hsame⟩ := Beside.deliver h (hs.holds hc).columns_pos (.refl hs hc)
  rw [Array.empty_append] at hsame
  exact ⟨_, _, hadvanced.run .flush, rfl, hsame.flush_right⟩

/-- A schedule for a console that does not exist draws nothing. -/
theorem Delivers.aside {ops : List Operation} {bytes : List UInt8} (h : Delivers s id ops bytes)
    (hc : s.consoles[id]? = none) :
    ∀ {s' : Seat}, Aside id s s' → Aside id s ((s'.applyAll ops).flush id) := by
  induction h with
  | nil => exact fun h => h.absent hc _
  | send byte _ ih => exact fun h => ih (h.absent hc fun surface c => c.accept surface byte)
  | echo byte _ ih => exact fun h => ih (h.absent hc fun surface c => c.echo surface byte)
  | sendRun run _ ih => exact fun h => ih (h.absent hc fun surface c => c.acceptRun surface run)
  | @flush j hj _ _ _ ih =>
      intro s' h
      by_cases hid : j = id
      · subst hid
        exact ih (h.absent hc _)
      · exact ih (h.trans (aside_flush h.sound hid (h.idle j (hj hid))))
  | acknowledge j _ ih =>
      intro s' h
      by_cases hid : j = id
      · subst hid
        exact ih (h.absent hc fun _ c => pure c.acknowledge)
      · exact ih (h.trans (aside_acknowledge h.sound hid))
  | focus j _ ih => exact fun h => ih (h.trans (aside_focus h.sound j))

/-- **Batching is invisible.** However bytes are sent to a console, and whatever flushes,
taken reports and changes of the focus come in between, after a last flush all memory holds
the same, the bell has rung as often, and the console has an empty queue and differs at
most in its report. -/
theorem batching_invisible {config : Config} (h : Reached config s) {xs ys : List Operation}
    {bytes : List UInt8} (hxs : Delivers s id xs bytes) (hys : Delivers s id ys bytes) :
    ((s.applyAll ys).flush id).displays.map (·.memory.cells) =
        ((s.applyAll xs).flush id).displays.map (·.memory.cells) ∧
      ((s.applyAll ys).flush id).journal.bells =
        ((s.applyAll xs).flush id).journal.bells ∧
      ∀ c, s.consoles[id]? = some c →
        ∃ k k', ((s.applyAll xs).flush id).consoles[id]? = some k ∧
          ((s.applyAll ys).flush id).consoles[id]? = some k' ∧
          k.queue = [] ∧ k' = { k with report := k'.report } := by
  cases hc : s.consoles[id]? with
  | none =>
      have hleft := (hxs.aside hc (.refl h.sound id)).undrawn
      have hright := (hys.aside hc (.refl h.sound id)).undrawn
      exact ⟨hright.memory.trans hleft.memory.symm, hright.bells.trans hleft.bells.symm, nofun⟩
  | some c =>
      obtain ⟨k, es, hleft, hqueue, hsame⟩ := hxs.settled h.sound hc
      obtain ⟨k', es', hright, hqueue', hsame'⟩ := hys.settled h.sound hc
      have hboth := hsame.symm.trans hsame'
      obtain ⟨hconsole, hdisplay⟩ := hboth.of_queue_eq_nil hqueue hqueue'
      refine ⟨hleft.cells_eq hright hdisplay, ?_, fun _ _ => ⟨k, k', hleft.console, hright.console,
        hqueue, hconsole⟩⟩
      rw [hleft.bells, hright.bells, hboth.rings]

/-- A character, a colour, the last column of a line, a character on the next and the bell. -/
def colored : List UInt8 := [0x42, 0x1B, 0x5B, 0x34, 0x31, 0x6D, 0x43, 0x44, 0x07]

/-- The same, with a flush and a change of focus within the escape sequence. -/
def coloredInPieces : List Operation :=
  [.send 1 0x42, .sendRun 1 [0x1B, 0x5B], .flush 1, .echo 1 0x34, .focus 1, .send 1 0x31,
    .send 1 0x6D, .sendRun 1 [0x43], .acknowledge 1, .flush 0, .send 1 0x44, .send 1 0x07]

/-- Both follow a character that still waits. -/
theorem batching_invisible_twoPages :
    ∃ s c, Reached twoPages s ∧ s.consoles[1]? = some c ∧ c.queue ≠ [] ∧
      Delivers s 1 coloredInPieces colored ∧
      ((s.applyAll coloredInPieces).flush 1).displays.map (·.memory.cells) =
        ((s.applyAll [.sendRun 1 colored]).flush 1).displays.map (·.memory.cells) ∧
      ((s.applyAll coloredInPieces).flush 1).journal.bells =
        ((s.applyAll [.sendRun 1 colored]).flush 1).journal.bells ∧
      ∃ k k', ((s.applyAll [.sendRun 1 colored]).flush 1).consoles[1]? = some k ∧
        ((s.applyAll coloredInPieces).flush 1).consoles[1]? = some k' ∧
        k.queue = [] ∧ k' = { k with report := k'.report } := by
  obtain ⟨s, c, hreached, hc, hwaits, hfirst⟩ : ∃ s c, Reached twoPages s ∧
      s.consoles[1]? = some c ∧ c.queue ≠ [] ∧ s.Idle 0 := by
    refine ⟨_, _, ⟨_, [.send 1 0x41], rfl, rfl⟩, rfl, by decide, ?_⟩
    intro c hc
    obtain rfl := Option.some.inj hc
    rfl
  have hpieces : Delivers s 1 coloredInPieces colored :=
    .send _ (.sendRun _ (.flush (fun h => absurd rfl h) (.echo _ (.focus 1 (.send _ (.send _
      (.sendRun _ (.acknowledge 1 (.flush (fun _ => hfirst) (.send _ (.send _ .nil)))))))))))
  obtain ⟨hcells, hbells, hconsole⟩ :=
    batching_invisible hreached (.sendRun colored .nil) hpieces
  exact ⟨s, c, hreached, hc, hwaits, hpieces, hcells, hbells, hconsole c hc⟩

end Seat

end TextConsole
