import TextConsole.Proofs.Screen

/-!
# Two consoles that show the same

Take two consoles on memories of any size, sort and division, with windows anywhere in
their regions, that show the same screen and agree in their cursor, renditions, queue,
escape state and report (`Mirror`). The same input keeps them so, although one may copy
its rows where the other shifts its window (`Mirror.accept`, `Mirror.acceptRun`): one
lemma for each kind of step makes mirrors a simulation (`mirror_simulation`).
-/

namespace TextConsole

/-! ## Effects that neither load blanks nor ring -/

/-- Whether an effect only touches cells and registers. -/
def Effect.IsPlain : Effect → Prop
  | .setBlank _ => False
  | .ring => False
  | _ => True

/-- How often the bell is rung. -/
def rings (effects : Array Effect) : Nat := effects.count .ring

@[simp] theorem rings_append (xs ys : Array Effect) : rings (xs ++ ys) = rings xs + rings ys :=
  Array.count_append

theorem rings_eq_zero {effects : Array Effect} (h : ∀ e ∈ effects, e.IsPlain) :
    rings effects = 0 := by
  apply Array.count_eq_zero.mpr
  intro hmem
  exact h _ hmem

theorem Display.blank_performAll {effects : Array Effect} (h : ∀ e ∈ effects, e.IsPlain)
    (d : Display) : (d.performAll effects).memory.blank = d.memory.blank := by
  refine performAll_induction (P := fun d' => d'.memory.blank = d.memory.blank) ?_ rfl
  intro d' e he hd'
  rw [blank_perform, hd']
  rintro r rfl
  exact h _ he

namespace Console

variable {s s' : Surface} {c c' : Console} {d d' : Display}

theorem plain_settle (row col : Int) : ∀ e ∈ (c.settle s row col).effects, e.IsPlain := by
  simp only [effects_settle, Array.mem_append, Output.mem_ite]
  rintro e (⟨_, rfl⟩ | ⟨_, rfl⟩) <;> trivial

theorem plain_scroll (dir : Direction) : ∀ e ∈ (c.scroll s dir).effects, e.IsPlain := by
  simp only [effects_scroll, scrollEffects, moveKeptRows_eq, Array.mem_append, Output.mem_ite,
    List.mem_toArray, List.mem_singleton]
  rintro e ((he | ((⟨_, rfl⟩ | rfl) | ⟨_, rfl⟩)) | he)
  · exact plain_settle _ _ e he
  · trivial
  · trivial
  · trivial
  · exact plain_settle _ _ e he

theorem plain_edit {command : Command} (hedit : command.IsEdit)
    (haddr : c.cursorAddr = c.addressOf s c.row c.col) :
    ∀ e ∈ (c.perform s command).effects, e.IsPlain := by
  rw [perform_edit hedit haddr]
  simp only [List.mem_toArray, List.mem_map]
  rintro e ⟨p, _, rfl⟩
  cases p <;> trivial

theorem plain_goHome (hs : s.Holds c.region) (h : c.OriginWithin s) :
    ∀ e ∈ (c.goHome s).effects, e.IsPlain := by
  simp only [effects_goHome hs h, Array.mem_append, Output.mem_ite]
  rintro e (⟨_, rfl⟩ | he)
  · trivial
  · exact plain_settle _ _ e he

theorem plain_loadRegisters : ∀ e ∈ (Seat.loadRegisters c).effects, e.IsPlain := by
  simp only [effects_loadRegisters, List.mem_toArray, List.mem_cons, List.not_mem_nil, or_false]
  rintro e (rfl | rfl) <;> trivial

theorem plain_clearWindow : ∀ e ∈ (Seat.clearWindow s c).effects, e.IsPlain := by
  simp only [effects_clearWindow, List.mem_toArray, List.mem_singleton]
  rintro e rfl
  trivial

/-! ## A console on its display -/

/-- Whether a console is in its place on a display that is as it knows it to be, with
its own rendition of blanks loaded. -/
structure Drawn (s : Surface) (c : Console) (d : Display) : Prop where
  holds : s.Holds c.region
  placed : c.WellPlaced s
  describes : s.Describes d
  blank : d.memory.blank = c.blank

theorem Drawn.blankCell (h : c.Drawn s d) : d.memory.blankCell = Cell.blank c.blank := by
  rw [VideoMemory.blankCell, h.blank]

/-- A step leaves the console's own rendition of blanks loaded. -/
theorem Step.blank {y : Output Console} (h : Step s c y) (hd : c.Drawn s d) :
    (d.performAll y.effects).memory.blank = y.value.blank := by
  have haddr := hd.placed.cursorAddr_of_queue_eq_nil
  cases h with
  | settle row col => rw [Display.blank_performAll (plain_settle row col), hd.blank]; rfl
  | scroll dir => rw [Display.blank_performAll (plain_scroll dir), hd.blank]; rfl
  | edit hqueue hedit =>
      rw [Display.blank_performAll (plain_edit hedit (haddr hqueue)), hd.blank,
        perform_edit hedit (haddr hqueue)]
  | recolor change hqueue =>
      rw [effects_changeRendition, value_changeRendition]
      cases change.blank? c.blank with
      | none => exact hd.blank
      | some blank => rfl
  | home =>
      rw [Display.blank_performAll (plain_goHome hd.holds hd.placed.origin_within), hd.blank,
        value_goHome hd.holds hd.placed.origin_within]
      rfl
  | place | ring | collect | acknowledge | point => exact hd.blank
  | clear => rw [Display.blank_performAll plain_clearWindow, hd.blank]; rfl

/-- Every step leaves a console in its place on its display. -/
theorem Step.drawn {y : Output Console} (h : Step s c y) (hd : c.Drawn s d) :
    y.value.Drawn s (d.performAll y.effects) where
  holds := by
    rw [h.region hd.holds hd.placed]
    exact hd.holds
  placed := h.wellPlaced hd.holds hd.placed
  describes := hd.describes.performAll _
  blank := h.blank hd

theorem Steps.drawn {y : Output Console} (h : Steps s c y) (hd : c.Drawn s d) :
    y.value.Drawn s (d.performAll y.effects) :=
  h.induction Step.drawn hd

end Console

/-! ## Mirrors -/

/-- Whether two surfaces ask for the same behaviour on screens of the same size. Memory,
the way to scroll and the focus may differ. -/
structure Surface.Alike (s s' : Surface) : Prop where
  screen : s'.settings.screen = s.settings.screen
  kind : s'.kind = s.kind
  tabWidth : s'.settings.behavior.tabWidth = s.settings.behavior.tabWidth
  lineWrap : s'.settings.behavior.lineWrap = s.settings.behavior.lineWrap
  bellEnabled : s'.settings.behavior.bellEnabled = s.settings.behavior.bellEnabled
  newlineReturnsCarriage :
    s'.settings.behavior.newlineReturnsCarriage = s.settings.behavior.newlineReturnsCarriage

namespace Surface.Alike

variable {s s' : Surface}

theorem columns (h : s.Alike s') : s'.columns = s.columns := congrArg Geometry.columns h.screen

theorem rows (h : s.Alike s') : s'.rows = s.rows := congrArg Geometry.rows h.screen

theorem size (h : s.Alike s') : s'.size = s.size := congrArg Geometry.size h.screen

theorem confineRow (h : s.Alike s') (row : Int) : s'.confineRow row = s.confineRow row := by
  rw [Surface.confineRow, Surface.confineRow, h.rows]

theorem confineColumn (h : s.Alike s') (col : Int) :
    s'.confineColumn col = s.confineColumn col := by
  rw [Surface.confineColumn, Surface.confineColumn, h.columns]

theorem nextTabStop (h : s.Alike s') (col : Nat) : s'.nextTabStop col = s.nextTabStop col :=
  Surface.nextTabStop_congr h.tabWidth col

theorem patches (h : s.Alike s') (row col : Nat) (command : Command) :
    command.patches s' row col = command.patches s row col := by
  cases command with
  | eraseInDisplay mode | eraseInLine mode =>
      cases mode <;> simp only [Command.patches, h.columns, h.size]
  | _ => simp only [Command.patches, h.columns, h.rows]

theorem scrolled (h : s.Alike s') (blank : Cell) (shown : Nat → Cell) (dir : Direction) (k : Nat) :
    dir.scrolled s' blank shown k = dir.scrolled s blank shown k := by
  have hexposed : dir.exposed s' = dir.exposed s := by
    cases dir <;> simp only [Direction.exposed, h.columns, h.size]
  have hsource : dir.source s' = dir.source s := by
    cases dir <;> simp only [Direction.source, h.columns]
  have htarget : dir.target s' = dir.target s := by
    cases dir <;> simp only [Direction.target, h.columns]
  rw [Direction.scrolled, Direction.scrolled, hexposed, hsource, htarget, h.columns]

end Surface.Alike

/-- Whether two consoles, each on a display of its own, agree in all but where they keep
their windows. -/
structure Mirror (s s' : Surface) (c : Console) (d : Display) (c' : Console) (d' : Display) :
    Prop where
  left : c.Drawn s d
  right : c'.Drawn s' d'
  row : c'.row = c.row
  col : c'.col = c.col
  pen : c'.pen = c.pen
  blank : c'.blank = c.blank
  queue : c'.queue = c.queue
  escape : c'.escape = c.escape
  report : c'.report = c.report
  shown : ∀ k < s.size, d'.shown c'.origin k = d.shown c.origin k

/-- Whether two computations end in mirrors, after ringing the bell as often. -/
structure Mirrored (s s' : Surface) (d d' : Display) (x x' : Output Console) : Prop where
  mirror : Mirror s s' x.value (d.performAll x.effects) x'.value (d'.performAll x'.effects)
  rings : rings x'.effects = rings x.effects

namespace Mirrored

variable {s s' : Surface} {d d' : Display} {x x' : Output Console}

/-- Computations one after the other. -/
theorem bind {f f' : Console → Output Console} (hx : Mirrored s s' d d' x x')
    (hf : Mirror s s' x.value (d.performAll x.effects) x'.value (d'.performAll x'.effects) →
      Mirrored s s' (d.performAll x.effects) (d'.performAll x'.effects) (f x.value) (f' x'.value)) :
    Mirrored s s' d d' (x >>= f) (x' >>= f') := by
  obtain ⟨hmirror, hrings⟩ := hf hx.mirror
  constructor
  · rw [Output.effects_bind, Output.effects_bind, Display.performAll_append,
      Display.performAll_append]
    exact hmirror
  · rw [Output.effects_bind, Output.effects_bind, rings_append, rings_append, hx.rings, hrings]

end Mirrored

namespace Mirror

variable {s s' : Surface} {c c' : Console} {d d' : Display}

theorem done (h : Mirror s s' c d c' d') : Mirrored s s' d d' (pure c) (pure c') := ⟨h, rfl⟩

/-! ## Steps on both sides -/

theorem waiting (ha : s.Alike s') (h : Mirror s s' c d c' d') :
    c'.waiting s' = c.waiting s := by
  rw [Console.waiting, Console.waiting, h.row, h.col, h.queue, ha.columns]

/-- What the screens show once the queues are stored. -/
theorem shown_waiting (ha : s.Alike s') (h : Mirror s s' c d c' d') :
    ∀ k < s.size, (c'.waiting s').apply d'.memory.blankCell (d'.shown c'.origin) k =
      (c.waiting s).apply d.memory.blankCell (d.shown c.origin) k := by
  intro k hk
  rw [h.waiting ha, h.right.blankCell, h.left.blankCell, h.blank]
  exact Patch.apply_congr h.left.placed.waiting_inside h.shown hk

theorem reportAt (h : Mirror s s' c d c' d') (col : Int) : c'.reportAt col = c.reportAt col := by
  rw [Console.reportAt, Console.reportAt, h.queue, h.report]

theorem settle (ha : s.Alike s') (h : Mirror s s' c d c' d') (row col : Int) :
    Mirrored s s' d d' (c.settle s row col) (c'.settle s' row col) where
  mirror := {
    left := (Console.Step.settle row col).drawn h.left
    right := (Console.Step.settle row col).drawn h.right
    row := ha.confineRow row
    col := ha.confineColumn col
    pen := h.pen
    blank := h.blank
    queue := rfl
    escape := h.escape
    report := h.reportAt col
    shown := by
      intro k hk
      have hk' : k < s'.size := by rwa [ha.size]
      exact (Console.shown_settle h.right.holds h.right.placed h.right.describes row col hk').trans
        ((h.shown_waiting ha k hk).trans
          (Console.shown_settle h.left.holds h.left.placed h.left.describes row col hk).symm) }
  rings := by
    rw [rings_eq_zero (Console.plain_settle row col), rings_eq_zero (Console.plain_settle row col)]

theorem flush (ha : s.Alike s') (h : Mirror s s' c d c' d') :
    Mirrored s s' d d' (c.flush s) (c'.flush s') := by
  rw [Console.flush, Console.flush, h.row, h.col]
  exact h.settle ha c.row c.col

theorem scroll (ha : s.Alike s') (h : Mirror s s' c d c' d') (dir : Direction) :
    Mirrored s s' d d' (c.scroll s dir) (c'.scroll s' dir) where
  mirror := {
    left := (Console.Step.scroll dir).drawn h.left
    right := (Console.Step.scroll dir).drawn h.right
    row := by
      rw [Console.row_scroll, Console.row_scroll, h.row, ha.confineRow, ha.confineRow]
    col := by
      rw [Console.col_scroll, Console.col_scroll, h.col, ha.confineColumn, ha.confineColumn]
    pen := h.pen
    blank := h.blank
    queue := rfl
    escape := h.escape
    report := by
      rw [Console.report_scroll, Console.report_scroll, h.col, h.reportAt]
    shown := by
      intro k hk
      have hk' : k < s'.size := by rwa [ha.size]
      rw [Console.shown_scroll h.right.holds h.right.placed h.right.describes dir hk',
        Console.shown_scroll h.left.holds h.left.placed h.left.describes dir hk, ha.scrolled,
        h.right.blankCell, h.left.blankCell, h.blank]
      apply dir.scrolled_congr h.left.holds.columns_le_size _ hk
      have hwaiting := h.shown_waiting ha
      rw [h.right.blankCell, h.left.blankCell, h.blank] at hwaiting
      exact hwaiting }
  rings := by
    rw [rings_eq_zero (Console.plain_scroll dir), rings_eq_zero (Console.plain_scroll dir)]

theorem edit (ha : s.Alike s') (h : Mirror s s' c d c' d') (hqueue : c.queue = [])
    {command : Command} (hedit : command.IsEdit) :
    Mirrored s s' d d' (c.perform s command) (c'.perform s' command) := by
  have hqueue' : c'.queue = [] := by rw [h.queue, hqueue]
  have haddr := h.left.placed.cursorAddr_of_queue_eq_nil hqueue
  have haddr' := h.right.placed.cursorAddr_of_queue_eq_nil hqueue'
  have hleft := (Console.Step.edit hqueue hedit).drawn h.left
  have hright := (Console.Step.edit hqueue' hedit).drawn h.right
  have hshown : ∀ k < s.size,
      (d'.performAll (c'.perform s' command).effects).shown c'.origin k =
        (d.performAll (c.perform s command).effects).shown c.origin k := by
    intro k hk
    rw [Console.shown_edit h.right.holds h.right.placed h.right.describes hqueue' hedit
        (by rwa [ha.size]),
      Console.shown_edit h.left.holds h.left.placed h.left.describes hqueue hedit hk,
      ha.patches, h.row, h.col, h.right.blankCell, h.left.blankCell, h.blank]
    exact Patch.applyAll_congr
      (command.inside_of_mem_patches h.left.placed.row_lt h.left.placed.col_le) h.shown k hk
  have hrings : rings (c'.perform s' command).effects = rings (c.perform s command).effects := by
    rw [rings_eq_zero (Console.plain_edit hedit haddr'),
      rings_eq_zero (Console.plain_edit hedit haddr)]
  have hvalue : (c.perform s command).value = c := by rw [Console.perform_edit hedit haddr]
  have hvalue' : (c'.perform s' command).value = c' := by rw [Console.perform_edit hedit haddr']
  rw [hvalue] at hleft
  rw [hvalue'] at hright
  refine ⟨?_, hrings⟩
  rw [hvalue, hvalue']
  exact { h with left := hleft, right := hright, shown := hshown }

theorem recolor (ha : s.Alike s') (h : Mirror s s' c d c' d') (hqueue : c.queue = [])
    (change : RenditionChange) :
    Mirrored s s' d d' (c.changeRendition s change) (c'.changeRendition s' change) := by
  have hqueue' : c'.queue = [] := by rw [h.queue, hqueue]
  have hleft := (Console.Step.recolor (s := s) change hqueue).drawn h.left
  have hright := (Console.Step.recolor (s := s') change hqueue').drawn h.right
  have hcell : ∀ (e : Display) (b : Option Rendition) (origin k : Nat),
      (e.performAll (b.elim #[] fun blank => #[.setBlank blank])).shown origin k =
        e.shown origin k := by
    intro e b origin k
    cases b <;> rfl
  have hsame : ∀ b : Option Rendition, rings (b.elim #[] fun blank => #[.setBlank blank]) = 0 := by
    intro b
    cases b <;> rfl
  constructor
  · simp only [Console.effects_changeRendition, Console.value_changeRendition] at hleft hright ⊢
    refine ⟨hleft, hright, h.row, h.col, ?_, ?_, h.queue, h.escape, h.report, ?_⟩
    · show change.pen s'.kind c'.blank c'.pen = change.pen s.kind c.blank c.pen
      rw [ha.kind, h.blank, h.pen]
    · show (change.blank? c'.blank).getD c'.blank = (change.blank? c.blank).getD c.blank
      rw [h.blank]
    · intro k hk
      rw [hcell, hcell]
      exact h.shown k hk
  · rw [Console.effects_changeRendition, Console.effects_changeRendition, hsame, hsame]

theorem chime (ha : s.Alike s') (h : Mirror s s' c d c' d') :
    Mirrored s s' d d' (c.chime s) (c'.chime s') := by
  rw [Console.chime, Console.chime, Console.emitIf_bell, Console.emitIf_bell, ha.bellEnabled]
  split
  · exact ⟨{ h with
      left := Console.Step.ring.drawn h.left
      right := Console.Step.ring.drawn h.right }, rfl⟩
  · exact h.done

theorem collect (h : Mirror s s' c d c' d') (escape : Escape.State) (hqueue : c.queue = []) :
    Mirrored s s' d d' (pure { c with escape := escape }) (pure { c' with escape := escape }) := by
  have hqueue' : c'.queue = [] := by rw [h.queue, hqueue]
  exact ⟨{ h with
    left := (Console.Step.collect escape hqueue).drawn h.left
    right := (Console.Step.collect escape hqueue').drawn h.right
    escape := rfl }, rfl⟩

theorem acknowledge (h : Mirror s s' c d c' d') :
    Mirrored s s' d d' (pure c.acknowledge) (pure c'.acknowledge) := by
  have hreport : c'.acknowledge.report = c.acknowledge.report := by
    rw [Console.acknowledge, Console.acknowledge, h.report]
  exact ⟨{ h with
    left := Console.Step.acknowledge.drawn h.left
    right := Console.Step.acknowledge.drawn h.right
    report := hreport }, rfl⟩

theorem point (h : Mirror s s' c d c' d') :
    Mirrored s s' d d' (Seat.loadRegisters c) (Seat.loadRegisters c') where
  mirror := { h with
    left := Console.Step.point.drawn h.left
    right := Console.Step.point.drawn h.right }
  rings := by
    rw [rings_eq_zero Console.plain_loadRegisters, rings_eq_zero Console.plain_loadRegisters]

theorem place (ha : s.Alike s') (h : Mirror s s' c d c' d') {code : UInt8}
    (hcol : c.col < s.columns) (hroom : c.queue.length < queueLimit)
    (hescape : c.escape.isCollecting = false) (hcode : ControlCode.ofByte? code = none) :
    Mirrored s s' d d' (pure (c.place code)) (pure (c'.place code)) := by
  have hright : (c'.place code).Drawn s' d' := by
    refine (Console.Step.place ?_ ?_ ?_ hcode).drawn h.right
    · rwa [h.col, ha.columns]
    · rwa [h.queue]
    · rwa [h.escape]
  have hcol' : (c'.place code).col = (c.place code).col := by
    rw [Console.col_place, Console.col_place, h.col]
  have hqueue' : (c'.place code).queue = (c.place code).queue := by
    rw [Console.queue_place, Console.queue_place, h.queue, h.pen]
  exact ⟨{ h with
    left := (Console.Step.place hcol hroom hescape hcode).drawn h.left
    right := hright
    col := hcol'
    queue := hqueue' }, rfl⟩

/-! ## Whole computations on both sides -/

theorem makeRoom (ha : s.Alike s') (h : Mirror s s' c d c' d') :
    Mirrored s s' d d' (c.makeRoom s) (c'.makeRoom s') := by
  rw [Console.makeRoom, Console.makeRoom, h.queue]
  split
  · exact h.done
  · exact h.flush ha

theorem enqueue (ha : s.Alike s') (h : Mirror s s' c d c' d') {code : UInt8}
    (hcol : c.col < s.columns) (hescape : c.escape.isCollecting = false)
    (hcode : ControlCode.ofByte? code = none) :
    Mirrored s s' d d' (c.enqueue s code) (c'.enqueue s' code) := by
  refine (h.makeRoom ha).bind fun h => h.place ha ?_ Console.length_queue_makeRoom ?_ hcode
  · rwa [Console.col_makeRoom hcol]
  · rwa [Console.escape_makeRoom]

end Mirror

/-- A further part of computations that are mirrored so far. -/
theorem Mirrored.ends {s s' : Surface} {c c' : Console} {d d' : Display} {es es' : Array Effect}
    {x x' : Output Console} (h : Mirrored s s' d d' ⟨c, es⟩ ⟨c', es'⟩)
    (hx : Mirror s s' c (d.performAll es) c' (d'.performAll es') →
      Mirrored s s' (d.performAll es) (d'.performAll es') x x') :
    Mirrored s s' d d' ⟨x.value, es ++ x.effects⟩ ⟨x'.value, es' ++ x'.effects⟩ := by
  have hboth : Mirrored s s' d d' (⟨c, es⟩ >>= fun _ => x) (⟨c', es'⟩ >>= fun _ => x') :=
    h.bind hx
  exact hboth

/-- **Mirrors take the same input alike.** -/
theorem mirror_simulation {s s' : Surface} (ha : s.Alike s') (hcolumns : 0 < s.columns)
    (d d' : Display) :
    Console.Simulation s s' fun c es c' es' => Mirrored s s' d d' ⟨c, es⟩ ⟨c', es'⟩ where
  columns_pos := hcolumns
  columns := ha.columns
  rows := ha.rows
  nextTabStop := ha.nextTabStop
  lineWrap := ha.lineWrap
  newlineReturnsCarriage := ha.newlineReturnsCarriage
  row := fun h => h.mirror.row
  col := fun h => h.mirror.col
  escape := fun h => h.mirror.escape
  quiet := fun h => ⟨h.mirror.left.placed.quiet, h.mirror.right.placed.quiet⟩
  enqueue := fun h hcol hescape hcode => h.ends fun h => h.enqueue ha hcol hescape hcode
  settle := fun row col h => h.ends fun h => h.settle ha row col
  scroll := fun dir h => h.ends fun h => h.scroll ha dir
  edit := fun h hqueue _ hedit => h.ends fun h => h.edit ha hqueue hedit
  recolor := fun change h hqueue _ => h.ends fun h => h.recolor ha hqueue change
  chime := fun h => h.ends fun h => h.chime ha
  collect := by
    intro c es c' es' escape h hqueue _
    have hend := h.ends fun h => h.collect escape hqueue
    simpa using hend
  acknowledge := by
    intro c es c' es' h
    have hend := h.ends fun h => h.acknowledge
    simpa using hend

namespace Mirror

variable {s s' : Surface} {c c' : Console} {d d' : Display}

theorem accept (ha : s.Alike s') (h : Mirror s s' c d c' d') (byte : UInt8) :
    Mirrored s s' d d' (c.accept s byte) (c'.accept s' byte) := by
  have hsim := mirror_simulation ha h.left.holds.columns_pos d d'
  simpa [Console.Link.Ends] using hsim.accept h.done byte

theorem acceptRun (ha : s.Alike s') (h : Mirror s s' c d c' d') (bytes : List UInt8) :
    Mirrored s s' d d' (c.acceptRun s bytes) (c'.acceptRun s' bytes) := by
  have hsim := mirror_simulation ha h.left.holds.columns_pos d d'
  simpa [Console.Link.Ends] using hsim.acceptRun h.done bytes

theorem echo (ha : s.Alike s') (h : Mirror s s' c d c' d') (byte : UInt8) :
    Mirrored s s' d d' (c.echo s byte) (c'.echo s' byte) :=
  (h.accept ha byte).bind fun h => h.flush ha

end Mirror

end TextConsole
