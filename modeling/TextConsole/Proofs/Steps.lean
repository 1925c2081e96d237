import TextConsole.Proofs.Simulation

/-!
# The steps of a console

Everything that a console computes is made of a few kinds of steps: a character is
put into the queue, the cursor settles, the screen scrolls, a command rearranges
cells, a rendition changes, the bell rings, the escape state moves on, the window
goes home. `Console.Step` lists them with what is known when they are taken, and
`Console.Steps` is a row of them. What clients do with a console is made of steps
(`input_steps`), because a row of steps is a law (`steps_law`); a property of all
computations then follows from one case for each kind of step (`Steps.induction`).
-/

namespace TextConsole

open Output

/-- An effect that is asked for under a condition. -/
theorem Output.mem_ite {p : Prop} [Decidable p] {e e' : Effect} :
    e ∈ (if p then #[e'] else #[]) ↔ p ∧ e = e' := by
  split <;> simp [*]

/-! ## The parts of a settled and of a scrolled console -/

namespace Console

variable {s : Surface} {c : Console}

@[simp] theorem region_settle (row col : Int) : (c.settle s row col).value.region = c.region := rfl

@[simp] theorem origin_settle (row col : Int) : (c.settle s row col).value.origin = c.origin := rfl

@[simp] theorem row_settle (row col : Int) :
    (c.settle s row col).value.row = s.confineRow row := rfl

@[simp] theorem col_settle (row col : Int) :
    (c.settle s row col).value.col = s.confineColumn col := rfl

@[simp] theorem cursorAddr_settle (row col : Int) :
    (c.settle s row col).value.cursorAddr =
      c.addressOf s (s.confineRow row) (s.confineColumn col) := rfl

@[simp] theorem pen_settle (row col : Int) : (c.settle s row col).value.pen = c.pen := rfl

@[simp] theorem blank_settle (row col : Int) : (c.settle s row col).value.blank = c.blank := rfl

@[simp] theorem queue_settle (row col : Int) : (c.settle s row col).value.queue = [] := rfl

@[simp] theorem escape_settle (row col : Int) : (c.settle s row col).value.escape = c.escape := rfl

@[simp] theorem report_settle (row col : Int) :
    (c.settle s row col).value.report = c.reportAt col := rfl

theorem effects_settle (row col : Int) :
    (c.settle s row col).effects =
      (if c.queue ≠ [] then #[Effect.write c.cursorAddr c.queue] else #[]) ++
      if s.focused = true ∧ c.addressOf s (s.confineRow row) (s.confineColumn col) ≠ c.cursorAddr
      then #[Effect.setRegister .cursor (c.addressOf s (s.confineRow row) (s.confineColumn col))]
      else #[] := by
  simp [settle]

/-- A console with an empty queue has nothing to report. -/
theorem reportAt_of_queue_eq_nil (h : c.queue = []) (col : Int) : c.reportAt col = c.report :=
  if_pos h

/-- The console once its queue is stored, before its screen scrolls. -/
abbrev flushed (s : Surface) (c : Console) : Console := (c.flush s).value

/-- Where the window starts after a scroll. -/
def nextOrigin (s : Surface) (d : Direction) (c : Console) : Nat :=
  (c.flushed s).scrolledOrigin s d ((c.flushed s).scrollMethod s d)

/-- The effects of a scroll, between those of the two flushes. -/
def scrollEffects (s : Surface) (d : Direction) (c : Console) : Array Effect :=
  (if (c.flushed s).scrollMethod s d ≠ .shift
    then #[(c.flushed s).moveKeptRows s (c.nextOrigin s d) d] else #[]) ++
  #[.fill (exposedRow s (c.nextOrigin s d) d) s.columns] ++
  if s.focused = true then #[.setRegister .origin (c.nextOrigin s d)] else #[]

theorem value_scroll (d : Direction) :
    (c.scroll s d).value = ({ c.flushed s with origin := c.nextOrigin s d } : Console).flushed s :=
  rfl

theorem effects_scroll (d : Direction) :
    (c.scroll s d).effects =
      (c.flush s).effects ++ c.scrollEffects s d ++
        (flush s { c.flushed s with origin := c.nextOrigin s d }).effects := by
  simp [scroll, scrollEffects, nextOrigin, Array.append_assoc]

@[simp] theorem region_scroll (d : Direction) : (c.scroll s d).value.region = c.region := rfl

@[simp] theorem row_scroll (d : Direction) :
    (c.scroll s d).value.row = s.confineRow (s.confineRow c.row : Nat) := rfl

@[simp] theorem col_scroll (d : Direction) :
    (c.scroll s d).value.col = s.confineColumn (s.confineColumn c.col : Nat) := rfl

@[simp] theorem pen_scroll (d : Direction) : (c.scroll s d).value.pen = c.pen := rfl

@[simp] theorem blank_scroll (d : Direction) : (c.scroll s d).value.blank = c.blank := rfl

@[simp] theorem report_scroll (d : Direction) :
    (c.scroll s d).value.report = c.reportAt c.col := rfl

@[simp] theorem queue_scroll (d : Direction) : (c.scroll s d).value.queue = [] := rfl

@[simp] theorem escape_scroll (d : Direction) : (c.scroll s d).value.escape = c.escape := rfl

@[simp] theorem escape_place (code : UInt8) : (c.place code).escape = c.escape := rfl

@[simp] theorem col_place (code : UInt8) : (c.place code).col = c.col + 1 := rfl

@[simp] theorem queue_place (code : UInt8) :
    (c.place code).queue = c.queue ++ [Cell.ofCode code c.pen] := rfl

@[simp] theorem addressOf_place (code : UInt8) (row col : Nat) :
    (c.place code).addressOf s row col = c.addressOf s row col := rfl

theorem value_changeRendition (change : RenditionChange) :
    (c.changeRendition s change).value =
      { c with
        pen := change.pen s.kind c.blank c.pen
        blank := (change.blank? c.blank).getD c.blank } := by
  unfold changeRendition
  cases h : change.blank? c.blank <;> rfl

theorem effects_changeRendition (change : RenditionChange) :
    (c.changeRendition s change).effects =
      (change.blank? c.blank).elim #[] fun blank => #[.setBlank blank] := by
  unfold changeRendition
  cases h : change.blank? c.blank <;> rfl

@[simp] theorem effects_loadRegisters :
    (Seat.loadRegisters c).effects =
      #[.setRegister .origin c.origin, .setRegister .cursor c.cursorAddr] := rfl

@[simp] theorem effects_clearWindow : (Seat.clearWindow s c).effects = #[.fill c.origin s.size] :=
  rfl

/-- The moves of a window that goes home, and where it arrives. -/
def homeward (s : Surface) (c : Console) : Output Nat :=
  if s.wraps then
    ⟨c.region.start, if c.origin ≠ c.region.start then
      #[.copy c.origin c.region.start s.size] else #[]⟩
  else descend s c.region.start c.origin

theorem goHome_eq :
    c.goHome s = (do
      let origin ← c.homeward s
      flush s { c with origin := origin }) := by
  unfold goHome homeward
  split
  · rfl
  · rfl

/-! ## Steps -/

/-- One step of a console, with what is known of the console when it is taken. -/
inductive Step (s : Surface) (c : Console) : Output Console → Prop
  | place {code : UInt8} (hcol : c.col < s.columns) (hroom : c.queue.length < queueLimit)
      (hescape : c.escape.isCollecting = false) (hcode : ControlCode.ofByte? code = none) :
      Step s c (pure (c.place code))
  | settle (row col : Int) : Step s c (c.settle s row col)
  | scroll (d : Direction) : Step s c (c.scroll s d)
  | edit {command : Command} (hqueue : c.queue = []) (hedit : command.IsEdit) :
      Step s c (c.perform s command)
  | recolor (change : RenditionChange) (hqueue : c.queue = []) :
      Step s c (c.changeRendition s change)
  | ring : Step s c ⟨c, #[.ring]⟩
  | collect (escape : Escape.State) (hqueue : c.queue = []) :
      Step s c (pure { c with escape := escape })
  | acknowledge : Step s c (pure c.acknowledge)
  | home : Step s c (c.goHome s)
  | point : Step s c (Seat.loadRegisters c)
  | clear : Step s c (Seat.clearWindow s c)

/-- A row of steps, with the effects of all of them. -/
inductive Steps (s : Surface) (c : Console) : Output Console → Prop
  | done : Steps s c (pure c)
  | next {x y : Output Console} (hx : Steps s c x) (hy : Step s x.value y) :
      Steps s c ⟨y.value, x.effects ++ y.effects⟩

namespace Steps

variable {s : Surface} {c : Console} {x : Output Console}

theorem one (h : Step s c x) : Steps s c x := by
  have := next done h
  simpa using this

/-- Steps after steps. -/
theorem bind {f : Console → Output Console} (hx : Steps s c x)
    (hf : Steps s x.value (f x.value)) : Steps s c (x >>= f) := by
  have key : ∀ {y : Output Console}, Steps s x.value y →
      Steps s c ⟨y.value, x.effects ++ y.effects⟩ := by
    intro y hy
    induction hy with
    | done => simpa using hx
    | next _ hz ih =>
        rw [← Array.append_assoc]
        exact next ih hz
  exact key hf

/-- What every step keeps, of a console and the display it is drawn on, a row of
steps keeps. -/
theorem induction {P : Console → Display → Prop}
    (step : ∀ {c : Console} {d : Display} {y : Output Console},
      Step s c y → P c d → P y.value (d.performAll y.effects))
    (h : Steps s c x) {d : Display} (hP : P c d) : P x.value (d.performAll x.effects) := by
  induction h with
  | done => simpa [Display.performAll] using hP
  | next _ hy ih =>
      rw [Display.performAll_append]
      exact step hy ih

/-- What every step keeps of a console, a row of steps keeps. -/
theorem induction_value {P : Console → Prop}
    (step : ∀ {c : Console} {y : Output Console}, Step s c y → P c → P y.value)
    (h : Steps s c x) (hP : P c) : P x.value := by
  induction h with
  | done => exact hP
  | next _ hy ih =>
      have hPy := step hy ih
      exact hPy

/-- If each step asks only for effects of some sort as long as the console is as it
should be, then so does a row of steps. -/
theorem forall_effects {P : Console → Prop} {Q : Effect → Prop}
    (step : ∀ {c : Console} {y : Output Console}, Step s c y → P c →
      P y.value ∧ ∀ e ∈ y.effects, Q e)
    (h : Steps s c x) (hP : P c) : P x.value ∧ ∀ e ∈ x.effects, Q e := by
  induction h with
  | done => exact ⟨hP, by simp⟩
  | next _ hy ih =>
      obtain ⟨hPx, hQx⟩ := ih
      obtain ⟨hPy, hQy⟩ := step hy hPx
      refine ⟨hPy, ?_⟩
      intro e he
      rcases Array.mem_append.mp he with he | he
      · exact hQx e he
      · exact hQy e he

end Steps

/-! ## Computations as steps -/

variable {s : Surface} {c : Console}

theorem Step.quiet {y : Output Console} (h : Step s c y) (hc : c.Quiet) : y.value.Quiet := by
  cases h with
  | place _ _ hescape _ =>
      intro hcollect
      simp [hescape] at hcollect
  | settle | scroll => exact fun _ => rfl
  | home =>
      rw [goHome_eq]
      exact fun _ => rfl
  | edit hqueue hedit =>
      rename_i command
      cases command <;> first
        | exact hc
        | exact hedit.elim
  | recolor change hqueue =>
      intro _
      rw [value_changeRendition]
      exact hqueue
  | ring | acknowledge | point | clear => exact hc
  | collect _ hqueue => exact fun _ => hqueue

theorem Steps.quiet {x : Output Console} (h : Steps s c x) (hc : c.Quiet) : x.value.Quiet :=
  h.induction_value Step.quiet hc

theorem flush_steps : Steps s c (c.flush s) := .one (.settle ..)

theorem makeRoom_steps : Steps s c (c.makeRoom s) := by
  unfold makeRoom
  split
  · exact .done
  · exact flush_steps

theorem length_queue_makeRoom : (c.makeRoom s).value.queue.length < queueLimit := by
  unfold makeRoom
  split
  · assumption
  · exact Nat.zero_lt_succ 79

/-- Making room leaves a cursor within the line where it is. -/
theorem col_makeRoom (h : c.col < s.columns) : (c.makeRoom s).value.col = c.col := by
  unfold makeRoom
  split
  · rfl
  · show s.confineColumn c.col = c.col
    unfold Surface.confineColumn
    omega

theorem escape_makeRoom : (c.makeRoom s).value.escape = c.escape := by
  unfold makeRoom
  split <;> rfl

/-- A character for which the line has room. -/
theorem enqueue_steps {code : UInt8} (hcol : c.col < s.columns)
    (hescape : c.escape.isCollecting = false) (hcode : ControlCode.ofByte? code = none) :
    Steps s c (c.enqueue s code) := by
  refine makeRoom_steps.bind (.one (.place ?_ length_queue_makeRoom ?_ hcode))
  · rwa [col_makeRoom hcol]
  · rwa [escape_makeRoom]

theorem wrapLine_steps : Steps s c (c.wrapLine s) := by
  unfold wrapLine
  split
  · exact .one (.settle ..)
  · exact (Steps.one (.scroll .up)).bind (.one (.settle ..))

theorem emitIf_bell (p : Prop) [Decidable p] :
    (do Output.emitIf p .ring; return c : Output Console) =
      if p then ⟨c, #[.ring]⟩ else pure c := by
  split <;> ext1 <;> simp [*]

/-- **A row of steps is a law**: it goes on with whatever input does. -/
theorem steps_law (hcolumns : 0 < s.columns) :
    Law s fun k es => Steps s c ⟨k, es⟩ ∧ k.Quiet where
  columns_pos := hcolumns
  quiet := fun h => h.2
  enqueue := by
    rintro k es code ⟨h, hquiet⟩ hcol hescape hcode
    have hsteps := enqueue_steps (s := s) hcol hescape hcode
    exact ⟨h.bind (f := fun k => k.enqueue s code) hsteps, hsteps.quiet hquiet⟩
  settle := fun row col ⟨h, _⟩ => ⟨h.next (.settle row col), fun _ => rfl⟩
  scroll := fun d ⟨h, _⟩ => ⟨h.next (.scroll d), fun _ => rfl⟩
  edit := by
    rintro k es command ⟨h, hquiet⟩ hqueue hedit
    have hstep : Step s k (k.perform s command) := .edit hqueue hedit
    exact ⟨h.next hstep, hstep.quiet hquiet⟩
  recolor := by
    rintro k es change ⟨h, hquiet⟩ hqueue
    have hstep : Step s k (k.changeRendition s change) := .recolor change hqueue
    exact ⟨h.next hstep, hstep.quiet hquiet⟩
  chime := by
    rintro k es ⟨h, hquiet⟩
    have hsteps : Steps s k (k.chime s) := by
      unfold chime
      rw [emitIf_bell]
      split
      · exact .one .ring
      · exact .done
    exact ⟨h.bind (f := fun k => k.chime s) hsteps, hsteps.quiet hquiet⟩
  collect := by
    rintro k es escape ⟨h, _⟩ hqueue
    have hnext := h.next (.collect escape hqueue)
    exact ⟨by simpa using hnext, fun _ => hqueue⟩
  acknowledge := by
    rintro k es ⟨h, hquiet⟩
    have hnext := h.next .acknowledge
    exact ⟨by simpa using hnext, hquiet⟩

/-- What clients do with a console is made of steps. -/
theorem input_steps {f : Surface → Console → Output Console} (hcolumns : 0 < s.columns)
    (hc : c.Quiet) (hf : Input f) : Steps s c (f s c) := by
  have hlaw := (steps_law hcolumns).input hf ⟨.done, hc⟩
  simpa using hlaw.1

theorem accept_steps (hcolumns : 0 < s.columns) (hc : c.Quiet) (byte : UInt8) :
    Steps s c (c.accept s byte) :=
  input_steps hcolumns hc (.accept byte)

theorem acceptFast_steps (hcolumns : 0 < s.columns) (hc : c.Quiet) (byte : UInt8) :
    Steps s c (c.acceptFast s byte) := by
  rw [acceptFast_eq]
  exact accept_steps hcolumns hc byte

theorem foldl_acceptFast_steps (hcolumns : 0 < s.columns) (hc : c.Quiet) (bytes : List UInt8) :
    Steps s c (bytes.foldl (fun out byte => do (← out).acceptFast s byte) (pure c)) := by
  have key : ∀ {x : Output Console}, Steps s c x →
      Steps s c (bytes.foldl (fun out byte => do (← out).acceptFast s byte) x) := by
    induction bytes with
    | nil => exact fun hx => hx
    | cons byte bytes ih =>
        intro x hx
        exact ih (hx.bind (acceptFast_steps hcolumns (hx.quiet hc) byte))
  exact key .done

end Console

end TextConsole
