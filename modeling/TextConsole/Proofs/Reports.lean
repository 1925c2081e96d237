import TextConsole.Proofs.Sequences
import TextConsole.Proofs.TabStops

/-!
# What a console reports

A report tells whether cells have been stored since it was last taken, and in which column the
last flush that stored some left the cursor. One byte can make a console flush more than once,
and move its cursor between the flushes. So a computation is followed flush by flush, and each
flush that stores cells is kept with the console that it leaves (`Console.Storing`).

Where a computation is followed like this, its report is that of the last flush that was kept
(`Console.Storing.report_eq`). The report says for certain that cells were stored. Its column is
the one that the cursor was sent to, and the flush confines the cursor to the line only when the
report has been made. So the two columns are the same unless a cursor is sent past the end of a
line with cells to store, and only a tab does that: from a queue that holds something, the stop
that it is carried over to on the next line can lie past the end of that line as well
(`Surface.Reaches`).
-/

namespace TextConsole

/-- Whether an effect stores the cells of a queue. -/
def Effect.IsWrite : Effect → Prop
  | .write _ _ => True
  | _ => False

namespace Output

variable {α β : Type} {e : Effect}

/-- Whether a computation stores no queue. -/
def Silent (x : Output α) : Prop := ∀ e ∈ x.effects, ¬ e.IsWrite

theorem silent_pure (a : α) : (pure a : Output α).Silent := by
  simp [Silent]

theorem silent_emit (h : ¬ e.IsWrite) : (emit e).Silent := by
  simpa [Silent] using h

theorem silent_emitIf (p : Prop) [Decidable p] (h : ¬ e.IsWrite) : (emitIf p e).Silent := by
  intro e' he'
  obtain ⟨_, rfl⟩ := mem_ite.mp he'
  exact h

theorem Silent.bind {x : Output α} {f : α → Output β} (hx : x.Silent) (hf : (f x.value).Silent) :
    (x >>= f).Silent := by
  intro e he
  rcases Array.mem_append.mp he with he | he
  · exact hx e he
  · exact hf e he

end Output

namespace Console

open Output

variable {s : Surface} {c k : Console} {x : Output Console} {ks ls : List Console}

/-! ## Flush by flush -/

/-- How a computation stores queues, one flush after the other. With it come the consoles as the
flushes that store cells leave them. What lies between these flushes stores nothing and keeps
the report. -/
inductive Storing (s : Surface) : Console → Output Console → List Console → Prop
  | still {c : Console} {x : Output Console} (hreport : x.value.report = c.report)
      (hsilent : x.Silent) : Storing s c x []
  | store {c : Console} (row col : Int) (hqueue : c.queue ≠ []) :
      Storing s c (c.settle s row col) [(c.settle s row col).value]
  | bind {c : Console} {x : Output Console} {f : Console → Output Console} {ks ls : List Console}
      (hx : Storing s c x ks) (hf : Storing s x.value (f x.value) ls) :
      Storing s c (x >>= f) (ks ++ ls)

/-- **The report is that of the last flush that stored cells.** -/
theorem Storing.report_eq (h : Storing s c x ks) :
    x.value.report = (ks.getLast?.getD c).report := by
  induction h with
  | still hreport _ => exact hreport
  | store => rfl
  | @bind c x f ks ls _ _ ihx ihf =>
      rw [List.getLast?_append]
      cases hlast : ls.getLast? with
      | none =>
          rw [hlast] at ihf
          exact ihf.trans ihx
      | some k =>
          rw [hlast] at ihf
          exact ihf

/-- Each of these flushes reports that cells were stored. It leaves the cursor in the column of
its report, or at the end of the line if that is past the end. -/
theorem Storing.stored (h : Storing s c x ks) :
    ∀ k ∈ ks, k.report.fresh = true ∧ min k.report.column s.columns = k.col := by
  induction h with
  | still => exact List.forall_mem_nil _
  | store row col hqueue =>
      intro k hk
      rw [List.mem_singleton.mp hk, report_settle, reportAt, if_neg hqueue, col_settle]
      refine ⟨rfl, ?_⟩
      show min col.toNat s.columns = s.confineColumn col
      unfold Surface.confineColumn
      omega
  | bind _ _ ihx ihf => exact List.forall_mem_append.mpr ⟨ihx, ihf⟩

end Console

/-! ## How far a cursor is sent -/

/-- Whether no cursor is sent past a column of a line with cells to store: neither within a line,
nor by a tab that is carried over to the next one. -/
structure Surface.Reaches (s : Surface) (reach : Nat) : Prop where
  columns_le : s.columns ≤ reach
  stop_le : ∀ col ≤ s.columns, s.nextTabStop col ≤ reach + s.columns

namespace Console

open Output

variable {s : Surface} {c k : Console} {x : Output Console} {reach : Nat}

/-- Whether a computation can be followed flush by flush, with no report past a column. To know
the kinds of its steps is not enough, since it matters where each of them sends the cursor. -/
def Reports (reach : Nat) (s : Surface) (c : Console) (x : Output Console) : Prop :=
  ∃ ks, Storing s c x ks ∧ ∀ k ∈ ks, k.report.column ≤ reach

theorem Reports.still (hreport : x.value.report = c.report) (hsilent : x.Silent) :
    Reports reach s c x :=
  ⟨[], .still hreport hsilent, List.forall_mem_nil _⟩

theorem Reports.pure (h : k.report = c.report) : Reports reach s c (pure k) :=
  .still h (silent_pure k)

theorem Reports.bind {f : Console → Output Console} (hx : Reports reach s c x)
    (hf : Reports reach s x.value (f x.value)) : Reports reach s c (x >>= f) := by
  obtain ⟨ks, hks, hle⟩ := hx
  obtain ⟨ls, hls, hle'⟩ := hf
  exact ⟨ks ++ ls, hks.bind hls, List.forall_mem_append.mpr ⟨hle, hle'⟩⟩

/-- A computation of a console that has been changed without its report. -/
theorem Reports.after (h : k.report = c.report) (hx : Reports reach s k x) :
    Reports reach s c x := by
  have hbind := Reports.bind (f := fun _ => x) (Reports.pure h) hx
  rwa [pure_bind] at hbind

/-- Without a queue, nothing is stored wherever the cursor goes. -/
theorem silent_settle (hqueue : c.queue = []) (row col : Int) : (c.settle s row col).Silent := by
  intro e he
  rw [effects_settle, if_neg (by simpa using hqueue), Array.empty_append] at he
  obtain ⟨_, rfl⟩ := Output.mem_ite.mp he
  exact id

theorem reports_settle_of_queue_eq_nil (hqueue : c.queue = []) (row col : Int) :
    Reports reach s c (c.settle s row col) :=
  .still (reportAt_of_queue_eq_nil hqueue col) (silent_settle hqueue row col)

theorem reports_settle (row : Int) {col : Int} (hcol : col ≤ reach) :
    Reports reach s c (c.settle s row col) := by
  by_cases hqueue : c.queue = []
  · exact reports_settle_of_queue_eq_nil hqueue row col
  · refine ⟨_, .store row col hqueue, ?_⟩
    intro k hk
    rw [List.mem_singleton.mp hk, report_settle, reportAt, if_neg hqueue]
    show col.toNat ≤ reach
    omega

/-- A tab past the end of the line reports a column that is counted from the end, however far
that is. -/
theorem report_tabulate_of_lt (hqueue : c.queue ≠ []) (hstop : s.columns < s.nextTabStop c.col) :
    (c.tabulate s).value.report = ⟨s.nextTabStop c.col - s.columns, true⟩ := by
  have hreport : c.reportAt (s.nextTabStop c.col - s.columns : Int) =
      ⟨s.nextTabStop c.col - s.columns, true⟩ := by
    rw [reportAt, if_neg hqueue]
    congr 1
    omega
  unfold tabulate lineFeed
  dsimp only
  rw [if_neg (by omega)]
  split
  · exact hreport
  · exact hreport

section

variable (hr : s.Reaches reach)
include hr

theorem reports_flush (hcol : c.col ≤ s.columns) : Reports reach s c (c.flush s) := by
  have hle := hr.columns_le
  exact reports_settle _ (by omega)

/-- The flush at the end of a scroll finds nothing to store. -/
theorem reports_scroll (hcol : c.col ≤ s.columns) (d : Direction) :
    Reports reach s c (c.scroll s d) := by
  refine (reports_flush hr hcol).bind (.still rfl ?_)
  refine (silent_emitIf _ ?_).bind ((silent_emit ?_).bind ((silent_emitIf _ ?_).bind
    (silent_settle rfl _ _)))
  · cases d <;> exact id
  · exact id
  · exact id

theorem reports_lineFeed {col : Int} (hcol : col ≤ reach) :
    Reports reach s c (c.lineFeed s col) := by
  unfold lineFeed
  split
  · exact reports_settle _ hcol
  · exact (reports_settle _ hcol).bind (reports_scroll hr (confineColumn_le col) .up)

theorem reports_wrapLine (hcol : c.col ≤ s.columns) : Reports reach s c (c.wrapLine s) := by
  unfold wrapLine
  split
  · exact reports_settle _ (by omega)
  · exact (reports_scroll hr hcol .up).bind (reports_settle _ (by omega))

theorem reports_enqueue (hcol : c.col ≤ s.columns) (code : UInt8) :
    Reports reach s c (c.enqueue s code) := by
  refine Reports.bind ?_ (.pure rfl)
  unfold makeRoom
  split
  · exact .pure rfl
  · exact reports_flush hr hcol

theorem reports_print (hcol : c.col ≤ s.columns) (code : UInt8) :
    Reports reach s c (c.print s code) := by
  rw [print_eq]
  split
  · exact reports_enqueue hr hcol code
  · split
    · refine (reports_wrapLine hr hcol).bind (reports_enqueue hr ?_ code)
      rw [col_wrapLine]
      exact Nat.zero_le _
    · exact .pure rfl

theorem reports_backspace (hcol : c.col ≤ s.columns) : Reports reach s c (c.backspace s) := by
  have hle := hr.columns_le
  unfold backspace
  split
  · exact reports_settle _ (by omega)
  · split
    · exact reports_settle _ (by omega)
    · exact reports_flush hr hcol

/-- **Only a tab** sends the cursor past the end of a line with cells to store. -/
theorem reports_tabulate (hcol : c.col ≤ s.columns) : Reports reach s c (c.tabulate s) := by
  have hle := hr.columns_le
  have hstop := hr.stop_le c.col hcol
  unfold tabulate
  dsimp only
  split
  · exact reports_settle _ (by omega)
  · exact reports_lineFeed hr (by omega)

theorem reports_control (hcol : c.col ≤ s.columns) (code : ControlCode) :
    Reports reach s c (c.control s code) := by
  have hle := hr.columns_le
  cases code with
  | null => exact .pure rfl
  | bell =>
      exact (reports_flush hr hcol).bind (.still rfl ((silent_emitIf _ id).bind (silent_pure _)))
  | backspace => exact reports_backspace hr hcol
  | tab => exact reports_tabulate hr hcol
  | lineFeed =>
      refine reports_lineFeed hr ?_
      split <;> omega
  | verticalTab | formFeed => exact reports_lineFeed hr (by omega)
  | carriageReturn => exact reports_settle _ (by omega)
  | escape => exact (reports_flush hr hcol).bind (.pure rfl)

/-- Commands are carried out when the queue has been stored. -/
theorem reports_perform (hcol : c.col ≤ s.columns) (hqueue : c.queue = []) (command : Command) :
    Reports reach s c (c.perform s command) := by
  cases command with
  | reverseIndex =>
      rw [perform]
      split
      · exact reports_scroll hr hcol .down
      · exact reports_settle_of_queue_eq_nil hqueue _ _
  | cursorUp | cursorDown | cursorForward | cursorBackward | cursorPosition =>
      exact reports_settle_of_queue_eq_nil hqueue _ _
  | eraseInDisplay mode | eraseInLine mode =>
      refine .still rfl ((silent_emit ?_).bind (silent_pure _))
      cases mode <;> exact id
  | insertLines | deleteLines | insertChars | deleteChars =>
      exact .still rfl (((silent_emit id).bind (silent_emit id)).bind (silent_pure _))
  | changeRendition change =>
      refine .still (by rw [perform, value_changeRendition]) ?_
      intro e he
      rw [perform, effects_changeRendition] at he
      cases hblank : change.blank? c.blank with
      | none => simp [hblank] at he
      | some blank =>
          rw [hblank, Option.elim_some, List.mem_toArray, List.mem_singleton] at he
          rw [he]
          exact id

theorem reports_execute (hcol : c.col ≤ s.columns) (sequence : Escape.Sequence) :
    Reports reach s c (c.execute s sequence) := by
  refine (reports_flush hr hcol).bind ?_
  split
  · exact .pure rfl
  · exact reports_perform hr (confineColumn_le _) rfl _

theorem reports_accept (hcol : c.col ≤ s.columns) (byte : UInt8) :
    Reports reach s c (c.accept s byte) := by
  unfold accept
  split
  · unfold continueEscape
    dsimp only
    split
    · exact .pure rfl
    · refine .after (k := { c with escape := (c.escape.advance byte).1 }) rfl
        (reports_execute hr ?_ _)
      exact hcol
  · split
    · exact reports_control hr hcol _
    · exact reports_print hr hcol byte

end

section

variable (hr : s.Reaches reach)
include hr

theorem reports_acceptRun (hs : s.Holds c.region) (hc : c.WellPlaced s) (bytes : List UInt8) :
    Reports reach s c (c.acceptRun s bytes) := by
  rw [acceptRun_eq]
  induction bytes generalizing c with
  | nil =>
      rw [acceptAll, pure_bind]
      exact reports_flush hr hc.col_le
  | cons byte bytes ih =>
      obtain ⟨hregion, hplaced⟩ := (accept_steps hs.columns_pos hc.quiet byte).wellPlaced hs hc
      rw [acceptAll, bind_assoc]
      exact (reports_accept hr hc.col_le byte).bind (ih (by rwa [hregion]) hplaced)

theorem reports_echo (hs : s.Holds c.region) (hc : c.WellPlaced s) (byte : UInt8) :
    Reports reach s c (c.echo s byte) := by
  have hplaced := ((accept_steps hs.columns_pos hc.quiet byte).wellPlaced hs hc).2
  exact (reports_accept hr hc.col_le byte).bind (reports_flush hr hplaced.col_le)

/-- A window that goes home takes its cursor with it. -/
theorem reports_goHome (hs : s.Holds c.region) (hc : c.WellPlaced s) :
    Reports reach s c (c.goHome s) := by
  have hhome : Reports reach s c ⟨{ c with origin := c.region.start },
      if c.origin ≠ c.region.start then #[.copy c.origin c.region.start s.size] else #[]⟩ := by
    refine .still rfl ?_
    intro e he
    obtain ⟨_, rfl⟩ := Output.mem_ite.mp he
    exact id
  have hflushed : Reports reach s ({ c with origin := c.region.start } : Console)
      (flush s { c with origin := c.region.start }) := reports_flush hr hc.col_le
  rw [goHome_eq, homeward_eq hs hc.origin_within]
  exact hhome.bind (f := fun c => c.flush s) hflushed

end

theorem reports_loadRegisters : Reports reach s c (Seat.loadRegisters c) :=
  .still rfl ((silent_emit id).bind ((silent_emit id).bind (silent_pure c)))

/-- Whether a computation can be followed wherever no cursor is sent past a column. -/
def Reporting (reach : Nat) (f : Surface → Console → Output Console) : Prop :=
  ∀ {s : Surface} {c : Console}, s.Reaches reach → s.Holds c.region → c.WellPlaced s →
    Reports reach s c (f s c)

theorem reporting_accept (byte : UInt8) : Reporting reach fun s c => c.accept s byte :=
  fun hr _ hc => reports_accept hr hc.col_le byte

theorem reporting_flush : Reporting reach fun s c => c.flush s :=
  fun hr _ hc => reports_flush hr hc.col_le

end Console

/-! ## The reports of a seat -/

namespace Seat

variable {s s' t : Seat} {c : Console} {id reach : Nat} {ks ls : List Console}
  {f : Surface → Console → Output Console} {op : Operation}

/-- How a row of moves stores the queue of console `id`, with the console as the flushes that
store cells leave it. Its report is taken in none of them. -/
inductive Storing (id : Nat) : Seat → Seat → List Console → Prop
  | refl (s : Seat) : Storing id s s []
  | run {s : Seat} {c : Console} {f : Surface → Console → Output Console} {ks : List Console}
      (hc : s.consoles[id]? = some c)
      (h : Console.Storing (s.surface id c) c (f (s.surface id c) c) ks) :
      Storing id s (s.run id f) ks
  | other {j : Nat} (hj : j ≠ id) (s : Seat) (f : Surface → Console → Output Console) :
      Storing id s (s.run j f) []
  | refocus (s : Seat) (j : Nat) : Storing id s { s with focused := j } []
  | switch (s : Seat) (software bell : Bool) : Storing id s (s.setSwitches software bell) []
  | reset (s : Seat) : Storing id s s.resetFirst []
  | enter (s : Seat) (journal : Journal) : Storing id s { s with journal := journal } []
  | trans {s t u : Seat} {ks ls : List Console} (h : Storing id s t ks) (h' : Storing id t u ls) :
      Storing id s u (ks ++ ls)

theorem Storing.screen (h : Storing id s t ks) : t.settings.screen = s.settings.screen := by
  induction h with
  | run | other => rw [settings_run]
  | refl | refocus | switch | reset | enter => rfl
  | trans _ _ ih ih' => exact ih'.trans ih

/-- **A report is that of the last flush that stored cells**, if there was one. -/
theorem Storing.report?_eq (h : Storing id s t ks) :
    t.report? id = (s.report? id).map fun r => (ks.getLast?.map (·.report)).getD r := by
  induction h with
  | @run s c f ks hc h =>
      rw [report?, consoles_run_self hc, report?, hc, Option.map_some, Option.map_some,
        Option.map_some, h.report_eq]
      cases ks.getLast? <;> rfl
  | other hj s f =>
      rw [report?, consoles_run_of_ne hj, report?]
      exact Option.map_id'.symm
  | refl | refocus | switch | enter => exact Option.map_id'.symm
  | reset s =>
      rw [report?, consoles_resetFirst, report?]
      split
      · cases s.consoles[id]? <;> rfl
      · exact Option.map_id'.symm
  | @trans s t u ks ls _ _ ih ih' =>
      rw [ih', ih, Option.map_map, List.getLast?_append]
      cases ls.getLast? <;> rfl

theorem Storing.stored (h : Storing id s t ks) : ∀ k ∈ ks,
    k.report.fresh = true ∧ min k.report.column s.settings.screen.columns = k.col := by
  induction h with
  | run _ h => exact h.stored
  | refl | other | refocus | switch | reset | enter => exact List.forall_mem_nil _
  | trans h _ ih ih' =>
      rw [h.screen] at ih'
      exact List.forall_mem_append.mpr ⟨ih, ih'⟩

/-! ## Operations flush by flush -/

/-- Whether the consoles of a seat send no cursor past a column. -/
def Reaches (s : Seat) (reach : Nat) : Prop :=
  ∀ (id : Nat) (c : Console), (s.surface id c).Reaches reach

/-- No step of a seat changes the tab stops. -/
theorem Move.reaches (h : Move s s') (hr : s.Reaches reach) : s'.Reaches reach := by
  obtain ⟨software, bell, hsettings⟩ := h.settings
  intro id c
  have hbefore := hr id c
  have hcolumns : (s'.surface id c).columns = (s.surface id c).columns :=
    congrArg (fun settings => settings.screen.columns) hsettings
  have hstop : ∀ col, (s'.surface id c).nextTabStop col = (s.surface id c).nextTabStop col :=
    Surface.nextTabStop_congr (congrArg (fun settings => settings.behavior.tabWidth) hsettings)
  refine ⟨by rw [hcolumns]; exact hbefore.columns_le, ?_⟩
  intro col hcol
  rw [hcolumns] at hcol ⊢
  rw [hstop]
  exact hbefore.stop_le col hcol

theorem Moves.reaches (h : Moves s s') (hr : s.Reaches reach) : s'.Reaches reach := by
  induction h with
  | refl => exact hr
  | tail _ hmove ih => exact hmove.reaches ih

/-- What is known of a seat that has gone on from `s` without taking the report of console `id`:
it got there by moves that can be followed flush by flush, with no report past a column. -/
structure Followed (reach id : Nat) (s s' : Seat) : Prop where
  moves : Moves s s'
  storing : ∃ ks, Storing id s s' ks ∧ ∀ k ∈ ks, k.report.column ≤ reach

theorem Followed.refl (s : Seat) : Followed reach id s s :=
  ⟨.refl, [], .refl s, List.forall_mem_nil _⟩

/-- One more move that stores nothing of the console. -/
theorem Followed.tail (h : Followed reach id s s') (hmove : Move s' t)
    (hstoring : Storing id s' t []) : Followed reach id s t := by
  obtain ⟨hmoves, ks, hks, hle⟩ := h
  refine ⟨hmoves.tail hmove, ks, ?_, hle⟩
  have happend := hks.trans hstoring
  rwa [List.append_nil] at happend

/-- A run of any console is followed. -/
theorem Followed.run (h : Followed reach id s s') (hs : s.Sound) (hr : s.Reaches reach)
    (hf : Console.Stepwise f) (hreporting : Console.Reporting reach f) (j : Nat) :
    Followed reach id s (s'.run j f) := by
  by_cases hj : j = id
  · subst hj
    cases hc : s'.consoles[j]? with
    | none => rwa [run_of_none hc]
    | some c =>
        have hs' := h.moves.sound hs
        obtain ⟨hmoves, ks, hks, hle⟩ := h
        obtain ⟨ls, hls, hle'⟩ := hreporting (Moves.reaches hmoves hr j c) (hs'.holds hc)
          (hs'.placed hc)
        exact ⟨hmoves.tail (.run j hf), ks ++ ls, hks.trans (.run hc hls),
          List.forall_mem_append.mpr ⟨hle, hle'⟩⟩
  · exact h.tail (.run j hf) (.other hj s' f)

section

variable (hs : s.Sound) (hr : s.Reaches reach)
include hs hr

theorem Followed.runAll (h : Followed reach id s s') (hf : Console.Stepwise f)
    (hreporting : Console.Reporting reach f) : Followed reach id s (s'.runAll f) :=
  runAll_induction (P := Followed reach id s) (fun j h => h.run hs hr hf hreporting j) h

theorem Followed.focus (h : Followed reach id s s') (j : Nat) :
    Followed reach id s (s'.focus j) := by
  unfold Seat.focus
  split
  · rename_i hj
    have hrefocused : Followed reach id s { s' with focused := j } :=
      h.tail (.refocus hj) (.refocus s' j)
    exact hrefocused.run hs hr stepwise_loadRegisters
      (fun _ _ _ => Console.reports_loadRegisters) j
  · exact h

theorem Followed.homeAll (h : Followed reach id s s') : Followed reach id s s'.homeAll :=
  (h.runAll hs hr stepwise_goHome Console.reports_goHome).focus hs hr _

theorem Followed.release (h : Followed reach id s s') : Followed reach id s s'.release := by
  have hset : Followed reach id s (s'.homeAll.setSoftwareScroll true) :=
    (h.homeAll hs hr).tail (.switch true s'.homeAll.settings.behavior.bellEnabled) (.switch _ _ _)
  exact (hset.focus hs hr 0).tail .reset (.reset _)

/-- **Every operation is followed** that does not take the report. -/
theorem Followed.apply (h : Followed reach id s s') (hop : op ≠ .acknowledge id) :
    Followed reach id s (s'.apply op) := by
  have hsend : ∀ {s'' : Seat} (j : Nat) (byte : UInt8), Followed reach id s s'' →
      Followed reach id s (s''.send j byte) :=
    fun j byte h => h.run hs hr (stepwise_accept byte) (Console.reporting_accept byte) j
  cases op with
  | send j byte => exact hsend j byte h
  | sendRun j bytes =>
      exact h.run hs hr (stepwise_acceptRun bytes)
        (fun hr hs hc => Console.reports_acceptRun hr hs hc bytes) j
  | flush j => exact h.run hs hr stepwise_flush Console.reporting_flush j
  | echo j byte =>
      exact h.run hs hr (stepwise_echo byte)
        (fun hr hs hc => Console.reports_echo hr hs hc byte) j
  | message byte =>
      simp only [Seat.apply, message]
      split
      · exact h.run hs hr stepwise_flush Console.reporting_flush 0
      · split
        · exact hsend 0 0x0A (hsend 0 0x0D h)
        · exact hsend 0 byte h
  | acknowledge j =>
      have hj : j ≠ id := fun heq => hop (congrArg Operation.acknowledge heq)
      have hrun : Followed reach id s (s'.run j fun _ c => pure c.acknowledge) :=
        h.tail (.run j stepwise_acknowledge) (.other hj s' _)
      exact hrun
  | scroll j dir =>
      exact h.run hs hr (stepwise_scroll dir)
        (fun hr _ hc => Console.reports_scroll hr hc.col_le dir) j
  | focus j => exact h.focus hs hr j
  | homeAll => exact h.homeAll hs hr
  | switchScrolling =>
      exact (h.homeAll hs hr).tail (.switch _ s'.homeAll.settings.behavior.bellEnabled)
        (.switch _ _ _)
  | switchBell =>
      exact h.tail (.switch s'.settings.behavior.softwareScroll _) (.switch _ _ _)
  | release => exact h.release hs hr
  | installFont font =>
      obtain ⟨fonts, happly⟩ := apply_installFont (s := s') font
      rw [happly]
      exact h.tail (.enter _) (.enter _ _)

end

end Seat

end TextConsole
