import TextConsole.Proofs.Reports

/-!
# Reports over a history

To the report of one console, a history of the whole seat is a row of events: a flush stores
cells and leaves the cursor in a column, or the report is taken. Every history has such a
chronicle (`Seat.chronicled`), and the report is read off it (`Seat.Chronicled.tells`): it
is fresh if cells have been stored since it was last taken, and its column is that of the last
flush that stored some, once it is confined to the line.

The column itself has not been confined. It is that of a cursor as long as tabs are not wider
than two lines, and past the end of the line for a wider one (`Seat.report_faithful_iff`).
-/

namespace TextConsole

/-- What happens to the report of a console: a flush stores cells, with the cursor in a column
afterwards, or the report is taken. -/
inductive ReportEvent where
  | stored (column : Nat)
  | taken
deriving DecidableEq, Repr

namespace ReportEvent

variable {events : List ReportEvent}

def column? : ReportEvent → Option Nat
  | stored column => some column
  | taken => none

/-- Whether cells have been stored since the report was last taken. -/
def StoredSince (events : List ReportEvent) : Prop :=
  ∃ before column after, events = before ++ stored column :: after ∧ taken ∉ after

/-- Where the last flush that stored cells left the cursor, or the first column. -/
def lastColumn (events : List ReportEvent) : Nat := (events.filterMap column?).getLast?.getD 0

theorem not_storedSince_nil : ¬ StoredSince [] := by
  rintro ⟨before, column, after, heq, _⟩
  simp at heq

theorem not_storedSince_taken : ¬ StoredSince (events ++ [taken]) := by
  rintro ⟨before, column, after, heq, htaken⟩
  rcases List.eq_nil_or_concat' after with rfl | ⟨after, last, rfl⟩
  · have hlast := congrArg List.getLast? heq
    simp at hlast
  · rw [← List.cons_append, ← List.append_assoc] at heq
    obtain ⟨_, hlast⟩ := List.append_inj' heq rfl
    rw [← List.singleton_inj.mp hlast] at htaken
    exact htaken (List.mem_append_right after (List.mem_singleton_self taken))

theorem storedSince_append {columns : List Nat} :
    StoredSince (events ++ columns.map stored) ↔ columns ≠ [] ∨ StoredSince events := by
  refine ⟨fun hstored => ?_, ?_⟩
  · by_cases hcolumns : columns = []
    · right
      rwa [hcolumns, List.map_nil, List.append_nil] at hstored
    · exact Or.inl hcolumns
  · rintro (hcolumns | ⟨before, column, after, rfl, htaken⟩)
    · obtain ⟨columns, column, rfl⟩ := (List.eq_nil_or_concat' columns).resolve_left hcolumns
      exact ⟨events ++ columns.map stored, column, [], by simp, List.not_mem_nil⟩
    · exact ⟨before, column, after ++ columns.map stored, by simp, by simp [htaken]⟩

theorem lastColumn_taken : lastColumn (events ++ [taken]) = lastColumn events := by
  simp [lastColumn, column?]

theorem lastColumn_append {columns : List Nat} :
    lastColumn (events ++ columns.map stored) = columns.getLast?.getD (lastColumn events) := by
  have hcolumns : (columns.map stored).filterMap column? = columns := by
    rw [List.filterMap_map]
    exact List.filterMap_some
  rw [lastColumn, List.filterMap_append, hcolumns, List.getLast?_append]
  cases columns.getLast? <;> rfl

end ReportEvent

namespace OutputReport

open ReportEvent

variable {report : OutputReport} {columns : Nat} {events : List ReportEvent}

/-- Whether a report tells what has happened, when its column is confined to the line. -/
structure Tells (report : OutputReport) (columns : Nat) (events : List ReportEvent) : Prop where
  fresh_iff : report.fresh = true ↔ StoredSince events
  column_eq : min report.column columns = lastColumn events

/-- Whether a report tells what has happened, with a column where a cursor has been. -/
structure Faithful (report : OutputReport) (columns : Nat) (events : List ReportEvent) :
    Prop where
  fresh_iff : report.fresh = true ↔ StoredSince events
  column_le : report.column ≤ columns
  column_eq : report.column = lastColumn events

theorem Tells.faithful (h : report.Tells columns events) (hle : report.column ≤ columns) :
    report.Faithful columns events :=
  ⟨h.fresh_iff, hle, by rw [← h.column_eq, Nat.min_eq_left hle]⟩

theorem tells_nil : ({} : OutputReport).Tells columns [] where
  fresh_iff := ⟨fun h => (Bool.noConfusion h), fun h => absurd h not_storedSince_nil⟩
  column_eq := Nat.zero_min columns

theorem Tells.take (h : report.Tells columns events) :
    ({ report with fresh := false } : OutputReport).Tells columns (events ++ [taken]) where
  fresh_iff := ⟨fun h => (Bool.noConfusion h), fun h => absurd h not_storedSince_taken⟩
  column_eq := by rw [lastColumn_taken, ← h.column_eq]

/-- The report of the last flush tells of all of them. -/
theorem Tells.store {ks : List Console} (h : report.Tells columns events)
    (hks : ∀ k ∈ ks, k.report.fresh = true ∧ min k.report.column columns = k.col) :
    ((ks.getLast?.map (·.report)).getD report).Tells columns
      (events ++ (ks.map (·.col)).map stored) := by
  rcases List.eq_nil_or_concat' ks with rfl | ⟨ks, k, rfl⟩
  · rwa [List.map_nil, List.map_nil, List.append_nil]
  · obtain ⟨hfresh, hcolumn⟩ := hks k (by simp)
    refine ⟨?_, ?_⟩
    · rw [storedSince_append]
      simp [hfresh]
    · rw [lastColumn_append]
      simpa using hcolumn

end OutputReport

namespace Seat

open ReportEvent

variable {config : Config} {s seat : Seat} {id reach : Nat} {ops : List Operation}
  {events : List ReportEvent} {report : OutputReport}

/-! ## The chronicle of a history -/

/-- What a history is to the report of console `id`, event by event. -/
inductive Chronicled (id : Nat) (seat : Seat) : List Operation → List ReportEvent → Prop
  | start : Chronicled id seat [] []
  | take {ops : List Operation} {events : List ReportEvent} (h : Chronicled id seat ops events) :
      Chronicled id seat (ops ++ [.acknowledge id]) (events ++ [.taken])
  | store {ops : List Operation} {events : List ReportEvent} {op : Operation} {ks : List Console}
      (h : Chronicled id seat ops events) (hop : op ≠ .acknowledge id)
      (hks : Storing id (seat.applyAll ops) (seat.applyAll (ops ++ [op])) ks) :
      Chronicled id seat (ops ++ [op]) (events ++ (ks.map (·.col)).map .stored)

theorem report?_acknowledge (s : Seat) (id : Nat) :
    (s.acknowledge id).report? id = (s.report? id).map fun r => { r with fresh := false } := by
  cases hc : s.consoles[id]? with
  | none => rw [acknowledge, run_of_none hc, report?, hc, Option.map_none, Option.map_none]
  | some c =>
      rw [acknowledge, report?, consoles_run_self hc, report?, hc]
      rfl

theorem applyAll_concat (ops : List Operation) (op : Operation) :
    seat.applyAll (ops ++ [op]) = (seat.applyAll ops).apply op :=
  seat.applyAll_append ops [op]

theorem Fresh.report?_eq (h : seat.Fresh) (hreport : seat.report? id = some report) :
    report = {} := by
  obtain ⟨c, hc, rfl⟩ := Option.map_eq_some_iff.mp hreport
  rw [h.console hc]

/-- **A report tells what has happened to it.** -/
theorem Chronicled.tells (h : Chronicled id seat ops events) (hfresh : seat.Fresh)
    (hreport : (seat.applyAll ops).report? id = some report) :
    report.Tells seat.settings.screen.columns events := by
  induction h generalizing report with
  | start =>
      rw [hfresh.report?_eq hreport]
      exact OutputReport.tells_nil
  | take _ ih =>
      rw [applyAll_concat, apply, report?_acknowledge] at hreport
      obtain ⟨before, hbefore, rfl⟩ := Option.map_eq_some_iff.mp hreport
      exact (ih hbefore).take
  | @store ops events op ks _ _ hks ih =>
      rw [hks.report?_eq] at hreport
      obtain ⟨before, hbefore, rfl⟩ := Option.map_eq_some_iff.mp hreport
      have hstored := hks.stored
      rw [Moves.screen (moves_applyAll ops)] at hstored
      exact (ih hbefore).store hstored

/-- **Every history has a chronicle**, and no report is past a column that no cursor is sent
past. -/
theorem chronicled (hfresh : seat.Fresh) (hs : seat.Sound) (hr : seat.Reaches reach)
    (ops : List Operation) :
    (∃ events, Chronicled id seat ops events) ∧
      ∀ report, (seat.applyAll ops).report? id = some report → report.column ≤ reach := by
  induction ops using List.reverseRecOn with
  | nil =>
      refine ⟨⟨[], .start⟩, fun report hreport => ?_⟩
      rw [hfresh.report?_eq hreport]
      exact Nat.zero_le reach
  | append_singleton ops op ih =>
      obtain ⟨⟨events, hevents⟩, hle⟩ := ih
      by_cases hop : op = .acknowledge id
      · subst hop
        refine ⟨⟨_, hevents.take⟩, fun report hreport => ?_⟩
        rw [applyAll_concat, apply, report?_acknowledge] at hreport
        obtain ⟨before, hbefore, rfl⟩ := Option.map_eq_some_iff.mp hreport
        exact hle before hbefore
      · have hmoves : Moves seat (seat.applyAll ops) := moves_applyAll ops
        obtain ⟨_, ks, hks, hcolumns⟩ :=
          (Followed.refl (seat.applyAll ops)).apply (Moves.sound hmoves hs)
            (Moves.reaches hmoves hr) hop
        rw [← applyAll_concat] at hks
        refine ⟨⟨_, hevents.store hop hks⟩, fun report hreport => ?_⟩
        rw [hks.report?_eq] at hreport
        obtain ⟨before, hbefore, rfl⟩ := Option.map_eq_some_iff.mp hreport
        cases hlast : ks.getLast? with
        | none => exact hle before hbefore
        | some k => exact hcolumns k (List.mem_of_getLast? hlast)

/-! ## How far reports go -/

/-- No cursor is sent further past a line than a tab is wide. -/
theorem reaches_tabWidth (s : Seat) :
    s.Reaches (s.settings.screen.columns + s.settings.behavior.tabWidth % 0x100000000) := by
  intro id c
  refine ⟨Nat.le_add_right _ _, fun col hcol => ?_⟩
  have hstop : (s.surface id c).nextTabStop col ≤
      col + s.settings.behavior.tabWidth % 0x100000000 := by
    unfold Surface.nextTabStop
    dsimp only
    split
    · exact Nat.div_mul_le_self _ _
    · exact Nat.zero_le _
  have hcolumns : (s.surface id c).columns = s.settings.screen.columns := rfl
  omega

/-- A tab that is not wider than two lines stays within the next one, and so does one whose
width does not fit in a word. -/
theorem reaches_columns (ht : s.settings.TabsFit)
    (htab : s.settings.behavior.tabWidth ≤ 2 * s.settings.screen.columns ∨
      0x100000000 ≤ s.settings.behavior.tabWidth) :
    s.Reaches s.settings.screen.columns := by
  intro id c
  have hcolumns : (s.surface id c).columns = s.settings.screen.columns := rfl
  refine ⟨Nat.le_refl _, fun col hcol => ?_⟩
  rcases Nat.lt_or_ge s.settings.behavior.tabWidth 0x100000000 with hlt | hge
  · have hstop : (s.surface id c).nextTabStop col =
        tabStopAfter s.settings.behavior.tabWidth col :=
      Surface.nextTabStop_of_lt (s := s.surface id c) (Nat.pos_of_isPowerOfTwo ht.pow)
        (ht.lt_half hlt) col
    rw [hstop, tabStopAfter, Nat.succ_mul]
    have hround := Nat.div_mul_le_self col s.settings.behavior.tabWidth
    by_cases hinside : s.settings.behavior.tabWidth ≤ s.settings.screen.columns
    · omega
    · -- A tab wider than a line has its only stop behind the end.
      rw [Nat.div_eq_of_lt (by omega)]
      omega
  · have hstop : (s.surface id c).nextTabStop col = 0 :=
      Surface.nextTabStop_of_le (s := s.surface id c) ht.pow hge col
    rw [hstop]
    exact Nat.zero_le _

/-- The first character of a new seat waits in the queue. -/
theorem first_character_waits (hseat : ofConfig config = .ok seat) :
    ∃ c, (seat.send 0 0x41).consoles[0]? = some c ∧ c.queue ≠ [] ∧ c.col = 1 ∧
      c.escape = .ground := by
  obtain ⟨hfresh, hsound, _⟩ := fresh_ofConfig hseat
  have hreached : Reached config seat := ⟨seat, [], hseat, rfl⟩
  obtain ⟨c, hc, _⟩ := hreached.first
  have hcol : c.col = 0 := by rw [hfresh.console hc]
  have hqueue : c.queue = [] := by rw [hfresh.console hc]
  have hescape : c.escape = .ground := by rw [hfresh.console hc]
  have hinside : c.col < (seat.surface 0 c).columns := by
    rw [hcol]
    exact (hsound.holds hc).columns_pos
  have hplaced : c.accept (seat.surface 0 c) 0x41 = pure (c.place 0x41) := by
    rw [Console.accept_eq_print hescape rfl, Console.print, if_pos hinside, Console.makeRoom,
      if_pos (by rw [hqueue]; decide)]
    rfl
  refine ⟨c.place 0x41, ?_, by simp [Console.place], ?_, hescape⟩
  · rw [send, consoles_run_self hc, hplaced]
    rfl
  · rw [Console.place, hcol]

/-- Behind that character, a tab that is wider than two lines is reported past the end of the
line. -/
theorem report?_wideTab (hseat : ofConfig config = .ok seat)
    (hwide : 2 * config.screen.columns < config.behavior.tabWidth)
    (hlt : config.behavior.tabWidth < 0x80000000) :
    (seat.applyAll [.send 0 0x41, .send 0 0x09]).report? 0 =
      some ⟨config.behavior.tabWidth - config.screen.columns, true⟩ := by
  have hsent : Reached config (seat.send 0 0x41) := ⟨seat, [.send 0 0x41], hseat, rfl⟩
  obtain ⟨c, hc, hqueue, hcol, hescape⟩ := first_character_waits hseat
  have hcolumns := hsent.columns_surface 0 c
  have hpos : 0 < config.screen.columns := by
    rw [← hcolumns]
    exact (hsent.sound.holds hc).columns_pos
  have hwidth : ((seat.send 0 0x41).surface 0 c).settings.behavior.tabWidth =
      config.behavior.tabWidth := hsent.tabWidth
  have hstop : ((seat.send 0 0x41).surface 0 c).nextTabStop c.col = config.behavior.tabWidth := by
    rw [Surface.nextTabStop_of_lt (by omega) (by omega), hwidth, hcol, tabStopAfter,
      Nat.div_eq_of_lt (by omega), Nat.zero_add, Nat.one_mul]
  have hreport : (c.tabulate ((seat.send 0 0x41).surface 0 c)).value.report =
      ⟨config.behavior.tabWidth - config.screen.columns, true⟩ := by
    rw [Console.report_tabulate_of_lt hqueue (by omega), hstop, hcolumns]
  show ((seat.send 0 0x41).send 0 0x09).report? 0 = _
  rw [report?, send, consoles_run_self hc, Console.accept_eq_control .tab hescape rfl,
    Option.map_some]
  exact congrArg some hreport

/-- **When reports are faithful.** A report is fresh if and only if cells have been stored since
it was last taken, and its column, confined to the line, is the one where the last flush that
stored cells left the cursor. The reported column itself is that of the cursor, in every
history, if and only if tabs are at most as wide as two lines, or too wide for a word. The one
width that is excluded stops a machine. With any other it goes through with every history. -/
theorem report_faithful_iff (hseat : ofConfig config = .ok seat) :
    (∀ ops id report, (seat.applyAll ops).report? id = some report →
      (∃ events, Chronicled id seat ops events) ∧
      ∀ events, Chronicled id seat ops events → report.Tells config.screen.columns events) ∧
    (config.behavior.tabWidth ≠ 0x80000000 →
      (∀ ops, seat.carryOutAll? ops = some (seat.applyAll ops)) ∧
      ((∀ ops id report, (seat.applyAll ops).report? id = some report →
        ∀ events, Chronicled id seat ops events → report.Faithful config.screen.columns events) ↔
      (config.behavior.tabWidth ≤ 2 * config.screen.columns ∨
        0x100000000 ≤ config.behavior.tabWidth))) := by
  obtain ⟨hfresh, hsound, hsettings⟩ := fresh_ofConfig hseat
  obtain ⟨_, hvalid, _⟩ := ofConfig_eq hseat
  have hscreen : seat.settings.screen = config.screen := by rw [hsettings]
  have hwidth : seat.settings.behavior.tabWidth = config.behavior.tabWidth := by rw [hsettings]
  have htells : ∀ {ops id report events}, (seat.applyAll ops).report? id = some report →
      Chronicled id seat ops events → report.Tells config.screen.columns events := by
    intro ops id report events hreport hevents
    rw [← hscreen]
    exact hevents.tells hfresh hreport
  have htabs : config.behavior.tabWidth ≠ 0x80000000 → seat.settings.TabsFit := by
    intro hhalf
    rw [← hwidth] at hhalf
    refine ⟨?_, hhalf⟩
    rw [hwidth]
    exact hvalid.tabWidth
  refine ⟨fun ops id report hreport => ⟨?_, fun events => htells hreport⟩,
    fun hhalf => ⟨hsound.carryOutAll?_eq (htabs hhalf), ?_, ?_⟩⟩
  · exact (chronicled hfresh hsound seat.reaches_tabWidth ops).1
  · intro hfaithful
    by_contra hwide
    have hlt := (htabs hhalf).lt_half (by omega)
    rw [hwidth] at hlt
    have hreport := report?_wideTab hseat (by omega) hlt
    have hchronicle : ∃ events, Chronicled 0 seat [.send 0 0x41, .send 0 0x09] events :=
      (chronicled hfresh hsound seat.reaches_tabWidth _).1
    obtain ⟨events, hevents⟩ := hchronicle
    have hle := (hfaithful _ _ _ hreport events hevents).column_le
    dsimp only at hle
    omega
  · intro hnarrow ops id report hreport events hevents
    rw [← hwidth, ← hscreen] at hnarrow
    have hreaches := reaches_columns (htabs hhalf) hnarrow
    have hle := (chronicled hfresh hsound hreaches ops).2 report hreport
    rw [hscreen] at hle
    exact (htells hreport hevents).faithful hle

/-- A tab past the end of a line of six columns, with a character in the queue, between two
times that the report is taken. -/
theorem report_faithful_fourTabs :
    ∃ seat report events, ofConfig fourTabs = .ok seat ∧
      (seat.applyAll [.sendRun 0 [0x41, 0x42], .acknowledge 0, .sendRun 0 [0x43, 0x44],
        .send 0 0x45, .send 0 0x09]).report? 0 = some report ∧
      report.fresh = true ∧ report.column = 2 ∧
      Chronicled 0 seat [.sendRun 0 [0x41, 0x42], .acknowledge 0, .sendRun 0 [0x43, 0x44],
        .send 0 0x45, .send 0 0x09] events ∧
      report.Faithful 6 events := by
  have hfaithful := @report_faithful_iff fourTabs _ rfl
  obtain ⟨events, hevents⟩ := (hfaithful.1 [.sendRun 0 [0x41, 0x42], .acknowledge 0,
    .sendRun 0 [0x43, 0x44], .send 0 0x45, .send 0 0x09] 0 _ rfl).1
  exact ⟨_, _, events, rfl, rfl, rfl, rfl, hevents,
    ((hfaithful.2 (by decide)).2.mpr (by decide)) _ 0 _ rfl events hevents⟩

/-- **A column with no cursor.** On lines of three columns with stops in every eighth, a tab
behind the first character leaves the cursor at the end of the next row, and the report has a
column past the end. -/
theorem report_overshoots_twoPages :
    ∃ seat c, ofConfig twoPages = .ok seat ∧
      (seat.applyAll [.send 0 0x41, .send 0 0x09]).consoles[0]? = some c ∧ c.col = 3 ∧
      (seat.applyAll [.send 0 0x41, .send 0 0x09]).report? 0 = some ⟨5, true⟩ ∧
      ∀ events, ¬ (⟨5, true⟩ : OutputReport).Faithful twoPages.screen.columns events :=
  ⟨_, _, rfl, rfl, rfl, rfl, fun _ h => absurd h.column_le (by decide)⟩

end Seat

end TextConsole
