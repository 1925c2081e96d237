import Mathlib.Data.List.DropRight
import TextConsole.Directory
import TextConsole.Proofs.Machine.CommandLine

/-!
# The printed screen

A screen that is printed as text has a line for each row of the window. No character of a row
ends a line, so the line feeds of the text are the ends of its lines and nothing else, and the
rows can be told from the text, but for the blank space at their ends (`control_codes_stay_out`).

The law is about the program, for every configuration that makes a seat, both where words go
around and where they are checked. Checked words print the same text, or stop at the one tab
whose stop they cannot hold.
-/

namespace TextConsole

theorem toList_trimEnd (line : String) :
    (trimEnd line).toList = line.toList.rdropWhile isBlankSpace := by
  simp [trimEnd, List.rdropWhile]

theorem Snapshot.toList_toText (snapshot : Snapshot) :
    snapshot.toText.toList =
      snapshot.lines.flatMap fun line => line.toList.rdropWhile isBlankSpace ++ ['\n'] := by
  rw [toText, String.toList_join, List.flatMap_map]
  simp only [String.toList_append, toList_trimEnd]
  rfl

/-- A row as it is printed: its characters without the blank space at the end. -/
def printedRow (row : List Cell) : List Char := (row.map Cell.char).rdropWhile isBlankSpace

theorem newline_not_mem_printedRow {row : List Cell} (h : ∀ cell ∈ row, cell.IsCharacter) :
    '\n' ∉ printedRow row := by
  intro hmem
  obtain ⟨cell, hcell, hchar⟩ := List.mem_map.mp ((List.rdropWhile_prefix _ _).subset hmem)
  exact (h cell hcell).char_ne hchar

/-- Lines come apart again where each was ended. -/
theorem splitOn_flatMap_lines {lines : List (List Char)} (h : ∀ line ∈ lines, '\n' ∉ line) :
    (lines.flatMap fun line => line ++ ['\n']).splitOn '\n' = lines ++ [[]] := by
  induction lines with
  | nil => exact List.splitOn_nil _
  | cons line lines ih =>
      obtain ⟨hline, hlines⟩ := List.forall_mem_cons.mp h
      rw [List.flatMap_cons, List.append_assoc, List.singleton_append,
        List.splitOn_append_cons_self_of_not_mem hline, ih hlines, List.cons_append]

theorem count_flatMap_lines {lines : List (List Char)} (h : ∀ line ∈ lines, '\n' ∉ line) :
    (lines.flatMap fun line => line ++ ['\n']).count '\n' = lines.length := by
  induction lines with
  | nil => rfl
  | cons line lines ih =>
      obtain ⟨hline, hlines⟩ := List.forall_mem_cons.mp h
      rw [List.flatMap_cons, List.count_append, List.count_append, List.count_eq_zero.mpr hline,
        ih hlines, List.length_cons]
      simp [Nat.add_comm]

/-- The text of a screen has a line for each row. -/
theorem lines_toText {s : Seat} {id : Nat} {snapshot : Snapshot}
    (hsnapshot : s.snapshot? id = some snapshot) (hs : s.Sound) (hl : s.Legible) :
    ∃ rows, s.rows? id = some rows ∧ rows.length = s.settings.screen.rows ∧
      snapshot.toText.toList.count '\n' = s.settings.screen.rows ∧
      snapshot.toText.toList.splitOn '\n' = rows.map printedRow ++ [[]] := by
  obtain ⟨c, hc, rfl⟩ := Option.map_eq_some_iff.mp hsnapshot
  obtain ⟨rows, hrows⟩ : ∃ rows, s.rows? id = some rows := by
    rw [Seat.rows?, hc]
    exact ⟨_, rfl⟩
  have hlength : rows.length = s.settings.screen.rows := by
    obtain ⟨_, _, rfl⟩ := Option.map_eq_some_iff.mp hrows
    simp
  -- The text depends on the lines only; the snapshot itself carries much more.
  have htext : ∀ snapshot : Snapshot, snapshot.lines = rows.map Seat.textOf →
      snapshot.toText.toList = (rows.map printedRow).flatMap fun line => line ++ ['\n'] := by
    intro snapshot hlines
    rw [Snapshot.toList_toText, hlines, List.flatMap_map, List.flatMap_map]
    simp [Seat.textOf, printedRow]
  have hplain : ∀ line ∈ rows.map printedRow, '\n' ∉ line := by
    intro line hline
    obtain ⟨row, hrow, rfl⟩ := List.mem_map.mp hline
    exact newline_not_mem_printedRow (hl.rows hs hrows row hrow)
  rw [htext _ (by rw [hrows, Option.getD_some])]
  refine ⟨rows, hrows, hlength, ?_, splitOn_flatMap_lines hplain⟩
  rw [count_flatMap_lines hplain, List.length_map, hlength]

/-- **Control codes never reach the screen.** No history of a seat brings one into video
memory or into the queue of a console. So a run of the program that prints a screen as text
prints as many line feeds as the screen has rows, and the lines are those rows, each without
the blank space at its end. `CommandLine.run` lets a word go around where it has no room, and
always prints. `CommandLine.run?` checks its words: it prints the same text, and stops, with
nothing printed, exactly at a tab whose width is half of all the signed words. -/
theorem control_codes_stay_out (config : Config) :
    (∀ s, Seat.Reached config s →
      (∀ d ∈ s.displays, ∀ cell ∈ d.memory.cells, cell.code ∉ controlBytes) ∧
        ∀ c ∈ s.consoles, ∀ cell ∈ c.queue, cell.code ∉ controlBytes) ∧
    ∀ (files : String → Option ByteArray) (stdin input : ByteArray) (args : List String)
      (o : Options) (seat : Seat), Options.parse args = .ok o → o.json = false →
        Config.load (m := Id) files o.config = .ok config → Seat.ofConfig config = .ok seat →
        o.input.elim (some stdin) files = some input →
          ∃ text rows, CommandLine.run (m := Id) files stdin args = .printed text ∧
            CommandLine.run? (m := Id) files stdin args =
              (if config.behavior.tabWidth = 0x80000000 ∧
                Escape.Reading.TakesTab {} input.toList then none else some (.printed text)) ∧
            (seat.sendRun 0 input.toList).rows? 0 = some rows ∧
            rows.length = config.screen.rows ∧
            text.toList.count '\n' = config.screen.rows ∧
            text.toList.splitOn '\n' = rows.map printedRow ++ [[]] := by
  refine ⟨?_, ?_⟩
  · intro s h
    refine ⟨?_, ?_⟩
    · intro d hd cell hcell
      obtain ⟨k, hk⟩ := Array.mem_iff_getElem?.mp hd
      exact ControlCode.ofByte?_eq_none_iff.mp ((h.legible.display hk).cells cell hcell)
    · intro c hc cell hcell
      obtain ⟨id, hid⟩ := Array.mem_iff_getElem?.mp hc
      exact ControlCode.ofByte?_eq_none_iff.mp ((h.legible.console hid).queue cell hcell)
  · intro files stdin input args o seat hargs hjson hload hseat hinput
    have hreached : Seat.Reached config (seat.sendRun 0 input.toList) :=
      ⟨seat, [.sendRun 0 input.toList], hseat, rfl⟩
    have hsound := hreached.sound
    have hfirst : 0 < (seat.sendRun 0 input.toList).consoles.size :=
      Nat.zero_lt_of_lt hsound.focused_lt
    obtain ⟨snapshot, hsnapshot⟩ : ∃ snapshot, seat.screenAfter? input.toList = some snapshot := by
      rw [Seat.screenAfter?, Seat.snapshot?, Array.getElem?_eq_getElem hfirst]
      exact ⟨_, rfl⟩
    obtain ⟨rows, hrows, hlength, hcount, hlines⟩ :=
      lines_toText hsnapshot hsound hreached.legible
    rw [hreached.screen] at hlength hcount
    have hrun : CommandLine.run (m := Id) files stdin args = .printed snapshot.toText := by
      rw [CommandLine.run_eq hargs hload hseat hinput, Seat.printAfter, hsnapshot, hjson]
      rfl
    refine ⟨snapshot.toText, rows, hrun, ?_, hrows, hlength, hcount, hlines⟩
    rw [CommandLine.run?_eq hargs hload hseat hinput, hrun]

/-- A file with a tab, a line feed inside an escape sequence and a bell. -/
def tabAndBell : Directory where
  files := [("in", ⟨#[0x41, 0x09, 0x1B, 0x5B, 0x0A, 0x42, 0x07]⟩)]

/-- The default screen after that file, also on a machine; and the queue of a console after a
carriage return. -/
theorem control_codes_stay_out_defaultScreen :
    (∃ s c, Seat.Reached Seat.twoPages s ∧ s.consoles[1]? = some c ∧ c.queue.length = 2 ∧
      ∀ cell ∈ c.queue, cell.code ∉ controlBytes) ∧
    ∃ text, CommandLine.run (m := Id) tabAndBell.read? ByteArray.empty ["./in"] = .printed text ∧
      CommandLine.run? (m := Id) tabAndBell.read? ByteArray.empty ["./in"] =
        some (.printed text) ∧
      text.toList.count '\n' = 25 := by
  refine ⟨?_, ?_⟩
  · have hreached : Seat.Reached Seat.twoPages _ :=
      ⟨_, [.sendRun 1 [0x41, 0x0D], .send 1 0x0D, .send 1 0x42, .send 1 0x43], rfl, rfl⟩
    have hqueues := ((control_codes_stay_out Seat.twoPages).1 _ hreached).2
    exact ⟨_, _, hreached, rfl, rfl, hqueues _ (Array.mem_of_getElem? (i := 1) rfl)⟩
  · obtain ⟨text, _, hrun, hmachine, _, _, hcount, _⟩ :=
      (control_codes_stay_out {}).2 tabAndBell.read? ByteArray.empty
        ⟨#[0x41, 0x09, 0x1B, 0x5B, 0x0A, 0x42, 0x07]⟩ ["./in"] { input := some "./in" } _ rfl rfl
        rfl rfl rfl
    exact ⟨text, hrun, hmachine.trans (if_neg (by decide)), hcount⟩

end TextConsole
