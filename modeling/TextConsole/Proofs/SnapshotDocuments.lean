import TextConsole.Proofs.Documents
import TextConsole.Proofs.Json.Printing
import TextConsole.Proofs.Machine.CommandLine

/-!
# A printed document holds the whole snapshot

The program can print the first console as a document. Whatever the input has put on the
screen, the document is a text of the grammar that writes one value, and the members of that
value are the snapshot (`document_lossless`): its numbers, whether it has the focus, and for
every row of the screen a string of as many characters as there are columns, each with the
code of its cell for a code point.

`Snapshot.ofJson?` says what the members mean. It takes the very members that are printed, in
their order, and nothing else. Numbers are read up to 64 bits. A window lies in memory of at
most `capacityLimit` words, so no number of a snapshot comes near that.
-/

namespace TextConsole

/-! ## Reading a snapshot -/

/-- The text of a line. -/
def Json.line? : Json → Option String
  | .str text => text
  | _ => none

theorem Json.mapM_line?_ofString (lines : List String) :
    (lines.map ofString).mapM line? = some lines := by
  induction lines with
  | nil => rfl
  | cons line lines ih =>
      rw [List.map_cons, List.mapM_cons, ih]
      rfl

namespace Snapshot

/-- The snapshot that a document holds. -/
def ofJson? : Json → Option Snapshot
  | .obj [(some "id", id), (some "focused", focused), (some "origin", origin),
      (some "cursor_row", row), (some "cursor_col", col), (some "lines", .arr lines)] => do
      return {
        id := ← id.natural?
        focused := ← focused.bool?
        origin := ← origin.natural?
        cursorRow := ← row.natural?
        cursorCol := ← col.natural?
        lines := ← lines.mapM Json.line? }
  | _ => none

variable {s : Snapshot}

/-- Whether the numbers of a snapshot have 64 bits. -/
structure Fits (s : Snapshot) : Prop where
  id : s.id < Json.naturalLimit
  origin : s.origin < Json.naturalLimit
  cursorRow : s.cursorRow < Json.naturalLimit
  cursorCol : s.cursorCol < Json.naturalLimit

/-- **A snapshot is read back from its document.** -/
theorem ofJson?_toJson (h : s.Fits) : ofJson? s.toJson = some s := by
  have hnumber : ∀ {n : Nat}, n < Json.naturalLimit → (Json.ofNat n).natural? = some n :=
    fun hn => Config.natural?_of_lists ⟨hn, rfl⟩
  simp only [toJson, Json.ofFields, List.map_cons, List.map_nil, ofJson?, hnumber h.id,
    hnumber h.origin, hnumber h.cursorRow, hnumber h.cursorCol, Json.mapM_line?_ofString]
  rfl

theorem printable_toJson (s : Snapshot) : Json.Printable s.toJson := by
  have hlines : Json.Printable (.arr (s.lines.map .ofString)) := by
    refine Json.printable_arr ?_
    simp only [List.mem_map]
    rintro v ⟨line, _, rfl⟩
    exact Json.printable_ofString line
  refine Json.printable_obj ?_
  simp only [List.map_cons, List.map_nil, List.forall_mem_cons, List.not_mem_nil]
  exact ⟨Json.printable_ofNat _, Json.printable_bool _, Json.printable_ofNat _,
    Json.printable_ofNat _, Json.printable_ofNat _, hlines, fun _ h => h.elim⟩

/-- The document of a snapshot, which ends its last line, writes the value of the snapshot. -/
theorem writes_toDocument (s : Snapshot) : Json.Writes s.toJson s.toDocument :=
  Json.writes_render s.printable_toJson (by simp [Json.isSpace])

end Snapshot

/-! ## Snapshots of a seat -/

namespace Seat

variable {s : Seat} {id : Nat} {snapshot : Snapshot}

theorem Sound.snapshot_fits (hs : s.Sound) (hid : id < Json.naturalLimit)
    (h : s.snapshot? id = some snapshot) : snapshot.Fits := by
  obtain ⟨c, hc, rfl⟩ := Option.map_eq_some_iff.mp h
  have hholds := hs.holds hc
  have hplaced := hs.placed hc
  have hrow := hplaced.row_lt
  have hrows := hholds.rows_le
  have hcol := hplaced.col_le
  have hcolumns := hholds.columns_le
  have horigin := hplaced.origin_within.origin_le hholds
  have hlimit : Json.naturalLimit = 0x10000000000000000 := rfl
  have hnumbers : c.origin < Json.naturalLimit ∧ c.row < Json.naturalLimit ∧
      c.col < Json.naturalLimit := by omega
  exact ⟨hid, hnumbers.1, hnumbers.2.1, hnumbers.2.2⟩

/-- The code points of a row's text are the codes of its cells. -/
theorem codes_textOf (row : List Cell) :
    (textOf row).toList.map Char.toNat = row.map fun cell => cell.code.toNat := by
  simp only [textOf, String.toList_ofList, List.map_map]
  exact List.map_congr_left fun cell _ => toNat_char_eq cell.code

/-- The lines of a snapshot are the rows of the screen, character by character. -/
theorem Sound.lines_snapshot (hs : s.Sound) (h : s.snapshot? id = some snapshot) :
    ∃ rows, s.rows? id = some rows ∧ snapshot.lines = rows.map textOf ∧
      rows.length = s.settings.screen.rows ∧
      ∀ row ∈ rows, row.length = s.settings.screen.columns := by
  obtain ⟨c, hc, rfl⟩ := Option.map_eq_some_iff.mp h
  have hrows := hs.rows?_eq hc
  refine ⟨_, hrows, ?_, Surface.length_rowsOf _ _, fun row => Surface.length_of_mem_rowsOf⟩
  rw [hrows]
  rfl

/-- **The printed document loses nothing.** On any configuration that makes a seat, and for any
input, the program prints a text that writes exactly one value, and that value holds the
snapshot of the first console after the input. The snapshot has a line for each row, each line
has a character for each column, and its code point is the code of the visible cell.
`CommandLine.run` lets a word go around where it has no room, and always prints.
`CommandLine.run?` checks its words: it prints the same text, and stops, with nothing printed,
exactly at a tab whose width is half of all the signed words. -/
theorem document_lossless {config : Config} {seat : Seat} (hseat : ofConfig config = .ok seat)
    (input : List UInt8) :
    ∃ text snapshot rows v,
      seat.printAfter true input = .printed text ∧
      (∀ (files : String → Option ByteArray) (stdin contents : ByteArray) (args : List String)
        (o : Options), Options.parse args = .ok o → o.json = true →
          Config.load (m := Id) files o.config = .ok config →
          o.input.elim (some stdin) files = some contents → contents.toList = input →
            CommandLine.run (m := Id) files stdin args = .printed text ∧
            CommandLine.run? (m := Id) files stdin args =
              (if config.behavior.tabWidth = 0x80000000 ∧ Escape.Reading.TakesTab {} input then none
                else some (.printed text))) ∧
      (seat.sendRun 0 input).snapshot? 0 = some snapshot ∧
      (seat.sendRun 0 input).rows? 0 = some rows ∧
      Json.Writes v text ∧ (∀ w, Json.Writes w text → w = v) ∧
      Snapshot.ofJson? v = some snapshot ∧
      snapshot.lines.length = config.screen.rows ∧
      (∀ line ∈ snapshot.lines, line.length = config.screen.columns) ∧
      snapshot.lines.map (fun line => line.toList.map Char.toNat) =
        rows.map fun row => row.map fun cell => cell.code.toNat := by
  have hreached : Reached config (seat.sendRun 0 input) := ⟨seat, [.sendRun 0 input], hseat, rfl⟩
  have hsound := hreached.sound
  obtain ⟨snapshot, hsnapshot⟩ : ∃ snapshot, seat.screenAfter? input = some snapshot := by
    rw [screenAfter?, snapshot?, Array.getElem?_eq_getElem (Nat.zero_lt_of_lt hsound.focused_lt)]
    exact ⟨_, rfl⟩
  obtain ⟨rows, hrows, hlines, hlength, hcolumns⟩ := hsound.lines_snapshot hsnapshot
  have hprinted : seat.printAfter true input = .printed snapshot.toDocument := by
    rw [printAfter, hsnapshot]
    rfl
  have hwrites := snapshot.writes_toDocument
  refine ⟨snapshot.toDocument, snapshot, rows, snapshot.toJson, hprinted, ?_, hsnapshot, hrows,
    hwrites, ?_, Snapshot.ofJson?_toJson (hsound.snapshot_fits (by decide) hsnapshot), ?_, ?_, ?_⟩
  · intro files stdin contents args o hargs hjson hload hinput hcontents
    have hrun : CommandLine.run (m := Id) files stdin args = .printed snapshot.toDocument := by
      rw [CommandLine.run_eq hargs hload hseat hinput, hjson, hcontents, hprinted]
    refine ⟨hrun, ?_⟩
    subst hcontents
    rw [CommandLine.run?_eq hargs hload hseat hinput, hrun]
  · -- Reading the text gives every value that it writes.
    intro w hw
    exact Option.some.inj (hw.parse?_eq.symm.trans hwrites.parse?_eq)
  · rw [hlines, List.length_map, hlength, hreached.screen]
  · intro line hline
    rw [hlines] at hline
    obtain ⟨row, hrow, rfl⟩ := List.mem_map.mp hline
    rw [textOf, String.length_ofList, List.length_map, hcolumns row hrow, hreached.screen]
  · rw [hlines, List.map_map]
    exact List.map_congr_left fun row _ => codes_textOf row

/-- The default screen as a document; and a screen of a quote, a backslash, the control
characters that are shown, the one after the printable characters, and the last code. -/
theorem document_lossless_twoPages :
    (∃ text v, CommandLine.run (m := Id) (fun _ => none) ⟨#[0x41, 0x22, 0x0A, 0x42]⟩ ["--json"] =
        .printed text ∧ Json.Writes v text) ∧
    ∃ seat text snapshot v, ofConfig twoPages = .ok seat ∧
      seat.printAfter true [0x22, 0x5C, 0x01, 0x1F, 0x7F, 0xFF] = .printed text ∧
      Json.Writes v text ∧ Snapshot.ofJson? v = some snapshot ∧
      snapshot.lines.map (fun line => line.toList.map Char.toNat) =
        [[0x22, 0x5C, 0x01], [0x1F, 0x7F, 0xFF]] := by
  refine ⟨?_, ?_⟩
  · obtain ⟨text, _, _, v, _, hrun, _, _, hwrites, _⟩ :=
      @document_lossless {} _ rfl (⟨#[0x41, 0x22, 0x0A, 0x42]⟩ : ByteArray).toList
    have hdocument := hrun (fun _ => none) ⟨#[0x41, 0x22, 0x0A, 0x42]⟩ _ ["--json"]
      { json := true } rfl rfl rfl rfl rfl
    exact ⟨text, v, hdocument.1, hwrites⟩
  · obtain ⟨text, snapshot, rows, v, hprinted, _, _, hrows, hwrites, _, hread, _, _, hcodes⟩ :=
      @document_lossless twoPages _ rfl [0x22, 0x5C, 0x01, 0x1F, 0x7F, 0xFF]
    refine ⟨_, text, snapshot, v, rfl, hprinted, hwrites, hread, hcodes.trans ?_⟩
    have hshown : some rows =
        some [[⟨0x0722⟩, ⟨0x075C⟩, ⟨0x0701⟩], [⟨0x071F⟩, ⟨0x077F⟩, ⟨0x07FF⟩]] :=
      hrows.symm.trans (by decide +kernel)
    obtain rfl := Option.some.inj hshown
    rfl

end Seat

end TextConsole
