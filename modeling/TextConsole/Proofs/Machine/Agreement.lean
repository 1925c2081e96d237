import TextConsole.Proofs.Machine.Motion

/-!
# Consoles on machine words do what consoles do

A console in its place, in a region that a configuration can give it, never stops on machine
words: for each of its computations there is one equation, which says that it goes through
and that it does what it does with numbers of any size. Two of them need more than
the place of the console. Edits are for a console whose queue has been stored, since they
reckon from the cursor's address; and the tab stops have to fit into signed words
(`Settings.TabsFit`). With the one width whose stops do not fit, the machine stops at the first
tab that is no part of an escape sequence (`acceptRun_stops`). Where that tab is not checked, the
words go around, and lead where the numbers lead (`tabulateAround_raw`).
-/

namespace TextConsole

open Output

/-- Whether the tab stops can be reckoned with in signed words: a width that is half of all
the words is below zero when it is read with a sign, and one less is out of range. -/
structure Settings.TabsFit (settings : Settings) : Prop where
  pow : settings.behavior.tabWidth.isPowerOfTwo
  ne_half : settings.behavior.tabWidth ≠ 0x80000000

/-- The one power of two that is a word and no signed word is the width that does not fit. -/
theorem Settings.TabsFit.lt_half {settings : Settings} (h : settings.TabsFit)
    (hlt : settings.behavior.tabWidth < 0x100000000) :
    settings.behavior.tabWidth < 0x80000000 := by
  obtain ⟨⟨k, hk⟩, hne⟩ := h
  rw [hk] at hlt hne ⊢
  have hk32 : k < 32 := (Nat.pow_lt_pow_iff_right (by decide : 1 < 2)).mp hlt
  have hk31 : k ≠ 31 := by
    rintro rfl
    exact hne rfl
  exact Nat.pow_lt_pow_right (by decide) (by omega : k < 31)

/-- Whether a console that takes these bytes comes to a tab outside any escape sequence. -/
def Console.TakesTab (s : Surface) (c : Console) : List UInt8 → Prop
  | [] => False
  | byte :: bytes =>
      (byte = 0x09 ∧ c.escape.isCollecting = false) ∨ (c.accept s byte).value.TakesTab s bytes

theorem Console.TakesTab.mem {s : Surface} {bytes : List UInt8} :
    ∀ {c : Console}, c.TakesTab s bytes → 0x09 ∈ bytes := by
  induction bytes with
  | nil => exact fun h => h.elim
  | cons byte bytes ih =>
      rintro c (⟨rfl, _⟩ | h)
      · exact List.mem_cons_self
      · exact List.mem_cons_of_mem _ (ih h)

namespace RawConsole

open Checked Console

variable {s : Surface} {c : Console}

/-! ## Characters -/

theorem place_raw (hcol : c.col < s.columns) (hs : s.Holds c.region) (code : UInt8) :
    c.raw.place code = (pure (c.place code) : Output Console).checked := by
  have hcolumns := hs.columns_le
  have hnext : InRange (c.raw.col + 1) := by
    show InRange ((c.col : Int) + 1)
    constructor <;> omega
  unfold RawConsole.place
  rw [addInt_of_inRange hnext, pure_bind]
  rfl

theorem enqueue_raw (hs : s.Holds c.region) (hc : c.WellPlaced s) (hcol : c.col < s.columns)
    (code : UInt8) :
    c.raw.enqueue s code =
      (do let c ← c.makeRoom s; return c.place code : Output Console).checked := by
  have hcol' := col_makeRoom hcol
  unfold RawConsole.enqueue
  dsimp only
  by_cases hfull : queueLimit ≤ c.queue.length
  · have hroom : c.makeRoom s = c.flush s := if_neg (Nat.not_lt.mpr hfull)
    rw [hroom] at hcol' ⊢
    rw [if_pos (show queueLimit ≤ c.raw.queue.length from hfull), flush_raw hs hc.origin_within]
    have hplace := place_raw (s := s) (c := (c.flush s).value) (by rw [hcol']; exact hcol) hs code
    exact checked_bind (f := fun c => pure (c.place code)) hplace
  · have hroom : c.makeRoom s = pure c := if_pos (Nat.not_le.mp hfull)
    rw [if_neg (show ¬ queueLimit ≤ c.raw.queue.length from hfull), pure_bind, hroom, pure_bind]
    exact place_raw hcol hs code

theorem print_raw (hs : s.Holds c.region) (hc : c.WellPlaced s) (code : UInt8) :
    c.raw.print s code = (c.print s code).checked := by
  unfold RawConsole.print Console.print
  rw [hs.signedWord_columns, col_raw]
  by_cases hlt : c.col < s.columns
  · rw [if_pos hlt, if_neg (by omega)]
    exact enqueue_raw hs hc hlt code
  · rw [if_neg hlt, if_pos (by omega)]
    split
    · -- The next line has room, since screens are not empty.
      have hwrapped : (c.wrapLine s).value.region = c.region ∧ (c.wrapLine s).value.WellPlaced s :=
        wrapLine_steps.wellPlaced hs hc
      have hplace := enqueue_raw (c := (c.wrapLine s).value) (by rw [hwrapped.1]; exact hs)
        hwrapped.2 (by rw [col_wrapLine]; exact hs.columns_pos) code
      rw [← bind_assoc, wrapLine_raw hs hc]
      exact checked_bind (f := fun c => c.makeRoom s >>= fun c => pure (c.place code)) hplace
    · rfl

/-! ## Controls -/

theorem backspace_raw (hs : s.Holds c.region) (hc : c.WellPlaced s) :
    c.raw.backspace s = (c.backspace s).checked := by
  have hwindow := hc.origin_within
  have hcolumns := hs.columns_le
  have hrows := hs.rows_le
  have hrow := hc.row_lt
  have hle := hc.col_le
  have hback : InRange ((c.col : Int) - 1) := by
    constructor <;> omega
  have hup : InRange ((c.row : Int) - 1) := by
    constructor <;> omega
  unfold RawConsole.backspace Console.backspace
  rw [col_raw, row_raw,
    subInt_of_inRange hback, pure_bind]
  by_cases hcol : 0 < c.col
  · rw [if_pos hcol, if_neg (by omega)]
    exact flush_rawAt hs hwindow _ _
  rw [if_neg hcol, if_pos (by omega), subInt_of_inRange hup, pure_bind]
  dsimp only
  by_cases hfirst : 0 < c.row
  · have hend : InRange ((c.col : Int) - 1 + s.columns) := by
      constructor <;> omega
    rw [if_pos hfirst, if_pos (by omega), hs.signedWord_columns, addInt_of_inRange hend, pure_bind,
      show (c.col : Int) - 1 + s.columns = s.columns - 1 by omega]
    exact flush_rawAt hs hwindow _ _
  · -- In the first cell there is no queue, and the cursor is brought back.
    have hqueue : c.queue = [] := by
      have hlength := hc.queue_le_col
      exact List.length_eq_zero_iff.mp (by omega)
    have hstay : c.settle s ((c.row : Int) - 1) ((c.col : Int) - 1) = c.flush s := by
      refine settle_congr hqueue ?_ ?_
      · unfold Surface.confineRow
        omega
      · unfold Surface.confineColumn
        omega
    rw [if_neg hfirst, if_neg (by omega), pure_bind, ← hstay]
    exact flush_rawAt hs hwindow _ _

/-- The next tab stop on words. A width that does not fit in a word is no width at all, and
its stop is the first column. -/
theorem tabStop_raw (hs : s.Holds c.region) (hc : c.WellPlaced s) (ht : s.settings.TabsFit) :
    InRange ((c.col : Int) + signedWord s.settings.behavior.tabWidth) ∧
    InRange (signedWord s.settings.behavior.tabWidth - 1) ∧
    clearBits ((c.col : Int) + signedWord s.settings.behavior.tabWidth)
      (signedWord s.settings.behavior.tabWidth - 1) = s.nextTabStop c.col ∧
    s.nextTabStop c.col < 0x80000000 := by
  have hcolumns := hs.columns_le
  have hle := hc.col_le
  unfold Surface.nextTabStop
  dsimp only
  by_cases hword : s.settings.behavior.tabWidth < 0x100000000
  · have hlt := ht.lt_half hword
    obtain ⟨k, hk⟩ := ht.pow
    rw [hk] at hlt ⊢
    -- The next power of two is the width that is excluded.
    have hsmall : 2 ^ k ≤ 2 ^ 30 :=
      Nat.pow_le_pow_right (by decide)
        (Nat.le_of_lt_succ ((Nat.pow_lt_pow_iff_right (by decide : 1 < 2)).mp hlt))
    have hpos := Nat.two_pow_pos k
    have hstop : (c.col + 2 ^ k) / 2 ^ k * 2 ^ k ≤ c.col + 2 ^ k := Nat.div_mul_le_self _ _
    rw [signedWord_of_lt hlt, Nat.mod_eq_of_lt (by omega), if_pos hlt]
    refine ⟨?_, ?_, clearBits_low (x := c.col + 2 ^ k) (by omega), by omega⟩
    · constructor <;> omega
    · constructor <;> omega
  · obtain ⟨k, hk⟩ := ht.pow
    rw [hk] at hword ⊢
    have hdvd : 0x100000000 ∣ 2 ^ k := Nat.pow_dvd_pow 2
      ((Nat.pow_le_pow_iff_right (by decide : 1 < 2)).mp (Nat.le_of_not_lt hword) : 32 ≤ k)
    have hzero : signedWord (2 ^ k) = 0 := by
      unfold signedWord
      exact Int.bmod_eq_zero_of_dvd (Int.natCast_dvd_natCast.mpr hdvd)
    rw [hzero, Nat.mod_eq_zero_of_dvd hdvd, if_pos (by decide), Nat.mul_zero]
    refine ⟨?_, by decide, clearBits_neg_one _, by decide⟩
    constructor <;> omega

theorem moveToStop_raw (hs : s.Holds c.region) (hc : c.WellPlaced s)
    (hlt : s.nextTabStop c.col < 0x80000000) :
    c.raw.moveToStop s (s.nextTabStop c.col) = (c.tabulate s).checked := by
  have hcolumns := hs.columns_le
  unfold RawConsole.moveToStop Console.tabulate
  dsimp only
  rw [hs.signedWord_columns]
  by_cases hover : s.nextTabStop c.col ≤ s.columns
  · rw [if_pos hover, if_neg (by omega)]
    exact flush_rawAt hs hc.origin_within _ _
  · have hrest : InRange ((s.nextTabStop c.col : Int) - s.columns) := by
      constructor <;> omega
    rw [if_neg hover, if_pos (by omega), subInt_of_inRange hrest, pure_bind]
    exact lineFeed_flush_rawAt hs hc _

theorem tabulate_raw (hs : s.Holds c.region) (hc : c.WellPlaced s) (ht : s.settings.TabsFit) :
    c.raw.tabulate s = (c.tabulate s).checked := by
  obtain ⟨hnext, hlow, hstop, hlt⟩ := tabStop_raw hs hc ht
  unfold RawConsole.tabulate
  dsimp only
  rw [col_raw, addInt_of_inRange hnext, pure_bind, subInt_of_inRange hlow, pure_bind, hstop]
  exact moveToStop_raw hs hc hlt

/-- **Words that go around do what numbers do**, at every tab and for every width that a
configuration may have: the stop of the width that does not fit is left of the screen, and the
flush brings the cursor back to the first column. -/
theorem tabulateAround_raw (hs : s.Holds c.region) (hc : c.WellPlaced s)
    (hpow : s.settings.behavior.tabWidth.isPowerOfTwo) :
    c.raw.tabulateAround s = (c.tabulate s).checked := by
  unfold RawConsole.tabulateAround
  dsimp only
  rw [col_raw]
  by_cases hhalf : s.settings.behavior.tabWidth = 0x80000000
  · have hcolumns := hs.columns_le
    have hle := hc.col_le
    have hword : signedWord 0x80000000 = -0x80000000 := by decide
    have hzero : s.nextTabStop c.col = 0 := by
      unfold Surface.nextTabStop
      rw [hhalf]
      rfl
    have hleft : c.settle s c.row (-0x80000000) = c.settle s c.row 0 := by
      have hcol : s.confineColumn (-0x80000000) = s.confineColumn 0 := by
        unfold Surface.confineColumn
        omega
      unfold settle
      rw [hcol]
      rfl
    unfold RawConsole.moveToStop Console.tabulate
    dsimp only
    rw [hhalf, hword, clearBits_half (by omega), hs.signedWord_columns, if_neg (by omega), hzero,
      if_pos (Nat.zero_le _)]
    exact (flush_rawAt hs hc.origin_within _ _).trans (congrArg checked hleft)
  · obtain ⟨_, _, hstop, hlt⟩ := tabStop_raw hs hc ⟨hpow, hhalf⟩
    rw [hstop]
    exact moveToStop_raw hs hc hlt

/-- A width of half of all the signed words stops the machine at the first tab. -/
theorem tabulate_half_stops (hs : s.Holds c.region) (hc : c.WellPlaced s)
    (hhalf : s.settings.behavior.tabWidth = 0x80000000) : c.raw.tabulate s = Checked.stop := by
  have hcolumns := hs.columns_le
  have hle := hc.col_le
  have hword : signedWord 0x80000000 = -0x80000000 := by decide
  have hnext : InRange ((c.col : Int) + -0x80000000) := by
    constructor <;> omega
  have hlow : subInt (-0x80000000) 1 = stop := if_neg (by decide)
  unfold RawConsole.tabulate
  rw [hhalf, hword, col_raw]
  dsimp only
  rw [addInt_of_inRange hnext, pure_bind, hlow]
  rfl

theorem control_raw (hs : s.Holds c.region) (hc : c.WellPlaced s) {code : ControlCode}
    (ht : code = .tab → s.settings.TabsFit) :
    c.raw.control s code = (c.control s code).checked := by
  have hflush := flush_raw hs hc.origin_within
  cases code with
  | null => rfl
  | bell =>
      unfold RawConsole.control Console.control
      rw [hflush]
      exact checked_bind (f := fun c => do
        Output.emitIf (s.settings.behavior.bellEnabled = true) .ring
        return c) rfl
  | backspace => exact backspace_raw hs hc
  | tab => exact tabulate_raw hs hc (ht rfl)
  | lineFeed =>
      unfold RawConsole.control Console.control
      dsimp only
      cases s.settings.behavior.newlineReturnsCarriage with
      | false => exact lineFeed_flush_rawAt hs hc c.col
      | true => exact lineFeed_flush_rawAt hs hc 0
  | verticalTab => exact lineFeed_flush_rawAt hs hc c.col
  | formFeed => exact lineFeed_flush_rawAt hs hc c.col
  | carriageReturn => exact flush_rawAt hs hc.origin_within c.row 0
  | escape =>
      unfold RawConsole.control Console.control
      rw [hflush]
      exact checked_bind (f := fun c => pure { c with escape := .afterEscape }) rfl

/-! ## Erasing -/

theorem eraseInDisplay_raw (hs : s.Holds c.region) (hc : c.WellPlaced s) (mode : EraseMode) :
    c.raw.eraseInDisplay s mode = (c.perform s (.eraseInDisplay mode)).checked := by
  have hsize := hs.size_le
  have hoffset := s.offset_le hc.row_lt hc.col_le
  unfold RawConsole.eraseInDisplay
  rw [row_raw, col_raw, Int.toNat_natCast, Int.toNat_natCast,
    hs.mul_screen, pure_bind, mul_of_lt (by omega), pure_bind, add_of_lt (by omega),
    pure_bind]
  cases mode with
  | toEnd =>
      dsimp only
      rw [sub_of_le hoffset, pure_bind]
      rfl
  | toCursor => rfl
  | all => rfl

theorem eraseInLine_raw (hc : c.WellPlaced s) (hqueue : c.queue = []) (mode : EraseMode) :
    c.raw.eraseInLine s mode = (c.perform s (.eraseInLine mode)).checked := by
  have haddr := hc.cursorAddr_of_queue_eq_nil hqueue
  have hline : c.col ≤ c.raw.cursorAddr := by
    show c.col ≤ c.cursorAddr
    rw [haddr, addressOf]
    omega
  unfold RawConsole.eraseInLine
  rw [col_raw, Int.toNat_natCast, sub_of_le hline, pure_bind]
  cases mode with
  | toEnd =>
      dsimp only
      rw [sub_of_le hc.col_le, pure_bind]
      rfl
  | toCursor => rfl
  | all => rfl

/-! ## Inserting and deleting -/

/-- The rows that an edit asks for and those that it moves are rows of the screen. -/
theorem lineParts_raw (hs : s.Holds c.region) (hc : c.WellPlaced s) (count : Nat) :
    c.raw.lineParts s count =
      pure (c.origin + c.row * s.columns, min count (s.rows - c.row) * s.columns,
        (s.rows - c.row - min count (s.rows - c.row)) * s.columns) := by
  have hsize := hs.size_le
  have horigin : c.raw.origin ≤ 0x10000 := hc.origin_within.origin_le hs
  have hrow := hc.row_lt
  have htop := s.lines_le (Nat.le_of_lt hrow)
  have hgap := s.lines_le (show min count (s.rows - c.row) ≤ s.rows by omega)
  have hkept := s.lines_le (show s.rows - c.row - min count (s.rows - c.row) ≤ s.rows by omega)
  unfold RawConsole.lineParts
  rw [row_raw, Int.toNat_natCast, sub_of_le (by omega), pure_bind]
  dsimp only
  rw [mul_of_lt (by omega), pure_bind, add_of_lt (by omega), pure_bind, mul_of_lt (by omega),
    pure_bind, sub_of_le (by omega), pure_bind, mul_of_lt (by omega), pure_bind]
  rfl

/-- The ends of these parts are small addresses. -/
theorem lines_end_lt (hs : s.Holds c.region) (hc : c.WellPlaced s) {n : Nat} (h : n ≤ s.rows) :
    c.origin + c.row * s.columns + n * s.columns < 0x10000000000000000 := by
  have hsize := hs.size_le
  have horigin := hc.origin_within.origin_le hs
  have htop := s.lines_le (Nat.le_of_lt hc.row_lt)
  have hlines := s.lines_le h
  omega

theorem insertLines_raw (hs : s.Holds c.region) (hc : c.WellPlaced s) (count : Nat) :
    c.raw.insertLines s count = (c.perform s (.insertLines count)).checked := by
  have hgap := lines_end_lt hs hc (show min count (s.rows - c.row) ≤ s.rows by omega)
  unfold RawConsole.insertLines
  rw [lineParts_raw hs hc, pure_bind]
  dsimp only
  rw [add_of_lt hgap, pure_bind]
  rfl

theorem deleteLines_raw (hs : s.Holds c.region) (hc : c.WellPlaced s) (count : Nat) :
    c.raw.deleteLines s count = (c.perform s (.deleteLines count)).checked := by
  have hgap := lines_end_lt hs hc (show min count (s.rows - c.row) ≤ s.rows by omega)
  have hkept := lines_end_lt hs hc
    (show s.rows - c.row - min count (s.rows - c.row) ≤ s.rows by omega)
  unfold RawConsole.deleteLines
  rw [lineParts_raw hs hc, pure_bind]
  dsimp only
  rw [add_of_lt hgap, pure_bind, add_of_lt hkept, pure_bind]
  rfl

theorem charParts_raw (hc : c.WellPlaced s) (count : Nat) :
    c.raw.charParts s count =
      pure (min count (s.columns - c.col),
        s.columns - c.col - min count (s.columns - c.col)) := by
  unfold RawConsole.charParts
  rw [col_raw, Int.toNat_natCast, sub_of_le hc.col_le, pure_bind]
  dsimp only
  rw [sub_of_le (by omega), pure_bind]

/-- The cells between the cursor and the end of its row have small addresses. -/
theorem chars_end_lt (hs : s.Holds c.region) (hc : c.WellPlaced s) (hqueue : c.queue = [])
    {n : Nat} (h : n ≤ s.columns) : c.raw.cursorAddr + n < 0x10000000000000000 := by
  have haddr : c.raw.cursorAddr = c.addressOf s c.row c.col := hc.cursorAddr_of_queue_eq_nil hqueue
  have hsize := hs.size_le
  have hcolumns := hs.columns_le
  have horigin := hc.origin_within.origin_le hs
  have hoffset := s.offset_le hc.row_lt hc.col_le
  rw [haddr, addressOf]
  omega

theorem insertChars_raw (hs : s.Holds c.region) (hc : c.WellPlaced s) (hqueue : c.queue = [])
    (count : Nat) :
    c.raw.insertChars s count = (c.perform s (.insertChars count)).checked := by
  have hgap := chars_end_lt hs hc hqueue (show min count (s.columns - c.col) ≤ s.columns by omega)
  unfold RawConsole.insertChars
  rw [charParts_raw hc, pure_bind]
  dsimp only
  rw [add_of_lt hgap, pure_bind]
  rfl

theorem deleteChars_raw (hs : s.Holds c.region) (hc : c.WellPlaced s) (hqueue : c.queue = [])
    (count : Nat) :
    c.raw.deleteChars s count = (c.perform s (.deleteChars count)).checked := by
  have hgap := chars_end_lt hs hc hqueue (show min count (s.columns - c.col) ≤ s.columns by omega)
  have hkept := chars_end_lt hs hc hqueue
    (show s.columns - c.col - min count (s.columns - c.col) ≤ s.columns by omega)
  unfold RawConsole.deleteChars
  rw [charParts_raw hc, pure_bind]
  dsimp only
  rw [add_of_lt hgap, pure_bind, add_of_lt hkept, pure_bind]
  rfl

theorem changeRendition_raw (change : RenditionChange) :
    c.raw.changeRendition s change = (c.changeRendition s change).checked := by
  unfold RawConsole.changeRendition Console.changeRendition
  dsimp only
  cases h : change.blank? c.blank with
  | none =>
      rw [show change.blank? c.raw.blank = none from h]
      rfl
  | some blank =>
      rw [show change.blank? c.raw.blank = some blank from h]
      rfl

/-! ## Commands -/

theorem move_raw (hs : s.Holds c.region) (hc : c.WellPlaced s) (hqueue : c.queue = [])
    {row row' col col' : Int} (hrow : s.confineRow row = s.confineRow row')
    (hcol : s.confineColumn col = s.confineColumn col') :
    (c.rawAt row col).flush s = (c.settle s row' col').checked := by
  rw [flush_rawAt hs hc.origin_within, settle_congr hqueue hrow hcol]

theorem reverseIndex_raw (hs : s.Holds c.region) (hc : c.WellPlaced s) :
    c.raw.perform s .reverseIndex = (c.perform s .reverseIndex).checked := by
  have hrow := hc.row_lt
  have hrows := hs.rows_le
  have hup : InRange ((c.row : Int) - 1) := by
    constructor <;> omega
  unfold RawConsole.perform Console.perform
  dsimp only
  rw [row_raw]
  by_cases hfirst : c.row = 0
  · have hscrolled := wellPlaced_scroll hs hc.origin_within .down
    rw [if_pos hfirst, if_pos (by omega), scroll_raw hs hc]
    exact checked_flush hs hscrolled rfl
  · rw [if_neg hfirst, if_neg (by omega), subInt_of_inRange hup, pure_bind, pure_bind]
    exact flush_rawAt hs hc.origin_within _ _

theorem perform_raw (hs : s.Holds c.region) (hc : c.WellPlaced s) (hqueue : c.queue = [])
    (command : Command) : c.raw.perform s command = (c.perform s command).checked := by
  have hrow := hc.row_lt
  have hcol := hc.col_le
  have hrows := hs.rows_le
  have hcolumns := hs.columns_le
  cases command with
  | reverseIndex => exact reverseIndex_raw hs hc
  | cursorUp n =>
      have hup := cut_sub_saturated (x := c.row) (e := s.rows - 1) (by omega) (by omega) n
      exact move_raw hs hc hqueue hup rfl
  | cursorDown n =>
      have hdown := cut_add_saturated (x := c.row) (e := s.rows - 1) (by omega) (by omega) n
      exact move_raw hs hc hqueue hdown rfl
  | cursorForward n =>
      have hright := cut_add_saturated (x := c.col) (e := s.columns) (by omega) (by omega) n
      exact move_raw hs hc hqueue rfl hright
  | cursorBackward n =>
      have hleft := cut_sub_saturated (x := c.col) (e := s.columns) (by omega) (by omega) n
      exact move_raw hs hc hqueue rfl hleft
  | cursorPosition row col =>
      obtain ⟨hin, hline⟩ := cut_position (e := s.rows - 1) (by omega) row
      obtain ⟨hin', hcolumn⟩ := cut_position (e := s.columns) (by omega) col
      unfold RawConsole.perform
      dsimp only
      rw [subInt_of_inRange hin, pure_bind, subInt_of_inRange hin', pure_bind]
      exact move_raw hs hc hqueue hline hcolumn
  | eraseInDisplay mode => exact eraseInDisplay_raw hs hc mode
  | eraseInLine mode => exact eraseInLine_raw hc hqueue mode
  | insertLines n => exact insertLines_raw hs hc n
  | deleteLines n => exact deleteLines_raw hs hc n
  | insertChars n => exact insertChars_raw hs hc hqueue n
  | deleteChars n => exact deleteChars_raw hs hc hqueue n
  | changeRendition change => exact changeRendition_raw change

theorem execute_raw (hs : s.Holds c.region) (hc : c.WellPlaced s) (sequence : Escape.Sequence) :
    c.raw.execute s sequence = (c.execute s sequence).checked := by
  have hflushed := wellPlaced_settle hs hc.origin_within c.row c.col
  unfold RawConsole.execute Console.execute
  rw [flush_raw hs hc.origin_within]
  refine checked_bind ?_
  cases Command.ofSequence? sequence with
  | none => rfl
  | some command => exact perform_raw (c := c.flushed s) hs hflushed rfl command

/-! ## Bytes and runs of bytes -/

theorem continueEscape_raw (hs : s.Holds c.region) (hc : c.WellPlaced s) (hqueue : c.queue = [])
    (byte : UInt8) :
    (match c.escape.advance byte with
      | (escape, none) => pure { c.raw with escape := escape }
      | (escape, some sequence) => execute s { c.raw with escape := escape } sequence) =
      (c.continueEscape s byte).checked := by
  have hcollect := (Step.collect (s := s) (c.escape.advance byte).1 hqueue).wellPlaced hs hc
  unfold continueEscape
  rcases hadvance : c.escape.advance byte with ⟨escape, _ | sequence⟩
  · rfl
  · rw [hadvance] at hcollect
    exact execute_raw (c := { c with escape := escape }) hs hcollect sequence

/-- There is one byte that asks for a tab stop. -/
theorem eq_tab_of_ofByte? {byte : UInt8} (h : ControlCode.ofByte? byte = some .tab) :
    byte = 0x09 := by
  unfold ControlCode.ofByte? at h
  split at h <;> cases h
  exact UInt8.toNat_inj.mp ‹_›

theorem accept_raw (hs : s.Holds c.region) (hc : c.WellPlaced s) {byte : UInt8}
    (ht : byte = 0x09 → c.escape.isCollecting = false → s.settings.TabsFit) :
    c.raw.accept s byte = (c.accept s byte).checked := by
  unfold RawConsole.accept Console.accept
  by_cases hcollect : c.escape.isCollecting = true
  · rw [if_pos hcollect, if_pos (show c.raw.escape.isCollecting = true from hcollect)]
    exact continueEscape_raw hs hc (hc.quiet hcollect) byte
  · rw [if_neg hcollect, if_neg (show ¬ c.raw.escape.isCollecting = true from hcollect)]
    cases hcode : ControlCode.ofByte? byte with
    | none => exact print_raw hs hc byte
    | some code =>
        refine control_raw hs hc ?_
        rintro rfl
        exact ht (eq_tab_of_ofByte? hcode) (Bool.not_eq_true _ ▸ hcollect)

theorem acceptFast_raw (hs : s.Holds c.region) (hc : c.WellPlaced s) {byte : UInt8}
    (ht : byte = 0x09 → c.escape.isCollecting = false → s.settings.TabsFit) :
    c.raw.acceptFast s byte = (c.acceptFast s byte).checked := by
  have hplain : (byte < 0x20 ∨ c.raw.escape.isCollecting = true ∨ (s.columns : Int) ≤ c.raw.col ∨
      queueLimit ≤ c.raw.queue.length) ↔ ¬ c.IsPlain s byte := by
    have hcol : (s.columns : Int) ≤ c.raw.col ↔ s.columns ≤ c.col := Int.ofNat_le
    rw [hcol]
    simp only [IsPlain, not_and_or, UInt8.not_le, Bool.not_eq_false, not_lt]
    rfl
  unfold RawConsole.acceptFast Console.acceptFast
  rw [hs.signedWord_columns]
  by_cases h : c.IsPlain s byte
  · rw [if_pos h, if_neg (by rw [hplain]; exact not_not_intro h)]
    exact place_raw h.2.2.1 hs byte
  · rw [if_neg h, if_pos (hplain.mpr h)]
    exact accept_raw hs hc ht

/-- One byte of a run, from a console that a computation has left in its place. -/
theorem checked_bind_acceptFast {x : Output Console} (hs : s.Holds x.value.region)
    (hx : x.value.WellPlaced s) (byte : UInt8)
    (ht : byte = 0x09 → x.value.escape.isCollecting = false → s.settings.TabsFit) :
    (x.checked >>= fun r => r.acceptFast s byte) = (x >>= fun c => c.acceptFast s byte).checked ∧
      s.Holds (x >>= fun c => c.acceptFast s byte).value.region ∧
      (x >>= fun c => c.acceptFast s byte).value.WellPlaced s := by
  have hfast := acceptFast_steps (s := s) hs.columns_pos hx.quiet byte
  obtain ⟨hregion, hnext⟩ := hfast.wellPlaced hs hx
  refine ⟨checked_bind (acceptFast_raw hs hx ht), ?_, hnext⟩
  show s.Holds (x.value.acceptFast s byte).value.region
  rwa [hregion]

/-- What a run of bytes does, from a console that a computation has left in its place. -/
theorem foldl_acceptFast_raw {bytes : List UInt8} (x : Output Console)
    (hs : s.Holds x.value.region) (hx : x.value.WellPlaced s)
    (ht : x.value.TakesTab s bytes → s.settings.TabsFit) :
    bytes.foldl (fun out byte => out >>= fun r => r.acceptFast s byte) x.checked =
      (bytes.foldl (fun out byte => out >>= fun c => c.acceptFast s byte) x).checked := by
  induction bytes generalizing x with
  | nil => rfl
  | cons byte bytes ih =>
      obtain ⟨hbyte, hs', hx'⟩ := checked_bind_acceptFast hs hx byte
        fun htab hescape => ht (Or.inl ⟨htab, hescape⟩)
      rw [List.foldl_cons, List.foldl_cons, hbyte]
      refine ih _ hs' hx' fun htab => ht (Or.inr ?_)
      rw [Output.value_bind, acceptFast_eq] at htab
      exact htab

theorem acceptRun_raw (hs : s.Holds c.region) (hc : c.WellPlaced s) {bytes : List UInt8}
    (ht : c.TakesTab s bytes → s.settings.TabsFit) :
    c.raw.acceptRun s bytes = (c.acceptRun s bytes).checked := by
  have hfold := foldl_acceptFast_raw (pure c) hs hc ht
  have hsteps := foldl_acceptFast_steps (s := s) hs.columns_pos hc.quiet bytes
  obtain ⟨hregion, hplaced⟩ := hsteps.wellPlaced hs hc
  have hflush := flush_raw (by rw [hregion]; exact hs) hplaced.origin_within
  unfold RawConsole.acceptRun Console.acceptRun
  rw [pure_raw, hfold]
  exact checked_bind (f := fun c => c.flush s) hflush

theorem acceptFast_tab_stops (hs : s.Holds c.region) (hc : c.WellPlaced s)
    (hhalf : s.settings.behavior.tabWidth = 0x80000000)
    (hescape : c.escape.isCollecting = false) : c.raw.acceptFast s 0x09 = stop := by
  have hraw : ¬ c.raw.escape.isCollecting = true := Bool.not_eq_true _ ▸ hescape
  unfold RawConsole.acceptFast RawConsole.accept
  rw [if_pos (Or.inl (by decide)), if_neg hraw]
  exact tabulate_half_stops hs hc hhalf

/-- Nothing follows where the machine has stopped. -/
theorem foldl_stop (bytes : List UInt8) :
    bytes.foldl (fun out byte => out >>= fun r => r.acceptFast s byte) (stop : Checked RawConsole) =
      stop := by
  induction bytes with
  | nil => rfl
  | cons byte bytes ih => exact ih

theorem foldl_acceptFast_stops (hhalf : s.settings.behavior.tabWidth = 0x80000000)
    {bytes : List UInt8} (x : Output Console) (hs : s.Holds x.value.region)
    (hx : x.value.WellPlaced s) (htab : x.value.TakesTab s bytes) :
    bytes.foldl (fun out byte => out >>= fun r => r.acceptFast s byte) x.checked = stop := by
  induction bytes generalizing x with
  | nil => exact htab.elim
  | cons byte bytes ih =>
      rw [List.foldl_cons]
      by_cases htaken : byte = 0x09 ∧ x.value.escape.isCollecting = false
      · obtain ⟨rfl, hescape⟩ := htaken
        have hstops := acceptFast_tab_stops hs hx hhalf hescape
        rw [checked_bind_of_stop (g := fun r => r.acceptFast s 0x09) hstops]
        exact foldl_stop bytes
      · obtain ⟨hbyte, hs', hx'⟩ := checked_bind_acceptFast hs hx byte
          fun htab hescape => absurd ⟨htab, hescape⟩ htaken
        rw [hbyte]
        refine ih _ hs' hx' ?_
        rw [Output.value_bind, acceptFast_eq]
        exact htab.resolve_left htaken

/-- **The first tab of a run stops the machine** if the width of tabs is half of all the signed
words. -/
theorem acceptRun_stops (hs : s.Holds c.region) (hc : c.WellPlaced s)
    (hhalf : s.settings.behavior.tabWidth = 0x80000000) {bytes : List UInt8}
    (htab : c.TakesTab s bytes) : c.raw.acceptRun s bytes = stop := by
  unfold RawConsole.acceptRun
  rw [pure_raw, foldl_acceptFast_stops hhalf (pure c) hs hc htab]
  rfl

theorem echo_raw (hs : s.Holds c.region) (hc : c.WellPlaced s) {byte : UInt8}
    (ht : byte = 0x09 → c.escape.isCollecting = false → s.settings.TabsFit) :
    c.raw.echo s byte = (c.echo s byte).checked := by
  have haccept := accept_steps (s := s) hs.columns_pos hc.quiet byte
  obtain ⟨hregion, hplaced⟩ := haccept.wellPlaced hs hc
  have hflush := flush_raw (by rw [hregion]; exact hs) hplaced.origin_within
  unfold RawConsole.echo Console.echo
  rw [accept_raw hs hc ht]
  exact checked_bind (f := fun c => c.flush s) hflush

theorem clearWindow_raw (hs : s.Holds c.region) :
    c.raw.clearWindow s = (Seat.clearWindow s c).checked := by
  unfold RawConsole.clearWindow
  rw [hs.mul_screen, pure_bind]
  rfl

end RawConsole

end TextConsole
