import TextConsole.Proofs.Machine.Seat
import TextConsole.Proofs.Sequences

/-!
# Moves of the cursor

Five commands move the cursor, by some rows or columns or to a row and a column that are counted
from one. A parameter may be a number of any size. On its way into the cursor it is cut off at
the largest number of 32 bits and then at the largest signed one, a sum or difference with it
saturates, and at last the cursor is confined to the screen.

None of this can be told from exact integers that are confined once (`Motion.target`): a screen
is far smaller than any number at which something is cut off. A move stores the queue and changes
no cell otherwise, and machine words lead to the same seat (`motion_is_exact`).
-/

namespace TextConsole

open Escape (IsDigit IsParameter Spells decimal parameter bracketed parameterLimit)

/-- A move of the cursor. -/
inductive Motion where
  | up
  | down
  | forward
  | backward
  | position
deriving DecidableEq, Repr

namespace Motion

/-- The command that moves the cursor. -/
def command (first second : Nat) : Motion → Command
  | up => .cursorUp (max first 1)
  | down => .cursorDown (max first 1)
  | forward => .cursorForward (max first 1)
  | backward => .cursorBackward (max first 1)
  | position => .cursorPosition first second

/-- The final byte of that command: `A` to `D`, or `H`. -/
def byte : Motion → UInt8
  | up => 0x41
  | down => 0x42
  | forward => 0x43
  | backward => 0x44
  | position => 0x48

/-- Where a move is headed, on the screen or off it. -/
def aim (row col first second : Nat) : Motion → Int × Int
  | up => (row - (max first 1 : Nat), col)
  | down => (row + (max first 1 : Nat), col)
  | forward => (row, col + (max first 1 : Nat))
  | backward => (row, col - (max first 1 : Nat))
  | position => (first - 1, second - 1)

/-- Where a move ends, on a screen of some rows and columns. -/
def target (rows columns row col first second : Nat) : Motion → Int × Int
  | up => (max 0 (row - max 1 first), col)
  | down => (min (rows - 1) (row + max 1 first), col)
  | forward => (row, min columns (col + max 1 first))
  | backward => (row, max 0 (col - max 1 first))
  | position => (max 0 (min (first - 1) (rows - 1)), max 0 (min (second - 1) columns))

theorem ofSequence?_eq (motion : Motion) (first second : Nat) :
    Command.ofSequence? ⟨.bracket, first, second, motion.byte⟩ =
      some (motion.command first second) := by
  cases motion <;> rfl

theorem not_isParameter_byte (motion : Motion) : ¬ IsParameter motion.byte := by
  cases motion <;> decide

theorem byte_ne_tab (motion : Motion) : motion.byte ≠ 0x09 := by
  cases motion <;> decide

/-- **Cut off twice or not at all**, a move ends at the same cell. -/
theorem confine_aim {s : Surface} {row col : Nat} (hrow : row < s.rows) (hcol : col ≤ s.columns)
    (hrows : s.rows ≤ 0x10000) (hcolumns : s.columns ≤ 0x10000) (motion : Motion)
    (first second : Nat) :
    ((s.confineRow (motion.aim row col (min first parameterLimit)
        (min second parameterLimit)).1 : Int),
      (s.confineColumn (motion.aim row col (min first parameterLimit)
        (min second parameterLimit)).2 : Int)) =
      motion.target s.rows s.columns row col first second := by
  cases motion <;>
    simp only [aim, target, Surface.confineRow, Surface.confineColumn, parameterLimit,
      Prod.mk.injEq] <;> omega

end Motion

namespace Console

variable {s : Surface} {c : Console}

theorem perform_motion (motion : Motion) (first second : Nat) :
    c.perform s (motion.command first second) =
      c.settle s (motion.aim c.row c.col first second).1
        (motion.aim c.row c.col first second).2 := by
  cases motion <;> rfl

/-- **A move stores the queue and settles the cursor** where it is headed. -/
theorem obey_motion (hc : c.WellPlaced s) (motion : Motion) (first second : Nat) :
    c.obey s (motion.command first second) =
      c.flush s >>= fun c' => c'.settle s (motion.aim c.row c.col first second).1
        (motion.aim c.row c.col first second).2 := by
  have hrow : (c.flushed s).row = c.row := confineRow_of_lt hc.row_lt
  have hcol : (c.flushed s).col = c.col := confineColumn_of_le hc.col_le
  rw [obey]
  apply Output.bind_congr
  show (c.flushed s).perform s _ = (c.flushed s).settle s _ _
  rw [perform_motion, hrow, hcol]

/-- A move only stores the queue. -/
theorem performAll_obey_motion (hc : c.WellPlaced s) (d : Display) (motion : Motion)
    (first second : Nat) :
    d.performAll (c.obey s (motion.command first second)).effects =
      d.performAll (c.flush s).effects := by
  rw [obey_motion hc, Output.effects_bind, Display.performAll_append]
  exact performAll_settle_of_queue_eq_nil rfl _ _

end Console

namespace Seat

variable {config : Config} {s t : Seat} {c : Console} {id : Nat} {fields : List (List UInt8)}

theorem applyAll_sends (s : Seat) (id : Nat) (bytes : List UInt8) :
    s.applyAll (bytes.map (.send id)) = s.sends id bytes := List.foldl_map

/-- Digits that are sent between separators are the parameters of a move, up to the limit. -/
theorem Sound.sent_fields {motion : Motion} (h : s.Sound)
    (hc : s.consoles[id]? = some c) (hescape : c.escape = .ground)
    (hfields : ∀ digits ∈ fields, ∀ byte ∈ digits, IsDigit byte)
    (ht : Sent s id (bracketed ([0x3B].intercalate fields) motion.byte) t) :
    t = s.run id fun surface c => c.obey surface
      (motion.command (min (decimal (fields.getD 0 [])) parameterLimit)
        (min (decimal (fields.getD 1 [])) parameterLimit)) := by
  have hword := Spells.bracket (Escape.isParameter_intercalate hfields) motion.not_isParameter_byte
  simp only [parameter, Escape.field_intercalate hfields] at hword
  exact (h.sent_word hc hescape hword ht).trans
    (run_congr hc (Console.execute_of_some (motion.ofSequence?_eq _ _)))

/-- A move leaves the displays, and so the rows, as a flush leaves them. -/
theorem Sound.displays_run_obey_motion (h : s.Sound) (hc : s.consoles[id]? = some c)
    (motion : Motion) (first second : Nat) :
    (s.run id fun surface c => c.obey surface (motion.command first second)).displays =
      (s.flush id).displays := by
  apply Array.ext_getElem?
  intro k
  rw [flush, displays_run hc, displays_run hc]
  simp only [Console.performAll_obey_motion (h.placed hc)]

theorem Sound.rows?_run_obey_motion (h : s.Sound) (hc : s.consoles[id]? = some c)
    (motion : Motion) (first second : Nat) :
    (s.run id fun surface c => c.obey surface (motion.command first second)).rows? id =
      (s.flush id).rows? id := by
  have hplaced := h.placed hc
  refine h.rows?_run_eq_flush hc stepwise_obey ?_ fun d =>
    Console.performAll_obey_motion hplaced d motion first second
  rw [Console.obey_motion hplaced]
  rfl

/-- No byte of a move is a tab. -/
theorem tab_not_mem_bracketed (hfields : ∀ digits ∈ fields, ∀ byte ∈ digits, IsDigit byte)
    (motion : Motion) : 0x09 ∉ bracketed ([0x3B].intercalate fields) motion.byte := by
  intro hmem
  simp only [bracketed, List.mem_cons, List.mem_append, List.not_mem_nil, or_false] at hmem
  rcases hmem with hescape | hbracket | hparameter | hfinal
  · cases hescape
  · cases hbracket
  · exact absurd (Escape.isParameter_intercalate hfields _ hparameter) (by decide)
  · exact motion.byte_ne_tab hfinal.symm

/-- **Moves of the cursor are exact**, for a console outside any escape sequence and for
parameters of any number and length. The cursor ends where integers put it, its address is that
of its cell, and memory is as a flush leaves it. A machine of 32 bits goes through the same
bytes, one at a time or as a run, and ends on the same seat. -/
theorem motion_is_exact (h : Reached config s) (hc : s.consoles[id]? = some c)
    (hescape : c.escape = .ground) (motion : Motion)
    (hfields : ∀ digits ∈ fields, ∀ byte ∈ digits, IsDigit byte)
    (ht : Sent s id (bracketed ([0x3B].intercalate fields) motion.byte) t) :
    (∃ c', t.consoles[id]? = some c' ∧
      ((c'.row : Int), (c'.col : Int)) =
        motion.target config.screen.rows config.screen.columns c.row c.col
          (decimal (fields.getD 0 [])) (decimal (fields.getD 1 [])) ∧
      c'.origin = c.origin ∧
      c'.cursorAddr = c'.origin + c'.row * config.screen.columns + c'.col) ∧
    t.displays = (s.flush id).displays ∧ t.rows? id = (s.flush id).rows? id ∧
    s.carryOutAll? ((bracketed ([0x3B].intercalate fields) motion.byte).map (.send id)) = some t ∧
    s.carryOut? (.sendRun id (bracketed ([0x3B].intercalate fields) motion.byte)) = some t := by
  have hsound := h.sound
  have hholds := hsound.holds hc
  have hplaced := hsound.placed hc
  have htab := tab_not_mem_bracketed hfields motion
  -- However the bytes are sent, they lead to the same seat.
  have hboth : ∀ {u}, Sent s id (bracketed ([0x3B].intercalate fields) motion.byte) u → u = t :=
    fun hu => (hsound.sent_fields hc hescape hfields hu).trans
      (hsound.sent_fields hc hescape hfields ht).symm
  refine ⟨?_, ?_, ?_, ?_, ?_⟩
  · rw [hsound.sent_fields hc hescape hfields ht]
    refine ⟨_, consoles_run_self hc, ?_⟩
    rw [Console.obey_motion hplaced, ← h.rows_surface id c, ← h.columns_surface id c]
    exact ⟨motion.confine_aim hplaced.row_lt hplaced.col_le hholds.rows_le hholds.columns_le _ _,
      rfl, rfl⟩
  · rw [hsound.sent_fields hc hescape hfields ht]
    exact hsound.displays_run_obey_motion hc motion _ _
  · rw [hsound.sent_fields hc hescape hfields ht]
    exact hsound.rows?_run_obey_motion hc motion _ _
  · rw [hsound.carryOutAll?_sends id htab, applyAll_sends, hboth (Or.inl rfl)]
  · rw [hsound.carryOut?_sendRun id htab]
    exact congrArg some (hboth (Or.inr rfl))

/-- A character waits in the first row. The cursor goes to a row whose number is one too large
for 32 bits, with no column and one parameter too many; and forward by that number of columns. -/
theorem motion_is_exact_twoPages :
    ∃ s c, Reached twoPages s ∧ s.consoles[1]? = some c ∧ c.queue = [⟨0x0741⟩] ∧ c.row = 0 ∧
      c.col = 1 ∧
      (∃ c', (s.sends 1 (bracketed
          ([0x3B].intercalate [[0x34, 0x32, 0x39, 0x34, 0x39, 0x36, 0x37, 0x32, 0x39, 0x36], [],
            [0x37]]) 0x48)).consoles[1]? = some c' ∧ (c'.row : Int) = 1 ∧ (c'.col : Int) = 0 ∧
        c'.cursorAddr = c'.origin + 3) ∧
      (∃ c', (s.sendRun 1 (bracketed
          ([0x3B].intercalate [[0x34, 0x32, 0x39, 0x34, 0x39, 0x36, 0x37, 0x32, 0x39, 0x36]])
            0x43)).consoles[1]? = some c' ∧ (c'.row : Int) = 0 ∧ (c'.col : Int) = 3) := by
  have hreached : Reached twoPages _ := ⟨_, [.send 1 0x41], rfl, rfl⟩
  obtain ⟨⟨c₁, hc₁, htarget₁, _, haddr⟩, _⟩ := @motion_is_exact _ _ _ _ 1
    [[0x34, 0x32, 0x39, 0x34, 0x39, 0x36, 0x37, 0x32, 0x39, 0x36], [], [0x37]] hreached rfl rfl
    .position (by decide +kernel) (Or.inl rfl)
  obtain ⟨⟨c₂, hc₂, htarget₂, _⟩, _⟩ := @motion_is_exact _ _ _ _ 1
    [[0x34, 0x32, 0x39, 0x34, 0x39, 0x36, 0x37, 0x32, 0x39, 0x36]] hreached rfl rfl
    .forward (by decide +kernel) (Or.inr rfl)
  have hcorner : ((c₁.row : Int), (c₁.col : Int)) = (1, 0) := htarget₁.trans (by decide +kernel)
  have hend : ((c₂.row : Int), (c₂.col : Int)) = (0, 3) := htarget₂.trans (by decide +kernel)
  obtain ⟨hrow₁, hcol₁⟩ := Prod.mk.inj hcorner
  obtain ⟨hrow₂, hcol₂⟩ := Prod.mk.inj hend
  refine ⟨_, _, hreached, rfl, by decide +kernel, by decide +kernel, by decide +kernel,
    ⟨c₁, hc₁, hrow₁, hcol₁, ?_⟩, c₂, hc₂, hrow₂, hcol₂⟩
  rw [haddr, show c₁.row = 1 by omega, show c₁.col = 0 by omega]
  rfl

end Seat

end TextConsole
