import TextConsole.Proofs.Independence
import TextConsole.Proofs.Renditions
import TextConsole.Seat.Snapshot

/-!
# Only characters reach the screen

Nine bytes are control codes, and none of them is ever a character of the screen: every cell
of video memory and every queued cell has another code (`Seat.Legible`). A cell enters memory
from the queue of a console, as a blank, or from another place in memory, and it enters the
queue only as a byte that stands for no control code. Its code remains what it was because
the renditions that consoles and displays hold are proper.

So no character of a screen ends a line (`Cell.IsCharacter.char_ne`).
-/

namespace TextConsole

/-- The bytes that are control codes. -/
def controlBytes : List UInt8 := [0x00, 0x07, 0x08, 0x09, 0x0A, 0x0B, 0x0C, 0x0D, 0x1B]

theorem ControlCode.ofByte?_eq_none_iff {byte : UInt8} :
    ControlCode.ofByte? byte = none ↔ byte ∉ controlBytes := by
  simp only [controlBytes, List.mem_cons, List.not_mem_nil, or_false, ← UInt8.toNat_inj]
  unfold ControlCode.ofByte?
  split <;> simp_all

/-- Whether a cell shows a character, and no control code. -/
def Cell.IsCharacter (cell : Cell) : Prop := ControlCode.ofByte? cell.code = none

/-- A blank shows a space. -/
theorem Cell.isCharacter_blank {r : Rendition} (h : r.IsProper) : (Cell.blank r).IsCharacter := by
  rw [IsCharacter, blank, code_ofCode h]
  rfl

theorem Cell.isCharacter_default : (default : Cell).IsCharacter :=
  isCharacter_blank Rendition.isProper_normal

/-! ## Where the cells of memory come from -/

namespace VideoMemory

variable {m : VideoMemory} {cell : Cell}

theorem mem_storeAround {run : List Cell} : ∀ {cells : Array Cell} {dest : Nat},
    cell ∈ storeAround cells dest run → cell ∈ cells ∨ cell ∈ run := by
  induction run with
  | nil => exact fun h => Or.inl h
  | cons c run ih =>
      intro cells dest h
      rcases ih h with h | h
      · rcases Array.mem_or_eq_of_mem_setIfInBounds h with h | rfl
        · exact Or.inl h
        · exact Or.inr List.mem_cons_self
      · exact Or.inr (List.mem_cons_of_mem _ h)

theorem mem_storeAt {run : List Cell} : ∀ {cells : Array Cell} {dest : Nat},
    cell ∈ storeAt cells dest run → cell ∈ cells ∨ cell ∈ run := by
  induction run with
  | nil => exact fun h => Or.inl h
  | cons c run ih =>
      intro cells dest h
      rcases ih h with h | h
      · rcases Array.mem_or_eq_of_mem_setIfInBounds h with h | rfl
        · exact Or.inl h
        · exact Or.inr List.mem_cons_self
      · exact Or.inr (List.mem_cons_of_mem _ h)

/-- A store brings the cells of its run and no others. -/
theorem mem_write {dest : Nat} {run : List Cell} (h : cell ∈ (m.write dest run).cells) :
    cell ∈ m.cells ∨ cell ∈ run := by
  unfold write at h
  split at h
  · exact mem_storeAround h
  · split at h
    · exact mem_storeAt h
    · exact Or.inl h

theorem mem_fill {dest len : Nat} (h : cell ∈ (m.fill dest len).cells) :
    cell ∈ m.cells ∨ cell = m.blankCell :=
  (mem_write h).imp_right List.eq_of_mem_replicate

theorem mem_getD (cells : Array Cell) (i : Nat) :
    cells.getD i default ∈ cells ∨ cells.getD i default = default := by
  rw [Array.getD_eq_getD_getElem?]
  cases h : cells[i]? with
  | none => exact Or.inr rfl
  | some c => exact Or.inl (Array.mem_of_getElem? h)

/-- What is read was in memory, or stands for what is not there. -/
theorem mem_read {addr len : Nat} (h : cell ∈ m.read addr len) :
    cell ∈ m.cells ∨ cell = default := by
  unfold read at h
  split at h
  · obtain ⟨i, _, rfl⟩ := List.mem_map.mp h
    exact mem_getD _ _
  · obtain ⟨i, _, rfl⟩ := Array.mem_extract_iff_getElem.mp (Array.mem_toList_iff.mp h)
    exact Or.inl (Array.getElem_mem _)

theorem mem_moveAscending {len : Nat} : ∀ {cells : Array Cell} {src dest : Nat},
    cell ∈ moveAscending cells src dest len → cell ∈ cells ∨ cell = default := by
  induction len with
  | zero => exact fun h => Or.inl h
  | succ len ih =>
      intro cells src dest h
      rcases ih h with h | rfl
      · rcases Array.mem_or_eq_of_mem_setIfInBounds h with h | rfl
        · exact Or.inl h
        · exact mem_getD _ _
      · exact Or.inr rfl

theorem mem_moveDescending {len : Nat} : ∀ {cells : Array Cell} {src dest : Nat},
    cell ∈ moveDescending cells src dest len → cell ∈ cells ∨ cell = default := by
  induction len with
  | zero => exact fun h => Or.inl h
  | succ len ih =>
      intro cells src dest h
      rcases ih h with h | rfl
      · rcases Array.mem_or_eq_of_mem_setIfInBounds h with h | rfl
        · exact Or.inl h
        · exact mem_getD _ _
      · exact Or.inr rfl

/-- A move brings no new cells. -/
theorem mem_copy {src dest len : Nat} (h : cell ∈ (m.copy src dest len).cells) :
    cell ∈ m.cells ∨ cell = default := by
  unfold copy at h
  split at h
  · exact Or.inl h
  · split at h
    · rcases mem_write h with h | h
      · exact Or.inl h
      · exact mem_read h
    · split at h
      · dsimp only at h
        split at h
        · exact mem_moveAscending h
        · exact mem_moveDescending h
      · exact Or.inl h

end VideoMemory

/-! ## Displays and consoles -/

/-- Whether a display holds characters only, and draws its blanks as such. -/
structure Display.Legible (d : Display) : Prop where
  blank : d.memory.blank.IsProper
  cells : ∀ cell ∈ d.memory.cells, cell.IsCharacter

/-- Whether an effect brings characters only. -/
def Effect.Legible : Effect → Prop
  | .write _ run => ∀ cell ∈ run, cell.IsCharacter
  | .setBlank r => r.IsProper
  | .fill _ _ => True
  | .copy _ _ _ => True
  | .setRegister _ _ => True
  | .ring => True

namespace Display.Legible

variable {d : Display}

theorem setBlank (h : d.Legible) {r : Rendition} (hr : r.IsProper) : (d.setBlank r).Legible :=
  ⟨hr, h.cells⟩

theorem perform (h : d.Legible) {e : Effect} (he : e.Legible) : (d.perform e).Legible := by
  cases e with
  | write dest run =>
      refine ⟨by simpa [Display.perform] using h.blank, ?_⟩
      intro cell hcell
      rcases VideoMemory.mem_write hcell with hcell | hcell
      · exact h.cells cell hcell
      · exact he cell hcell
  | fill dest len =>
      refine ⟨by simpa [Display.perform, VideoMemory.fill] using h.blank, ?_⟩
      intro cell hcell
      rcases VideoMemory.mem_fill hcell with hcell | rfl
      · exact h.cells cell hcell
      · exact Cell.isCharacter_blank h.blank
  | copy src dest len =>
      refine ⟨by simpa [Display.perform] using h.blank, ?_⟩
      intro cell hcell
      rcases VideoMemory.mem_copy hcell with hcell | rfl
      · exact h.cells cell hcell
      · exact Cell.isCharacter_default
  | setBlank r => exact h.setBlank he
  | setRegister | ring => exact h

theorem performAll (h : d.Legible) {effects : Array Effect} (he : ∀ e ∈ effects, e.Legible) :
    (d.performAll effects).Legible :=
  performAll_induction (P := Display.Legible) (fun _ e he' h => h.perform (he e he')) h

end Display.Legible

namespace Console

variable {s : Surface} {c : Console} {d : Display}

/-- Whether a console has characters only in its queue, and proper renditions. -/
structure Legible (c : Console) : Prop where
  pen : c.pen.IsProper
  blank : c.blank.IsProper
  queue : ∀ cell ∈ c.queue, cell.IsCharacter

theorem legible_settle (h : c.Legible) (row col : Int) :
    ∀ e ∈ (c.settle s row col).effects, e.Legible := by
  simp only [effects_settle, Array.mem_append, Output.mem_ite]
  rintro e (⟨_, rfl⟩ | ⟨_, rfl⟩)
  · exact h.queue
  · trivial

theorem Legible.settle (h : c.Legible) (row col : Int) : (c.settle s row col).value.Legible :=
  ⟨h.pen, h.blank, by simp⟩

theorem legible_scroll (h : c.Legible) (dir : Direction) :
    ∀ e ∈ (c.scroll s dir).effects, e.Legible := by
  simp only [effects_scroll, scrollEffects, moveKeptRows_eq, Array.mem_append, Output.mem_ite,
    List.mem_toArray, List.mem_singleton]
  rintro e ((he | ((⟨_, rfl⟩ | rfl) | ⟨_, rfl⟩)) | he)
  · exact legible_settle h _ _ e he
  · trivial
  · trivial
  · trivial
  · have hflushed : (c.flushed s).Legible := h.settle _ _
    have hmoved : ({ c.flushed s with origin := c.nextOrigin s dir } : Console).Legible :=
      ⟨hflushed.pen, hflushed.blank, hflushed.queue⟩
    exact legible_settle hmoved _ _ e he

/-- An edit moves cells and blanks cells. -/
theorem legible_patch {command : Command} {row col : Nat} {p : Patch}
    (h : p ∈ command.patches s row col) : (p.effect c.origin).Legible := by
  cases p with
  | store offset run =>
      cases command with
      | eraseInDisplay mode | eraseInLine mode => cases mode <;> simp [Command.patches] at h
      | _ => simp [Command.patches] at h
  | fill | copy => trivial

/-- **A step brings characters only.** -/
theorem Step.legible {y : Output Console} (h : Step s c y) (hd : c.Drawn s d) (hc : c.Legible) :
    y.value.Legible ∧ ∀ e ∈ y.effects, e.Legible := by
  have hwindow := hd.placed.origin_within
  cases h with
  | place hcol hroom hescape hcode =>
      refine ⟨⟨hc.pen, hc.blank, ?_⟩, by simp⟩
      simp only [Output.value_pure, queue_place, List.mem_append, List.mem_singleton]
      rintro cell (hcell | rfl)
      · exact hc.queue cell hcell
      · rwa [Cell.IsCharacter, Cell.code_ofCode hc.pen]
  | settle row col => exact ⟨hc.settle row col, legible_settle hc row col⟩
  | scroll dir => exact ⟨⟨hc.pen, hc.blank, by simp⟩, legible_scroll hc dir⟩
  | edit hqueue hedit =>
      rw [perform_edit hedit (hd.placed.cursorAddr_of_queue_eq_nil hqueue)]
      refine ⟨hc, ?_⟩
      simp only [List.mem_toArray, List.mem_map]
      rintro e ⟨p, hp, rfl⟩
      exact legible_patch hp
  | recolor change hqueue =>
      have hblank := change.isProper_blank hc.blank
      rw [value_changeRendition, effects_changeRendition]
      refine ⟨⟨change.isProper_pen s.kind hc.blank hc.pen, hblank, hc.queue⟩, ?_⟩
      cases hchange : change.blank? c.blank with
      | none => simp
      | some blank =>
          rw [hchange] at hblank
          simpa [Effect.Legible] using hblank
  | ring => exact ⟨hc, by simp [Effect.Legible]⟩
  | collect escape => exact ⟨⟨hc.pen, hc.blank, hc.queue⟩, by simp⟩
  | acknowledge => exact ⟨⟨hc.pen, hc.blank, hc.queue⟩, by simp⟩
  | home =>
      have hmoved : ({ c with origin := c.region.start } : Console).Legible :=
        ⟨hc.pen, hc.blank, hc.queue⟩
      rw [value_goHome hd.holds hwindow, effects_goHome hd.holds hwindow]
      refine ⟨hmoved.settle _ _, ?_⟩
      simp only [Array.mem_append, Output.mem_ite]
      rintro e (⟨_, rfl⟩ | he)
      · trivial
      · exact legible_settle hmoved _ _ e he
  | point => exact ⟨hc, by simp [Effect.Legible]⟩
  | clear => exact ⟨hc, by simp [Effect.Legible]⟩

/-- **A row of steps leaves characters only**, in the queue and on the display. -/
theorem Steps.legible {y : Output Console} (h : Steps s c y) (hd : c.Drawn s d) (hc : c.Legible)
    (hcells : d.Legible) : y.value.Legible ∧ (d.performAll y.effects).Legible := by
  -- What a fill brings depends on the blanks of the display, so both are followed together.
  have hboth := h.induction (P := fun c d => c.Drawn s d ∧ c.Legible ∧ d.Legible)
    (fun hstep hP => by
      obtain ⟨hd, hc, hcells⟩ := hP
      obtain ⟨hvalue, heffects⟩ := hstep.legible hd hc
      exact ⟨hstep.drawn hd, hvalue, hcells.performAll heffects⟩) ⟨hd, hc, hcells⟩
  exact hboth.2

end Console

/-! ## Seats -/

namespace Seat

variable {s s' : Seat} {config : Config}

/-- Whether all that a seat holds are characters. -/
structure Legible (s : Seat) : Prop where
  console : ∀ {id : Nat} {c : Console}, s.consoles[id]? = some c → c.Legible
  display : ∀ {k : Nat} {d : Display}, s.displays[k]? = some d → d.Legible

theorem Legible.run (h : s.Legible) (hs : s.Sound) {f : Surface → Console → Output Console}
    (hf : Console.Stepwise f) (id : Nat) : (s.run id f).Legible := by
  cases hc : s.consoles[id]? with
  | none => rwa [run_of_none hc]
  | some c =>
      have hdisplay := hs.getElem?_display hc
      obtain ⟨hvalue, hperformed⟩ := (hf (hs.holds hc) (hs.placed hc)).legible (hs.drawn hc)
        (h.console hc) ((h.display hdisplay).setBlank (h.console hc).blank)
      refine ⟨?_, ?_⟩
      · intro j c' hc'
        by_cases hj : id = j
        · subst hj
          rw [consoles_run_self hc] at hc'
          obtain rfl := Option.some.inj hc'
          exact hvalue
        · rw [consoles_run_of_ne hj] at hc'
          exact h.console hc'
      · intro k d hd
        rw [displays_run hc] at hd
        split at hd
        · rename_i hk
          rw [← hk, hdisplay] at hd
          obtain rfl := Option.some.inj hd
          exact hperformed
        · exact h.display hd

theorem Legible.resetFirst (h : s.Legible) : s.resetFirst.Legible := by
  refine ⟨?_, ?_⟩
  · intro id c hc
    rw [consoles_resetFirst] at hc
    split at hc
    · obtain ⟨before, hbefore, rfl⟩ := Option.map_eq_some_iff.mp hc
      exact ⟨Rendition.isProper_normal, Rendition.isProper_normal, (h.console hbefore).queue⟩
    · exact h.console hc
  · intro k d hd
    rw [displays_resetFirst] at hd
    split at hd
    · obtain ⟨before, hbefore, rfl⟩ := Option.map_eq_some_iff.mp hd
      exact (h.display hbefore).setBlank Rendition.isProper_normal
    · exact h.display hd

theorem Move.legible (h : Move s s') (hs : s.Sound) (hl : s.Legible) : s'.Legible := by
  cases h with
  | run id hf => exact hl.run hs hf id
  | reset => exact hl.resetFirst
  | refocus | switch | enter => exact ⟨hl.console, hl.display⟩

theorem Moves.legible (h : Moves s s') (hs : s.Sound) (hl : s.Legible) : s'.Legible := by
  induction h with
  | refl => exact hl
  | tail hmoves hmove ih => exact hmove.legible (Moves.sound hmoves hs) ih

/-- New displays hold blanks, and the queues of new consoles are empty. -/
theorem legible_ofRegions {regions : List Region} : (ofRegions config regions).Legible := by
  refine ⟨?_, ?_⟩
  · intro id c hc
    rw [consoles_ofRegions] at hc
    obtain ⟨r, _, rfl⟩ := Option.map_eq_some_iff.mp hc
    exact ⟨Rendition.isProper_normal, Rendition.isProper_normal, by simp⟩
  · intro k d hd
    rw [displays_ofRegions] at hd
    obtain ⟨config, _, rfl⟩ := Option.map_eq_some_iff.mp hd
    refine ⟨Rendition.isProper_normal, ?_⟩
    intro cell hcell
    rw [Array.eq_of_mem_replicate hcell]
    exact Cell.isCharacter_default

/-- **Reached seats hold characters only.** -/
theorem Reached.legible (h : Reached config s) : s.Legible := by
  obtain ⟨regions, hvalid, hlayout, hmoves⟩ := h.moves
  exact Moves.legible hmoves (sound_ofRegions hvalid hlayout) legible_ofRegions

/-- What is visible are characters. -/
theorem Legible.rows (h : s.Legible) (hs : s.Sound) {id : Nat} {rows : List (List Cell)}
    (hrows : s.rows? id = some rows) : ∀ row ∈ rows, ∀ cell ∈ row, cell.IsCharacter := by
  obtain ⟨c, hc, rfl⟩ := Option.map_eq_some_iff.mp hrows
  intro row hrow cell hcell
  obtain ⟨i, _, rfl⟩ := List.mem_map.mp hrow
  rcases VideoMemory.mem_read hcell with hcell | rfl
  · exact (h.display (hs.getElem?_display hc)).cells cell hcell
  · exact Cell.isCharacter_default

end Seat

/-! ## Characters of a screen -/

/-- A byte is the code point of its character. -/
theorem toNat_char_eq (byte : UInt8) : (Char.ofNat byte.toNat).toNat = byte.toNat := by
  have hlt := byte.toNat_lt
  rw [Char.ofNat, dif_pos (Or.inl (by omega))]
  rfl

/-- No character of a screen ends a line. -/
theorem Cell.IsCharacter.char_ne {cell : Cell} (h : cell.IsCharacter) : cell.char ≠ '\n' := by
  intro hchar
  have hcode : cell.code.toNat = 0x0A := by
    rw [← toNat_char_eq]
    exact congrArg Char.toNat hchar
  rw [Cell.IsCharacter, ControlCode.ofByte?, hcode] at h
  cases h

end TextConsole
